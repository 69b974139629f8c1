import Mathlib.Algebra.Group.Nat.Defs
import Mathlib.Data.List.Nodup
import Mathlib.Tactic.Lemma
import TagSearch.Store.Change

/-! The integrity of a catalog. Ids count from 1, names that must be unique are, links refer to rows that exist,
and tables with a primary key are ordered by it. Every change keeps this, so every reachable catalog has it. -/
namespace TagSearch

/-- The ids of a table in the order of creation: 1, 2, 3 and so on, all of them positive as signed integers. -/
structure Numbered (ids : List UInt64) : Prop where
  eq_range : ids = (List.range ids.length).map fun n => UInt64.ofNat (n + 1)
  length_lt : ids.length < 2 ^ 63

namespace Numbered

variable {ids : List UInt64}

lemma toNat_ofNat_succ {n : ℕ} (h : n + 1 < 2 ^ 64) : (UInt64.ofNat (n + 1)).toNat = n + 1 :=
  UInt64.toNat_ofNat_of_lt' h

lemma nil : Numbered [] := ⟨rfl, by decide⟩

lemma mem_iff (h : Numbered ids) (id : UInt64) : id ∈ ids ↔ 1 ≤ id.toNat ∧ id.toNat ≤ ids.length := by
  have hlt := h.length_lt
  rw [h.eq_range, List.mem_map]
  simp only [List.mem_range, List.length_map, List.length_range]
  constructor
  · rintro ⟨n, hn, rfl⟩
    rw [toNat_ofNat_succ (by omega)]
    omega
  · rintro ⟨h1, h2⟩
    refine ⟨id.toNat - 1, by omega, ?_⟩
    rw [Nat.sub_add_cancel h1, UInt64.ofNat_toNat]

lemma toNat_lt (h : Numbered ids) {id : UInt64} (hid : id ∈ ids) : id.toNat < 2 ^ 63 := by
  have := ((h.mem_iff id).mp hid).2
  have := h.length_lt
  omega

lemma ne_zero (h : Numbered ids) {id : UInt64} (hid : id ∈ ids) : id ≠ 0 := by
  rintro rfl
  have := ((h.mem_iff 0).mp hid).1
  simp at this

lemma pairwise (h : Numbered ids) : ids.Pairwise fun a b => a.toNat < b.toNat := by
  have hlt := h.length_lt
  rw [h.eq_range, List.pairwise_map]
  refine List.Pairwise.imp_of_mem ?_ List.pairwise_lt_range
  intro a b ha hb hab
  have ha' := List.mem_range.mp ha
  have hb' := List.mem_range.mp hb
  rw [toNat_ofNat_succ (by omega), toNat_ofNat_succ (by omega)]
  omega

lemma nodup (h : Numbered ids) : ids.Nodup :=
  h.pairwise.imp fun hab e => by subst e; exact Nat.lt_irrefl _ hab

lemma map_toNat (h : Numbered ids) : ids.map UInt64.toNat = List.range' 1 ids.length := by
  have hlt := h.length_lt
  rw [List.range'_eq_map_range]
  conv_lhs => rw [h.eq_range, List.map_map]
  refine List.map_congr_left fun n hn => ?_
  have hn' := List.mem_range.mp hn
  rw [Function.comp_apply, toNat_ofNat_succ (by omega), Nat.add_comm]

/-- The next id continues the numbers. -/
lemma concat (h : Numbered ids) (room : ids.length < 2 ^ 63 - 1) :
    Numbered (ids ++ [UInt64.ofNat (ids.length + 1)]) := by
  constructor
  · rw [List.length_append, List.length_singleton, List.range_succ, List.map_append, ← h.eq_range]
    rfl
  · rw [List.length_append, List.length_singleton]
    omega

end Numbered

namespace Store
open Sql (Fault)

/-- What holds of the tables of every catalog. -/
structure Consistent (s : Store) : Prop where
  userIds : Numbered (s.users.map User.id)
  tagIds : Numbered (s.tags.map Tag.id)
  imageIds : Numbered (s.images.map Image.id)
  collectionIds : Numbered (s.collections.map Collection.id)
  userNames : (s.users.map User.name).Nodup
  tagNames : (s.tags.map Tag.name).Nodup
  collectionNames : (s.collections.map Collection.name).Nodup
  links : Ordered.IsOrdered TagLink.key s.links
  linkedImage : ∀ l ∈ s.links, l.image ∈ s.images.map Image.id
  linkedTag : ∀ l ∈ s.links, l.tag ∈ s.tags.map Tag.id
  members : Ordered.IsOrdered Member.key s.members
  memberCollection : ∀ m ∈ s.members, m.collection ∈ s.collections.map Collection.id
  memberImage : ∀ m ∈ s.members, m.image ∈ s.images.map Image.id
  hashes : Ordered.IsOrdered StoredHash.key s.hashes
  hashedImage : ∀ h ∈ s.hashes, h.image ∈ s.images.map Image.id

lemma consistent_empty : Consistent empty where
  userIds := .nil
  tagIds := .nil
  imageIds := .nil
  collectionIds := .nil
  userNames := List.nodup_nil
  tagNames := List.nodup_nil
  collectionNames := List.nodup_nil
  links := List.Pairwise.nil
  linkedImage := by simp [empty]
  linkedTag := by simp [empty]
  members := List.Pairwise.nil
  memberCollection := by simp [empty]
  memberImage := by simp [empty]
  hashes := List.Pairwise.nil
  hashedImage := by simp [empty]

/-- Rows that a column tells apart are found by it. -/
lemma find?_of_mem {α κ : Type} [DecidableEq κ] {column : α → κ} {rows : List α} {row : α}
    (h : (rows.map column).Nodup) (hrow : row ∈ rows) : (rows.find? fun r => column r = column row) = some row := by
  have hsome : (rows.find? fun r => column r = column row).isSome = true :=
    List.find?_isSome.mpr ⟨row, hrow, decide_eq_true rfl⟩
  obtain ⟨r, hr⟩ := Option.isSome_iff_exists.mp hsome
  have heq := List.find?_some hr
  rw [decide_eq_true_eq] at heq
  rw [hr, List.inj_on_of_nodup_map h (List.mem_of_find?_eq_some hr) hrow heq]

/-- The first entry of a sorted list stands before all others. -/
lemma le_of_sorted {α : Type} {le : α → α → Bool} {a b : α} {rest : List α}
    (htotal : ∀ a b, (le a b || le b a) = true) (h : (a :: rest).Pairwise fun a b => le a b = true)
    (hb : b ∈ a :: rest) : le a b = true := by
  rcases List.mem_cons.mp hb with rfl | hrest
  · exact (Bool.or_self _).symm.trans (htotal b b)
  · exact (List.pairwise_cons.mp h).1 b hrest

variable {s t : Store}

lemma hasImage_iff {image : UInt64} : s.hasImage image = true ↔ image ∈ s.images.map Image.id := by
  simp [hasImage]

lemma hasTag_iff {tag : UInt64} : s.hasTag tag = true ↔ tag ∈ s.tags.map Tag.id := by
  simp [hasTag]

lemma hasCollection_iff {collection : UInt64} :
    s.hasCollection collection = true ↔ collection ∈ s.collections.map Collection.id := by
  simp [hasCollection]

lemma nextId_eq_ok {rows : Nat} {id : UInt64} :
    nextId rows = .ok id ↔ rows < 2 ^ 63 - 1 ∧ id = UInt64.ofNat (rows + 1) := by
  unfold nextId
  by_cases h : rows + 1 < 1 <<< 63
  · rw [if_pos h, Except.ok.injEq, eq_comm]
    exact (and_iff_right (by omega)).symm
  · rw [if_neg h]
    constructor
    · intro hid
      cases hid
    · rintro ⟨room, _⟩
      exact absurd room (by omega)

/-- A column that a change does not touch stays as it is. -/
lemma map_alter {α β : Type} (id : α → UInt64) (k : UInt64) (f : α → α) (column : α → β)
    (hf : ∀ row, column (f row) = column row) (rows : List α) :
    (alter id k f rows).map column = rows.map column := by
  rw [alter, List.map_map]
  refine List.map_congr_left fun row _ => ?_
  rw [Function.comp_apply]
  split
  · exact hf row
  · rfl

lemma createUser_eq_ok {name : String} {id : UInt64} (h : s.createUser name = .ok (t, id)) :
    s.users.length < 2 ^ 63 - 1 ∧ name ∉ s.users.map User.name ∧ id = UInt64.ofNat (s.users.length + 1) ∧
      t = { s with users := s.users ++ [⟨id, name, ""⟩] } := by
  unfold createUser at h
  cases hn : nextId s.users.length with
  | error e => rw [hn] at h; cases h
  | ok next =>
    rw [hn] at h
    obtain ⟨room, rfl⟩ := nextId_eq_ok.mp hn
    simp only [bind, Except.bind] at h
    split at h
    · cases h
    · rename_i hname
      cases h
      refine ⟨room, ?_, rfl, rfl⟩
      simpa using hname

lemma createTag_eq_ok {name description : String} {uploader : UInt64} {uploaded : Option Timestamp} {id : UInt64}
    (h : s.createTag name description uploader uploaded = .ok (t, id)) :
    s.tags.length < 2 ^ 63 - 1 ∧ name ∉ s.tags.map Tag.name ∧ id = UInt64.ofNat (s.tags.length + 1) ∧
      t = { s with tags := s.tags ++ [⟨id, name, description, uploader, uploaded, 0, false⟩] } := by
  unfold createTag at h
  cases hn : nextId s.tags.length with
  | error e => rw [hn] at h; cases h
  | ok next =>
    rw [hn] at h
    obtain ⟨room, rfl⟩ := nextId_eq_ok.mp hn
    simp only [bind, Except.bind] at h
    split at h
    · cases h
    · rename_i hname
      cases h
      refine ⟨room, ?_, rfl, rfl⟩
      simpa using hname

lemma createImage_eq_ok {name location : String} {uploader id : UInt64}
    (h : s.createImage name location uploader = .ok (t, id)) :
    s.images.length < 2 ^ 63 - 1 ∧ id = UInt64.ofNat (s.images.length + 1) ∧
      t = { s with images := s.images ++ [⟨id, name, location, uploader, "unrated", 0, 0, 0⟩] } := by
  unfold createImage at h
  cases hn : nextId s.images.length with
  | error e => rw [hn] at h; cases h
  | ok next =>
    rw [hn] at h
    obtain ⟨room, rfl⟩ := nextId_eq_ok.mp hn
    cases h
    exact ⟨room, rfl, rfl⟩

lemma createCollection_eq_ok {name description : String} {uploader id : UInt64}
    (h : s.createCollection name description uploader = .ok (t, id)) :
    s.collections.length < 2 ^ 63 - 1 ∧ name ∉ s.collections.map Collection.name ∧
      id = UInt64.ofNat (s.collections.length + 1) ∧
      t = { s with collections := s.collections ++ [⟨id, name, description, uploader⟩] } := by
  unfold createCollection at h
  cases hn : nextId s.collections.length with
  | error e => rw [hn] at h; cases h
  | ok next =>
    rw [hn] at h
    obtain ⟨room, rfl⟩ := nextId_eq_ok.mp hn
    simp only [bind, Except.bind] at h
    split at h
    · cases h
    · rename_i hname
      cases h
      refine ⟨room, ?_, rfl, rfl⟩
      simpa using hname

lemma tagImage_eq_ok {image tag : UInt64} (h : s.tagImage image tag = .ok t) :
    image ∈ s.images.map Image.id ∧ tag ∈ s.tags.map Tag.id ∧
      t = { s with links := Ordered.add TagLink.key ⟨image, tag⟩ s.links } := by
  unfold tagImage at h
  split at h
  · rename_i hrefs
    rw [Bool.and_eq_true] at hrefs
    cases h
    exact ⟨hasImage_iff.mp hrefs.1, hasTag_iff.mp hrefs.2, rfl⟩
  · cases h

lemma setImageHashes_eq_ok {image : UInt64} {pair : HashPair} (h : s.setImageHashes image pair = .ok t) :
    image ∈ s.images.map Image.id ∧
      t = { s with hashes := Ordered.put StoredHash.key ⟨image, pair⟩ s.hashes } := by
  unfold setImageHashes at h
  split at h
  · rename_i href
    cases h
    exact ⟨hasImage_iff.mp href, rfl⟩
  · cases h

lemma addMember_eq_ok {collection image : UInt64} {weight : Int64}
    (h : s.addMember collection image weight = .ok t) :
    collection ∈ s.collections.map Collection.id ∧ image ∈ s.images.map Image.id ∧
      t = { s with members := Ordered.put Member.key ⟨collection, image, weight⟩ s.members } := by
  unfold addMember at h
  split at h
  · rename_i hrefs
    rw [Bool.and_eq_true] at hrefs
    cases h
    exact ⟨hasCollection_iff.mp hrefs.1, hasImage_iff.mp hrefs.2, rfl⟩
  · cases h

lemma mem_map_append {α : Type} {id : α → UInt64} {k : UInt64} {rows : List α} (row : α)
    (h : k ∈ rows.map id) : k ∈ (rows ++ [row]).map id := by
  rw [List.map_append]
  exact List.mem_append_left _ h

/-- A name that does not occur yet keeps the names distinct. -/
lemma nodup_map_concat {α : Type} {name : α → String} {rows : List α} {row : α}
    (h : (rows.map name).Nodup) (fresh : name row ∉ rows.map name) : ((rows ++ [row]).map name).Nodup := by
  rw [List.map_append]
  refine h.append (List.nodup_singleton _) ?_
  rw [List.disjoint_comm]
  simpa using fresh

/-- A row with the next id keeps the ids numbered. -/
lemma numbered_map_concat {α : Type} {id : α → UInt64} {rows : List α} {row : α}
    (h : Numbered (rows.map id)) (room : rows.length < 2 ^ 63 - 1)
    (hrow : id row = UInt64.ofNat (rows.length + 1)) : Numbered ((rows ++ [row]).map id) := by
  rw [List.map_append, List.map_singleton, hrow, ← List.length_map id]
  exact h.concat (by rwa [List.length_map])

namespace Consistent

lemma createUser {name : String} {id : UInt64} (h : s.Consistent) (accepted : s.createUser name = .ok (t, id)) :
    t.Consistent := by
  obtain ⟨room, fresh, rfl, rfl⟩ := createUser_eq_ok accepted
  exact { h with
    userIds := numbered_map_concat h.userIds room rfl
    userNames := nodup_map_concat h.userNames fresh }

lemma createTag {name description : String} {uploader : UInt64} {uploaded : Option Timestamp} {id : UInt64}
    (h : s.Consistent) (accepted : s.createTag name description uploader uploaded = .ok (t, id)) :
    t.Consistent := by
  obtain ⟨room, fresh, rfl, rfl⟩ := createTag_eq_ok accepted
  exact { h with
    tagIds := numbered_map_concat h.tagIds room rfl
    tagNames := nodup_map_concat h.tagNames fresh
    linkedTag := fun l hl => mem_map_append _ (h.linkedTag l hl) }

lemma createImage {name location : String} {uploader id : UInt64} (h : s.Consistent)
    (accepted : s.createImage name location uploader = .ok (t, id)) : t.Consistent := by
  obtain ⟨room, rfl, rfl⟩ := createImage_eq_ok accepted
  exact { h with
    imageIds := numbered_map_concat h.imageIds room rfl
    linkedImage := fun l hl => mem_map_append _ (h.linkedImage l hl)
    memberImage := fun m hm => mem_map_append _ (h.memberImage m hm)
    hashedImage := fun x hx => mem_map_append _ (h.hashedImage x hx) }

lemma createCollection {name description : String} {uploader id : UInt64} (h : s.Consistent)
    (accepted : s.createCollection name description uploader = .ok (t, id)) : t.Consistent := by
  obtain ⟨room, fresh, rfl, rfl⟩ := createCollection_eq_ok accepted
  exact { h with
    collectionIds := numbered_map_concat h.collectionIds room rfl
    collectionNames := nodup_map_concat h.collectionNames fresh
    memberCollection := fun m hm => mem_map_append _ (h.memberCollection m hm) }

lemma tagImage {image tag : UInt64} (h : s.Consistent) (accepted : s.tagImage image tag = .ok t) :
    t.Consistent := by
  obtain ⟨himage, htag, rfl⟩ := tagImage_eq_ok accepted
  refine { h with
    links := Ordered.isOrdered_add _ _ h.links
    linkedImage := fun l hl => ?_
    linkedTag := fun l hl => ?_ }
  · rcases Ordered.mem_of_mem_add _ hl with rfl | hl
    · exact himage
    · exact h.linkedImage l hl
  · rcases Ordered.mem_of_mem_add _ hl with rfl | hl
    · exact htag
    · exact h.linkedTag l hl

lemma setImageHashes {image : UInt64} {pair : HashPair} (h : s.Consistent)
    (accepted : s.setImageHashes image pair = .ok t) : t.Consistent := by
  obtain ⟨himage, rfl⟩ := setImageHashes_eq_ok accepted
  refine { h with
    hashes := Ordered.isOrdered_put _ _ h.hashes
    hashedImage := fun x hx => ?_ }
  rcases Ordered.mem_of_mem_put _ hx with rfl | hx
  · exact himage
  · exact h.hashedImage x hx

lemma addMember {collection image : UInt64} {weight : Int64} (h : s.Consistent)
    (accepted : s.addMember collection image weight = .ok t) : t.Consistent := by
  obtain ⟨hcollection, himage, rfl⟩ := addMember_eq_ok accepted
  refine { h with
    members := Ordered.isOrdered_put _ _ h.members
    memberCollection := fun m hm => ?_
    memberImage := fun m hm => ?_ }
  · rcases Ordered.mem_of_mem_put _ hm with rfl | hm
    · exact hcollection
    · exact h.memberCollection m hm
  · rcases Ordered.mem_of_mem_put _ hm with rfl | hm
    · exact himage
    · exact h.memberImage m hm

/-- A change of other columns of the users keeps their ids and names. -/
lemma alterUsers (h : s.Consistent) (user : UInt64) (f : User → User) (hid : ∀ x, (f x).id = x.id)
    (hname : ∀ x, (f x).name = x.name) : Consistent { s with users := alter User.id user f s.users } :=
  { h with
    userIds := by rw [map_alter _ _ _ _ hid]; exact h.userIds
    userNames := by rw [map_alter _ _ _ _ hname]; exact h.userNames }

/-- A change of other columns of the tags keeps their ids and names. -/
lemma alterTags (h : s.Consistent) (tag : UInt64) (f : Tag → Tag) (hid : ∀ x, (f x).id = x.id)
    (hname : ∀ x, (f x).name = x.name) : Consistent { s with tags := alter Tag.id tag f s.tags } :=
  { h with
    tagIds := by rw [map_alter _ _ _ _ hid]; exact h.tagIds
    tagNames := by rw [map_alter _ _ _ _ hname]; exact h.tagNames
    linkedTag := by rw [map_alter _ _ _ _ hid]; exact h.linkedTag }

/-- A change of other columns of the images keeps their ids. -/
lemma alterImages (h : s.Consistent) (image : UInt64) (f : Image → Image) (hid : ∀ x, (f x).id = x.id) :
    Consistent { s with images := alter Image.id image f s.images } :=
  { h with
    imageIds := by rw [map_alter _ _ _ _ hid]; exact h.imageIds
    linkedImage := by rw [map_alter _ _ _ _ hid]; exact h.linkedImage
    memberImage := by rw [map_alter _ _ _ _ hid]; exact h.memberImage
    hashedImage := by rw [map_alter _ _ _ _ hid]; exact h.hashedImage }

end Consistent

/-- Split a change that creates a row into the creation and the id it reports. -/
lemma map_some_eq_ok {x : Except Fault (Store × UInt64)} {created : Option UInt64}
    (h : (do return (← x).map id some) = .ok (t, created)) : ∃ id, x = .ok (t, id) ∧ created = some id := by
  cases x with
  | error e => cases h
  | ok y => cases h; exact ⟨y.2, rfl, rfl⟩

lemma pair_none_eq_ok {x : Except Fault Store} {created : Option UInt64}
    (h : (do return (← x, none)) = Except.ok (t, created)) : x = .ok t ∧ created = none := by
  cases x with
  | error e => cases h
  | ok y => cases h; exact ⟨rfl, rfl⟩

/-- One change keeps the integrity. -/
theorem Consistent.apply {change : Change} {created : Option UInt64} (h : s.Consistent)
    (accepted : s.apply change = .ok (t, created)) : t.Consistent := by
  cases change with
  | createUser name =>
    obtain ⟨id, hid, _⟩ := map_some_eq_ok accepted
    exact h.createUser hid
  | setUserFilter user filter =>
    cases accepted
    exact h.alterUsers user _ (fun _ => rfl) fun _ => rfl
  | createTag name description uploader uploaded =>
    obtain ⟨id, hid, _⟩ := map_some_eq_ok accepted
    exact h.createTag hid
  | setTagTime tag uploaded =>
    cases accepted
    exact h.alterTags tag _ (fun _ => rfl) fun _ => rfl
  | aliasTag tag target =>
    cases accepted
    exact h.alterTags tag _ (fun _ => rfl) fun _ => rfl
  | createImage name location uploader =>
    obtain ⟨id, hid, _⟩ := map_some_eq_ok accepted
    exact h.createImage hid
  | setImageRating image rating =>
    cases accepted
    exact h.alterImages image _ fun _ => rfl
  | setImageScores image average total voters =>
    cases accepted
    exact h.alterImages image _ fun _ => rfl
  | tagImage image tag => exact h.tagImage (pair_none_eq_ok accepted).1
  | setImageHashes image pair => exact h.setImageHashes (pair_none_eq_ok accepted).1
  | createCollection name description uploader =>
    obtain ⟨id, hid, _⟩ := map_some_eq_ok accepted
    exact h.createCollection hid
  | addMember collection image weight => exact h.addMember (pair_none_eq_ok accepted).1

/-- The catalogs that changes lead to from the empty one. A change that is refused leaves the catalog as it was. -/
inductive Reachable : Store → Prop
  | empty : Reachable empty
  | change {s t : Store} {change : Change} {created : Option UInt64} (before : Reachable s)
      (accepted : s.apply change = .ok (t, created)) : Reachable t

/-- Every run of changes keeps the integrity. -/
theorem Reachable.consistent (h : s.Reachable) : s.Consistent := by
  induction h with
  | empty => exact consistent_empty
  | change _ accepted ih => exact ih.apply accepted

/-- The catalog after changes in order, of which the refused ones leave no trace. -/
def run (s : Store) (changes : List Change) : Store :=
  changes.foldl (fun s change => match s.apply change with | .ok (t, _) => t | .error _ => s) s

theorem Reachable.run (h : s.Reachable) (changes : List Change) : (s.run changes).Reachable := by
  induction changes generalizing s with
  | nil => exact h
  | cons change rest ih =>
    rw [Store.run, List.foldl_cons]
    apply ih
    cases ha : s.apply change with
    | ok accepted => exact .change h ha
    | error fault => exact h

end Store
end TagSearch
