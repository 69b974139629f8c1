import Mathlib.Data.List.Perm.Basic
import TagSearch.Proofs.Search.Meaning
import TagSearch.Proofs.Signed
import TagSearch.Proofs.Store.Integrity
import TagSearch.Store.Answer

/-! The order in which the linking tables hold their rows. No answer depends on it: conditions ask what the tables
contain, and what is listed is put in an order that leaves no two rows equal. -/
namespace TagSearch
open Sql

section Lists

variable {α : Type} {entries others : List α}

lemma firstOfKey_id_perm [DecidableEq α] (h : entries.Perm others) :
    (firstOfKey id entries).Perm (firstOfKey id others) := by
  rw [List.perm_ext_iff_of_nodup (firstOfKey_id_nodup _) (firstOfKey_id_nodup _)]
  intro a
  rw [mem_firstOfKey_id, mem_firstOfKey_id, h.mem_iff]

/-- Where the order tells all entries apart, they are sorted in one way. -/
lemma mergeSort_eq_of_perm {le : α → α → Bool} (htrans : ∀ a b c, le a b = true → le b c = true → le a c = true)
    (htotal : ∀ a b, (le a b || le b a) = true)
    (hantisymm : ∀ a ∈ entries, ∀ b ∈ entries, le a b = true → le b a = true → a = b) (h : entries.Perm others) :
    entries.mergeSort le = others.mergeSort le := by
  have hleft := List.mergeSort_perm entries le
  have hright := List.mergeSort_perm others le
  refine List.Perm.eq_of_pairwise ?_ (List.pairwise_mergeSort htrans htotal _)
    (List.pairwise_mergeSort htrans htotal _) (hleft.trans (h.trans hright.symm))
  intro a b ha hb
  exact hantisymm a (hleft.mem_iff.mp ha) b (h.mem_iff.mpr (hright.mem_iff.mp hb))

/-- A choice of one entry at most does not depend on the order. -/
lemma filter_eq_of_perm {p : α → Bool} (h : entries.Perm others)
    (hunique : (entries.filter p).Pairwise fun _ _ => False) : entries.filter p = others.filter p := by
  have hperm := h.filter p
  cases hchosen : entries.filter p with
  | nil =>
    rw [hchosen] at hperm
    exact hperm.nil_eq
  | cons a rest =>
    rw [hchosen] at hperm hunique
    obtain rfl : rest = [] := List.eq_nil_iff_forall_not_mem.mpr (List.pairwise_cons.mp hunique).1
    exact (List.singleton_perm.mp hperm)

end Lists

namespace Store

lemma lighterFirst_iff {a b : Member} : lighterFirst a b = true ↔ a.weight.toInt < b.weight.toInt ∨
    a.weight.toInt = b.weight.toInt ∧ a.image.toInt64.toInt ≤ b.image.toInt64.toInt := by
  simp [lighterFirst, Int64.lt_iff_toInt_lt, Int64.le_iff_toInt_le, Int64.toInt_inj]

lemma lighterFirst_trans (a b c : Member) (hab : lighterFirst a b = true) (hbc : lighterFirst b c = true) :
    lighterFirst a c = true := by
  rw [lighterFirst_iff] at hab hbc ⊢
  omega

lemma lighterFirst_total (a b : Member) : (lighterFirst a b || lighterFirst b a) = true := by
  rw [Bool.or_eq_true, lighterFirst_iff, lighterFirst_iff]
  omega

/-- Two catalogs with the same rows. Their linking tables may hold them in different orders. -/
structure SameRows (s t : Store) : Prop where
  users : s.users = t.users
  tags : s.tags = t.tags
  images : s.images = t.images
  collections : s.collections = t.collections
  links : s.links.Perm t.links
  members : s.members.Perm t.members
  hashes : s.hashes.Perm t.hashes

namespace SameRows

variable {s t : Store}

lemma associations (h : s.SameRows t) (kind : Kind) : (s.associations kind).Perm (t.associations kind) := by
  cases kind with
  | image => exact h.links.map _
  | collection =>
    apply firstOfKey_id_perm
    refine (h.members.flatMap_right _).trans (List.Perm.flatMap_left _ fun m _ => ?_)
    exact (h.links.filter _).map _

lemma associationsWith (h : s.SameRows t) (kind : Kind) (tags : List Int64) :
    (s.associationsWith kind tags).Perm (t.associationsWith kind tags) :=
  (h.associations kind).filter _

lemma distinctTags_eq {found others : List (Int64 × Int64)} (h : found.Perm others) (owner : Int64) :
    distinctTags owner found = distinctTags owner others :=
  (firstOfKey_id_perm ((h.filter _).map _)).length_eq

lemma owners (h : s.SameRows t) (o : Owners) : (s.owners o).Perm (t.owners o) := by
  cases o with
  | carryingAny kind tags => exact (h.associationsWith kind tags).map _
  | carryingEvery kind tags =>
    have hfound := h.associationsWith kind tags
    simp only [Store.owners, distinctTags_eq hfound]
    exact (firstOfKey_id_perm (hfound.map _)).filter _
  | collected => exact h.members.map _

/-- Conditions hold of the same rows. -/
theorem holds_eq (h : s.SameRows t) : s.holds = t.holds := by
  funext row c
  cases c with
  | isIn o => exact (h.owners o).contains_eq
  | isNotIn o => exact congrArg not (h.owners o).contains_eq
  | compare column comparator value escaped => rfl
  | tagCount comparator value => simp only [holds, linkCount, h.links.countP_eq]

lemma satisfies_eq (h : s.SameRows t) : s.satisfies = t.satisfies := by
  funext clause row
  simp only [satisfies, h.holds_eq]

lemma rows_eq (h : s.SameRows t) : s.rows = t.rows := by
  funext kind
  simp only [rows, h.images, h.collections]

lemma matching_eq (h : s.SameRows t) : s.matching = t.matching := by
  funext kind clause
  rw [matching, matching, h.rows_eq, h.satisfies_eq]

lemma hashes_filter_eq (h : s.SameRows t) (hs : s.Consistent) {p : StoredHash → Bool} (image : UInt64)
    (hp : ∀ x, p x = true → x.image = image) : s.hashes.filter p = t.hashes.filter p := by
  refine filter_eq_of_perm h.hashes ((hs.hashes.filter _).imp_of_mem ?_)
  intro a b ha hb hlt
  rw [StoredHash.key, StoredHash.key, hp a (List.mem_filter.mp ha).2, hp b (List.mem_filter.mp hb).2] at hlt
  exact Nat.lt_irrefl _ hlt

lemma joinHashes_eq (h : s.SameRows t) (hs : s.Consistent) : s.joinHashes = t.joinHashes := by
  funext row
  have hfound : (s.hashes.filter fun x => x.image.toInt64 = row.id) =
      t.hashes.filter fun x => x.image.toInt64 = row.id := by
    refine h.hashes_filter_eq hs row.id.toUInt64 fun x hx => ?_
    rw [← of_decide_eq_true hx, UInt64.toUInt64_toInt64]
  rw [joinHashes, joinHashes, hfound]

lemma imageHashes_eq (h : s.SameRows t) (hs : s.Consistent) : s.imageHashes? = t.imageHashes? := by
  funext image
  have hfound : (s.hashes.filter fun x => x.image = image) = t.hashes.filter fun x => x.image = image :=
    h.hashes_filter_eq hs image fun x hx => of_decide_eq_true hx
  rw [imageHashes?, imageHashes?, ← List.head?_filter, ← List.head?_filter, hfound]

lemma imagesWithoutHashes_eq (h : s.SameRows t) : s.imagesWithoutHashes = t.imagesWithoutHashes := by
  simp only [imagesWithoutHashes, h.images, h.hashes.any_eq]

lemma ordered_eq (h : s.SameRows t) (hs : s.Consistent) : s.ordered = t.ordered := by
  funext kind clause nearest
  cases nearest with
  | none => rw [ordered, ordered, h.matching_eq]
  | some target => rw [ordered, ordered, h.matching_eq, h.joinHashes_eq hs]

lemma select_eq (h : s.SameRows t) (hs : s.Consistent) : s.select = t.select := by
  funext statement
  cases statement with
  | count kind clause => rfl
  | page kind clause nearest limit offset => rw [select, select, h.ordered_eq hs]
  | adjacent kind clause pivot direction => cases direction <;> rw [select, select, h.matching_eq]

lemma count_eq (h : s.SameRows t) : s.count = t.count := by
  funext statement
  simp only [count, h.matching_eq]

lemma imageSummary_eq (h : s.SameRows t) : s.imageSummary? = t.imageSummary? := by
  funext id
  rw [imageSummary?, imageSummary?, h.images]

/-- The members of a collection are put in an order that tells them apart. -/
lemma sorted_membersOf_eq (h : s.SameRows t) (hs : s.Consistent) (collection : UInt64) :
    (s.membersOf collection).mergeSort lighterFirst = (t.membersOf collection).mergeSort lighterFirst := by
  refine mergeSort_eq_of_perm lighterFirst_trans lighterFirst_total ?_ (h.members.filter _)
  intro a ha b hb hab hba
  obtain ⟨ha, hca⟩ := List.mem_filter.mp ha
  obtain ⟨hb, hcb⟩ := List.mem_filter.mp hb
  rw [lighterFirst_iff] at hab hba
  have himage : a.image.toInt64.toInt = b.image.toInt64.toInt := by omega
  apply hs.members.eq_of_key_eq ha hb
  rw [Member.key, Member.key, pairKey_inj, of_decide_eq_true hca, of_decide_eq_true hcb]
  exact ⟨rfl, toInt64_inj.mp (Int64.toInt_inj.mp himage)⟩

lemma collectionSummary_eq (h : s.SameRows t) (hs : s.Consistent) : s.collectionSummary? = t.collectionSummary? := by
  funext id
  have hlength : (s.membersOf id).length = (t.membersOf id).length := (h.members.filter _).length_eq
  have hlocations : s.memberLocations id = t.memberLocations id := by
    rw [memberLocations, memberLocations, h.sorted_membersOf_eq hs, h.images]
  rw [collectionSummary?, collectionSummary?, h.collections, hlocations, hlength]

lemma reachesLongPattern_eq (h : s.SameRows t) (row : Row) (conditions : List Condition) :
    s.reachesLongPattern row conditions = t.reachesLongPattern row conditions := by
  induction conditions with
  | nil => rfl
  | cons c rest ih => rw [reachesLongPattern, reachesLongPattern, h.holds_eq, ih]

lemma meetsLongPattern_eq (h : s.SameRows t) : s.meetsLongPattern = t.meetsLongPattern := by
  funext statement
  simp only [meetsLongPattern, h.rows_eq, h.reachesLongPattern_eq]

/-- Catalogs with the same rows answer alike. -/
theorem source_eq (h : s.SameRows t) (hs : s.Consistent) :
    (Database.ready s).source = (Database.ready t).source := by
  simp only [Engine.source, Engine.execute, Engine.standard, Database.findTags, Database.answer, h.tags, h.images,
    userIdByName, userFilter?, h.users, h.imageHashes_eq hs, h.count_eq, h.select_eq hs, h.imageSummary_eq,
    h.collectionSummary_eq hs, h.meetsLongPattern_eq]

end SameRows
end Store
end TagSearch
