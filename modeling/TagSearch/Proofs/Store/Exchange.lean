import TagSearch.Proofs.Search.Found
import TagSearch.Proofs.Store.Arrangement
import TagSearch.Proofs.Store.History
import TagSearch.Query.Parse
import TagSearch.Search

/-! Changes that link images to tags, hashes and collections. If no two of them set the same row, they may be made in
any order, and searches answer alike. -/
namespace TagSearch

/-- A row that is set anew, whatever it held. -/
inductive SetRow
  | hashes (image : UInt64)
  | member (collection image : UInt64)
deriving Repr, DecidableEq

namespace Change

/-- The change writes a row that tells something of an image. -/
def isLinking : Change → Bool
  | tagImage .. | setImageHashes .. | addMember .. => true
  | _ => false

/-- The row that a linking change sets. To link a tag once more sets nothing. -/
def sets? : Change → Option SetRow
  | setImageHashes image _ => some (.hashes image)
  | addMember collection image _ => some (.member collection image)
  | _ => none

end Change

namespace Store

variable {s t : Store} {c d : Change} {writes others : List Change}

/-- The catalog with what a linking change writes. -/
def linked (s : Store) : Change → Store
  | .tagImage image tag => { s with links := Ordered.add TagLink.key ⟨image, tag⟩ s.links }
  | .setImageHashes image pair => { s with hashes := Ordered.put StoredHash.key ⟨image, pair⟩ s.hashes }
  | .addMember collection image weight =>
    { s with members := Ordered.put Member.key ⟨collection, image, weight⟩ s.members }
  | _ => s

/-- The catalog has all rows that a change refers to. -/
def HasReferences (s : Store) (c : Change) : Prop := ∀ row ∈ c.references, row.2 ∈ s.ids row.1

lemma hasReferences_linked : (s.linked d).HasReferences c ↔ s.HasReferences c := by
  have hids : (s.linked d).ids = s.ids := by
    funext table
    cases d <;> cases table <;> rfl
  rw [HasReferences, HasReferences, hids]

/-- A linking change is accepted when all that it refers to is there. -/
lemma apply_linking (h : c.isLinking = true) (hrefs : s.HasReferences c) : s.apply c = .ok (s.linked c, none) := by
  cases c with
  | tagImage image tag =>
    obtain ⟨himage, htag⟩ : image ∈ s.ids .images ∧ tag ∈ s.ids .tags := by
      simpa [HasReferences, Change.references] using hrefs
    rw [apply, tagImage, hasImage_iff.mpr himage, hasTag_iff.mpr htag]
    rfl
  | setImageHashes image pair =>
    have himage : image ∈ s.ids .images := by simpa [HasReferences, Change.references] using hrefs
    rw [apply, setImageHashes, hasImage_iff.mpr himage]
    rfl
  | addMember collection image weight =>
    obtain ⟨hcollection, himage⟩ : collection ∈ s.ids .collections ∧ image ∈ s.ids .images := by
      simpa [HasReferences, Change.references] using hrefs
    rw [apply, addMember, hasCollection_iff.mpr hcollection, hasImage_iff.mpr himage]
    rfl
  | _ => cases h

/-- What is accepted has all that it refers to. -/
lemma hasReferences_of_apply {created : Option UInt64} (h : s.apply c = .ok (t, created)) : s.HasReferences c := by
  intro row hrow
  by_contra hmissing
  have hrefused := apply_eq_error_iff.mpr (.missing hrow hmissing)
  rw [h] at hrefused
  cases hrefused

lemma Consistent.linked (hs : s.Consistent) (h : c.isLinking = true) (hrefs : s.HasReferences c) :
    (s.linked c).Consistent :=
  hs.apply (apply_linking h hrefs)

/-- Changes that do not set the same row may be exchanged. -/
lemma linked_comm (hs : s.Consistent) (h : ∀ row, c.sets? = some row → d.sets? ≠ some row) :
    (s.linked c).linked d = (s.linked d).linked c := by
  cases c with
  | tagImage image tag =>
    cases d with
    | tagImage other otherTag =>
      refine congrArg (fun rows => { s with links := rows }) (Ordered.add_comm hs.links ?_)
      rintro ⟨_, _⟩ ⟨_, _⟩ hkey
      obtain ⟨rfl, rfl⟩ := pairKey_inj.mp hkey
      rfl
    | _ => rfl
  | setImageHashes image pair =>
    cases d with
    | setImageHashes other otherPair =>
      refine congrArg (fun rows => { s with hashes := rows }) (Ordered.put_comm hs.hashes fun hkey => ?_)
      obtain rfl := UInt64.toNat_inj.mp hkey
      exact h _ rfl rfl
    | _ => rfl
  | addMember collection image weight =>
    cases d with
    | addMember other otherImage otherWeight =>
      refine congrArg (fun rows => { s with members := rows }) (Ordered.put_comm hs.members fun hkey => ?_)
      obtain ⟨rfl, rfl⟩ := pairKey_inj.mp hkey
      exact h _ rfl rfl
    | _ => rfl
  | _ => cases d <;> rfl

/-- All linking changes of a list, in any order. -/
theorem foldl_linked_perm (hs : s.Consistent) (h : writes.Perm others) (hlinking : ∀ c ∈ writes, c.isLinking = true)
    (hrefs : ∀ c ∈ writes, s.HasReferences c) (hsets : (writes.filterMap Change.sets?).Nodup) :
    writes.foldl linked s = others.foldl linked s := by
  induction h generalizing s with
  | nil => rfl
  | @cons c writes others _ ih =>
    rw [List.forall_mem_cons] at hlinking hrefs
    refine ih (hs.linked hlinking.1 hrefs.1) hlinking.2 (fun d hd => hasReferences_linked.mpr (hrefs.2 d hd)) ?_
    exact hsets.sublist ((List.sublist_cons_self c writes).filterMap _)
  | swap c d rest =>
    rw [List.foldl_cons, List.foldl_cons, List.foldl_cons, List.foldl_cons, linked_comm hs]
    intro row hd hc
    simp [hc, hd] at hsets
  | trans hperm _ ih ih' =>
    rw [ih hs hlinking hrefs hsets]
    exact ih' hs (fun c hc => hlinking c (hperm.mem_iff.mpr hc)) (fun c hc => hrefs c (hperm.mem_iff.mpr hc))
      ((hperm.filterMap _).nodup_iff.mp hsets)

end Store

namespace Database

variable {s : Store} {writes : List Change}

/-- Linking changes that have all that they refer to are accepted one after the other. -/
lemma performAll_linking (hlinking : ∀ c ∈ writes, c.isLinking = true) (hrefs : ∀ c ∈ writes, s.HasReferences c) :
    (ready s).performAll (writes.map .change) =
      (ready (writes.foldl Store.linked s), writes.map fun c => ⟨.change c, .ok none⟩) := by
  induction writes generalizing s with
  | nil => rfl
  | cons c rest ih =>
    rw [List.forall_mem_cons] at hlinking hrefs
    have hperform : (ready s).perform (.change c) = (ready (s.linked c), ⟨.change c, .ok none⟩) := by
      rw [perform, Database.apply, Store.apply_linking hlinking.1 hrefs.1]
    rw [List.map_cons, performAll_cons hperform,
      ih hlinking.2 fun d hd => Store.hasReferences_linked.mpr (hrefs.2 d hd)]
    rfl

/-- Linking changes that are accepted one after the other have all that they refer to from the start. -/
lemma hasReferences_of_accepted (hlinking : ∀ c ∈ writes, c.isLinking = true)
    (haccepted : ∀ event ∈ ((ready s).performAll (writes.map .change)).2, event.isAccepted = true) :
    ∀ c ∈ writes, s.HasReferences c := by
  induction writes generalizing s with
  | nil => simp
  | cons c rest ih =>
    rw [List.forall_mem_cons] at hlinking ⊢
    obtain ⟨⟨next, event⟩, hperform⟩ : ∃ result, (ready s).perform (.change c) = result := ⟨_, rfl⟩
    rw [List.map_cons, performAll_cons hperform, List.forall_mem_cons] at haccepted
    rw [perform, Database.apply] at hperform
    cases happly : s.apply c with
    | error fault =>
      rw [happly] at hperform
      cases hperform
      cases haccepted.1
    | ok result =>
      have hrefs : s.HasReferences c := Store.hasReferences_of_apply happly
      rw [Store.apply_linking hlinking.1 hrefs] at hperform
      cases hperform
      exact ⟨hrefs, fun d hd => Store.hasReferences_linked.mp (ih hlinking.2 haccepted.2 d hd)⟩

end Database

/-- Two catalogs that no search tells apart. -/
structure Store.AnswersAlike (s t : Store) : Prop where
  parse : ∀ raw user kind, Query.parseFor raw user kind (Database.ready s).source =
    Query.parseFor raw user kind (Database.ready t).source
  images : ∀ predicates start stride, Search.images predicates start stride (Database.ready s).source =
    Search.images predicates start stride (Database.ready t).source
  collections : ∀ predicates start stride, Search.collections predicates start stride (Database.ready s).source =
    Search.collections predicates start stride (Database.ready t).source
  neighbours : ∀ predicates pivot, Search.neighbours predicates pivot (Database.ready s).source =
    Search.neighbours predicates pivot (Database.ready t).source
  random : ∀ predicates draw, Search.randomImage predicates draw (Database.ready s).source =
    Search.randomImage predicates draw (Database.ready t).source
  withoutHashes : (Database.ready s).imagesWithoutHashes = (Database.ready t).imagesWithoutHashes

namespace Store

variable {s t : Store}

/-- Searches ask nothing of a catalog but what its source answers. -/
lemma answersAlike_of_source_eq (hsource : (Database.ready s).source = (Database.ready t).source)
    (hhashes : s.imagesWithoutHashes = t.imagesWithoutHashes) : s.AnswersAlike t where
  parse _ _ _ := by rw [hsource]
  images _ _ _ := by rw [hsource]
  collections _ _ _ := by rw [hsource]
  neighbours _ _ := by rw [hsource]
  random _ _ := by rw [hsource]
  withoutHashes := congrArg Except.ok hhashes

variable {writes others : List Change} {history : List Event}

/-- Linking changes of which no two set the same row may be written in any order. If all are accepted in one order, they
are in every other, and no search tells the catalogs apart, in whatever order their linking tables hold the rows. -/
theorem answers_of_reordered_writes (hs : s.Reachable) (hlinking : ∀ c ∈ writes, c.isLinking = true)
    (hsets : (writes.filterMap Change.sets?).Nodup) (hperm : writes.Perm others)
    (hrun : (Database.ready s).performAll (writes.map .change) = (.ready t, history))
    (haccepted : ∀ event ∈ history, event.isAccepted = true) :
    ∃ u history', (Database.ready s).performAll (others.map .change) = (.ready u, history') ∧
      (∀ event ∈ history', event.isAccepted = true) ∧
      ∀ left right, t.SameRows left → u.SameRows right → left.AnswersAlike right := by
  have hs := hs.consistent
  have hrefs : ∀ c ∈ writes, s.HasReferences c := by
    apply Database.hasReferences_of_accepted hlinking
    rwa [hrun]
  have hall : others.foldl linked s = t := by
    rw [Database.performAll_linking hlinking hrefs, Prod.mk.injEq, Database.ready.injEq] at hrun
    rw [← foldl_linked_perm hs hperm hlinking hrefs hsets, hrun.1]
  have ht : t.Consistent := by
    obtain ⟨_, _, hready, hconsistent, _⟩ := Database.performAll_ready hs (writes.map .change)
    rw [hrun] at hready
    cases hready
    exact hconsistent
  refine ⟨t, others.map fun c => ⟨.change c, .ok none⟩, ?_, ?_, fun left right hleft hright => ?_⟩
  · rw [Database.performAll_linking (fun c hc => hlinking c (hperm.mem_iff.mpr hc))
      (fun c hc => hrefs c (hperm.mem_iff.mpr hc)), hall]
  · intro event hevent
    obtain ⟨c, _, rfl⟩ := List.mem_map.mp hevent
    rfl
  · have hsource := (hleft.source_eq ht).symm.trans (hright.source_eq ht)
    exact answersAlike_of_source_eq hsource (hleft.imagesWithoutHashes_eq.symm.trans hright.imagesWithoutHashes_eq)

theorem answers_of_reordered_sample :
    ∃ u history', (Database.ready sample).performAll
        ([.tagImage 2 1, .setImageHashes 1 ⟨5, 6⟩, .tagImage 1 2].map .change) = (.ready u, history') ∧
      (∀ event ∈ history', event.isAccepted = true) ∧
      ∀ left right, (sample.run [.setImageHashes 1 ⟨5, 6⟩, .tagImage 1 2, .tagImage 2 1]).SameRows left →
        u.SameRows right → left.AnswersAlike right :=
  @answers_of_reordered_writes sample _ [.setImageHashes 1 ⟨5, 6⟩, .tagImage 1 2, .tagImage 2 1]
    [.tagImage 2 1, .setImageHashes 1 ⟨5, 6⟩, .tagImage 1 2]
    [⟨.change (.setImageHashes 1 ⟨5, 6⟩), .ok none⟩, ⟨.change (.tagImage 1 2), .ok none⟩,
      ⟨.change (.tagImage 2 1), .ok none⟩]
    (Reachable.empty.run _) (by decide) (by decide) (by decide) rfl (by decide)

end Store
end TagSearch
