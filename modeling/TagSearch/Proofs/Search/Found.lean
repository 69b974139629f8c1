import TagSearch.Proofs.Search.Clause
import TagSearch.Store.Answer

/-! What a search without a window finds: every entity that has what the predicates ask for, and each of them once. -/
namespace TagSearch
open Sql

namespace Store

variable {s : Store} {e : Entity} {kind : Kind} {clause : Clause} {plan : Plan} {predicates : List Predicate}

/-- The entities of a kind. -/
def entities (s : Store) : Kind → List Entity
  | .image => s.images.map .image
  | .collection => s.collections.map .collection

lemma mem_entities : e ∈ s.entities kind ↔ s.Has e ∧ e.kind = kind := by
  cases kind <;> cases e <;> simp [entities, Has, Entity.kind]

lemma map_row_entities : (s.entities kind).map Entity.row = s.rows kind := by
  cases kind with
  | image => exact List.map_map
  | collection => exact List.map_map

lemma rows_ne_nil : s.rows kind ≠ [] ↔ ∃ e, s.Has e ∧ e.kind = kind := by
  rw [← map_row_entities, Ne, List.map_eq_nil_iff]
  constructor
  · intro h
    obtain ⟨e, he⟩ := List.exists_mem_of_ne_nil _ h
    exact ⟨e, mem_entities.mp he⟩
  · rintro ⟨e, he⟩
    exact List.ne_nil_of_mem (mem_entities.mpr he)

lemma numbered_entities (hs : s.Consistent) : Numbered ((s.entities kind).map Entity.id) := by
  cases kind with
  | image =>
    rw [entities, List.map_map]
    exact hs.imageIds
  | collection =>
    rw [entities, List.map_map]
    exact hs.collectionIds

/-- The entities of which a clause holds. -/
def matchingEntities (s : Store) (kind : Kind) (clause : Clause) : List Entity :=
  (s.entities kind).filter fun e => s.satisfies clause e.row

lemma map_row_matchingEntities : (s.matchingEntities kind clause).map Entity.row = s.matching kind clause := by
  rw [matching, ← map_row_entities, List.filter_map]
  rfl

lemma mem_matchingEntities :
    e ∈ s.matchingEntities kind clause ↔ (s.Has e ∧ e.kind = kind) ∧ s.satisfies clause e.row = true := by
  rw [matchingEntities, List.mem_filter, mem_entities]

/-- Entities of a kind are told apart by their ids. -/
lemma eq_of_id_eq (hs : s.Consistent) {e' : Entity} (he : e ∈ s.entities kind) (he' : e' ∈ s.entities kind)
    (hid : e.id = e'.id) : e = e' :=
  List.inj_on_of_nodup_map (numbered_entities hs).nodup he he' hid

/-- An image has at most one pair of hashes. -/
lemma hashesOf_eq (hs : s.Consistent) (id : Int64) :
    (s.hashes.filter fun h => h.image.toInt64 = id) = [] ∨
      ∃ h, (s.hashes.filter fun h => h.image.toInt64 = id) = [h] := by
  have hpairwise : (s.hashes.filter fun h => h.image.toInt64 = id).Pairwise fun _ _ => False := by
    refine List.Pairwise.imp_of_mem ?_ (hs.hashes.filter _)
    intro a b ha hb hab
    have ha := of_decide_eq_true (List.mem_filter.mp ha).2
    have hb := of_decide_eq_true (List.mem_filter.mp hb).2
    rw [StoredHash.key, StoredHash.key, toInt64_inj.mp (ha.trans hb.symm)] at hab
    exact Nat.lt_irrefl _ hab
  cases hfound : s.hashes.filter fun h => h.image.toInt64 = id with
  | nil => exact .inl rfl
  | cons h rest =>
    rw [hfound, List.pairwise_cons] at hpairwise
    exact .inr ⟨h, by rw [List.eq_nil_iff_forall_not_mem.mpr hpairwise.1]⟩

/-- Joining the hashes keeps every row, once. -/
lemma map_id_joinHashes (hs : s.Consistent) (row : Row) : (s.joinHashes row).map Row.id = [row.id] := by
  rw [joinHashes]
  rcases hashesOf_eq hs row.id with hfound | ⟨h, hfound⟩
  · rw [hfound]
    rfl
  · rw [hfound]
    rfl

lemma map_id_flatMap_joinHashes (hs : s.Consistent) (rows : List Row) :
    (rows.flatMap s.joinHashes).map Row.id = rows.map Row.id := by
  rw [List.map_flatMap, List.flatMap_congr fun row _ => map_id_joinHashes hs row, List.map_eq_flatMap]

/-- An order keeps the rows that match. -/
lemma ordered_perm (hs : s.Consistent) (nearest : Option HashPair) :
    ((s.ordered kind clause nearest).map Row.id).Perm
      ((s.matchingEntities kind clause).map fun e => e.id.toInt64) := by
  have hmatching : (s.matching kind clause).map Row.id =
      (s.matchingEntities kind clause).map fun e => e.id.toInt64 := by
    rw [← map_row_matchingEntities, List.map_map]
    exact List.map_congr_left fun e _ => e.row_id
  rw [← hmatching]
  cases nearest with
  | none => exact (List.mergeSort_perm _ _).map _
  | some target =>
    have h := (List.mergeSort_perm ((s.matching kind clause).flatMap s.joinHashes) (nearerFirst target)).map Row.id
    rwa [map_id_flatMap_joinHashes hs] at h

/-- All ids that a plan selects, in order. -/
def listed (s : Store) (plan : Plan) : List UInt64 :=
  (s.ordered plan.kind plan.clause (if plan.kind = .image then plan.similarTo else none)).map
    fun row => row.id.toUInt64

/-- A plan lists the ids of the entities that match. -/
lemma listed_perm (hs : s.Consistent) (plan : Plan) :
    (s.listed plan).Perm ((s.matchingEntities plan.kind plan.clause).map Entity.id) := by
  have h := (@ordered_perm s plan.kind plan.clause hs (if plan.kind = .image then plan.similarTo else none)).map
    Int64.toUInt64
  rw [List.map_map, List.map_map] at h
  exact h

/-- No id is listed twice. -/
lemma listed_nodup (hs : s.Consistent) (plan : Plan) : (s.listed plan).Nodup :=
  (listed_perm hs plan).nodup_iff.mpr ((numbered_entities hs).nodup.sublist (List.filter_sublist.map _))

lemma mem_listed (hs : s.Consistent) {plan : Plan} {id : UInt64} :
    id ∈ s.listed plan ↔
      ∃ e, s.Has e ∧ e.kind = plan.kind ∧ s.satisfies plan.clause e.row = true ∧ e.id = id := by
  simp only [(listed_perm hs plan).mem_iff, List.mem_map, mem_matchingEntities, and_assoc]

lemma exists_entity_of_mem_matching {clause : Clause} {row : Row} (h : row ∈ s.matching kind clause) :
    ∃ e ∈ s.entities kind, e.row = row := by
  rw [← map_row_matchingEntities] at h
  obtain ⟨e, he, rfl⟩ := List.mem_map.mp h
  exact ⟨e, (List.mem_filter.mp he).1, rfl⟩

/-- Sorted rows of different ids are in the order of their ids that the comparison stands for. -/
lemma pairwise_ids_mergeSort {rows : List Row} {le : Row → Row → Bool} {before : UInt64 → UInt64 → Prop}
    (htrans : ∀ a b c, le a b = true → le b c = true → le a c = true) (htotal : ∀ a b, (le a b || le b a) = true)
    (hbefore : ∀ a ∈ rows, ∀ b ∈ rows, le a b = true → a.id.toUInt64 ≠ b.id.toUInt64 →
      before a.id.toUInt64 b.id.toUInt64)
    (hnodup : (rows.map fun row => row.id.toUInt64).Nodup) :
    ((rows.mergeSort le).map fun row => row.id.toUInt64).Pairwise before := by
  have hperm := List.mergeSort_perm rows le
  have hdistinct := List.pairwise_map.mp ((hperm.map fun row => row.id.toUInt64).nodup_iff.mpr hnodup)
  have hsorted := (List.pairwise_mergeSort htrans htotal rows).and hdistinct
  refine List.pairwise_map.mpr (hsorted.imp_of_mem ?_)
  rintro a b ha hb ⟨hle, hne⟩
  exact hbefore a (hperm.mem_iff.mp ha) b (hperm.mem_iff.mp hb) hle hne

lemma newerFirst_trans (a b c : Row) (hab : newerFirst a b = true) (hbc : newerFirst b c = true) :
    newerFirst a c = true :=
  decide_eq_true (Int64.le_trans (of_decide_eq_true hbc) (of_decide_eq_true hab))

lemma newerFirst_total (a b : Row) : (newerFirst a b || newerFirst b a) = true := by
  simpa [newerFirst] using Int64.le_total b.id a.id

/-- Of two entities, the newer one has the greater id. -/
lemma lt_of_newerFirst (hs : s.Consistent) {e' : Entity} {a b : Row} (he : e ∈ s.entities kind)
    (he' : e' ∈ s.entities kind) (ha : a.id = e.id.toInt64) (hb : b.id = e'.id.toInt64)
    (hnewer : newerFirst a b = true) (hne : a.id.toUInt64 ≠ b.id.toUInt64) : b.id.toUInt64 < a.id.toUInt64 := by
  have hlt := (numbered_entities hs).toNat_lt (List.mem_map_of_mem he)
  have hlt' := (numbered_entities hs).toNat_lt (List.mem_map_of_mem he')
  have hle : e'.id.toInt64 ≤ e.id.toInt64 := by simpa [newerFirst, ha, hb] using hnewer
  rw [toInt64_le hlt' hlt] at hle
  simp only [ha, hb, UInt64.toUInt64_toInt64] at hne ⊢
  rw [UInt64.lt_iff_toNat_lt]
  refine Nat.lt_of_le_of_ne hle fun heq => hne ?_
  exact (UInt64.toNat_inj.mp heq).symm

lemma lt_of_mem_matching (hs : s.Consistent) {a b : Row} (ha : a ∈ s.matching kind clause)
    (hb : b ∈ s.matching kind clause) (hnewer : newerFirst a b = true) (hne : a.id.toUInt64 ≠ b.id.toUInt64) :
    b.id.toUInt64 < a.id.toUInt64 := by
  obtain ⟨e, he, rfl⟩ := exists_entity_of_mem_matching ha
  obtain ⟨e', he', rfl⟩ := exists_entity_of_mem_matching hb
  exact lt_of_newerFirst hs he he' e.row_id e'.row_id hnewer hne

lemma matching_nodup (hs : s.Consistent) : ((s.matching kind clause).map fun row => row.id.toUInt64).Nodup := by
  have hids : ((s.matching kind clause).map fun row => row.id.toUInt64) =
      (s.matchingEntities kind clause).map Entity.id := by
    rw [← map_row_matchingEntities, List.map_map]
    exact List.map_congr_left fun e _ => by simp
  rw [hids]
  exact (numbered_entities hs).nodup.sublist (List.filter_sublist.map _)

/-- Newer entities come first, if no hashes are compared. -/
theorem listed_descending (hs : s.Consistent) (h : plan.kind = .image → plan.similarTo = none) :
    (s.listed plan).Pairwise fun a b => b < a := by
  have hnearest : (if plan.kind = .image then plan.similarTo else none) = none := by
    split
    · rename_i hkind
      exact h hkind
    · rfl
  rw [listed, hnearest, ordered]
  exact pairwise_ids_mergeSort newerFirst_trans newerFirst_total (fun a ha b hb => lt_of_mem_matching hs ha hb)
    (matching_nodup hs)

lemma window_map {α β : Type} (f : α → β) (limit offset : Int64) (entries : List α) :
    window limit offset (entries.map f) = (window limit offset entries).map f := by
  simp only [window]
  split
  · exact List.map_drop.symm
  · rw [← List.map_drop, ← List.map_take]

lemma select_pageStatement (plan : Plan) (start stride : UInt64) :
    s.select (plan.pageStatement start stride) =
      window (if stride = 0 then -1 else stride.toInt64) start.toInt64 (s.listed plan) :=
  (window_map _ _ _ _).symm

/-- Without a window all ids are found. -/
lemma found_eq (h : Plan.ofPredicates predicates kind = .ok plan) :
    s.found kind predicates = .ok (s.listed plan) := by
  rw [found, h, Except.map, select_pageStatement]
  rfl

lemma found_eq_ok {ids : List UInt64} :
    s.found kind predicates = .ok ids ↔
      ∃ plan, Plan.ofPredicates predicates kind = .ok plan ∧ ids = s.listed plan := by
  constructor
  · intro h
    cases hplan : Plan.ofPredicates predicates kind with
    | error e =>
      rw [found, hplan] at h
      cases h
    | ok plan => exact ⟨plan, rfl, (Except.ok.inj ((found_eq hplan).symm.trans h)).symm⟩
  · rintro ⟨plan, hplan, rfl⟩
    exact found_eq hplan

lemma exists_found (hp : Predicate.AllInterpreted kind predicates) : ∃ ids, s.found kind predicates = .ok ids := by
  obtain ⟨plan, h⟩ := hp.exists_plan
  exact ⟨_, found_eq h⟩

/-- An entity is found when it has what all predicates ask for. -/
theorem mem_found (hs : s.Consistent) (hp : Predicate.AllInterpreted kind predicates) {ids : List UInt64}
    (h : s.found kind predicates = .ok ids) (hhas : s.Has e) (he : e.kind = kind) :
    e.id ∈ ids ↔ ∀ p ∈ predicates, s.Satisfies e p := by
  obtain ⟨plan, hplan, rfl⟩ := found_eq_ok.mp h
  rw [mem_listed hs, Plan.kind_of_ofPredicates hplan, ← satisfies_clause hs he hp hplan]
  constructor
  · rintro ⟨e', hhas', he', hsat, hid⟩
    obtain rfl := eq_of_id_eq hs (mem_entities.mpr ⟨hhas', he'⟩) (mem_entities.mpr ⟨hhas, he⟩) hid
    exact hsat
  · intro hsat
    exact ⟨e, hhas, he, hsat, rfl⟩

/-- A search without a window means what its predicates say: it finds entities of its kind, each once, and exactly
those that have what every predicate asks for. -/
theorem found_exactly_satisfying (hs : s.Reachable) (hp : Predicate.AllInterpreted kind predicates) :
    ∃ ids, s.found kind predicates = .ok ids ∧ ids.Nodup ∧
      (∀ id ∈ ids, ∃ e, s.Has e ∧ e.kind = kind ∧ e.id = id) ∧
      ∀ e, s.Has e → e.kind = kind → (e.id ∈ ids ↔ ∀ p ∈ predicates, s.Satisfies e p) := by
  obtain ⟨ids, h⟩ := exists_found (s := s) hp
  obtain ⟨plan, hplan, rfl⟩ := found_eq_ok.mp h
  refine ⟨_, h, listed_nodup hs.consistent plan, fun id hid => ?_, fun e => mem_found hs.consistent hp h⟩
  obtain ⟨e, hhas, he, _, hid⟩ := (mem_listed hs.consistent).mp hid
  exact ⟨e, hhas, he.trans (Plan.kind_of_ofPredicates hplan), hid⟩

/-- A small catalog: both images carry the tag that an alias stands for, and the second one has a score. -/
def sample : Store :=
  empty.run [.createUser "ann", .createTag "sky" "" 1 none, .createTag "heavens" "" 1 none, .aliasTag 2 1,
    .createImage "dawn" "/dawn.png" 1, .createImage "dusk" "/dusk.png" 1, .tagImage 1 1, .tagImage 2 1,
    .setImageScores 2 4 8 2]

theorem found_in_sample :
    ∃ ids, sample.found .image
        [.ofTag ⟨2, "heavens", "", 1, none, 1, true⟩ false, .unknown "mist" true,
          .ofCondition ⟨"score", .integer 3, .ge⟩ false] = .ok ids ∧ 2 ∈ ids ∧ 1 ∉ ids := by
  obtain ⟨ids, hids, _, _, hmem⟩ := @found_exactly_satisfying sample .image
    [.ofTag ⟨2, "heavens", "", 1, none, 1, true⟩ false, .unknown "mist" true,
      .ofCondition ⟨"score", .integer 3, .ge⟩ false]
    (Reachable.empty.run _) (by
      intro p hp hmeta
      simp only [List.mem_cons, List.not_mem_nil, or_false] at hp
      rcases hp with rfl | rfl | rfl
      · cases hmeta
      · cases hmeta
      · exact ⟨"score", .ge, "3", false, (Database.ready sample).source, rfl⟩)
  refine ⟨ids, hids, ?_, fun h => ?_⟩
  · have hdusk : sample.Has (.image ⟨2, "dusk", "/dusk.png", 1, "unrated", 4, 8, 2⟩) := by
      change _ ∈ sample.images
      decide
    refine (hmem _ hdusk rfl).mpr ?_
    simp only [List.forall_mem_cons, List.not_mem_nil, false_implies, implies_true, and_true]
    refine ⟨⟨rfl, by decide, ?_⟩, fun hknown => ?_, .integer 4, rfl, ?_⟩
    · change _ ∈ sample.links
      decide
    · cases hknown
    · change (3 : Int64).toInt ≤ (4 : Int64).toInt
      decide
  · have hdawn : sample.Has (.image ⟨1, "dawn", "/dawn.png", 1, "unrated", 0, 0, 0⟩) := by
      change _ ∈ sample.images
      decide
    obtain ⟨stored, hstored, hle⟩ := (hmem _ hdawn rfl).mp h _ (.tail _ (.tail _ (.head _)))
    cases hstored
    change (3 : Int64).toInt ≤ (0 : Int64).toInt at hle
    revert hle
    decide

end Store
end TagSearch
