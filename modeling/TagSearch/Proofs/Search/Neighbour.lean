import TagSearch.Proofs.Search.Limit
import TagSearch.Proofs.Search.Window

/-! Neighbours of an image. The neighbours of a matching image are those in the list of all that a search finds, newest
first, so from the newest match one walks through all of them, and back from the oldest one. -/
namespace TagSearch
open Sql

section Descending

variable {ids front back : List UInt64} {pivot : UInt64}

lemma filter_lt_of_descending (h : (front ++ pivot :: back).Pairwise fun a b => b < a) :
    (front ++ pivot :: back).filter (· < pivot) = back := by
  obtain ⟨_, hback, hfront⟩ := List.pairwise_append.mp h
  have hnone : front.filter (· < pivot) = [] := by
    rw [List.filter_eq_nil_iff]
    intro a ha
    rw [decide_eq_true_eq]
    exact UInt64.lt_asymm (hfront a ha pivot (List.mem_cons_self ..))
  have hall : back.filter (· < pivot) = back :=
    List.filter_eq_self.mpr fun b hb => decide_eq_true ((List.pairwise_cons.mp hback).1 b hb)
  simp [hnone, hall]

lemma filter_gt_of_descending (h : (front ++ pivot :: back).Pairwise fun a b => b < a) :
    (front ++ pivot :: back).filter (pivot < ·) = front := by
  obtain ⟨_, hback, hfront⟩ := List.pairwise_append.mp h
  have hall : front.filter (pivot < ·) = front :=
    List.filter_eq_self.mpr fun a ha => decide_eq_true (hfront a ha pivot (List.mem_cons_self ..))
  have hnone : back.filter (pivot < ·) = [] := by
    rw [List.filter_eq_nil_iff]
    intro b hb
    rw [decide_eq_true_eq]
    exact UInt64.lt_asymm ((List.pairwise_cons.mp hback).1 b hb)
  simp [hnone, hall]

/-- In a descending list, the largest entry below an entry is the one after it, and the least entry above it the one
before it. -/
lemma neighbours_of_getElem (h : ids.Pairwise fun a b => b < a) {i : ℕ} (hi : i < ids.length) :
    (ids.filter (· < ids[i])).head? = ids[i + 1]? ∧
      (ids.filter (ids[i] < ·)).getLast? = if i = 0 then none else ids[i - 1]? := by
  have hsplit : ids.take i ++ ids[i] :: ids.drop (i + 1) = ids := by
    rw [List.getElem_cons_drop, List.take_append_drop]
  have hsorted := hsplit ▸ h
  have hbelow := filter_lt_of_descending hsorted
  have habove := filter_gt_of_descending hsorted
  rw [hsplit] at hbelow habove
  rw [hbelow, habove, List.head?_drop, List.getLast?_take]
  refine ⟨rfl, ?_⟩
  split
  · rfl
  · rw [List.getElem?_eq_getElem (by omega)]
    rfl

end Descending

namespace Store

variable {engine : Engine} {s : Store} {kind : Kind} {clause : Clause} {plan : Plan} {pivot : UInt64}
  {predicates : List Predicate}

/-- All ids that a plan selects, newest first, whatever its pages are ordered by. -/
def newest (s : Store) (plan : Plan) : List UInt64 := s.listed { plan with similarTo := none }

lemma newest_perm (hs : s.Consistent) (plan : Plan) : (s.newest plan).Perm (s.listed plan) :=
  (listed_perm hs _).trans (listed_perm hs plan).symm

lemma newest_descending (hs : s.Consistent) (plan : Plan) : (s.newest plan).Pairwise fun a b => b < a :=
  listed_descending hs fun _ => rfl

lemma toNat_of_mem_newest (hs : s.Consistent) {id : UInt64} (h : id ∈ s.newest plan) :
    id ≠ 0 ∧ id.toNat < 2 ^ 63 := by
  obtain ⟨e, hhas, he, _, rfl⟩ := (mem_listed hs).mp h
  have hid := List.mem_map_of_mem (f := Entity.id) (mem_entities.mpr ⟨hhas, he⟩)
  exact ⟨(numbered_entities hs).ne_zero hid, (numbered_entities hs).toNat_lt hid⟩

/-- The rows on one side of a pivot have the ids on that side of it. -/
lemma filter_matching_perm {beside : Row → Bool} {side : UInt64 → Bool}
    (h : ∀ row ∈ s.matching plan.kind plan.clause, beside row = side row.id.toUInt64) :
    (((s.matching plan.kind plan.clause).filter beside).map fun row => row.id.toUInt64).Perm
      ((s.newest plan).filter side) := by
  have hnewest : s.newest plan =
      ((s.matching plan.kind plan.clause).mergeSort newerFirst).map fun row => row.id.toUInt64 := by
    rw [newest, listed, ite_self]
    rfl
  have hperm := ((List.mergeSort_perm (s.matching plan.kind plan.clause) newerFirst).map
    fun row => row.id.toUInt64).filter side
  rw [← hnewest, List.filter_map] at hperm
  rw [List.filter_congr h]
  exact hperm.symm

/-- The id that a pivot stands for when it is bound to a statement. From 2⁶³ on a pivot is negative there, and below all
ids. -/
def landmark (pivot : UInt64) : UInt64 := if pivot.toNat < 2 ^ 63 then pivot else 0

lemma landmark_of_lt (h : pivot.toNat < 2 ^ 63) : landmark pivot = pivot := if_pos h

lemma landmark_of_le (h : 2 ^ 63 ≤ pivot.toNat) : landmark pivot = 0 := if_neg (Nat.not_lt.mpr h)

/-- The rows beside a pivot have the ids beside its landmark. -/
lemma beside_pivot (hs : s.Consistent) (pivot : UInt64) {row : Row} (h : row ∈ s.matching kind clause) :
    decide (row.id < pivot.toInt64) = decide (row.id.toUInt64 < landmark pivot) ∧
      decide (pivot.toInt64 < row.id) = decide (landmark pivot < row.id.toUInt64) := by
  obtain ⟨e, he, rfl⟩ := exists_entity_of_mem_matching h
  have hmem := List.mem_map_of_mem (f := Entity.id) he
  have hid := (numbered_entities hs).toNat_lt hmem
  rw [e.row_id, UInt64.toUInt64_toInt64]
  by_cases hpivot : pivot.toNat < 2 ^ 63
  · rw [landmark_of_lt hpivot]
    simp only [toInt64_lt hid hpivot, toInt64_lt hpivot hid, and_self]
  · have hbelow : pivot.toInt64 < e.id.toInt64 :=
      Int64.lt_of_lt_of_le (toInt64_neg (Nat.not_lt.mp hpivot)) (toInt64_nonneg hid)
    have hpos : 0 < e.id := UInt64.pos_iff_ne_zero.mpr ((numbered_entities hs).ne_zero hmem)
    rw [landmark_of_le (Nat.not_lt.mp hpivot)]
    simp [hbelow, hpos, Int64.lt_asymm hbelow]

/-- A limit of one keeps the first entry. -/
lemma head_window_one {α : Type} (entries : List α) : (window 1 0 entries).head? = entries.head? := by
  have hwindow : window 1 0 entries = entries.take 1 := rfl
  rw [hwindow]
  cases entries <;> rfl

lemma select_previous (hs : s.Consistent) (plan : Plan) (pivot : UInt64) :
    (s.select (plan.adjacentStatement pivot .previous)).head? =
      ((s.newest plan).filter (· < landmark pivot)).head? := by
  have hperm := @filter_matching_perm s plan (fun row => decide (row.id < pivot.toInt64))
    (fun id => decide (id < landmark pivot)) fun row hrow => (beside_pivot hs pivot hrow).1
  have hsorted := @pairwise_ids_mergeSort _ newerFirst (fun a b => b < a) newerFirst_trans newerFirst_total
    (fun a ha b hb => lt_of_mem_matching hs (List.mem_filter.mp ha).1 (List.mem_filter.mp hb).1)
    ((@matching_nodup s plan.kind plan.clause hs).sublist
      ((List.filter_sublist (p := fun row => decide (row.id < pivot.toInt64))).map _))
  have heq := List.Perm.eq_of_pairwise (fun a b _ _ hab hba => absurd hab (UInt64.lt_asymm hba)) hsorted
    ((newest_descending hs plan).filter _) (((List.mergeSort_perm _ _).map _).trans hperm)
  rw [← heq]
  change ((window 1 0 _).map _).head? = _
  rw [List.head?_map, head_window_one, ← List.head?_map]

/-- The least of the ids above a pivot is the last one of them in the list. -/
lemma select_next (hs : s.Consistent) (plan : Plan) (pivot : UInt64) :
    (s.select (plan.adjacentStatement pivot .next)).head? = ((s.newest plan).filter (landmark pivot < ·)).getLast? := by
  have hperm := @filter_matching_perm s plan (fun row => decide (pivot.toInt64 < row.id))
    (fun id => decide (landmark pivot < id)) fun row hrow => (beside_pivot hs pivot hrow).2
  have hsorted := @pairwise_ids_mergeSort _ (fun a b => newerFirst b a) (fun a b => a < b)
    (fun a b c hab hbc => newerFirst_trans c b a hbc hab) (fun a b => newerFirst_total b a)
    (fun a ha b hb hle hne => lt_of_mem_matching hs (List.mem_filter.mp hb).1 (List.mem_filter.mp ha).1 hle hne.symm)
    ((@matching_nodup s plan.kind plan.clause hs).sublist
      ((List.filter_sublist (p := fun row => decide (pivot.toInt64 < row.id))).map _))
  have heq := List.Perm.eq_of_pairwise (fun a b _ _ hab hba => absurd hab (UInt64.lt_asymm hba)) hsorted
    (List.pairwise_reverse.mpr ((newest_descending hs plan).filter _))
    ((((List.mergeSort_perm _ _).map _).trans hperm).trans (List.reverse_perm _).symm)
  rw [← List.head?_reverse, ← heq]
  change ((window 1 0 _).map _).head? = _
  rw [List.head?_map, head_window_one, ← List.head?_map]

/-- The neighbours of a pivot are those of its landmark in the list of all that is found, unless the engine refuses to
look. -/
theorem result_neighbours_landmark (hs : s.Consistent) (hplan : Plan.ofPredicates predicates .image = .ok plan)
    (hpos : pivot ≠ 0) :
    (Search.neighbours predicates pivot (engine.source (.ready s))).result =
      Engine.unlessRefused (engine.neighbourRefusal? s plan pivot)
        ⟨((s.newest plan).filter (· < landmark pivot)).head?,
          ((s.newest plan).filter (landmark pivot < ·)).getLast?⟩ := by
  have hfetch : ∀ direction,
      (Inquiry.fetchId (plan.adjacentStatement pivot direction) (engine.source (.ready s))).result =
      Engine.unlessRefused (engine.refusal? s (plan.adjacentStatement pivot direction))
        (s.select (plan.adjacentStatement pivot direction)).head? := fun direction =>
    Engine.execute_ready _ fun store => (store.select (plan.adjacentStatement pivot direction)).head?
  rw [Search.neighbours, if_neg hpos, Inquiry.result_bind, Inquiry.result_ofExcept, hplan, Engine.neighbourRefusal?]
  by_cases hnothing : plan.matchesNothing = true
  · have hnil : s.newest plan = [] := by
      have hperm := newest_perm hs plan
      rw [listed_of_matchesNothing hs hnothing] at hperm
      exact List.perm_nil.mp hperm
    change ((if plan.matchesNothing then _ else _ : Inquiry Neighbours) (engine.source (.ready s))).result = _
    rw [if_pos hnothing, if_pos hnothing, hnil]
    rfl
  · change ((if plan.matchesNothing then _ else _ : Inquiry Neighbours) (engine.source (.ready s))).result = _
    rw [if_neg hnothing, if_neg hnothing, Inquiry.result_bind, Inquiry.result_bind, hfetch,
      ← select_previous hs, ← select_next hs]
    cases engine.refusal? s (plan.adjacentStatement pivot .previous) with
    | some fault => rfl
    | none =>
      change ((Inquiry.fetchId (plan.adjacentStatement pivot .next) >>= _) (engine.source (.ready s))).result = _
      rw [Inquiry.result_bind, hfetch]
      cases engine.refusal? s (plan.adjacentStatement pivot .next) <;> rfl

/-- A pivot below 2⁶³ is its own landmark. -/
theorem result_neighbours (hs : s.Consistent) (hplan : Plan.ofPredicates predicates .image = .ok plan)
    (hpos : pivot ≠ 0) (hlt : pivot.toNat < 2 ^ 63) :
    (Search.neighbours predicates pivot (engine.source (.ready s))).result =
      Engine.unlessRefused (engine.neighbourRefusal? s plan pivot)
        ⟨((s.newest plan).filter (· < pivot)).head?, ((s.newest plan).filter (pivot < ·)).getLast?⟩ := by
  rw [result_neighbours_landmark hs hplan hpos, landmark_of_lt hlt]

end Store

namespace Search

/-- The ids that are visited from a start on by asking for the next one until there is none. -/
inductive Walk (next : UInt64 → Except SearchError (Option UInt64)) : UInt64 → List UInt64 → Prop
  | stop {a : UInt64} (last : next a = .ok none) : Walk next a [a]
  | step {a b : UInt64} {rest : List UInt64} (found : next a = .ok (some b)) (walk : Walk next b rest) :
    Walk next a (a :: rest)

lemma walk_of_getElem {next : UInt64 → Except SearchError (Option UInt64)} {ids : List UInt64} {first : UInt64}
    (h : ∀ i (hi : i < (first :: ids).length), next (first :: ids)[i] = .ok (first :: ids)[i + 1]?) :
    Walk next first (first :: ids) := by
  induction ids generalizing first with
  | nil => exact .stop (h 0 Nat.one_pos)
  | cons second rest ih =>
    refine .step (h 0 (Nat.succ_pos _)) (ih fun i hi => ?_)
    exact h (i + 1) (Nat.succ_lt_succ hi)

/-- Asking for what comes before leads through the list from its end. -/
lemma walk_reverse_of_getElem {next : UInt64 → Except SearchError (Option UInt64)} {ids : List UInt64}
    (h : ∀ i (hi : i < ids.length), next ids[i] = .ok (if i = 0 then none else ids[i - 1]?)) (hne : ids ≠ []) :
    Walk next (ids.getLast hne) ids.reverse := by
  obtain ⟨first, rest, hids⟩ := List.exists_cons_of_ne_nil (List.reverse_ne_nil_iff.mpr hne)
  have hfirst : ids.getLast hne = first := by
    rw [← List.head_reverse (List.reverse_ne_nil_iff.mpr hne)]
    simp only [hids, List.head_cons]
  rw [hfirst, hids]
  refine walk_of_getElem fun i hi => ?_
  simp only [← hids, List.length_reverse] at hi ⊢
  rw [List.getElem_reverse, h]
  by_cases hlast : i + 1 = ids.length
  · rw [if_pos (by omega), List.getElem?_eq_none (by rw [List.length_reverse]; omega)]
  · rw [if_neg (by omega), List.getElem?_reverse (by omega)]
    congr 2

variable {s : Store} {predicates : List Predicate}

/-- The neighbours of a match are the ones before and after it among all matches, newest first, unless the engine
refuses to look. Where it refuses none of them, following the previous ones leads from the newest match to the oldest
one through all of them, and following the next ones leads back. -/
theorem neighbours_in_found (engine : Engine) (hs : s.Reachable) (hp : Predicate.AllInterpreted .image predicates) :
    ∃ plan found ids, Plan.ofPredicates predicates .image = .ok plan ∧ s.found .image predicates = .ok found ∧
      ids.Perm found ∧ ids.Pairwise (fun a b => b < a) ∧
      (∀ page, (Search.images predicates 0 0 (engine.source (.ready s))).result = .ok page →
        page.items.map ImageSummary.id = found) ∧
      (∀ i (hi : i < ids.length), (Search.neighbours predicates ids[i] (engine.source (.ready s))).result =
        Engine.unlessRefused (engine.neighbourRefusal? s plan ids[i])
          ⟨ids[i + 1]?, if i = 0 then none else ids[i - 1]?⟩) ∧
      ((∀ id ∈ ids, engine.neighbourRefusal? s plan id = none) → ∀ hne : ids ≠ [],
        Walk (fun id => (Search.neighbours predicates id (engine.source (.ready s))).result.map Neighbours.previous)
          (ids.head hne) ids ∧
        Walk (fun id => (Search.neighbours predicates id (engine.source (.ready s))).result.map Neighbours.next)
          (ids.getLast hne) ids.reverse) := by
  have hs := hs.consistent
  obtain ⟨plan, hplan⟩ := hp.exists_plan
  have hbeside : ∀ i (hi : i < (s.newest plan).length),
      (Search.neighbours predicates (s.newest plan)[i] (engine.source (.ready s))).result =
        Engine.unlessRefused (engine.neighbourRefusal? s plan (s.newest plan)[i])
          ⟨(s.newest plan)[i + 1]?, if i = 0 then none else (s.newest plan)[i - 1]?⟩ := by
    intro i hi
    obtain ⟨hpos, hlt⟩ := Store.toNat_of_mem_newest hs (List.getElem_mem hi)
    obtain ⟨hbelow, habove⟩ := neighbours_of_getElem (Store.newest_descending hs plan) hi
    rw [Store.result_neighbours hs hplan hpos hlt, hbelow, habove]
  refine ⟨plan, s.listed plan, s.newest plan, hplan, Store.found_eq hplan, Store.newest_perm hs plan,
    Store.newest_descending hs plan, fun page hpage => ?_, hbeside, fun htaken hne => ?_⟩
  · exact Except.ok.inj ((Store.found_of_images hs hpage).symm.trans (Store.found_eq hplan))
  · have hanswered : ∀ i (hi : i < (s.newest plan).length),
        (Search.neighbours predicates (s.newest plan)[i] (engine.source (.ready s))).result =
          .ok ⟨(s.newest plan)[i + 1]?, if i = 0 then none else (s.newest plan)[i - 1]?⟩ := by
      intro i hi
      rw [hbeside i hi, htaken _ (List.getElem_mem hi)]
      rfl
    refine ⟨?_, walk_reverse_of_getElem (fun i hi => by rw [hanswered i hi]; rfl) hne⟩
    obtain ⟨first, rest, hcons⟩ := List.exists_cons_of_ne_nil hne
    simp only [hcons, List.head_cons] at hanswered ⊢
    exact walk_of_getElem fun i hi => by rw [hanswered i hi]; rfl

/-- The engine of the program takes the neighbours of every image in the search for one tag. -/
lemma neighbourRefusal_sky (pivot : UInt64) :
    Engine.standard.neighbourRefusal? .sample ⟨.image, .all [.isIn (.carryingEvery .image [1])], none⟩ pivot =
      none :=
  Engine.neighbourRefusal_of_few areFew_sky rfl

theorem walk_of_sample :
    ∃ (ids : List UInt64) (hne : ids ≠ []), ids.Perm [1, 2] ∧
      Walk (fun id => (Search.neighbours [.ofTag ⟨1, "sky", "", 1, none, 0, false⟩ false] id
        (Database.ready .sample).source).result.map Neighbours.previous) (ids.head hne) ids ∧
      Walk (fun id => (Search.neighbours [.ofTag ⟨1, "sky", "", 1, none, 0, false⟩ false] id
        (Database.ready .sample).source).result.map Neighbours.next) (ids.getLast hne) ids.reverse := by
  obtain ⟨plan, found, ids, hplan, hfound, hperm, _, _, _, hwalks⟩ := @neighbours_in_found .sample
    [.ofTag ⟨1, "sky", "", 1, none, 0, false⟩ false] .standard (Store.Reachable.empty.run _) (by
      intro p hp hmeta
      rw [List.mem_singleton.mp hp] at hmeta
      cases hmeta)
  have hs : Store.Consistent .sample := (Store.Reachable.empty.run _).consistent
  have hplan' : Plan.ofPredicates [.ofTag ⟨1, "sky", "", 1, none, 0, false⟩ false] .image =
      .ok ⟨.image, .all [.isIn (.carryingEvery .image [1])], none⟩ := rfl
  obtain rfl := Except.ok.inj (hplan'.symm.trans hplan)
  obtain rfl := Except.ok.inj ((Store.found_eq hplan).symm.trans hfound)
  have hmatching : (Store.sample.matchingEntities .image (.all [.isIn (.carryingEvery .image [1])])).map Entity.id =
      [1, 2] := by
    decide +kernel
  have hids : ids.Perm [1, 2] := hmatching ▸ hperm.trans (Store.listed_perm hs _)
  have hne : ids ≠ [] := by
    rintro rfl
    cases List.nil_perm.mp hids
  exact ⟨ids, hne, hids, hwalks (fun id _ => neighbourRefusal_sky id) hne⟩

/-- The metatag for images of no negative score. -/
def scored : Predicate := .ofCondition ⟨"score", .integer 0, .ge⟩ false

lemma scored_isInterpreted : scored.IsInterpreted .image :=
  ⟨"score", .ge, "0", false, (Database.ready .sample).source, rfl⟩

lemma allInterpreted_scored (count : ℕ) : Predicate.AllInterpreted .image (List.replicate count scored) := by
  intro p hp _
  rw [List.eq_of_mem_replicate hp]
  exact scored_isInterpreted

/-- The condition on a score, which needs no room in the tables. -/
def scoreCondition : Condition := .compare .averageScore .ge (.integer 0) false

/-- The plan of a search that asks for the score again and again. -/
def scoredPlan (count : ℕ) : Plan := ⟨.image, .all (List.replicate count scoreCondition), none⟩

lemma ofPredicates_scored (count : ℕ) :
    Plan.ofPredicates (List.replicate count scored) .image = .ok (scoredPlan count) := by
  have hparts : Plan.parts .image (List.replicate count scored) =
      .ok (List.replicate count (.condition scoreCondition)) := by
    induction count with
    | zero => rfl
    | succ count ih =>
      rw [List.replicate_succ, List.replicate_succ]
      exact (Plan.parts_cons_eq_ok rfl).mpr ⟨_, _, rfl, ih, rfl⟩
  have hplain : ∀ p ∈ List.replicate count scored, p.isMeta = true := fun p hp => by
    rw [List.eq_of_mem_replicate hp]
    rfl
  have hkeys : ∀ excluded, Plan.tagKeys excluded (List.replicate count scored) = [] := by
    intro excluded
    rw [Plan.tagKeys, List.filter_eq_nil_iff.mpr fun p hp => by simp [hplain p hp]]
    rfl
  have hsatisfiable : (List.replicate count scored).any Plan.isUnsatisfiable = false :=
    List.any_eq_false.mpr fun p hp => by simp [Plan.isUnsatisfiable, hplain p hp]
  refine Plan.ofPredicates_eq_ok.mpr ⟨_, hparts, ?_⟩
  simp [scoredPlan, hsatisfiable, Plan.tagConditions, hkeys, Plan.Part.condition?, Plan.Part.order?,
    List.filterMap_replicate]

lemma valueCount_scored (count : ℕ) : (scoredPlan count).valueCount = count := by
  simp [Plan.valueCount, scoredPlan, Clause.values, Condition.values, scoreCondition]

section Scored

variable {count : ℕ} {statement : Statement} (hclause : statement.clause = (scoredPlan (count + 1)).clause)

include hclause

lemma misplacedEscape_scored : statement.misplacedEscape? = none := by
  have hnone : Sql.misplacedEscape? (List.replicate (count + 1) scoreCondition) = none :=
    misplacedEscape_eq_none fun c hc => by
      rw [List.eq_of_mem_replicate hc]
      rfl
  rw [Statement.misplacedEscape?, hclause, scoredPlan]
  dsimp only
  rw [hnone, Option.map_none]

/-- The conditions of as many scores as the engine joins are not too deep. -/
lemma isSmall_scored
    (hpieces : statement.joinedPieces = List.replicate count ⟨3, " AND " ++ scoreCondition.render.text⟩)
    (hdepth : statement.depth = statement.joinedPieces.foldl (fun depth piece => jointDepth depth piece.depth) 3)
    (hvalue : statement.render.bound.length ≤ valueLimit) (hlength : count + 3 ≤ depthLimit) : statement.IsSmall := by
  have hshallow : ∀ piece ∈ statement.joinedPieces, piece.depth ≤ 3 := by
    intro piece hpiece
    rw [hpieces] at hpiece
    rw [List.eq_of_mem_replicate hpiece]
  have hcount : statement.joinedPieces.length = count := by rw [hpieces, List.length_replicate]
  have hfirst : statement.clause.firstPiece.depth = 3 := by
    rw [hclause]
    rfl
  have hexcess : statement.excessDepth? = none :=
    excessDepth_of_le hshallow (Nat.le_of_eq hfirst) (by omega)
  have hjoined := foldl_jointDepth_le hshallow (Nat.le_refl 3)
  have hinner : statement.clause.innerDepth ≤ 0 := by
    rw [hclause]
    refine innerDepth_all_le fun c hc => ?_
    rw [List.eq_of_mem_replicate hc]
    rfl
  exact ⟨fault_eq_none.mpr ⟨hexcess, misplacedEscape_scored hclause, hvalue⟩, decide_eq_false (by omega)⟩

end Scored

/-- Both images of the sample have no negative score. -/
lemma mem_listed_scored (count : ℕ) : 1 ∈ Store.sample.listed (scoredPlan count) := by
  have hdawn : Store.sample.Has (.image ⟨1, "dawn", "/dawn.png", 1, "unrated", 0, 0, 0⟩) := by
    change _ ∈ Store.sample.images
    decide
  refine (Store.mem_listed (Store.Reachable.empty.run _).consistent).mpr ⟨_, hdawn, rfl, ?_, rfl⟩
  refine List.all_eq_true.mpr fun c hc => ?_
  rw [List.eq_of_mem_replicate hc]
  decide +kernel

lemma map_piece_scored (count : ℕ) :
    (List.replicate count scoreCondition).map (fun c => (⟨c.depth, " AND " ++ c.render.text⟩ : Piece)) =
      List.replicate count ⟨3, " AND " ++ scoreCondition.render.text⟩ := by
  rw [List.map_replicate]
  rfl

lemma valueLimit_of_room {count : ℕ} (hroom : count + 3 ≤ depthLimit) : count + 3 ≤ valueLimit :=
  Nat.le_trans hroom (by decide)

/-- The engine answers the search as long as it joins the conditions. -/
lemma images_scored {count : ℕ} (hroom : count + 3 ≤ depthLimit) :
    ∃ page, (Search.images (List.replicate (count + 1) scored) 0 0 (Database.ready .sample).source).result = .ok page ∧
      1 ∈ page.items.map ImageSummary.id := by
  have hs : Store.Consistent .sample := (Store.Reachable.empty.run _).consistent
  have hvalue := valueLimit_of_room hroom
  have hpieces := (List.append_nil _).trans (map_piece_scored count)
  have hcount : (scoredPlan (count + 1)).countStatement.IsSmall := by
    refine isSmall_scored rfl hpieces rfl ?_ hroom
    rw [Plan.bound_countStatement, valueCount_scored]
    omega
  have hpage : ((scoredPlan (count + 1)).pageStatement 0 0).IsSmall := by
    refine isSmall_scored rfl hpieces rfl ?_ hroom
    rw [Plan.bound_pageStatement, valueCount_scored, if_neg fun h => h.2 rfl]
    exact hvalue
  have hpattern : (List.replicate (count + 1) scoreCondition).any Condition.hasLongPattern = false :=
    List.any_eq_false.mpr fun c hc => by
      rw [List.eq_of_mem_replicate hc]
      decide
  obtain ⟨_, _, hids, hanswer⟩ := Store.exists_images hs (ofPredicates_scored (count + 1))
  have hwindow := Engine.windowRefusal_of_isSmall hcount hpage
    (@Engine.meetsLongPattern_of_short .sample _ _ hpattern rfl)
  refine ⟨_, (hanswer .standard 0 0).trans (by rw [hwindow]; rfl), ?_⟩
  exact hids ▸ mem_listed_scored (count + 1)

/-- The statements for neighbours have one more condition, which the engine joins no longer. -/
lemma neighbours_scored {count : ℕ} (hroom : count + 3 ≤ depthLimit) (hfull : depthLimit < count + 4) :
    (Search.neighbours (List.replicate (count + 1) scored) 1 (Database.ready .sample).source).result =
      .error (.store (.database .tooDeep)) := by
  have hs : Store.Consistent .sample := (Store.Reachable.empty.run _).consistent
  have hvalue := valueLimit_of_room hroom
  have hfault : ((scoredPlan (count + 1)).adjacentStatement 1 .previous).fault? = some .tooDeep := by
    refine fault_of_depth (excessDepth_ne_none (Nat.le_of_ble_eq_true rfl) ?_) (misplacedEscape_scored rfl) ?_
    · change depthLimit < 3 + ((List.replicate count scoreCondition).map _ ++ [_]).length
      rw [List.length_append, List.length_map, List.length_replicate, List.length_singleton]
      omega
    · rw [Plan.bound_adjacentStatement, valueCount_scored]
      omega
  rw [Store.result_neighbours_landmark hs (ofPredicates_scored (count + 1)) (by decide),
    Engine.neighbourRefusal_of_previous rfl (Engine.refusal_of_fault hfault)]
  rfl

/-- The engine joins 998 conditions on scores. The statement for a neighbour has one more condition, and is refused. -/
theorem neighbours_refused :
    Store.Reachable .sample ∧ Predicate.AllInterpreted .image (List.replicate 998 scored) ∧
      (∃ page, (Search.images (List.replicate 998 scored) 0 0 (Database.ready .sample).source).result = .ok page ∧
        1 ∈ page.items.map ImageSummary.id) ∧
      (Search.neighbours (List.replicate 998 scored) 1 (Database.ready .sample).source).result =
        .error (.store (.database .tooDeep)) :=
  ⟨Store.Reachable.empty.run _, allInterpreted_scored 998, images_scored (by decide),
    neighbours_scored (by decide) (by decide)⟩

end Search
end TagSearch
