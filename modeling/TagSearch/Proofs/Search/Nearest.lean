import TagSearch.Proofs.Search.Neighbour

/-! Neighbours of any pivot, whether or not it is the id of a match. They are the nearest matches below and above it,
unless the pivot is too large for a signed number: then it counts as one below all ids. -/
namespace TagSearch
open Sql

section Nearest

variable {before : UInt64 → UInt64 → Prop} {ids ids' : List UInt64} {pivot : UInt64} {found found' : Option UInt64}

/-- The nearest of some ids on one side of a pivot, all others on that side being further away; none if there is no id
on that side. -/
def IsNearest (before : UInt64 → UInt64 → Prop) (ids : List UInt64) (pivot : UInt64) : Option UInt64 → Prop
  | some id => id ∈ ids ∧ before id pivot ∧ ∀ other ∈ ids, before other pivot → other ≠ id → before other id
  | none => ∀ other ∈ ids, ¬ before other pivot

/-- Only the members of the list matter. -/
lemma IsNearest.congr (h : IsNearest before ids pivot found) (hmem : ∀ id, id ∈ ids ↔ id ∈ ids') :
    IsNearest before ids' pivot found := by
  cases found with
  | some id => simpa only [IsNearest, hmem] using h
  | none => simpa only [IsNearest, hmem] using h

/-- There is one nearest id at most. -/
lemma IsNearest.unique (hasymm : ∀ a b, before a b → ¬ before b a) (h : IsNearest before ids pivot found)
    (h' : IsNearest before ids pivot found') : found = found' := by
  cases found with
  | none =>
    cases found' with
    | none => rfl
    | some id' => exact absurd h'.2.1 (h id' h'.1)
  | some id =>
    cases found' with
    | none => exact absurd h.2.1 (h' id h.1)
    | some id' =>
      by_contra hne
      have hid : id' ≠ id := fun heq => hne (by rw [heq])
      exact hasymm _ _ (h.2.2 id' h'.1 h'.2.1 hid) (h'.2.2 id h.1 h.2.1 hid.symm)

/-- If the nearer entries of a list come first, the first one on a side of a pivot is the nearest one. -/
lemma isNearest_head [DecidableRel before] (h : ids.Pairwise fun a b => before b a) (pivot : UInt64) :
    IsNearest before ids pivot (ids.filter fun id => before id pivot).head? := by
  have hsorted := h.filter fun id => before id pivot
  cases hside : ids.filter fun id => before id pivot with
  | nil =>
    intro other hother hbefore
    exact List.filter_eq_nil_iff.mp hside other hother (decide_eq_true hbefore)
  | cons id rest =>
    rw [hside] at hsorted
    have hid : id ∈ ids.filter fun id => before id pivot := hside ▸ List.mem_cons_self
    obtain ⟨hmem, hbefore⟩ := List.mem_filter.mp hid
    refine ⟨hmem, of_decide_eq_true hbefore, fun other hother hbefore' hne => ?_⟩
    have hother' : other ∈ id :: rest := hside ▸ List.mem_filter.mpr ⟨hother, decide_eq_true hbefore'⟩
    exact (List.pairwise_cons.mp hsorted).1 other ((List.mem_cons.mp hother').resolve_left hne)

/-- Of a descending list, the first entry below a pivot is the nearest one below it. -/
lemma isNearest_below (h : ids.Pairwise fun a b => b < a) (pivot : UInt64) :
    IsNearest (· < ·) ids pivot (ids.filter (· < pivot)).head? :=
  isNearest_head h pivot

/-- Of a descending list, the last entry above a pivot is the nearest one above it. -/
lemma isNearest_above (h : ids.Pairwise fun a b => b < a) (pivot : UInt64) :
    IsNearest (· > ·) ids pivot (ids.filter (pivot < ·)).getLast? := by
  have hhead := @isNearest_head (· > ·) ids.reverse _ (List.pairwise_reverse.mpr h) pivot
  rw [List.filter_reverse, List.head?_reverse] at hhead
  exact hhead.congr fun id => List.mem_reverse

end Nearest

namespace Search

variable {s : Store} {predicates : List Predicate} {pivot : UInt64}

/-- The neighbours of a pivot are the nearest matches below and above it, whether or not it is a match or the id of an
image, unless the engine refuses to look. A pivot from 2⁶³ on counts as one below all ids: nothing lies before it, and
the least match comes next. -/
theorem neighbours_nearest (engine : Engine) (hs : s.Reachable) (hp : Predicate.AllInterpreted .image predicates)
    (hpos : pivot ≠ 0) :
    ∃ plan found, Plan.ofPredicates predicates .image = .ok plan ∧ s.found .image predicates = .ok found ∧
      (engine.neighbourRefusal? s plan pivot = none →
        ∃ beside, (Search.neighbours predicates pivot (engine.source (.ready s))).result = .ok beside ∧
          (pivot.toNat < 2 ^ 63 →
            IsNearest (· < ·) found pivot beside.previous ∧ IsNearest (· > ·) found pivot beside.next) ∧
          (2 ^ 63 ≤ pivot.toNat → beside.previous = none ∧ IsNearest (· > ·) found 0 beside.next)) ∧
      ∀ fault, engine.neighbourRefusal? s plan pivot = some fault →
        (Search.neighbours predicates pivot (engine.source (.ready s))).result = .error (.store (.database fault)) := by
  have hs := hs.consistent
  obtain ⟨plan, hplan⟩ := hp.exists_plan
  have hmem : ∀ id, id ∈ s.newest plan ↔ id ∈ s.listed plan := fun id => (Store.newest_perm hs plan).mem_iff
  have hsorted := Store.newest_descending hs plan
  have hresult := @Store.result_neighbours_landmark engine s plan pivot predicates hs hplan hpos
  refine ⟨plan, s.listed plan, hplan, Store.found_eq hplan, fun hnone => ?_, fun fault hfault => ?_⟩
  · rw [hnone] at hresult
    have hbelow := (isNearest_below hsorted (Store.landmark pivot)).congr hmem
    have habove := (isNearest_above hsorted (Store.landmark pivot)).congr hmem
    refine ⟨_, hresult, fun hlt => ?_, fun hle => ?_⟩
    · rw [Store.landmark_of_lt hlt] at hbelow habove ⊢
      exact ⟨hbelow, habove⟩
    · rw [Store.landmark_of_le hle] at habove ⊢
      refine ⟨?_, habove⟩
      have hzero : (s.newest plan).filter (· < 0) = [] :=
        List.filter_eq_nil_iff.mpr fun id _ => by simp
      rw [hzero]
      rfl
  · rw [hfault] at hresult
    exact hresult

/-- The predicate of a query for the sky. -/
def skyWanted : Predicate := .ofTag ⟨1, "sky", "", 1, none, 0, false⟩ false

lemma allInterpreted_sky : Predicate.AllInterpreted .image [skyWanted] := by
  intro p hp hmeta
  rw [List.mem_singleton.mp hp] at hmeta
  cases hmeta

lemma ofPredicates_sky : Plan.ofPredicates [skyWanted] .image =
    .ok ⟨.image, .all [.isIn (.carryingEvery .image [1])], none⟩ := rfl

lemma newest_sky : Store.sample.newest ⟨.image, .all [.isIn (.carryingEvery .image [1])], none⟩ = [2, 1] := by
  have hs : Store.Consistent .sample := (Store.Reachable.empty.run _).consistent
  have hmatching : (Store.sample.matchingEntities .image (.all [.isIn (.carryingEvery .image [1])])).map Entity.id =
      [1, 2] := by
    decide +kernel
  have hperm : (Store.sample.newest ⟨.image, .all [.isIn (.carryingEvery .image [1])], none⟩).Perm [1, 2] :=
    hmatching ▸ (Store.newest_perm hs _).trans (Store.listed_perm hs _)
  refine (hperm.trans (List.Perm.swap 2 1 [])).eq_of_pairwise ?_ (Store.newest_descending hs _) (by decide)
  exact fun a b _ _ hab hba => absurd hab (UInt64.lt_asymm hba)

lemma mem_found_sky {found : List UInt64} (h : Store.sample.found .image [skyWanted] = .ok found) (id : UInt64) :
    id ∈ found ↔ id ∈ ([2, 1] : List UInt64) := by
  have hs : Store.Consistent .sample := (Store.Reachable.empty.run _).consistent
  obtain rfl := Except.ok.inj ((Store.found_eq ofPredicates_sky).symm.trans h)
  rw [← newest_sky]
  exact (Store.newest_perm hs _).mem_iff.symm

/-- A pivot behind all images. -/
theorem nearest_of_seven :
    ∃ beside, (Search.neighbours [skyWanted] 7 (Database.ready .sample).source).result = .ok beside ∧
      beside.previous = some 2 ∧ beside.next = none := by
  have hs : Store.Reachable .sample := Store.Reachable.empty.run _
  obtain ⟨plan, found, hplan, hfound, hanswered, _⟩ :=
    @neighbours_nearest .sample [skyWanted] 7 .standard hs allInterpreted_sky (by decide)
  obtain rfl := Except.ok.inj (ofPredicates_sky.symm.trans hplan)
  have hmem := mem_found_sky hfound
  obtain ⟨beside, hresult, hnear, _⟩ := hanswered (neighbourRefusal_sky 7)
  obtain ⟨hbelow, habove⟩ := hnear (by decide)
  have hprevious : IsNearest (· < ·) [2, 1] 7 (some 2) := by
    refine ⟨.head _, by decide, fun other hother _ hne => ?_⟩
    rw [List.mem_singleton.mp ((List.mem_cons.mp hother).resolve_left hne)]
    decide
  have hnext : IsNearest (· > ·) [2, 1] 7 none := by
    intro other hother
    rcases List.mem_cons.mp hother with rfl | hother
    · decide
    · rw [List.mem_singleton.mp hother]
      decide
  exact ⟨beside, hresult, (hbelow.congr hmem).unique (fun a b => UInt64.lt_asymm) hprevious,
    (habove.congr hmem).unique (fun a b => UInt64.lt_asymm) hnext⟩

/-- A pivot of 2⁶³ lies above both images, but nothing is found before it, and the first image comes next. -/
theorem pivot_overflows :
    Store.Reachable .sample ∧ Predicate.AllInterpreted .image [skyWanted] ∧
      (∃ found, Store.sample.found .image [skyWanted] = .ok found ∧ 1 ∈ found ∧ 2 ∈ found) ∧
      2 < UInt64.ofNat (2 ^ 63) ∧
      (Search.neighbours [skyWanted] (UInt64.ofNat (2 ^ 63)) (Database.ready .sample).source).result =
        .ok ⟨none, some 1⟩ := by
  have hs : Store.Reachable .sample := Store.Reachable.empty.run _
  have hfound := @Store.found_eq .sample _ _ _ ofPredicates_sky
  have hmem := mem_found_sky hfound
  refine ⟨hs, allInterpreted_sky, ⟨_, hfound, (hmem 1).mpr (by decide), (hmem 2).mpr (by decide)⟩, by decide, ?_⟩
  rw [Store.result_neighbours_landmark hs.consistent ofPredicates_sky (by decide), neighbourRefusal_sky, newest_sky,
    Store.landmark_of_le (by decide)]
  rfl

end Search
end TagSearch
