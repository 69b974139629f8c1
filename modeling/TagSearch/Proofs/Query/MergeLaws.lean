import TagSearch.Proofs.Query.Merge

/-! The laws of merging. A merge is the list of the first predicates of all names, so lists may be merged in any
grouping, and a list that is merged twice counts once. -/
namespace TagSearch.Query

/-- The predicates that are the first ones of their names. -/
def leading (predicates : List Predicate) : List Predicate :=
  (predicates.zipIdx.filter fun x : Predicate × ℕ => ∀ q ∈ predicates.take x.2, q.name ≠ x.1.name).map Prod.fst

/-- The predicates of a filter whose names the query does not have, nor the filter in front of them. -/
def additional (query stored : List Predicate) : List Predicate :=
  (stored.zipIdx.filter fun x : Predicate × ℕ =>
    (∀ q ∈ query, q.name ≠ x.1.name) ∧ ∀ q ∈ stored.take x.2, q.name ≠ x.1.name).map Prod.fst

variable {query stored other : List Predicate}

lemma leading_eq (predicates : List Predicate) :
    leading predicates = firstOfKey (fun p : Predicate => p.name) predicates :=
  (firstOfKey_eq_filter _ _).symm

lemma additional_eq (query stored : List Predicate) : additional query stored = surviving query stored := by
  rw [surviving, firstOfKey_eq_filter, List.filter_map, List.filter_filter, additional]
  refine congrArg (List.map Prod.fst) (List.filter_congr fun x _ => ?_)
  rw [Bool.decide_and]
  congr 1
  simp [eq_comm]

/-- The names of a merge are pairwise distinct. -/
lemma names_merge_nodup (query stored : List Predicate) : ((merge query stored).map fun p => p.name).Nodup :=
  List.pairwise_map.mpr (firstOfKey_pairwise _ _)

/-- No name is lost by a merge, and none comes in. -/
lemma mem_names_merge {name : String} :
    name ∈ (merge query stored).map (fun p => p.name) ↔
      name ∈ query.map (fun p => p.name) ∨ name ∈ stored.map fun p => p.name := by
  rw [merge, mem_map_firstOfKey, List.map_append, List.mem_append, List.map_map]
  rfl

/-- A merge that is marked as a whole is as if both sides had been marked before. -/
lemma map_asUserFilter_merge (query stored : List Predicate) :
    (merge query stored).map Predicate.asUserFilter =
      firstOfKey (fun p : Predicate => p.name)
        (query.map Predicate.asUserFilter ++ stored.map Predicate.asUserFilter) := by
  have hmap := firstOfKey_map (fun p : Predicate => p.name) Predicate.asUserFilter
    (query ++ stored.map Predicate.asUserFilter)
  rw [List.map_append, List.map_map] at hmap
  exact hmap.symm

/-- Filters may be merged with each other first. -/
lemma merge_assoc (query stored other : List Predicate) :
    merge (merge query stored) other = merge query (merge stored other) := by
  calc merge (merge query stored) other
      = firstOfKey (fun p : Predicate => p.name)
          (query ++ stored.map Predicate.asUserFilter ++ other.map Predicate.asUserFilter) :=
        firstOfKey_firstOfKey_append _ _ _
    _ = firstOfKey (fun p : Predicate => p.name) (query ++ (merge stored other).map Predicate.asUserFilter) := by
        rw [map_asUserFilter_merge, firstOfKey_append_firstOfKey, List.append_assoc]

/-- A filter that is merged again adds nothing. -/
lemma merge_merge_self (query stored : List Predicate) : merge (merge query stored) stored = merge query stored := by
  have hnone : surviving (merge query stored) stored = [] := by
    refine List.filter_eq_nil_iff.mpr fun p hp => ?_
    have hname : p.name ∈ (merge query stored).map fun q => q.name :=
      mem_names_merge.mpr (.inr (List.mem_map_of_mem (mem_of_mem_firstOfKey _ hp)))
    simpa using hname
  rw [merge_eq, hnone, List.map_nil, List.append_nil]
  exact firstOfKey_eq_self _ (firstOfKey_pairwise _ _)

/-- The laws of merging. The first predicate of a name counts: those of the query stay as they are, and behind them
come, marked, those of the filter whose names are new. Filters may be merged in any grouping, and twice as well as
once. -/
theorem merge_laws (query stored other : List Predicate) :
    ((merge query stored).map fun p => p.name).Nodup ∧
      (∀ name, name ∈ (merge query stored).map (fun p => p.name) ↔
        name ∈ query.map (fun p => p.name) ∨ name ∈ stored.map fun p => p.name) ∧
      merge query stored =
        leading query ++ (additional query stored).map (fun p => { p with fromUserFilter := true }) ∧
      merge (merge query stored) other = merge query (merge stored other) ∧
      merge (merge query stored) stored = merge query stored := by
  refine ⟨names_merge_nodup query stored, fun name => mem_names_merge, ?_, merge_assoc query stored other,
    merge_merge_self query stored⟩
  rw [leading_eq, additional_eq]
  exact merge_eq

/-- The sign of a query counts against that of its filter. -/
example : merge [.unknown "explicit" false] [.unknown "explicit" true, .unknown "gore" true] =
    [.unknown "explicit" false, (Predicate.unknown "gore" true).asUserFilter] := by
  decide

end TagSearch.Query
