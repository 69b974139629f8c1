import TagSearch.Proofs.Inquiry
import TagSearch.Proofs.Query.Filter

/-! Whatever parses can be searched. The predicates that texts give have a plan, so only the catalog can keep a search
of them from its answer. -/
namespace TagSearch

/-- The catalog did not answer. -/
def SearchError.IsStore : SearchError → Prop
  | store _ => True
  | _ => False

namespace Query

/-- The predicates that texts give for a kind: those of a query or of a stored filter, or of a query under a filter.
Different states of the catalog may have been asked. -/
inductive IsParsed (kind : Kind) : List Predicate → Prop
  | query {raw source predicates} (h : (parse raw kind source).result = .ok predicates) : IsParsed kind predicates
  | userFilter {user source predicates} (h : (userFilterPredicates user kind source).result = .ok predicates) :
      IsParsed kind predicates
  | forUser {raw user source predicates} (h : (parseFor raw user kind source).result = .ok predicates) :
      IsParsed kind predicates
  | filtered {query filter source predicates} (hquery : IsParsed kind query)
      (h : (mergeFilterText query filter kind source).result = .ok predicates) : IsParsed kind predicates

variable {kind : Kind} {source : Source} {raw : String} {predicates : List Predicate}

lemma allInterpreted_asUserFilter (h : Predicate.AllInterpreted kind predicates) :
    Predicate.AllInterpreted kind (predicates.map Predicate.asUserFilter) := by
  intro p hp hmeta
  obtain ⟨q, hq, rfl⟩ := List.mem_map.mp hp
  exact h q hq hmeta

lemma allInterpreted_userFilterPredicates {user : UInt64}
    (h : (userFilterPredicates user kind source).result = .ok predicates) :
    Predicate.AllInterpreted kind predicates := by
  obtain ⟨filter, _, h⟩ := (Inquiry.result_bind_eq_ok source).mp h
  obtain ⟨stored, hstored, h⟩ := (Inquiry.result_bind_eq_ok source).mp h
  cases h
  exact allInterpreted_asUserFilter (allInterpreted_of_parse hstored)

/-- The metatags among the predicates that texts give are interpreted. -/
theorem IsParsed.allInterpreted (h : IsParsed kind predicates) : Predicate.AllInterpreted kind predicates := by
  induction h with
  | query h => exact allInterpreted_of_parse h
  | userFilter h => exact allInterpreted_userFilterPredicates h
  | @forUser raw user source predicates h =>
    obtain ⟨query, hquery, h⟩ := (Inquiry.result_bind_eq_ok source).mp h
    have hquery := allInterpreted_of_parse hquery
    cases user with
    | none =>
      cases h
      exact hquery
    | some user =>
      obtain ⟨stored, hstored, h⟩ := (Inquiry.result_bind_eq_ok source).mp h
      cases h
      exact allInterpreted_merge hquery (allInterpreted_userFilterPredicates hstored)
  | @filtered query filter source predicates _ h ih =>
    obtain ⟨stored, hstored, h⟩ := (Inquiry.result_bind_eq_ok source).mp h
    cases h
    exact allInterpreted_merge ih (allInterpreted_of_parse hstored)

lemma metatag_first_merge {query stored : List Predicate} {p : Predicate} (hp : p ∈ merge query stored) :
    p ∈ firstOfKey (fun q : Predicate => q.name) (merge query stored) := by
  rwa [merge, firstOfKey_eq_self _ (firstOfKey_pairwise _ _)]

lemma metatag_first_userFilter {user : UInt64}
    (h : (userFilterPredicates user kind source).result = .ok predicates) {p : Predicate} (hp : p ∈ predicates)
    {c : MetaCondition} (hc : p.condition = some c) : p ∈ firstOfKey (fun q : Predicate => q.name) predicates := by
  obtain ⟨filter, _, h⟩ := (Inquiry.result_bind_eq_ok source).mp h
  obtain ⟨stored, hstored, h⟩ := (Inquiry.result_bind_eq_ok source).mp h
  cases h
  obtain ⟨q, hq, rfl⟩ := List.mem_map.mp hp
  rw [firstOfKey_map]
  exact List.mem_map_of_mem (metatag_first hstored hq hc)

/-- A metatag among the predicates that texts give is the first predicate of its name. -/
theorem IsParsed.metatag_first (h : IsParsed kind predicates) {p : Predicate} (hp : p ∈ predicates)
    {c : MetaCondition} (hc : p.condition = some c) : p ∈ firstOfKey (fun q : Predicate => q.name) predicates := by
  cases h with
  | query h => exact Query.metatag_first h hp hc
  | userFilter h => exact metatag_first_userFilter h hp hc
  | @forUser raw user source _ h =>
    obtain ⟨query, hquery, h⟩ := (Inquiry.result_bind_eq_ok source).mp h
    cases user with
    | none =>
      cases h
      exact Query.metatag_first hquery hp hc
    | some user =>
      obtain ⟨stored, _, h⟩ := (Inquiry.result_bind_eq_ok source).mp h
      cases h
      exact metatag_first_merge hp
  | @filtered query filter source _ _ h =>
    obtain ⟨stored, _, h⟩ := (Inquiry.result_bind_eq_ok source).mp h
    cases h
    exact metatag_first_merge hp

end Query

namespace Search

variable {kind : Kind} {source : Source} {predicates : List Predicate} {plan : Plan}

lemma failsOnly_run {α : Type} {fetch : Sql.Statement → Inquiry (List α)}
    (hfetch : ∀ statement, Inquiry.FailsOnly SearchError.IsStore (fetch statement) source) (plan : Plan)
    (start stride : UInt64) : Inquiry.FailsOnly SearchError.IsStore (run plan start stride fetch) source := by
  rw [run]
  split
  · exact Inquiry.failsOnly_pure _
  · refine (Inquiry.failsOnly_ask (fun _ => trivial) _).bind fun _ => ?_
    refine (Inquiry.failsOnly_ask (fun _ => trivial) _).bind fun total => ?_
    split
    · exact Inquiry.failsOnly_pure _
    · exact (hfetch _).bind fun _ => Inquiry.failsOnly_pure _

lemma failsOnly_ofPlan {α : Type} {allowed : SearchError → Prop} {f : Plan → Inquiry α}
    (hplan : Plan.ofPredicates predicates kind = .ok plan) (hf : Inquiry.FailsOnly allowed (f plan) source) :
    Inquiry.FailsOnly allowed (Inquiry.ofExcept (Plan.ofPredicates predicates kind) >>= f) source := by
  rw [hplan]
  exact hf

lemma failsOnly_images (hplan : Plan.ofPredicates predicates .image = .ok plan) (start stride : UInt64) :
    Inquiry.FailsOnly SearchError.IsStore (images predicates start stride) source :=
  failsOnly_ofPlan hplan (failsOnly_run (fun _ => Inquiry.failsOnly_ask (fun _ => trivial) _) plan start stride)

lemma failsOnly_collections (hplan : Plan.ofPredicates predicates .collection = .ok plan) (start stride : UInt64) :
    Inquiry.FailsOnly SearchError.IsStore (collections predicates start stride) source :=
  failsOnly_ofPlan hplan (failsOnly_run (fun _ => Inquiry.failsOnly_ask (fun _ => trivial) _) plan start stride)

lemma failsOnly_neighbours (hplan : Plan.ofPredicates predicates .image = .ok plan) {pivot : UInt64}
    (hpivot : pivot ≠ 0) : Inquiry.FailsOnly SearchError.IsStore (neighbours predicates pivot) source := by
  rw [neighbours, if_neg hpivot]
  refine failsOnly_ofPlan hplan ?_
  split
  · exact Inquiry.failsOnly_pure _
  · refine (Inquiry.failsOnly_ask (fun _ => trivial) _).bind fun _ => ?_
    refine (Inquiry.failsOnly_ask (fun _ => trivial) _).bind fun previous => ?_
    exact (Inquiry.failsOnly_ask (fun _ => trivial) _).bind fun next => Inquiry.failsOnly_pure _

lemma failsOnly_randomImage (hplan : Plan.ofPredicates predicates .image = .ok plan) (draw : UInt64 → UInt64) :
    Inquiry.FailsOnly (fun e => e.IsStore ∨ e = .noResults) (randomImage predicates draw) source := by
  refine failsOnly_ofPlan hplan ?_
  split
  · exact Inquiry.failsOnly_fail (.inr rfl)
  · refine (Inquiry.failsOnly_ask (fun _ => .inl trivial) _).bind fun _ => ?_
    refine (Inquiry.failsOnly_ask (fun _ => .inl trivial) _).bind fun total => ?_
    split
    · exact Inquiry.failsOnly_fail (.inr rfl)
    · refine (Inquiry.failsOnly_ask (fun _ => .inl trivial) _).bind fun found => ?_
      cases found with
      | nil => exact Inquiry.failsOnly_fail (.inr rfl)
      | cons image rest => exact Inquiry.failsOnly_pure _

/-- The predicates that texts give for a kind have a plan for that kind. So a search of them fails only if the catalog
does not answer, and a random image may also be missing because nothing matches. -/
theorem searchable_of_isParsed (h : Query.IsParsed kind predicates) :
    (∃ plan, Plan.ofPredicates predicates kind = .ok plan) ∧
      ∀ source,
        (kind = .collection → ∀ start stride,
          Inquiry.FailsOnly SearchError.IsStore (collections predicates start stride) source) ∧
        (kind = .image →
          (∀ start stride, Inquiry.FailsOnly SearchError.IsStore (images predicates start stride) source) ∧
          (∀ pivot, pivot ≠ 0 → Inquiry.FailsOnly SearchError.IsStore (neighbours predicates pivot) source) ∧
          ∀ draw, Inquiry.FailsOnly (fun e => e.IsStore ∨ e = .noResults) (randomImage predicates draw) source) := by
  obtain ⟨plan, hplan⟩ := h.allInterpreted.exists_plan
  refine ⟨⟨plan, hplan⟩, fun source => ⟨?_, ?_⟩⟩
  · rintro rfl start stride
    exact failsOnly_collections hplan start stride
  · rintro rfl
    exact ⟨failsOnly_images hplan, fun pivot hpivot => failsOnly_neighbours hplan hpivot, failsOnly_randomImage hplan⟩

/-- A query under a stored filter, of which it overrides the score. -/
theorem filtered_query_searchable :
    ∃ predicates, (Query.parseFor "-name:draft score:>3" (some 1) .image
        (Database.ready (Store.sample.run [.setUserFilter 1 "score:<3 rating:unrated"])).source).result =
          .ok predicates ∧
      (∃ plan, Plan.ofPredicates predicates .image = .ok plan) ∧
      ∀ source start stride,
        Inquiry.FailsOnly SearchError.IsStore (images predicates start stride) source := by
  have h : (Query.parseFor "-name:draft score:>3" (some 1) .image
      (Database.ready (Store.sample.run [.setUserFilter 1 "score:<3 rating:unrated"])).source).result =
    .ok [.ofCondition ⟨"name", .pattern "%draft%", .notLike⟩ true, .ofCondition ⟨"score", .integer 3, .gt⟩ false,
      (Predicate.ofCondition ⟨"rating", .text "unrated", .eq⟩ false).asUserFilter] := rfl
  obtain ⟨hplan, hsearch⟩ := searchable_of_isParsed (.forUser h)
  exact ⟨_, h, hplan, fun source start stride => ((hsearch source).2 rfl).1 start stride⟩

end Search
end TagSearch
