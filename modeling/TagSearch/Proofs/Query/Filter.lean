import TagSearch.Proofs.Query.Merge
import TagSearch.Proofs.Search.Window

/-! Searches under the stored filter of a user. What is found satisfies every predicate of the filter that the query
does not override. -/
namespace TagSearch.Query

variable {kind : Kind} {raw : String} {query stored : List Predicate} {s : Store} {e : Entity}

lemma allInterpreted_merge (hquery : Predicate.AllInterpreted kind query)
    (hstored : Predicate.AllInterpreted kind stored) : Predicate.AllInterpreted kind (merge query stored) := by
  intro p hp hmeta
  rcases List.mem_append.mp (mem_of_mem_firstOfKey _ hp) with hp | hp
  · exact hquery p hp hmeta
  · obtain ⟨q, hq, rfl⟩ := List.mem_map.mp hp
    exact hstored q hq hmeta

/-- A merge asks for what the first predicates of the names ask for. -/
lemma satisfies_merge :
    (∀ p ∈ merge query stored, s.Satisfies e p) ↔
      ∀ before p after, query ++ stored = before ++ p :: after → (∀ q ∈ before, q.name ≠ p.name) →
        s.Satisfies e p := by
  have hmarks : (∀ p ∈ merge query stored, s.Satisfies e p) ↔
      ∀ p ∈ firstOfKey (fun p : Predicate => p.name) (query ++ stored), s.Satisfies e p := by
    rw [merge_eq, firstOfKey_eq, List.forall_mem_append, List.forall_mem_append, List.forall_mem_map]
    simp only [Store.satisfies_asUserFilter]
  rw [hmarks]
  constructor
  · intro h before p after hlist hbefore
    exact h p ((mem_firstOfKey _).mpr ⟨before, after, hlist, hbefore⟩)
  · intro h p hp
    obtain ⟨before, after, hlist, hbefore⟩ := (mem_firstOfKey _).mp hp
    exact h before p after hlist hbefore

/-- The stored filter of a user is enforced: a search under it finds what satisfies every predicate of the query and
of the filter that is the first of its name. -/
theorem stored_filter_enforced {user : UInt64} {filter : String} (hs : s.Reachable)
    (hfilter : s.userFilter? user = some filter)
    (hquery : (parse raw kind (Database.ready s).source).result = .ok query)
    (hstored : (parse filter kind (Database.ready s).source).result = .ok stored) :
    ∃ merged ids, (parseFor raw (some user) kind (Database.ready s).source).result = .ok merged ∧
      (mergeFilterText query filter kind (Database.ready s).source).result = .ok merged ∧
      (∀ p, p ∈ merged ∧ p.fromUserFilter = true ↔ ∃ before q after, stored = before ++ q :: after ∧
        (∀ r ∈ query ++ before, r.name ≠ q.name) ∧ p = q.asUserFilter) ∧
      s.found kind merged = .ok ids ∧
      (∀ e, s.Has e → e.kind = kind → (e.id ∈ ids ↔ ∀ before p after, query ++ stored = before ++ p :: after →
        (∀ q ∈ before, q.name ≠ p.name) → s.Satisfies e p)) ∧
      (∀ e, s.Has e → e.kind = kind → e.id ∈ ids → ∀ before p after, stored = before ++ p :: after →
        (∀ q ∈ query ++ before, q.name ≠ p.name) → s.Satisfies e p) ∧
      (kind = .image → ∀ page, (Search.images merged 0 0 (Database.ready s).source).result = .ok page →
        page.items.map ImageSummary.id = ids) ∧
      (kind = .collection → ∀ page, (Search.collections merged 0 0 (Database.ready s).source).result = .ok page →
        page.items.map CollectionSummary.id = ids) := by
  have hp : Predicate.AllInterpreted kind (merge query stored) :=
    allInterpreted_merge (allInterpreted_of_parse hquery) (allInterpreted_of_parse hstored)
  have huser : (Database.ready s).source.userFilter user = .ok filter := by
    simp only [Engine.source, Database.answer, hfilter]
  obtain ⟨ids, hids⟩ := Store.exists_found (s := s) hp
  have hfound : ∀ e, s.Has e → e.kind = kind → (e.id ∈ ids ↔ ∀ before p after,
      query ++ stored = before ++ p :: after → (∀ q ∈ before, q.name ≠ p.name) → s.Satisfies e p) := by
    intro e hhas he
    rw [Store.mem_found hs.consistent hp hids hhas he, satisfies_merge]
  refine ⟨_, ids, result_parseFor huser hquery hstored, result_mergeFilterText hstored, fun p => ?_, hids, hfound,
    ?_, ?_, ?_⟩
  · rw [mem_merge_marked hquery]
    constructor
    · rintro ⟨q, hq, rfl⟩
      obtain ⟨before, after, hlist, hfirst⟩ := mem_surviving.mp hq
      exact ⟨before, q, after, hlist, hfirst, rfl⟩
    · rintro ⟨before, q, after, hlist, hfirst, rfl⟩
      exact ⟨q, mem_surviving.mpr ⟨before, after, hlist, hfirst⟩, rfl⟩
  · intro e hhas he hid before p after hlist hfirst
    exact (hfound e hhas he).mp hid (query ++ before) p after (by rw [hlist, List.append_assoc]) hfirst
  · rintro rfl page hpage
    exact Except.ok.inj ((Store.found_of_images hs.consistent hpage).symm.trans hids)
  · rintro rfl page hpage
    exact Except.ok.inj ((Store.found_of_collections hs.consistent hpage).symm.trans hids)

/-- A filter with two metatags, of which the query overrides the first. -/
theorem stored_filter_of_sample :
    ∃ merged ids, (parseFor "score:>3" (some 1) .image
        (Database.ready (Store.sample.run [.setUserFilter 1 "score:<3 rating:unrated"])).source).result = .ok merged ∧
      (Store.sample.run [.setUserFilter 1 "score:<3 rating:unrated"]).found .image merged = .ok ids ∧
      2 ∈ ids ∧ 1 ∉ ids := by
  obtain ⟨merged, ids, hmerged, _, _, hids, hmem, _⟩ := @stored_filter_enforced .image "score:>3"
    [.ofCondition ⟨"score", .integer 3, .gt⟩ false]
    [.ofCondition ⟨"score", .integer 3, .lt⟩ false, .ofCondition ⟨"rating", .text "unrated", .eq⟩ false]
    (Store.sample.run [.setUserFilter 1 "score:<3 rating:unrated"]) 1 "score:<3 rating:unrated"
    ((Store.Reachable.empty.run _).run _) rfl rfl rfl
  have hdusk : (Store.sample.run [.setUserFilter 1 "score:<3 rating:unrated"]).Has
      (.image ⟨2, "dusk", "/dusk.png", 1, "unrated", 4, 8, 2⟩) := by
    change _ ∈ Store.images _
    decide
  have hdawn : (Store.sample.run [.setUserFilter 1 "score:<3 rating:unrated"]).Has
      (.image ⟨1, "dawn", "/dawn.png", 1, "unrated", 0, 0, 0⟩) := by
    change _ ∈ Store.images _
    decide
  refine ⟨merged, ids, hmerged, hids, (hmem _ hdusk rfl).mpr fun before p after hlist hfirst => ?_, fun h => ?_⟩
  · rcases before with _ | ⟨q, _ | ⟨r, _ | ⟨t, before⟩⟩⟩
    · cases hlist
      refine ⟨.integer 4, rfl, ?_⟩
      change (3 : Int64).toInt < (4 : Int64).toInt
      decide
    · cases hlist
      exact absurd rfl (hfirst (.ofCondition ⟨"score", .integer 3, .gt⟩ false) List.mem_cons_self)
    · cases hlist
      exact ⟨.text "unrated", rfl, rfl⟩
    · simp at hlist
  · obtain ⟨stored, hstored, hlt⟩ := (hmem _ hdawn rfl).mp h [] _ _ rfl (by simp)
    cases hstored
    change (3 : Int64).toInt < (0 : Int64).toInt at hlt
    revert hlt
    decide

end TagSearch.Query
