import TagSearch.Proofs.Query.Parse
import TagSearch.Proofs.Search.Found

/-! Queries that are merged with a stored filter. A filter's predicate stays unless a predicate of the same name
stands in front of it, and plain tags share their names with metatags. -/
namespace TagSearch.Query

variable {kind : Kind} {source : Source} {raw : String} {query stored : List Predicate}

/-- The predicates of a filter that stay behind a query: the first of each name that the query does not have. -/
def surviving (query stored : List Predicate) : List Predicate :=
  (firstOfKey (fun p : Predicate => p.name) stored).filter fun p => p.name ∉ query.map fun q => q.name

lemma mem_surviving {p : Predicate} :
    p ∈ surviving query stored ↔
      ∃ before after, stored = before ++ p :: after ∧ ∀ q ∈ query ++ before, q.name ≠ p.name := by
  simp only [surviving, List.mem_filter, mem_firstOfKey, decide_eq_true_eq, List.mem_map, not_exists, not_and,
    List.forall_mem_append]
  constructor
  · rintro ⟨⟨before, after, hstored, hbefore⟩, hquery⟩
    exact ⟨before, after, hstored, hquery, hbefore⟩
  · rintro ⟨before, after, hstored, hquery, hbefore⟩
    exact ⟨⟨before, after, hstored, hbefore⟩, hquery⟩

/-- A merge is the query without repeated names, followed by what survives of the filter. -/
theorem merge_eq :
    merge query stored =
      firstOfKey (fun p : Predicate => p.name) query ++ (surviving query stored).map Predicate.asUserFilter := by
  rw [merge, firstOfKey_append, firstOfKey_map, List.filter_map]
  rfl

lemma firstOfKey_eq :
    firstOfKey (fun p : Predicate => p.name) (query ++ stored) =
      firstOfKey (fun p : Predicate => p.name) query ++ surviving query stored :=
  firstOfKey_append _ _ _

/-- Marking a filter once more changes nothing. -/
lemma merge_map_asUserFilter : merge query (stored.map Predicate.asUserFilter) = merge query stored := by
  rw [merge, merge, List.map_map]
  rfl

lemma result_mergeFilterText {filter : String} (h : (parse filter kind source).result = .ok stored) :
    (mergeFilterText query filter kind source).result = .ok (merge query stored) := by
  rw [mergeFilterText, Inquiry.result_bind, h]
  rfl

lemma result_parseFor {filter : String} {user : UInt64} (hfilter : source.userFilter user = .ok filter)
    (hquery : (parse raw kind source).result = .ok query) (hstored : (parse filter kind source).result = .ok stored) :
    (parseFor raw (some user) kind source).result = .ok (merge query stored) := by
  have hask : (Inquiry.userFilter user source).result = .ok filter := by
    rw [Inquiry.userFilter, Inquiry.ask, hfilter]
    rfl
  have huser : (userFilterPredicates user kind source).result = .ok (stored.map Predicate.asUserFilter) := by
    refine (Inquiry.result_bind_eq_ok source).mpr ⟨filter, hask, ?_⟩
    exact (Inquiry.result_bind_eq_ok source).mpr ⟨stored, hstored, rfl⟩
  refine (Inquiry.result_bind_eq_ok source).mpr ⟨query, hquery, ?_⟩
  refine (Inquiry.result_bind_eq_ok source).mpr ⟨stored.map Predicate.asUserFilter, huser, ?_⟩
  exact congrArg Except.ok merge_map_asUserFilter

/-- The marked predicates of a merge are those that survive of the filter. -/
lemma mem_merge_marked (h : (parse raw kind source).result = .ok query) {p : Predicate} :
    p ∈ merge query stored ∧ p.fromUserFilter = true ↔ ∃ q ∈ surviving query stored, p = q.asUserFilter := by
  rw [merge_eq, List.mem_append, List.mem_map]
  constructor
  · rintro ⟨hp | ⟨q, hq, rfl⟩, hmark⟩
    · rw [fresh_of_parse h (mem_of_mem_firstOfKey _ hp)] at hmark
      cases hmark
    · exact ⟨q, hq, rfl⟩
  · rintro ⟨q, hq, rfl⟩
    exact ⟨.inr ⟨q, hq, rfl⟩, rfl⟩

/-- What stays of a filter has a name that the query does not have. -/
lemma name_ne_of_mem_merge (hquery : (parse raw kind source).result = .ok query) {p : Predicate}
    (h : p.asUserFilter ∈ merge query stored) : ∀ q ∈ query, q.name ≠ p.name := by
  obtain ⟨q, hq, hpq⟩ := (mem_merge_marked hquery).mp ⟨h, rfl⟩
  have hname := congrArg (fun r : Predicate => r.name) hpq
  change p.name = q.name at hname
  obtain ⟨before, after, _, hfirst⟩ := mem_surviving.mp hq
  intro r hr
  rw [hname]
  exact hfirst r (List.mem_append_left _ hr)

/-- The first predicate of a name in a filter stays exactly when the query has no predicate of the name. -/
lemma mem_merge_iff_of_first (hquery : (parse raw kind source).result = .ok query) {p : Predicate}
    (hfirst : p ∈ firstOfKey (fun q : Predicate => q.name) stored) :
    p.asUserFilter ∈ merge query stored ↔ ∀ q ∈ query, q.name ≠ p.name := by
  refine ⟨name_ne_of_mem_merge hquery, fun hnames => ?_⟩
  have hsurvives : p ∈ surviving query stored := by
    refine List.mem_filter.mpr ⟨hfirst, ?_⟩
    simpa [eq_comm] using hnames
  exact ((mem_merge_marked hquery).mpr ⟨p, hsurvives, rfl⟩).1

/-- The token is a metatag that a row of the registry describes for the kind. -/
def Token.IsMetatag (kind : Kind) (d : Metatag.Descriptor) (t : Token) : Prop :=
  ∃ name comparator value, normalize t.text = .metatag name comparator value ∧ Metatag.lookup? name kind = some d

lemma Token.IsMetatag.key_eq {d : Metatag.Descriptor} {t : Token} (h : t.IsMetatag kind d) :
    (normalize t.text).key kind = d.name := by
  obtain ⟨name, comparator, value, hform, hd⟩ := h
  rw [hform, NormalForm.key, hd]
  rfl

lemma eq_of_name_eq {d d' : Metatag.Descriptor} (hd : d ∈ Metatag.registry) (hd' : d' ∈ Metatag.registry)
    (h : d.name = d'.name) : d = d' := by
  have hrow := Metatag.descriptor?_name hd
  rw [h, Metatag.descriptor?_name hd'] at hrow
  exact (Option.some.inj hrow).symm

lemma name_ne_empty {d : Metatag.Descriptor} (hd : d ∈ Metatag.registry) : d.name ≠ "" := by
  revert d
  decide

/-- Of two entries of one list, one stands before the other or they are the same. -/
lemma mem_before_of_append_eq {α : Type} {before before' after after' : List α} {a a' : α}
    (h : before ++ a :: after = before' ++ a' :: after') : a ∈ before' ∨ a' ∈ before ∨ a = a' := by
  rcases List.append_eq_append_iff.mp h with ⟨gap, rfl, hgap⟩ | ⟨gap, rfl, hgap⟩
  · cases gap with
    | nil => exact .inr (.inr (List.cons.inj hgap).1)
    | cons b gap =>
      obtain ⟨rfl, _⟩ := List.cons.inj hgap
      exact .inl (List.mem_append_right _ List.mem_cons_self)
  · cases gap with
    | nil => exact .inr (.inr (List.cons.inj hgap).1.symm)
    | cons b gap =>
      obtain ⟨rfl, _⟩ := List.cons.inj hgap
      exact .inr (.inl (List.mem_append_right _ List.mem_cons_self))

/-- A query has a metatag of a row exactly when a token for it comes before every tag that is spelled like its key. -/
theorem exists_metatag_iff (h : (parse raw kind source).result = .ok query) {d : Metatag.Descriptor}
    (hd : d ∈ Metatag.registry) :
    (∃ p ∈ query, ∃ c, p.condition = some c ∧ c.key = d.name) ↔
      ∃ before t after, tokenize raw = before ++ t :: after ∧ t.IsMetatag kind d ∧
        ∀ u ∈ before, normalize u.text ≠ .tag d.name := by
  obtain ⟨placed, targets, rfl, hplaced, htargets⟩ := parse_eq_ok h
  constructor
  · rintro ⟨p, hp, c, hc, hkey⟩
    rcases List.mem_append.mp hp with hp | hp
    · obtain ⟨term, hterm, hbecomes⟩ := exists_left_of_mem hplaced hp
      obtain ⟨name, comparator, value, d', hform, hd', hname⟩ := hbecomes.exists_row hc
      obtain rfl := eq_of_name_eq hd (Metatag.mem_registry_of_lookup? hd') (hkey.symm.trans hname.symm)
      obtain ⟨before, t, after, htokens, rfl, _, hbefore⟩ := mem_terms.mp hterm
      have hmeta : t.IsMetatag kind d := ⟨name, comparator, value, hform, hd'⟩
      refine ⟨before, t, after, htokens, hmeta, fun u hu hu' => hbefore u hu ?_⟩
      rw [hu']
      exact hmeta.key_eq.symm
    · exact absurd ((htargets p hp).plain.symm.trans hc) (by simp)
  · rintro ⟨before, t, after, htokens, hmeta, hbefore⟩
    have hkey := hmeta.key_eq
    obtain ⟨term, hterm, hterm'⟩ := exists_term (htokens ▸ List.mem_append_right _ List.mem_cons_self)
      (by rw [hkey]; exact name_ne_empty hd)
    obtain ⟨p, hp, hbecomes⟩ := exists_right_of_mem hplaced hterm
    have hname : p.name = d.name := hbecomes.name_eq_key.trans (hterm'.trans hkey)
    obtain ⟨before', t', after', htokens', rfl, _, hfirst⟩ := mem_terms.mp hterm
    have hform : normalize t'.text ≠ .tag p.name := by
      rw [hname]
      rcases mem_before_of_append_eq (htokens.symm.trans htokens') with ht | ht | rfl
      · exact absurd hterm'.symm (hfirst t ht)
      · exact hbefore t' ht
      · obtain ⟨name, comparator, value, hmetatag, _⟩ := hmeta
        rw [hmetatag]
        exact NormalForm.noConfusion
    obtain ⟨c, hc, hckey⟩ := hbecomes.exists_condition hform
    exact ⟨p, List.mem_append_left _ hp, c, hc, hckey.trans hname⟩

/-- A metatag of a filter stays exactly when the query has no predicate of its name. -/
theorem metatag_survives_iff (hquery : (parse raw kind source).result = .ok query) {filter : String}
    (hstored : (parse filter kind source).result = .ok stored) {p : Predicate} (hp : p ∈ stored)
    {c : MetaCondition} (hc : p.condition = some c) :
    p.asUserFilter ∈ merge query stored ↔ ∀ q ∈ query, q.name ≠ p.name :=
  mem_merge_iff_of_first hquery (metatag_first hstored hp hc)

/-- What displaces a metatag has its name: in a query a tag that is spelled like its key and comes first, and in a
filter any predicate of the query. -/
theorem metatag_displaced_iff {user : UInt64} {filter : String} (hfilter : source.userFilter user = .ok filter)
    (hquery : (parse raw kind source).result = .ok query)
    (hstored : (parse filter kind source).result = .ok stored) :
    (∀ d ∈ Metatag.registry, (∃ p ∈ query, ∃ c, p.condition = some c ∧ c.key = d.name) ↔
      ∃ before t after, tokenize raw = before ++ t :: after ∧ t.IsMetatag kind d ∧
        ∀ u ∈ before, normalize u.text ≠ .tag d.name) ∧
    ∃ merged, (parseFor raw (some user) kind source).result = .ok merged ∧
      ∀ p ∈ stored, ∀ c, p.condition = some c → (p.asUserFilter ∈ merged ↔
        (∀ q ∈ query, ∀ c', q.condition = some c' → c'.key ≠ c.key) ∧
          ∀ q ∈ query, q.condition = none → q.name ≠ c.key) := by
  refine ⟨fun d hd => exists_metatag_iff hquery hd, _, result_parseFor hfilter hquery hstored, fun p hp c hc => ?_⟩
  rw [metatag_survives_iff hquery hstored hp hc, ← key_eq_name hstored hp hc]
  constructor
  · intro hname
    refine ⟨fun q hq c' hc' => ?_, fun q hq _ => hname q hq⟩
    rw [key_eq_name hquery hq hc']
    exact hname q hq
  · rintro ⟨hmeta, hplain⟩ q hq
    cases hc' : q.condition with
    | none => exact hplain q hq hc'
    | some c' =>
      rw [← key_eq_name hquery hq hc']
      exact hmeta q hq c' hc'

theorem metatag_kept_in_sample :
    ∃ merged, (parseFor "score:>3" (some 1) .image
        (Database.ready (Store.sample.run [.setUserFilter 1 "rating:unrated"])).source).result = .ok merged ∧
      (Predicate.ofCondition ⟨"rating", .text "unrated", .eq⟩ false).asUserFilter ∈ merged := by
  obtain ⟨_, merged, hmerged, hkept⟩ := @metatag_displaced_iff .image
    (Database.ready (Store.sample.run [.setUserFilter 1 "rating:unrated"])).source "score:>3"
    [.ofCondition ⟨"score", .integer 3, .gt⟩ false] [.ofCondition ⟨"rating", .text "unrated", .eq⟩ false]
    1 "rating:unrated" rfl rfl rfl
  refine ⟨merged, hmerged, (hkept _ List.mem_cons_self _ rfl).mpr ⟨?_, ?_⟩⟩
  · intro q hq c' hc'
    obtain rfl := List.mem_singleton.mp hq
    cases hc'
    decide
  · intro q hq hplain
    obtain rfl := List.mem_singleton.mp hq
    cases hplain

/-- A tag that is spelled like a metatag displaces it, in a query and from a filter. -/
theorem tag_displaces_metatag :
    ⟨"rating:safe", false⟩ ∈ tokenize "rating rating:safe" ∧
      normalize "rating:safe" = .metatag "rating" .eq "safe" ∧
      (parse "rating rating:safe" .image (Database.ready (Store.empty.run
        [.createUser "ann", .setUserFilter 1 "rating:safe"])).source).result = .ok [.unknown "rating" false] ∧
      (parse "rating:safe" .image (Database.ready (Store.empty.run
        [.createUser "ann", .setUserFilter 1 "rating:safe"])).source).result =
          .ok [.ofCondition ⟨"rating", .text "safe", .eq⟩ false] ∧
      (parseFor "rating" (some 1) .image (Database.ready (Store.empty.run
        [.createUser "ann", .setUserFilter 1 "rating:safe"])).source).result = .ok [.unknown "rating" false] := by
  decide +kernel

end TagSearch.Query
