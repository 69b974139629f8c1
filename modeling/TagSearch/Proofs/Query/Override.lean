import TagSearch.Proofs.Query.Alias
import TagSearch.Proofs.Query.Merge

/-! A stored filter beside a query that names the same tags. The merge goes by name, but a query brings the targets of
its aliases along, so of the filter only an alias may stay beside a tag of the query that it stands for. -/
namespace TagSearch

/-- A source that looks up tags in a table. Names and ids tell the tags apart, and no id is zero. -/
structure Source.Knows (source : Source) (tags : List Tag) : Prop where
  names : (tags.map Tag.name).Nodup
  ids : (tags.map Tag.id).Nodup
  ne_zero : ∀ tag ∈ tags, tag.id ≠ 0
  byNames : AnswersFrom tags Tag.name source.tagsByNames
  byIds : AnswersFrom tags Tag.id source.tagsByIds

namespace Query

/-- Every alias stands for a tag that is there and stands for itself. -/
def AliasesResolved (tags : List Tag) : Prop := ∀ a ∈ tags, a.isAlias = true → ∃ t ∈ tags, IsAliasOf a t

variable {kind : Kind} {source : Source} {raw : String} {tags rows targetRows : List Tag}
  {tokens : List Token} {query stored placed : List Predicate} {p q : Predicate}

/-- A catalog looks up tags in its own table. -/
lemma knows_ready {s : Store} (hs : s.Consistent) : (Database.ready s).source.Knows s.tags where
  names := hs.tagNames
  ids := hs.tagIds.nodup
  ne_zero _ htag := hs.tagIds.ne_zero (List.mem_map_of_mem htag)
  byNames := answersFrom_findTags s "name" Tag.name
  byIds := answersFrom_findTags s "id" Tag.id

/-- What a query that parses is made of: a predicate for each token that counts, and the targets of aliases. -/
structure MadeOf (kind : Kind) (source : Source) (tokens : List Token) (rows targetRows : List Tag)
    (placed query : List Predicate) : Prop where
  names : lookUpNames source tokens = .ok rows
  targets : lookUpTargets source rows tokens = .ok targetRows
  gives : List.Forall₂ (Token.Gives kind source rows) tokens placed
  query_eq : query = placed ++ foundTargets (wantedTargets (resolved rows tokens)) targetRows

lemma exists_madeOf (h : (parse raw kind source).result = .ok query) :
    ∃ rows targetRows placed, MadeOf kind source (keptTokens raw kind) rows targetRows placed query := by
  have hcomes := ((parse_specified raw kind source).1 _).mp h
  cases hcomes with
  | @parsed rows targets placed meant names appended placed_eq =>
    rw [result_resolve (requests_nodup (keptTokens_pairwise raw kind)), names] at appended
    cases htargets : lookUpTargets source rows (keptTokens raw kind) with
    | error e => simp [htargets] at appended
    | ok targetRows =>
      simp only [htargets, Except.ok.injEq, List.append_cancel_left_eq] at appended
      exact ⟨rows, targetRows, placed, names, htargets, placed_eq, by rw [appended]⟩

namespace MadeOf

variable (h : MadeOf kind source tokens rows targetRows placed query)
include h

/-- The tags of a query come from the catalog. -/
lemma mem_resolved (hp : p ∈ placed) (hplain : p.condition = none) : p ∈ resolved rows tokens := by
  obtain ⟨t, ht, hgives⟩ := exists_left_of_mem h.gives hp
  cases hform : normalize t.text with
  | tag name =>
    rw [hgives.tag name hform]
    refine List.mem_map_of_mem (List.mem_filterMap.mpr ⟨t, ht, ?_⟩)
    rw [Token.request?, hform]
  | metatag name comparator value =>
    obtain ⟨d, v, _, _, _, rfl⟩ := Metatag.interpret_eq_ok (hgives.metatag name comparator value hform)
    cases hplain

lemma placed_pairwise (hkeys : tokens.Pairwise fun t u => t.key kind ≠ u.key kind) :
    placed.Pairwise fun p q => p.name ≠ q.name :=
  pairwise_of_forall₂ h.gives (fun _ _ hgives => hgives.name_eq) hkeys

variable (hk : source.Knows tags)
include hk

lemma tag_of_mem_resolved (hp : p ∈ resolved rows tokens) (hknown : p.known = true) :
    ∃ tag ∈ tags, p = .ofTag tag p.excluded := by
  obtain ⟨t, _, tag, htag, _, rfl⟩ := row_of_mem_resolved hp hknown
  exact ⟨tag, ((answersFrom_lookUp hk.byNames _ _ h.names tag).mp htag).1, rfl⟩

/-- The targets that are looked up are those of the table. -/
lemma foundTargets_eq : foundTargets (wantedTargets (resolved rows tokens)) targetRows =
    foundTargets (wantedTargets (resolved rows tokens)) tags :=
  foundTargets_answer hk.ids (answersFrom_lookUp hk.byIds _ _ h.targets)

/-- A target that is wanted is brought along. -/
lemma exists_of_wanted {t : Tag} (ht : t ∈ tags)
    (hwanted : t.id ∈ (wantedTargets (resolved rows tokens)).map Prod.fst) :
    ∃ r ∈ foundTargets (wantedTargets (resolved rows tokens)) targetRows, r.name = t.name := by
  obtain ⟨target, htarget, hid⟩ := List.mem_map.mp hwanted
  rw [h.foundTargets_eq hk]
  exact ⟨.ofTag t target.2, mem_foundTargets.mpr ⟨target, htarget, t, (takeRow_table hk.ids).mpr ⟨ht, hid.symm⟩, rfl⟩,
    rfl⟩

/-- What an alias of a query stands for is named there, by the query or by the target that is brought along. -/
lemma exists_named_target {t : Tag} (hq : q ∈ resolved rows tokens) (hpoints : pointsElsewhere q = true) (ht : t ∈ tags)
    (hid : q.aliased = t.id) : ∃ r ∈ query, r.name = t.name := by
  rw [h.query_eq]
  by_cases hpresent : t.id ∈ ((resolved rows tokens).filter fun p => p.known).map fun p => p.id
  · obtain ⟨r, hr, hrid⟩ := List.mem_map.mp hpresent
    obtain ⟨hr, hknown⟩ := List.mem_filter.mp hr
    obtain ⟨u, hu, hru⟩ := h.tag_of_mem_resolved hk hr hknown
    rw [hru] at hrid
    obtain rfl := List.inj_on_of_nodup_map hk.ids hu ht hrid
    exact ⟨r, List.mem_append_left _ (mem_placed h.gives hr), by rw [hru]; rfl⟩
  · have hwanted : t.id ∈ (wantedTargets (resolved rows tokens)).map Prod.fst := by
      rw [wantedTargets, mem_map_firstOfKey]
      refine List.mem_map.mpr ⟨(q.aliased, q.excluded), List.mem_filter.mpr ⟨?_, ?_⟩, hid⟩
      · exact List.mem_map_of_mem (f := fun p : Predicate => (p.aliased, p.excluded))
          (List.mem_filter.mpr ⟨hq, hpoints⟩)
      · rw [hid]
        simpa using hpresent
    obtain ⟨r, hr, hname⟩ := h.exists_of_wanted hk ht hwanted
    exact ⟨r, List.mem_append_right _ hr, hname⟩

variable (haliases : AliasesResolved tags)
include haliases

/-- A target stands for itself. -/
lemma tag_of_mem_targets (hp : p ∈ foundTargets (wantedTargets (resolved rows tokens)) targetRows) :
    ∃ tag ∈ tags, tag.isAlias = false ∧ p = .ofTag tag p.excluded := by
  rw [h.foundTargets_eq hk] at hp
  obtain ⟨target, htarget, tag, htag, rfl⟩ := mem_foundTargets.mp hp
  obtain ⟨q, hq, hpoints, haliased, _⟩ := exists_of_mem_wantedTargets htarget
  simp only [pointsElsewhere, Bool.and_eq_true] at hpoints
  obtain ⟨a, ha, hqa⟩ := h.tag_of_mem_resolved hk hq hpoints.1.1
  obtain ⟨hmem, hid⟩ := (takeRow_table hk.ids).mp htag
  rw [hqa] at hpoints haliased
  obtain ⟨t, ht, halias⟩ := haliases a ha hpoints.1.2
  have hsame : tag.id = t.id := hid.trans (haliased.symm.trans halias.target)
  obtain rfl := List.inj_on_of_nodup_map hk.ids hmem ht hsame
  exact ⟨tag, hmem, halias.plain, rfl⟩

/-- An alias of a query is one that the query itself names. -/
lemma alias_mem_placed (hp : p ∈ query) (halias : p.isAlias = true) : p ∈ placed := by
  rw [h.query_eq] at hp
  rcases List.mem_append.mp hp with hp | hp
  · exact hp
  · obtain ⟨tag, _, hplain, hptag⟩ := h.tag_of_mem_targets hk haliases hp
    rw [hptag] at halias
    exact absurd (hplain.symm.trans halias) Bool.false_ne_true

/-- The known tags of a query are tags of the catalog. -/
lemma tag_of_mem (hp : p ∈ query) (hplain : p.condition = none) (hknown : p.known = true) :
    ∃ tag ∈ tags, p = .ofTag tag p.excluded := by
  rw [h.query_eq] at hp
  rcases List.mem_append.mp hp with hp | hp
  · exact h.tag_of_mem_resolved hk (h.mem_resolved hp hplain) hknown
  · obtain ⟨tag, htag, _, hptag⟩ := h.tag_of_mem_targets hk haliases hp
    exact ⟨tag, htag, hptag⟩

/-- The tag that a known tag of a query counts as is named there. -/
theorem exists_canonical (hp : p ∈ query) (hplain : p.condition = none) (hknown : p.known = true) :
    ∃ t ∈ tags, t.id = p.tagKey ∧ ∃ r ∈ query, r.name = t.name := by
  obtain ⟨a, ha, hpa⟩ := h.tag_of_mem hk haliases hp hplain hknown
  cases halias : p.isAlias with
  | false =>
    refine ⟨a, ha, ?_, p, hp, by rw [hpa]; rfl⟩
    rw [Predicate.tagKey, halias, hpa]
    rfl
  | true =>
    obtain ⟨t, ht, hat⟩ := haliases a ha (by rwa [hpa] at halias)
    have haliased : p.aliased = t.id := by
      rw [hpa]
      exact hat.target
    have hpoints : pointsElsewhere p = true := by
      rw [pointsElsewhere, hknown, halias, haliased]
      simpa using hk.ne_zero t ht
    have hres := h.mem_resolved (h.alias_mem_placed hk haliases hp halias) hplain
    refine ⟨t, ht, ?_, h.exists_named_target hk hres hpoints ht haliased⟩
    rw [Predicate.tagKey, halias, haliased]
    rfl

end MadeOf

/-- Of a stored filter, no tag that stands for itself stays beside a tag of the query that counts as the same, whatever
their signs. An alias stays exactly when the query has no predicate of its own name. -/
theorem filter_beside_query {user : UInt64} {filter : String} (hk : source.Knows tags)
    (haliases : AliasesResolved tags) (hfilter : source.userFilter user = .ok filter)
    (hquery : (parse raw kind source).result = .ok query)
    (hstored : (parse filter kind source).result = .ok stored) :
    ∃ merged, (parseFor raw (some user) kind source).result = .ok merged ∧
      (∀ p ∈ merged, p.fromUserFilter = true → p.condition = none → p.known = true → p.isAlias = false →
        ∀ q ∈ query, q.condition = none → q.known = true → q.tagKey ≠ p.tagKey) ∧
      ∀ p ∈ stored, p.isAlias = true → (p.asUserFilter ∈ merged ↔ ∀ q ∈ query, q.name ≠ p.name) := by
  obtain ⟨rows, targetRows, placed, hmade⟩ := exists_madeOf hquery
  obtain ⟨rows', targetRows', placed', hmade'⟩ := exists_madeOf hstored
  refine ⟨_, result_parseFor hfilter hquery hstored, ?_, fun p hp halias => ?_⟩
  · intro m hm hmarked hplain hknown hself q hq hqplain hqknown hkey
    obtain ⟨p, hp, rfl⟩ := (mem_merge_marked hquery).mp ⟨hm, hmarked⟩
    obtain ⟨before, after, rfl, _⟩ := mem_surviving.mp hp
    obtain ⟨a, ha, hpa⟩ := hmade'.tag_of_mem hk haliases (List.mem_append_right before (.head after)) hplain hknown
    obtain ⟨t, ht, hid, r, hr, hname⟩ := hmade.exists_canonical hk haliases hq hqplain hqknown
    have hsame : t.id = a.id := by
      rw [hid, hkey, Predicate.tagKey, hself]
      exact congrArg (fun q : Predicate => q.id) hpa
    obtain rfl := List.inj_on_of_nodup_map hk.ids ht ha hsame
    refine name_ne_of_mem_merge hquery hm r hr (hname.trans ?_)
    exact (congrArg (fun q : Predicate => q.name) hpa).symm
  · refine mem_merge_iff_of_first hquery ?_
    rw [hmade'.query_eq, firstOfKey_append,
      firstOfKey_eq_self _ (hmade'.placed_pairwise (keptTokens_pairwise filter kind))]
    exact List.mem_append_left _ (hmade'.alias_mem_placed hk haliases hp halias)

def sky : Tag := ⟨1, "sky", "", 1, none, 0, false⟩

def heavens : Tag := ⟨2, "heavens", "", 1, none, 1, true⟩

/-- The small catalog, where a user never wants to see the sky and says so by its alias. -/
def skyless : Store := Store.sample.run [.setUserFilter 1 "-heavens"]

lemma tags_skyless : skyless.tags = [sky, heavens] := by
  decide

lemma knows_skyless : (Database.ready skyless).source.Knows [sky, heavens] := by
  rw [← tags_skyless]
  exact knows_ready ((Store.Reachable.empty.run _).run _).consistent

lemma aliasesResolved_skyless : AliasesResolved [sky, heavens] := by
  intro a ha halias
  simp only [List.mem_cons, List.not_mem_nil, or_false] at ha
  rcases ha with rfl | rfl
  · cases halias
  · exact ⟨sky, .head _, rfl, rfl, rfl⟩

lemma userFilter_skyless : (Database.ready skyless).source.userFilter 1 = .ok "-heavens" := rfl

lemma parse_sky : (parse "sky" .image (Database.ready skyless).source).result = .ok [.ofTag sky false] := by
  decide +kernel

lemma parse_heavens : (parse "-heavens" .image (Database.ready skyless).source).result =
    .ok [.ofTag heavens true, .ofTag sky true] := by
  decide +kernel

theorem alias_of_filter_in_skyless :
    ∃ merged, (parseFor "sky" (some 1) .image (Database.ready skyless).source).result = .ok merged ∧
      (Predicate.ofTag heavens true).asUserFilter ∈ merged ∧ (Predicate.ofTag sky true).asUserFilter ∉ merged := by
  obtain ⟨merged, hmerged, hself, halias⟩ := filter_beside_query knows_skyless aliasesResolved_skyless
    userFilter_skyless parse_sky parse_heavens
  refine ⟨merged, hmerged, (halias _ (.head _) rfl).mpr ?_, fun hmem => ?_⟩
  · decide
  · exact hself _ hmem rfl rfl rfl rfl _ (.head _) rfl rfl rfl

/-- An alias in a filter stays beside the tag that it stands for, though the query asks for that very tag. -/
theorem alias_contradicts_query :
    (Database.ready skyless).source.Knows [sky, heavens] ∧ AliasesResolved [sky, heavens] ∧
      (Database.ready skyless).source.userFilter 1 = .ok "-heavens" ∧
      (parse "sky" .image (Database.ready skyless).source).result = .ok [.ofTag sky false] ∧
      (parse "-heavens" .image (Database.ready skyless).source).result =
        .ok [.ofTag heavens true, .ofTag sky true] ∧
      (parseFor "sky" (some 1) .image (Database.ready skyless).source).result =
        .ok [.ofTag sky false, (Predicate.ofTag heavens true).asUserFilter] ∧
      (Predicate.ofTag heavens true).tagKey = (Predicate.ofTag sky false).tagKey := by
  refine ⟨knows_skyless, aliasesResolved_skyless, userFilter_skyless, parse_sky, parse_heavens, ?_, rfl⟩
  exact (result_parseFor userFilter_skyless parse_sky parse_heavens).trans (by decide)

end Query
end TagSearch
