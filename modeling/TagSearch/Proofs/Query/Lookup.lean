import TagSearch.Proofs.Query.Meaning
import TagSearch.Proofs.Sql.Placeholder

/-! How a catalog resolves the tags of a query. The engine looks up at most 32,766 names at once; the targets of aliases
are never more than the names. -/
namespace TagSearch

namespace Sql

lemma count_placeholders (count : ℕ) :
    (String.intercalate "," (List.replicate count "?")).toList.count '?' = count := by
  induction count with
  | zero => rfl
  | succ count ih =>
    cases count with
    | zero => rfl
    | succ count =>
      rw [List.replicate_succ, List.replicate_succ, String.intercalate_cons_cons, ← List.replicate_succ,
        String.toList_append, String.toList_append, List.count_append, List.count_append, ih, Nat.add_comm]
      rfl

/-- A look-up has as many placeholders as it asks for tags. -/
lemma surplusValue_tagLookupText {column : String} (hcolumn : (Fragment.plain column).IsBound) (count : ℕ) :
    surplusValue? (tagLookupText column count) = none ↔ count ≤ valueLimit := by
  have hselect : (Fragment.plain
      "SELECT id, name, description, uploader_id, upload_time, aliased_id, is_alias FROM tags WHERE ").IsBound :=
    Fragment.isBound_plain rfl
  have hin : (Fragment.plain " IN (").IsBound := Fragment.isBound_plain rfl
  have hend : (Fragment.plain ")").IsBound := Fragment.isBound_plain rfl
  have hvalues : Fragment.IsBound ⟨String.intercalate "," (List.replicate count "?"),
      List.replicate count (.integer 0)⟩ := by
    rw [Fragment.IsBound, count_placeholders, List.length_replicate]
  have hbound := ((Fragment.isBound_plain_append (Fragment.isBound_plain_append hselect hcolumn) hin).append
    hvalues).append hend
  have hlength : ([] ++ List.replicate count (Value.integer 0) ++ []).length = count := by simp
  have htext : (tagLookupText column count).toList.count '?' = count := hbound.trans hlength
  rw [surplusValue_eq_none, htext]

end Sql

namespace Query
open Sql

variable {s : Store} {kind : Kind} {raw : String} {tokens : List Token}

lemma findTags_ready {column : String} (hcolumn : (Fragment.plain column).IsBound) {count : ℕ} (h0 : count ≠ 0)
    (h : count ≤ valueLimit) (isWanted : Tag → Bool) :
    (Database.ready s).findTags column count isWanted = .ok (s.tags.filter isWanted) := by
  rw [Database.findTags, if_neg h0, (surplusValue_tagLookupText hcolumn count).mpr h]
  rfl

lemma tagsByNames_ready (names : List String) : (Database.ready s).source.tagsByNames names =
    (Database.ready s).findTags "name" names.length fun tag => names.contains tag.name := rfl

lemma tagsByIds_ready (ids : List UInt64) : (Database.ready s).source.tagsByIds ids =
    (Database.ready s).findTags "id" ids.length fun tag => ids.contains tag.id := rfl

lemma lookUpNames_ready (h : (requests tokens).length ≤ valueLimit) :
    lookUpNames (Database.ready s).source tokens =
      .ok (s.tags.filter fun tag => ((requests tokens).map Request.name).contains tag.name) := by
  rw [lookUpNames, lookUp]
  cases hrequests : requests tokens with
  | nil => simp
  | cons request rest =>
    rw [hrequests] at h
    have hcount : ((request :: rest).map Request.name).length ≤ valueLimit := by rwa [List.length_map]
    rw [if_neg (by simp), tagsByNames_ready, findTags_ready (Fragment.isBound_plain rfl) (by simp) hcount]

/-- Where the names are too many, the engine says so. -/
lemma lookUpNames_refused {count : ℕ} (h : valueLimit < count) :
    ∃ text offset, ∀ (s : Store) (tokens : List Token), (requests tokens).length = count →
      lookUpNames (Database.ready s).source tokens = .error (.database (.tooManyValues text offset)) := by
  have hname : (Fragment.plain "name").IsBound := Fragment.isBound_plain rfl
  cases hsurplus : surplusValue? (tagLookupText "name" count) with
  | none => exact absurd ((surplusValue_tagLookupText hname count).mp hsurplus) (Nat.not_le.mpr h)
  | some offset =>
    refine ⟨tagLookupText "name" count, offset, fun s tokens hlength => ?_⟩
    have hlength' : ((requests tokens).map Request.name).length = count := by rw [List.length_map, hlength]
    have hpos : ((requests tokens).map Request.name).isEmpty = false := by
      rw [Bool.eq_false_iff, ne_eq, List.isEmpty_iff, ← List.length_eq_zero_iff]
      omega
    rw [lookUpNames, lookUp, if_neg (by simp [hpos]), tagsByNames_ready, hlength', Database.findTags,
      if_neg (by omega), hsurplus]

section Resolved

variable {source : Source} {rows : List Tag} {found placed : List Predicate} {p q : Predicate}

lemma token_of_mem_resolved (h : q ∈ resolved rows tokens) :
    ∃ u ∈ tokens, ∃ name, normalize u.text = .tag name ∧ q = Request.predicate rows ⟨name, u.negated⟩ := by
  obtain ⟨request, hrequest, rfl⟩ := List.mem_map.mp h
  obtain ⟨u, hu, hrequest⟩ := List.mem_filterMap.mp hrequest
  refine ⟨u, hu, ?_⟩
  cases hform : normalize u.text with
  | tag name =>
    rw [Token.request?, hform] at hrequest
    exact ⟨name, rfl, by rw [← Option.some.inj hrequest]⟩
  | metatag name comparator value =>
    rw [Token.request?, hform] at hrequest
    cases hrequest

/-- The tags of a query are among its predicates. -/
lemma mem_placed (hplaced : List.Forall₂ (Token.Gives kind source rows) tokens placed)
    (h : q ∈ resolved rows tokens) : q ∈ placed := by
  obtain ⟨u, hu, name, hform, rfl⟩ := token_of_mem_resolved h
  obtain ⟨p, hp, hgives⟩ := exists_right_of_mem hplaced hu
  rwa [← hgives.tag name hform]

lemma plain_of_mem_resolved (h : q ∈ resolved rows tokens) : q.condition = none := by
  obtain ⟨u, _, name, _, rfl⟩ := token_of_mem_resolved h
  rw [Request.predicate]
  split <;> rfl

/-- A tag that is known has a row. -/
lemma row_of_mem_resolved (h : q ∈ resolved rows tokens) (hknown : q.known = true) :
    ∃ u ∈ tokens, ∃ tag ∈ rows, normalize u.text = .tag tag.name ∧ q = .ofTag tag u.negated := by
  obtain ⟨u, hu, name, hform, rfl⟩ := token_of_mem_resolved h
  rw [Request.predicate] at hknown ⊢
  split at hknown
  · rename_i tag htag
    obtain ⟨hmem, hname⟩ := List.mem_filter.mp (List.mem_of_getLast? htag)
    exact ⟨u, hu, tag, hmem, by rw [hform, of_decide_eq_true hname], rfl⟩
  · cases hknown

/-- A target is a tag that is wanted, with the sign of the alias that wants it. -/
lemma mem_foundTargets {wanted : List (UInt64 × Bool)} :
    p ∈ foundTargets wanted rows ↔ ∃ target ∈ wanted, ∃ tag, (takeRow Tag.id target.1 rows).1 = some tag ∧
      .ofTag tag target.2 = p := by
  simp only [foundTargets, List.mem_filterMap, Option.map_eq_some_iff]

lemma exists_of_mem_wantedTargets {target : UInt64 × Bool} (h : target ∈ wantedTargets found) :
    ∃ q ∈ found, pointsElsewhere q = true ∧ q.aliased = target.1 ∧ q.excluded = target.2 := by
  obtain ⟨q, hq, rfl⟩ := List.mem_map.mp (List.mem_filter.mp (mem_of_mem_firstOfKey _ h)).1
  obtain ⟨hmem, hpoints⟩ := List.mem_filter.mp hq
  exact ⟨q, hmem, hpoints, rfl, rfl⟩

end Resolved

/-- Rows of other names do not matter to a request. -/
lemma resolved_filter (rows : List Tag) (tokens : List Token) :
    resolved (rows.filter fun tag => ((requests tokens).map Request.name).contains tag.name) tokens =
      resolved rows tokens := by
  refine List.map_congr_left fun request hrequest => ?_
  have hrows : (rows.filter fun tag => ((requests tokens).map Request.name).contains tag.name).filter
      (fun tag => tag.name = request.name) = rows.filter fun tag => tag.name = request.name := by
    rw [List.filter_filter]
    refine List.filter_congr fun tag _ => ?_
    by_cases htag : tag.name = request.name
    · have hmem : request.name ∈ (requests tokens).map Request.name := List.mem_map_of_mem hrequest
      simpa [htag] using hmem
    · simp [htag]
  rw [Request.predicate, Request.predicate, hrows]

/-- Rows of other ids do not matter to a target. -/
lemma foundTargets_filter (wanted : List (UInt64 × Bool)) (rows : List Tag) :
    foundTargets wanted (rows.filter fun tag => (wanted.map Prod.fst).contains tag.id) = foundTargets wanted rows := by
  refine List.filterMap_congr fun target htarget => ?_
  have hrows : (rows.filter fun tag => (wanted.map Prod.fst).contains tag.id).filter (fun tag => tag.id = target.1) =
      rows.filter fun tag => tag.id = target.1 := by
    rw [List.filter_filter]
    refine List.filter_congr fun tag _ => ?_
    by_cases htag : tag.id = target.1
    · have hmem : target.1 ∈ wanted.map Prod.fst := List.mem_map_of_mem htarget
      simpa [htag] using hmem
    · simp [htag]
  simp only [takeRow, hrows]

/-- There are no more targets than predicates that want them. -/
lemma length_wantedTargets (found : List Predicate) : (wantedTargets found).length ≤ found.length := by
  rw [wantedTargets, firstOfKey_eq_filter, List.length_map]
  refine Nat.le_trans (List.length_filter_le _ _) ?_
  rw [List.length_zipIdx]
  refine Nat.le_trans (List.length_filter_le _ _) ?_
  rw [List.length_map]
  exact List.length_filter_le _ _

lemma lookUpTargets_ready {rows : List Tag} (h : (wantedTargets (resolved rows tokens)).length ≤ valueLimit) :
    lookUpTargets (Database.ready s).source rows tokens =
      .ok (s.tags.filter fun tag => ((wantedTargets (resolved rows tokens)).map Prod.fst).contains tag.id) := by
  rw [lookUpTargets, lookUp]
  cases hwanted : wantedTargets (resolved rows tokens) with
  | nil => simp
  | cons target rest =>
    rw [hwanted] at h
    have hcount : ((target :: rest).map Prod.fst).length ≤ valueLimit := by rwa [List.length_map]
    rw [if_neg (by simp), tagsByIds_ready, findTags_ready (Fragment.isBound_plain rfl) (by simp) hcount]

/-- A catalog resolves the tags among its own rows. -/
theorem result_resolve_ready (hnames : ((requests tokens).map Request.name).Nodup)
    (hcount : (requests tokens).length ≤ valueLimit) :
    (resolve (requests tokens) (Database.ready s).source).result =
      .ok (resolved s.tags tokens ++ foundTargets (wantedTargets (resolved s.tags tokens)) s.tags) := by
  have hlength : (resolved s.tags tokens).length = (requests tokens).length := List.length_map _
  have hwanted : (wantedTargets (resolved s.tags tokens)).length ≤ valueLimit :=
    Nat.le_trans (length_wantedTargets _) (hlength ▸ hcount)
  have htargets := @lookUpTargets_ready s tokens
    (s.tags.filter fun tag => ((requests tokens).map Request.name).contains tag.name)
  rw [resolved_filter] at htargets
  rw [result_resolve hnames, lookUpNames_ready hcount]
  simp only [htargets hwanted, resolved_filter, foundTargets_filter]

/-- What a query parses to whose metatags have a meaning. -/
theorem result_parse_ready (hterms : terms raw kind = tokens.map Token.term)
    (hnames : ((requests tokens).map Request.name).Nodup)
    (meant : ∀ t ∈ tokens, ∀ e, ¬ t.Fails kind (Database.ready s).source e)
    (hcount : (requests tokens).length ≤ valueLimit) {placed : List Predicate}
    (hplaced : List.Forall₂ (Token.Gives kind (Database.ready s).source s.tags) tokens placed) :
    (parse raw kind (Database.ready s).source).result =
      .ok (placed ++ foundTargets (wantedTargets (resolved s.tags tokens)) s.tags) := by
  obtain ⟨slots, hparse, hrequests, hgives⟩ := result_parse_of_meant hterms meant
  have hslots : slots.map (Slot.fill (Request.predicate s.tags)) = placed :=
    List.right_unique_forall₂' (rightUnique_gives s.tags) (hgives s.tags) hplaced
  rw [hparse, result_resolve_ready hnames hcount, Inquiry.ok_bind, resolved, ← hrequests, fillSlots_map, hslots]

/-- A query of too many names is refused, whatever the names. -/
theorem result_parse_refused {count : ℕ} (h : valueLimit < count) :
    ∃ text offset, ∀ (s : Store) (raw : String) (kind : Kind) (tokens : List Token),
      terms raw kind = tokens.map Token.term → ((requests tokens).map Request.name).Nodup →
      (∀ t ∈ tokens, ∀ e, ¬ t.Fails kind (Database.ready s).source e) → (requests tokens).length = count →
      (parse raw kind (Database.ready s).source).result =
        .error (.store (.database (.tooManyValues text offset))) := by
  obtain ⟨text, offset, hrefused⟩ := lookUpNames_refused h
  refine ⟨text, offset, fun s raw kind tokens hterms hnames meant hlength => ?_⟩
  exact result_of_comesTo hterms hnames (.noNames meant (hrefused s tokens hlength))

/-- The metatags of a query that parses have a meaning. -/
lemma meant_of_parse {source : Source} {predicates : List Predicate}
    (h : (parse raw kind source).result = .ok predicates) :
    ∀ t ∈ keptTokens raw kind, ∀ e, ¬ t.Fails kind source e := by
  have hnames := requests_nodup (keptTokens_pairwise raw kind)
  obtain ⟨outcome, houtcome⟩ := exists_comesTo hnames kind source
  have hresult := result_of_comesTo (terms_eq_map raw kind) hnames houtcome
  rw [h] at hresult
  cases houtcome with
  | refused | noNames | noTargets => cases hresult
  | parsed meant => exact meant

end Query
end TagSearch
