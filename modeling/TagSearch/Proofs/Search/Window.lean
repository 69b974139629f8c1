import Mathlib.Data.List.Forall2
import Mathlib.Data.String.Basic
import TagSearch.Proofs.Search.Limit
import TagSearch.Search

/-! Windows of a search. Every window is a slice of one list, for all 64-bit starts and strides, and the windows of
a stride put together give the list back. Only an engine can refuse an answer. -/
namespace TagSearch
open Sql

/-- The bytes of a text are at least as many as its characters. -/
lemma length_le_utf8ByteSize (chars : List Char) : chars.length ≤ (String.ofList chars).utf8ByteSize := by
  rw [String.utf8ByteSize_ofList]
  induction chars with
  | nil => exact Nat.zero_le _
  | cons c rest ih =>
    have hpos := c.utf8Size_pos
    rw [List.length_cons, String.utf8Len_cons]
    omega

/-- Entries that can all be read are all read. -/
lemma mapM_eq_some {α β : Type} {f : α → Option β} {g : α → β} {entries : List α}
    (h : ∀ a ∈ entries, f a = some (g a)) : entries.mapM f = some (entries.map g) := by
  induction entries with
  | nil => rfl
  | cons a rest ih =>
    rw [List.forall_mem_cons] at h
    rw [List.mapM_cons, h.1, ih h.2]
    rfl

/-- The entries from a start on, as many as the stride says; stride 0 does not cut. -/
def slice {α : Type} (start stride : UInt64) (entries : List α) : List α :=
  if stride = 0 then entries.drop start.toNat else (entries.drop start.toNat).take stride.toNat

section Slices

variable {α β : Type} {start stride : UInt64} {entries : List α}

lemma slice_map (f : α → β) : slice start stride (entries.map f) = (slice start stride entries).map f := by
  simp only [slice]
  split
  · exact List.map_drop.symm
  · rw [← List.map_drop, ← List.map_take]

lemma slice_eq_nil (h : entries.length ≤ start.toNat) : slice start stride entries = [] := by
  rw [slice, List.drop_eq_nil_of_le h, List.take_nil, ite_self]

lemma slice_ne_nil (h : start.toNat < entries.length) : slice start stride entries ≠ [] := by
  have hrest : entries.drop start.toNat ≠ [] := (List.drop_eq_nil_iff.not.mpr (Nat.not_le.mpr h))
  rw [slice]
  split
  · exact hrest
  · rename_i h0
    rw [Ne, List.take_eq_nil_iff, not_or]
    exact ⟨fun hzero => h0 (UInt64.toNat_inj.mp hzero), hrest⟩

lemma mem_of_mem_slice {a : α} (h : a ∈ slice start stride entries) : a ∈ entries := by
  rw [slice] at h
  split at h
  · exact List.mem_of_mem_drop h
  · exact List.mem_of_mem_drop (List.mem_of_mem_take h)

/-- A limit and an offset that become negative as signed numbers do no harm: such a limit cuts nothing, and such an
offset lies behind every list. -/
lemma window_eq_slice (hlen : entries.length < 2 ^ 63) (hstart : start.toNat < entries.length) :
    Store.window (if stride = 0 then -1 else stride.toInt64) start.toInt64 entries = slice start stride entries := by
  have hoffset : start.toInt64.toInt.toNat = start.toNat := by
    rw [toInt_toInt64 (by omega), Int.toNat_natCast]
  rw [Store.window, slice, hoffset]
  by_cases h0 : stride = 0
  · rw [if_pos h0, if_pos h0]
    exact if_pos (by decide)
  · rw [if_neg h0, if_neg h0]
    -- a stride that becomes negative is larger than every list
    by_cases hlarge : 2 ^ 63 ≤ stride.toNat
    · have hall : (entries.drop start.toNat).length ≤ stride.toNat := by
        rw [List.length_drop]
        omega
      rw [List.take_of_length_le hall]
      exact if_pos (toInt64_neg hlarge)
    · have hlimit := toInt_toInt64 (a := stride) (by omega)
      have hpos : ¬ stride.toInt64 < 0 := by
        rw [Int64.lt_iff_toInt_lt, hlimit, Int64.toInt_zero]
        omega
      change (if stride.toInt64 < 0 then _ else _) = _
      rw [if_neg hpos, hlimit, Int.toNat_natCast]

example : Store.window (UInt64.ofNat (2 ^ 63)).toInt64 1 [3, 2, 1] = [2, 1] := by decide +kernel

/-- Slices one after the other are the beginning of the list. -/
lemma flatMap_slice (h0 : stride ≠ 0) (n : ℕ) (hrange : ∀ k < n, k * stride.toNat < 2 ^ 64) :
    ((List.range n).flatMap fun k => slice (UInt64.ofNat (k * stride.toNat)) stride entries) =
      entries.take (n * stride.toNat) := by
  induction n with
  | zero => simp
  | succ n ih =>
    have hstart : (UInt64.ofNat (n * stride.toNat)).toNat = n * stride.toNat :=
      UInt64.toNat_ofNat_of_lt' (hrange n (Nat.lt_succ_self n))
    rw [List.range_succ, List.flatMap_append, ih fun k hk => hrange k (Nat.lt_succ_of_lt hk),
      List.flatMap_singleton, slice, if_neg h0, hstart, Nat.succ_mul, List.take_add]

end Slices

namespace Store

variable {engine : Engine} {s : Store} {kind : Kind} {predicates : List Predicate} {plan : Plan} {start stride : UInt64}

lemma listed_length (hs : s.Consistent) (plan : Plan) : (s.listed plan).length < 2 ^ 63 := by
  have hle := List.length_filter_le (fun e => s.satisfies plan.clause e.row) (s.entities plan.kind)
  have hlen := (@numbered_entities s plan.kind hs).length_lt
  rw [List.length_map] at hlen
  rw [(listed_perm hs plan).length_eq, List.length_map]
  exact Nat.lt_of_le_of_lt hle hlen

lemma count_countStatement (hs : s.Consistent) (plan : Plan) :
    s.count plan.countStatement = UInt64.ofNat (s.listed plan).length := by
  rw [(listed_perm hs plan).length_eq, List.length_map, ← List.length_map (f := Entity.row),
    map_row_matchingEntities]
  rfl

lemma toNat_total (hs : s.Consistent) (plan : Plan) :
    (UInt64.ofNat (s.listed plan).length).toNat = (s.listed plan).length :=
  UInt64.toNat_ofNat_of_lt' (Nat.lt_trans (listed_length hs plan) (by decide))

lemma listed_of_matchesNothing (hs : s.Consistent) (h : plan.matchesNothing = true) : s.listed plan = [] := by
  have hclause : plan.clause = .nothing := of_decide_eq_true h
  rw [List.eq_nil_iff_forall_not_mem]
  intro id hid
  obtain ⟨e, _, _, hsat, _⟩ := (mem_listed hs).mp hid
  rw [hclause] at hsat
  cases hsat

lemma select_eq_slice (hs : s.Consistent) (hstart : start.toNat < (s.listed plan).length) :
    s.select (plan.pageStatement start stride) = slice start stride (s.listed plan) := by
  rw [select_pageStatement, window_eq_slice (listed_length hs plan) hstart]

/-- Entries that are looked up one by one stay aligned with their ids in every slice. -/
lemma filterMap_slice {α : Type} {summary? : UInt64 → Option α} {ids : List UInt64} {entries : List α}
    (h : ids.map summary? = entries.map some) :
    (slice start stride ids).filterMap summary? = slice start stride entries := by
  have hmap := congrArg (slice start stride) h
  rw [slice_map, slice_map] at hmap
  calc (slice start stride ids).filterMap summary?
      = ((slice start stride ids).map summary?).filterMap id := by rw [List.filterMap_map, Function.id_comp]
    _ = ((slice start stride entries).map some).filterMap id := by rw [hmap]
    _ = slice start stride entries := by rw [List.filterMap_map, Function.id_comp, List.filterMap_some]

lemma result_countMatches (hs : s.Consistent) (plan : Plan) :
    (Inquiry.countMatches plan.countStatement (engine.source (.ready s))).result =
      Engine.unlessRefused (engine.refusal? s plan.countStatement) (UInt64.ofNat (s.listed plan).length) := by
  rw [← count_countStatement hs]
  exact Engine.execute_ready _ _

/-- A run answers a window with its slice of the entries, unless the engine refuses a statement. -/
theorem run_result {α : Type} (hs : s.Consistent) {fetch : Statement → Inquiry (List α)}
    {summary? : UInt64 → Option α} {entries : List α}
    (hfetch : ∀ statement, (fetch statement (engine.source (.ready s))).result =
      Engine.unlessRefused (engine.refusal? s statement) ((s.select statement).filterMap summary?))
    (hentries : (s.listed plan).map summary? = entries.map some) :
    (Search.run plan start stride fetch (engine.source (.ready s))).result =
      Engine.unlessRefused (engine.windowRefusal? s plan start stride)
        ⟨slice start stride entries, UInt64.ofNat (s.listed plan).length, stride⟩ := by
  have hlen : entries.length = (s.listed plan).length := by
    rw [← List.length_map (f := some), ← hentries, List.length_map]
  by_cases hnothing : plan.matchesNothing = true
  · have hnil := listed_of_matchesNothing hs hnothing
    have hentry : slice start stride entries = [] := slice_eq_nil (by rw [hlen, hnil]; exact Nat.zero_le _)
    rw [Search.run, if_pos hnothing, Engine.windowRefusal?, if_pos hnothing, hentry, hnil]
    rfl
  · rw [Search.run, if_neg hnothing, Engine.windowRefusal?, if_neg hnothing, Inquiry.result_bind, Inquiry.result_bind,
      result_countMatches hs]
    cases hcount : engine.refusal? s plan.countStatement with
    | some fault => rfl
    | none =>
      have hge : start ≥ UInt64.ofNat (s.listed plan).length ↔ (s.listed plan).length ≤ start.toNat := by
        rw [ge_iff_le, UInt64.le_iff_toNat_le, toNat_total hs]
      rw [Option.none_or]
      change ((if start ≥ UInt64.ofNat (s.listed plan).length then _ else _ : Inquiry (ResultPage α))
        (engine.source (.ready s))).result = _
      by_cases hend : (s.listed plan).length ≤ start.toNat
      · rw [if_pos (hge.mpr hend), if_pos hend, slice_eq_nil (by rwa [hlen])]
        rfl
      · rw [if_neg (hge.not.mpr hend), if_neg hend, Inquiry.result_bind, hfetch,
          select_eq_slice hs (Nat.lt_of_not_le hend), filterMap_slice hentries]
        cases engine.refusal? s (plan.pageStatement start stride) <;> rfl

/-- A run whose count is refused has no answer. -/
lemma run_refused {α : Type} {fetch : Statement → Inquiry (List α)} {fault : Fault}
    (hnothing : plan.matchesNothing = false) (h : engine.refusal? s plan.countStatement = some fault) :
    (Search.run plan start stride fetch (engine.source (.ready s))).result = .error (.store (.database fault)) := by
  have hcount : (Inquiry.countMatches plan.countStatement (engine.source (.ready s))).result =
      .error (.store (.database fault)) := by
    refine (Engine.execute_ready plan.countStatement fun t => t.count plan.countStatement).trans ?_
    rw [h]
    rfl
  rw [Search.run, hnothing, if_neg Bool.false_ne_true, Inquiry.result_bind, Inquiry.result_bind, hcount]
  rfl

lemma exists_entries {α : Type} {summary? : UInt64 → Option α} {id : α → UInt64} {ids : List UInt64}
    (h : ∀ k ∈ ids, ∃ x, summary? k = some x ∧ id x = k) :
    ∃ entries : List α, ids.map summary? = entries.map some ∧ entries.map id = ids := by
  induction ids with
  | nil => exact ⟨[], rfl, rfl⟩
  | cons k rest ih =>
    rw [List.forall_mem_cons] at h
    obtain ⟨⟨x, hx, hid⟩, hrest⟩ := h
    obtain ⟨entries, hentries, hids⟩ := ih hrest
    exact ⟨x :: entries, by rw [List.map_cons, List.map_cons, hx, hentries], by rw [List.map_cons, hid, hids]⟩

lemma imageSummary_of_mem (hs : s.Consistent) (hkind : plan.kind = .image) {id : UInt64} (h : id ∈ s.listed plan) :
    ∃ x, s.imageSummary? id = some x ∧ x.id = id := by
  obtain ⟨e, hhas, he, _, rfl⟩ := (mem_listed hs).mp h
  cases e with
  | collection c =>
    rw [hkind] at he
    cases he
  | image i =>
    exact ⟨_, Option.map_eq_some_iff.mpr ⟨i, find?_of_mem hs.imageIds.nodup hhas, rfl⟩, rfl⟩

lemma collectionSummary_of_mem (hs : s.Consistent) (hkind : plan.kind = .collection) {id : UInt64}
    (h : id ∈ s.listed plan) : ∃ x, s.collectionSummary? id = some x ∧ x.id = id := by
  obtain ⟨e, hhas, he, _, rfl⟩ := (mem_listed hs).mp h
  cases e with
  | image i =>
    rw [hkind] at he
    cases he
  | collection c =>
    exact ⟨_, Option.map_eq_some_iff.mpr ⟨c, find?_of_mem hs.collectionIds.nodup hhas, rfl⟩, rfl⟩

lemma result_images (h : Plan.ofPredicates predicates .image = .ok plan)
    (start stride : UInt64) (source : Source) :
    (Search.images predicates start stride source).result =
      (Search.run plan start stride Inquiry.fetchImages source).result := by
  rw [Search.images, Inquiry.result_bind, Inquiry.result_ofExcept, h]
  rfl

lemma result_collections (h : Plan.ofPredicates predicates .collection = .ok plan)
    (start stride : UInt64) (source : Source) :
    (Search.collections predicates start stride source).result =
      (Search.run plan start stride Inquiry.fetchCollections source).result := by
  rw [Search.collections, Inquiry.result_bind, Inquiry.result_ofExcept, h]
  rfl

/-- The images of a plan, of which every window of the search shows its slice. -/
lemma exists_images (hs : s.Consistent) (hplan : Plan.ofPredicates predicates .image = .ok plan) :
    ∃ entries : List ImageSummary, (s.listed plan).map s.imageSummary? = entries.map some ∧
      entries.map ImageSummary.id = s.listed plan ∧ ∀ (engine : Engine) (start stride : UInt64),
        (Search.images predicates start stride (engine.source (.ready s))).result =
          Engine.unlessRefused (engine.windowRefusal? s plan start stride)
            ⟨slice start stride entries, UInt64.ofNat (s.listed plan).length, stride⟩ := by
  obtain ⟨entries, hentries, hids⟩ :=
    exists_entries fun k hk => imageSummary_of_mem hs (Plan.kind_of_ofPredicates hplan) hk
  refine ⟨entries, hentries, hids, fun engine start stride => ?_⟩
  rw [result_images hplan]
  exact run_result hs (fun statement => Engine.execute_ready statement _) hentries

lemma exists_collections (hs : s.Consistent) (hplan : Plan.ofPredicates predicates .collection = .ok plan) :
    ∃ entries : List CollectionSummary, (s.listed plan).map s.collectionSummary? = entries.map some ∧
      entries.map CollectionSummary.id = s.listed plan ∧ ∀ (engine : Engine) (start stride : UInt64),
        (Search.collections predicates start stride (engine.source (.ready s))).result =
          Engine.unlessRefused (engine.windowRefusal? s plan start stride)
            ⟨slice start stride entries, UInt64.ofNat (s.listed plan).length, stride⟩ := by
  obtain ⟨entries, hentries, hids⟩ :=
    exists_entries fun k hk => collectionSummary_of_mem hs (Plan.kind_of_ofPredicates hplan) hk
  refine ⟨entries, hentries, hids, fun engine start stride => ?_⟩
  rw [result_collections hplan]
  exact run_result hs (fun statement => Engine.execute_ready statement _) hentries

/-- Summaries that are looked up by their ids stand for them. -/
lemma summary_of_mem {α : Type} {summary? : UInt64 → Option α} {id : α → UInt64} {ids : List UInt64} {entries : List α}
    (hentries : ids.map summary? = entries.map some) (hids : entries.map id = ids) :
    ∀ x ∈ entries, summary? (id x) = some x := by
  rw [← hids, List.map_map] at hentries
  exact List.map_inj_left.mp hentries

/-- An answered search shows its slice of all that is found. -/
lemma page_of_images (hs : s.Consistent) {page : ResultPage ImageSummary}
    (h : (Search.images predicates start stride (engine.source (.ready s))).result = .ok page) :
    ∃ entries, s.found .image predicates = .ok (entries.map ImageSummary.id) ∧
      (∀ x ∈ entries, s.imageSummary? x.id = some x) ∧
      page = ⟨slice start stride entries, UInt64.ofNat entries.length, stride⟩ := by
  obtain ⟨plan, hplan, _⟩ := (Inquiry.result_bind_eq_ok _).mp h
  rw [Inquiry.result_ofExcept] at hplan
  obtain ⟨entries, hentries, hids, hresult⟩ := exists_images hs hplan
  rw [hresult, Engine.unlessRefused_eq_ok] at h
  obtain ⟨_, rfl⟩ := h
  exact ⟨entries, hids ▸ found_eq hplan, summary_of_mem hentries hids, by rw [← hids, List.length_map]⟩

lemma page_of_collections (hs : s.Consistent) {page : ResultPage CollectionSummary}
    (h : (Search.collections predicates start stride (engine.source (.ready s))).result = .ok page) :
    ∃ entries, s.found .collection predicates = .ok (entries.map CollectionSummary.id) ∧
      (∀ x ∈ entries, s.collectionSummary? x.id = some x) ∧
      page = ⟨slice start stride entries, UInt64.ofNat entries.length, stride⟩ := by
  obtain ⟨plan, hplan, _⟩ := (Inquiry.result_bind_eq_ok _).mp h
  rw [Inquiry.result_ofExcept] at hplan
  obtain ⟨entries, hentries, hids, hresult⟩ := exists_collections hs hplan
  rw [hresult, Engine.unlessRefused_eq_ok] at h
  obtain ⟨_, rfl⟩ := h
  exact ⟨entries, hids ▸ found_eq hplan, summary_of_mem hentries hids, by rw [← hids, List.length_map]⟩

/-- What a search shows without a window is what is found. -/
lemma found_of_images (hs : s.Consistent) {page : ResultPage ImageSummary}
    (h : (Search.images predicates 0 0 (engine.source (.ready s))).result = .ok page) :
    s.found .image predicates = .ok (page.items.map ImageSummary.id) := by
  obtain ⟨entries, hfound, _, rfl⟩ := page_of_images hs h
  exact hfound

lemma found_of_collections (hs : s.Consistent) {page : ResultPage CollectionSummary}
    (h : (Search.collections predicates 0 0 (engine.source (.ready s))).result = .ok page) :
    s.found .collection predicates = .ok (page.items.map CollectionSummary.id) := by
  obtain ⟨entries, hfound, _, rfl⟩ := page_of_collections hs h
  exact hfound

end Store

namespace Search

/-- Every window of a search is a slice of one list, unless the engine refuses it, and the windows of a stride put
together give the list. -/
structure Slices {α : Type} (search : UInt64 → UInt64 → Inquiry (ResultPage α)) (source : Source)
    (refusal? : UInt64 → UInt64 → Option Fault) (entries : List α) : Prop where
  answered : ∀ start stride, refusal? start stride = none →
    ∃ page, (search start stride source).result = .ok page ∧ page.items = slice start stride entries ∧
      page.total.toNat = entries.length ∧ page.stride = stride
  refused : ∀ start stride fault, refusal? start stride = some fault →
    (search start stride source).result = .error (.store (.database fault))
  consecutive : ∀ (stride : UInt64) (n : ℕ), stride ≠ 0 → (∀ k < n, k * stride.toNat < 2 ^ 64) →
    entries.length ≤ n * stride.toNat → (∀ k < n, refusal? (UInt64.ofNat (k * stride.toNat)) stride = none) →
    ∃ pages, List.Forall₂
        (fun k page => (search (UInt64.ofNat (k * stride.toNat)) stride source).result = .ok page)
        (List.range n) pages ∧ pages.flatMap ResultPage.items = entries

variable {α : Type} {engine : Engine} {s : Store} {plan : Plan} {search : UInt64 → UInt64 → Inquiry (ResultPage α)}
  {entries : List α}

/-- The ids that a search without a window shows, in order. -/
def wholeIds (kind : Kind) (predicates : List Predicate) (source : Source) : Except SearchError (List UInt64) :=
  match kind with
  | .image => (Search.images predicates 0 0 source).result.map fun page => page.items.map ImageSummary.id
  | .collection =>
    (Search.collections predicates 0 0 source).result.map fun page => page.items.map CollectionSummary.id

lemma wholeIds_eq (hs : s.Consistent) {kind : Kind} {predicates : List Predicate}
    (h : Plan.ofPredicates predicates kind = .ok plan) :
    wholeIds kind predicates (engine.source (.ready s)) =
      Engine.unlessRefused (engine.windowRefusal? s plan 0 0) (s.listed plan) := by
  cases kind with
  | image =>
    obtain ⟨entries, _, hids, hresult⟩ := Store.exists_images hs h
    rw [wholeIds, hresult, ← hids]
    cases engine.windowRefusal? s plan 0 0 <;> rfl
  | collection =>
    obtain ⟨entries, _, hids, hresult⟩ := Store.exists_collections hs h
    rw [wholeIds, hresult, ← hids]
    cases engine.windowRefusal? s plan 0 0 <;> rfl

/-- A search by a plan slices the entries that the plan lists. -/
lemma slices_of_result (hs : s.Consistent) (hlen : entries.length = (s.listed plan).length)
    (h : ∀ start stride, (search start stride (engine.source (.ready s))).result =
      Engine.unlessRefused (engine.windowRefusal? s plan start stride)
        ⟨slice start stride entries, UInt64.ofNat (s.listed plan).length, stride⟩) :
    Slices search (engine.source (.ready s)) (engine.windowRefusal? s plan) entries := by
  have hok : ∀ start stride, engine.windowRefusal? s plan start stride = none →
      (search start stride (engine.source (.ready s))).result =
        .ok ⟨slice start stride entries, UInt64.ofNat (s.listed plan).length, stride⟩ := by
    intro start stride hnone
    rw [h, hnone]
    rfl
  constructor
  · intro start stride hnone
    exact ⟨_, hok start stride hnone, rfl, (Store.toNat_total hs plan).trans hlen.symm, rfl⟩
  · intro start stride fault hsome
    rw [h, hsome]
    rfl
  · intro stride n h0 hrange hcover hnone
    refine ⟨(List.range n).map fun k => ⟨slice (UInt64.ofNat (k * stride.toNat)) stride entries,
      UInt64.ofNat (s.listed plan).length, stride⟩, ?_, ?_⟩
    · rw [List.forall₂_map_right_iff, List.forall₂_same]
      exact fun k hk => hok _ stride (hnone k (List.mem_range.mp hk))
    · rw [List.flatMap_map, flatMap_slice h0 n hrange, List.take_of_length_le hcover]

/-- The windows of a search are slices of all that it finds, newest first unless hashes are compared, whatever else the
engine refuses. -/
theorem windows_slice_found {kind : Kind} {predicates : List Predicate} (engine : Engine) (hs : s.Reachable)
    (hp : Predicate.AllInterpreted kind predicates) :
    ∃ plan ids, Plan.ofPredicates predicates kind = .ok plan ∧ s.found kind predicates = .ok ids ∧
      ((∀ p ∈ predicates, ∀ c, p.condition = some c → c.key ≠ "ordersimilar") → ids.Pairwise fun a b => b < a) ∧
      match kind with
      | .image => ∃ entries, entries.map ImageSummary.id = ids ∧
          Slices (Search.images predicates) (engine.source (.ready s)) (engine.windowRefusal? s plan) entries
      | .collection => ∃ entries, entries.map CollectionSummary.id = ids ∧
          Slices (Search.collections predicates) (engine.source (.ready s)) (engine.windowRefusal? s plan) entries := by
  obtain ⟨plan, hplan⟩ := hp.exists_plan
  refine ⟨plan, s.listed plan, hplan, Store.found_eq hplan, fun hno => ?_, ?_⟩
  · exact Store.listed_descending hs.consistent fun _ => Plan.similarTo_eq_none hplan hno
  cases kind with
  | image =>
    obtain ⟨entries, _, hids, hresult⟩ := Store.exists_images hs.consistent hplan
    exact ⟨entries, hids, slices_of_result hs.consistent (by rw [← hids, List.length_map]) (hresult engine)⟩
  | collection =>
    obtain ⟨entries, _, hids, hresult⟩ := Store.exists_collections hs.consistent hplan
    exact ⟨entries, hids, slices_of_result hs.consistent (by rw [← hids, List.length_map]) (hresult engine)⟩

lemma areFew_sky : AreFew [.isIn (.carryingEvery .image [1])] :=
  ⟨rfl, Nat.le_of_ble_eq_true rfl, Nat.le_of_ble_eq_true rfl⟩

/-- The engine of the program takes every statement of the search for one tag. -/
lemma windowRefusal_sky (start stride : UInt64) :
    Engine.standard.windowRefusal? .sample ⟨.image, .all [.isIn (.carryingEvery .image [1])], none⟩ start stride =
      none :=
  Engine.windowRefusal_of_few areFew_sky rfl

/-- A stride that is negative as a signed number cuts nothing off. -/
theorem window_of_sample :
    ∃ ids entries page, Store.sample.found .image [.ofTag ⟨1, "sky", "", 1, none, 0, false⟩ false] = .ok ids ∧
      entries.map ImageSummary.id = ids ∧
      (Search.images [.ofTag ⟨1, "sky", "", 1, none, 0, false⟩ false] 1 (UInt64.ofNat (2 ^ 63))
        (Database.ready .sample).source).result = .ok page ∧
      page.items = slice 1 (UInt64.ofNat (2 ^ 63)) entries ∧ page.total.toNat = entries.length := by
  obtain ⟨plan, ids, hplan, hids, _, entries, hentries, hslices⟩ := @windows_slice_found .sample .image
    [.ofTag ⟨1, "sky", "", 1, none, 0, false⟩ false] .standard (Store.Reachable.empty.run _) (by
      intro p hp hmeta
      rw [List.mem_singleton.mp hp] at hmeta
      cases hmeta)
  have hplan' : Plan.ofPredicates [.ofTag ⟨1, "sky", "", 1, none, 0, false⟩ false] .image =
      .ok ⟨.image, .all [.isIn (.carryingEvery .image [1])], none⟩ := rfl
  obtain rfl := Except.ok.inj (hplan'.symm.trans hplan)
  obtain ⟨page, hpage, hitems, htotal, _⟩ :=
    hslices.answered 1 (UInt64.ofNat (2 ^ 63)) (windowRefusal_sky 1 (UInt64.ofNat (2 ^ 63)))
  exact ⟨ids, entries, page, hids, hentries, hpage, hitems, htotal⟩

/-- The negated metatag for names that are like a pattern. -/
def nameUnlike (pattern : String) : Predicate :=
  .ofCondition ⟨"name", .pattern pattern, .notLike⟩ true

lemma nameUnlike_isInterpreted {written pattern : String} (h : Metatag.containsPattern? written = some pattern) :
    (nameUnlike pattern).IsInterpreted .image := by
  have hd : Metatag.lookup? "name" .image =
      some ⟨"name", [], .column .name, .pattern, .forced .like, true, .all⟩ := rfl
  refine ⟨"name", .like, written, true, (Database.ready .sample).source, ?_⟩
  rw [Metatag.interpret, hd]
  simp only [Metatag.readValue, h]
  rfl

lemma literalPattern_replicate (n : ℕ) :
    Metatag.literalPattern (List.replicate n 'a') = List.replicate n 'a' := by
  induction n with
  | zero => rfl
  | succ n ih =>
    rw [List.replicate_succ, Metatag.literalPattern, ih]
    · intro rest h
      cases h
    · intro h
      cases h

lemma containsPattern_replicate {n : ℕ} (h : 3 < n) :
    Metatag.containsPattern? (String.ofList (List.replicate n 'a')) =
      some (String.ofList ('%' :: List.replicate n 'a' ++ ['%'])) := by
  rw [Metatag.containsPattern?, if_neg, String.toList_ofList, literalPattern_replicate]
  rw [String.length_ofList, List.length_replicate]
  omega

lemma images_nameUnlike {i : Image} (hi : i ∈ s.images) {chars : List Char} (h : patternLimit < chars.length)
    (start stride : UInt64) :
    (Search.images [nameUnlike (String.ofList chars)] start stride (Database.ready s).source).result =
      .error (.store (.database .patternTooLong)) := by
  have hplan : Plan.ofPredicates [nameUnlike (String.ofList chars)] .image =
      .ok ⟨.image, .all [.compare .name .notLike (.text (String.ofList chars)) true], none⟩ := rfl
  have hsmall : (Statement.count .image
      (.all [.compare .name .notLike (.text (String.ofList chars)) true])).IsSmall :=
    AreFew.isSmall ⟨rfl, Nat.le_of_ble_eq_true rfl, Nat.le_of_ble_eq_true rfl⟩ rfl
  have hrefusal : Engine.standard.refusal? s (.count .image
      (.all [.compare .name .notLike (.text (String.ofList chars)) true])) = some .patternTooLong := by
    rw [Engine.refusal_compare rfl hsmall (fun _ => rfl) rfl, if_pos]
    exact ⟨Nat.lt_of_lt_of_le h (length_le_utf8ByteSize chars), List.ne_nil_of_mem (List.mem_map_of_mem hi)⟩
  rw [Store.result_images hplan]
  exact Store.run_refused rfl hrefusal

lemma allInterpreted_nameUnlike {n : ℕ} (h : 3 < n) :
    Predicate.AllInterpreted .image [nameUnlike (String.ofList ('%' :: List.replicate n 'a' ++ ['%']))] := by
  intro p hp _
  rw [List.mem_singleton.mp hp]
  exact nameUnlike_isInterpreted (containsPattern_replicate h)

lemma patternLimit_lt : patternLimit < ('%' :: List.replicate 50000 'a' ++ ['%']).length := by
  rw [List.length_append, List.length_cons, List.length_replicate]
  decide

lemma dawn_mem_sample : (⟨1, "dawn", "/dawn.png", 1, "unrated", 0, 0, 0⟩ : Image) ∈ Store.sample.images := by
  decide

/-- The engine does not take every pattern. The two images whose names lack the letters are not found. -/
theorem windows_refused :
    Store.Reachable .sample ∧
      Predicate.AllInterpreted .image
        [nameUnlike (String.ofList ('%' :: List.replicate 50000 'a' ++ ['%']))] ∧
      (Search.images [nameUnlike (String.ofList ('%' :: List.replicate 50000 'a' ++ ['%']))] 0 0
        (Database.ready .sample).source).result = .error (.store (.database .patternTooLong)) := by
  exact ⟨Store.Reachable.empty.run _, allInterpreted_nameUnlike (by decide),
    images_nameUnlike dawn_mem_sample patternLimit_lt 0 0⟩

end Search
end TagSearch
