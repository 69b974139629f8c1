import Mathlib.Data.Set.Function
import TagSearch.Proofs.Inquiry
import TagSearch.Proofs.Search.Limit
import TagSearch.Proofs.Search.Nearest

/-! A random image. Each place among the matches holds one of them, and each match lies at one place, so that every
match is as likely as the others. There is no image only where nothing matches. -/
namespace TagSearch
open Sql

variable {engine : Engine} {s : Store} {predicates : List Predicate} {plan : Plan} {draw : UInt64 → UInt64}
  {place : UInt64}

/-- What a search shows of an image. -/
def Image.summary (i : Image) : ImageSummary := ⟨i.id, i.name, i.location, i.uploader, i.rating, i.averageScore⟩

namespace Store

lemma imageSummary_eq (hs : s.Consistent) {i : Image} (h : i ∈ s.images) : s.imageSummary? i.id = some i.summary :=
  Option.map_eq_some_iff.mpr ⟨i, find?_of_mem hs.imageIds.nodup h, rfl⟩

/-- The images that have what all predicates ask for. -/
def Matches (s : Store) (predicates : List Predicate) : Set Image :=
  {i | s.Has (.image i) ∧ ∀ p ∈ predicates, s.Satisfies (.image i) p}

/-- Images are told apart by what a search shows of them. -/
lemma summary_injOn (hs : s.Consistent) (predicates : List Predicate) :
    Set.InjOn Image.summary (s.Matches predicates) := by
  rintro i ⟨hi, _⟩ j ⟨hj, _⟩ heq
  exact List.inj_on_of_nodup_map hs.imageIds.nodup hi hj (congrArg ImageSummary.id heq)

/-- The entries of a search are the images that match. -/
lemma mem_entries (hs : s.Consistent) (hp : Predicate.AllInterpreted .image predicates)
    (hplan : Plan.ofPredicates predicates .image = .ok plan) {entries : List ImageSummary}
    (hentries : (s.listed plan).map s.imageSummary? = entries.map some) {x : ImageSummary} :
    x ∈ entries ↔ x ∈ Image.summary '' s.Matches predicates := by
  have hmem : x ∈ entries ↔ some x ∈ (s.listed plan).map s.imageSummary? := by
    rw [hentries, List.mem_map_of_injective (Option.some_injective _)]
  rw [hmem, List.mem_map]
  constructor
  · rintro ⟨id, hid, hx⟩
    obtain ⟨e, hhas, he, _, rfl⟩ := (mem_listed hs).mp hid
    cases e with
    | collection c =>
      rw [Plan.kind_of_ofPredicates hplan] at he
      cases he
    | image i =>
      refine ⟨i, ⟨hhas, (mem_found hs hp (found_eq hplan) hhas rfl).mp hid⟩, ?_⟩
      exact Option.some.inj ((imageSummary_eq hs hhas).symm.trans hx)
  · rintro ⟨i, ⟨hhas, hsat⟩, rfl⟩
    exact ⟨i.id, (mem_found hs hp (found_eq hplan) hhas rfl).mpr hsat, imageSummary_eq hs hhas⟩

end Store

lemma slice_one {α : Type} (entries : List α) : slice place 1 entries = entries[place.toNat]?.toList := by
  rw [slice, if_neg (by decide), UInt64.toNat_one, List.take_one, List.head?_drop]

/-- The entry at a place, a blank one behind the end. -/
def entryAt (entries : List ImageSummary) (place : UInt64) : ImageSummary :=
  entries.getD place.toNat ⟨0, "", "", 0, "", 0⟩

section EntryAt

variable {entries : List ImageSummary}

lemma getElem?_eq_entryAt (h : place.toNat < entries.length) :
    entries[place.toNat]? = some (entryAt entries place) := by
  rw [entryAt, List.getD_eq_getElem?_getD, List.getElem?_eq_getElem h]
  rfl

/-- Places and entries belong together one by one. -/
lemma bijOn_entryAt (hlen : entries.length < 2 ^ 64) (hnodup : entries.Nodup) :
    Set.BijOn (entryAt entries) {place | place < UInt64.ofNat entries.length} {x | x ∈ entries} := by
  have htotal : (UInt64.ofNat entries.length).toNat = entries.length := UInt64.toNat_ofNat_of_lt' hlen
  have hplace : ∀ place < UInt64.ofNat entries.length, place.toNat < entries.length := fun place hlt =>
    htotal ▸ UInt64.lt_iff_toNat_lt.mp hlt
  refine ⟨fun place hlt => ?_, fun place hlt place' hlt' heq => ?_, fun x hx => ?_⟩
  · exact List.mem_of_getElem? (getElem?_eq_entryAt (hplace place hlt))
  · have hat := getElem?_eq_entryAt (hplace place hlt)
    rw [heq, ← getElem?_eq_entryAt (hplace place' hlt')] at hat
    exact UInt64.toNat_inj.mp ((List.getElem?_inj (hplace place hlt) hnodup).mp hat)
  · obtain ⟨n, hn, rfl⟩ := List.mem_iff_getElem.mp hx
    have hword : (UInt64.ofNat n).toNat = n := UInt64.toNat_ofNat_of_lt' (Nat.lt_trans hn hlen)
    refine ⟨UInt64.ofNat n, UInt64.lt_iff_toNat_lt.mpr (by rwa [hword, htotal]), ?_⟩
    have hat := @getElem?_eq_entryAt (UInt64.ofNat n) entries (by rwa [hword])
    rw [hword, List.getElem?_eq_getElem hn] at hat
    exact (Option.some.inj hat).symm

end EntryAt

namespace Search

/-- A draw picks a place among the places that there are. -/
def IsDraw (draw : UInt64 → UInt64) : Prop := ∀ total, 0 < total → draw total < total

lemma IsDraw.toNat_lt (h : IsDraw draw) {n : ℕ} (hn : n < 2 ^ 64) (hpos : 0 < n) :
    (draw (UInt64.ofNat n)).toNat < n := by
  have htotal : (UInt64.ofNat n).toNat = n := UInt64.toNat_ofNat_of_lt' hn
  have hlt := UInt64.lt_iff_toNat_lt.mp (h (UInt64.ofNat n) (UInt64.lt_iff_toNat_lt.mpr (htotal.symm ▸ hpos)))
  rwa [htotal] at hlt

/-- The first entry of a page. -/
def firstItem (page : ResultPage ImageSummary) : Except SearchError ImageSummary :=
  page.items.head?.elim (.error .noResults) .ok

/-- A random image is a page of one entry at the place that is drawn. -/
lemma result_randomImage (hs : s.Consistent) (hplan : Plan.ofPredicates predicates .image = .ok plan)
    (hdraw : 0 < (s.listed plan).length →
      (draw (UInt64.ofNat (s.listed plan).length)).toNat < (s.listed plan).length) :
    (Search.randomImage predicates draw (engine.source (.ready s))).result =
      (Search.images predicates (draw (UInt64.ofNat (s.listed plan).length)) 1 (engine.source (.ready s))).result >>=
        firstItem := by
  have htotal := Store.toNat_total hs plan
  rw [Store.result_images hplan, Search.randomImage, Inquiry.result_bind, Inquiry.result_ofExcept, hplan,
    Inquiry.ok_bind, Search.run]
  by_cases hnothing : plan.matchesNothing = true
  · rw [if_pos hnothing, if_pos hnothing]
    rfl
  · rw [if_neg hnothing, if_neg hnothing, Inquiry.result_bind, Inquiry.result_bind, Inquiry.result_bind,
      Inquiry.result_bind, Store.result_countMatches hs]
    cases engine.refusal? s plan.countStatement with
    | some fault => rfl
    | none =>
      generalize UInt64.ofNat (s.listed plan).length = total at htotal hdraw ⊢
      change ((if total = 0 then _ else _ : Inquiry ImageSummary) _).result =
        ((if draw total ≥ total then _ else _ : Inquiry (ResultPage ImageSummary)) _).result >>= firstItem
      by_cases hzero : total = 0
      · have hend : draw total ≥ total := hzero ▸ UInt64.zero_le
        rw [if_pos hzero, if_pos hend]
        rfl
      · have hpos : 0 < total.toNat := UInt64.lt_iff_toNat_lt.mp (UInt64.pos_iff_ne_zero.mpr hzero)
        have hlt : draw total < total := UInt64.lt_iff_toNat_lt.mpr (htotal ▸ hdraw (htotal ▸ hpos))
        rw [if_neg hzero, if_neg (UInt64.not_le.mpr hlt), Inquiry.result_bind, Inquiry.result_bind]
        cases (Inquiry.fetchImages (plan.pageStatement (draw total) 1) (engine.source (.ready s))).result with
        | error error => rfl
        | ok items => cases items <;> rfl

section Entries

variable {entries : List ImageSummary}

lemma length_entries (hentries : (s.listed plan).map s.imageSummary? = entries.map some) :
    (s.listed plan).length = entries.length := by
  rw [← List.length_map (f := s.imageSummary?), hentries, List.length_map]

/-- A draw picks an entry of the search, unless the engine refuses it. -/
lemma result_of_entries (hs : s.Consistent) (hplan : Plan.ofPredicates predicates .image = .ok plan)
    (hentries : (s.listed plan).map s.imageSummary? = entries.map some)
    (hdraw : 0 < entries.length → (draw (UInt64.ofNat entries.length)).toNat < entries.length) :
    (Search.randomImage predicates draw (engine.source (.ready s))).result =
      Engine.unlessRefused (engine.windowRefusal? s plan (draw (UInt64.ofNat entries.length)) 1)
        entries[(draw (UInt64.ofNat entries.length)).toNat]? >>= fun found => found.elim (.error .noResults) .ok := by
  rw [← length_entries hentries] at hdraw ⊢
  rw [result_randomImage hs hplan hdraw, Store.result_images hplan,
    Store.run_result hs (fun statement => Engine.execute_ready statement _) hentries, slice_one]
  cases engine.windowRefusal? s plan (draw (UInt64.ofNat (s.listed plan).length)) 1 with
  | some fault => rfl
  | none => cases entries[(draw (UInt64.ofNat (s.listed plan).length)).toNat]? <;> rfl

/-- A draw fails to pick an entry only where there is none. -/
lemma noResults_iff (hs : s.Consistent) (hplan : Plan.ofPredicates predicates .image = .ok plan)
    (hentries : (s.listed plan).map s.imageSummary? = entries.map some)
    (hdraw : 0 < entries.length → (draw (UInt64.ofNat entries.length)).toNat < entries.length)
    (hnone : engine.windowRefusal? s plan (draw (UInt64.ofNat entries.length)) 1 = none) :
    (Search.randomImage predicates draw (engine.source (.ready s))).result = .error .noResults ↔ entries = [] := by
  rw [result_of_entries hs hplan hentries hdraw, hnone]
  constructor
  · intro h
    by_contra hne
    rw [List.getElem?_eq_getElem (hdraw (List.length_pos_iff.mpr hne))] at h
    cases h
  · rintro rfl
    rfl

/-- The page at a place shows the entry there, unless the engine refuses it. -/
lemma page_of_place (hs : s.Consistent) (hentries : (s.listed plan).map s.imageSummary? = entries.map some)
    {x : ImageSummary} (h : entries[place.toNat]? = some x) :
    (Inquiry.fetchImages (plan.pageStatement place 1) (engine.source (.ready s))).result =
      Engine.unlessRefused (engine.refusal? s (plan.pageStatement place 1)) [x] := by
  obtain ⟨hlt, _⟩ := List.getElem?_eq_some_iff.mp h
  rw [← length_entries hentries] at hlt
  refine (Engine.execute_ready _ _).trans ?_
  rw [Store.select_eq_slice hs hlt, Store.filterMap_slice hentries, slice_one, h]
  rfl

end Entries

/-- Every place below the number of images that match holds one of them, and each of them lies at one place. A random
image is the one at the place that is drawn, and the page of one entry at a place shows it. There is no image exactly
where nothing matches. Only the engine can refuse to look. -/
theorem random_reaches_matches (engine : Engine) (hs : s.Reachable) (hp : Predicate.AllInterpreted .image predicates) :
    ∃ plan total, ∃ found : UInt64 → ImageSummary, Plan.ofPredicates predicates .image = .ok plan ∧
      (Inquiry.countMatches plan.countStatement (engine.source (.ready s))).result =
        Engine.unlessRefused (engine.refusal? s plan.countStatement) total ∧
      Set.BijOn found {place | place < total} (Image.summary '' s.Matches predicates) ∧
      Set.InjOn Image.summary (s.Matches predicates) ∧
      (∀ place < total, (Inquiry.fetchImages (plan.pageStatement place 1) (engine.source (.ready s))).result =
        Engine.unlessRefused (engine.refusal? s (plan.pageStatement place 1)) [found place]) ∧
      ∀ draw : UInt64 → UInt64, (0 < total → draw total < total) →
        (∀ fault, engine.windowRefusal? s plan (draw total) 1 = some fault →
          (Search.randomImage predicates draw (engine.source (.ready s))).result = .error (.store (.database fault))) ∧
        (engine.windowRefusal? s plan (draw total) 1 = none →
          ((Search.randomImage predicates draw (engine.source (.ready s))).result = .error .noResults ↔
            s.Matches predicates = ∅) ∧
          (0 < total → (Search.randomImage predicates draw (engine.source (.ready s))).result =
            .ok (found (draw total)))) := by
  have hs := hs.consistent
  obtain ⟨plan, hplan⟩ := hp.exists_plan
  obtain ⟨entries, hentries, hids, _⟩ := Store.exists_images hs hplan
  have hlen := length_entries hentries
  have htotal := hlen ▸ Store.toNat_total hs plan
  have hlt : ∀ {place}, place < UInt64.ofNat entries.length ↔ place.toNat < entries.length := fun {place} => by
    rw [UInt64.lt_iff_toNat_lt, htotal]
  have hmatches : Image.summary '' s.Matches predicates = {x | x ∈ entries} :=
    Set.ext fun x => (Store.mem_entries hs hp hplan hentries).symm
  have hfound : ∀ {place}, place < UInt64.ofNat entries.length →
      entries[place.toNat]? = some (entryAt entries place) := fun h => getElem?_eq_entryAt (hlt.mp h)
  refine ⟨plan, UInt64.ofNat entries.length, entryAt entries, hplan, ?_, ?_, Store.summary_injOn hs predicates,
    fun place hplace => page_of_place hs hentries (hfound hplace), fun draw h => ?_⟩
  · rw [Store.result_countMatches hs, hlen]
  · rw [hmatches]
    exact bijOn_entryAt (htotal ▸ UInt64.toNat_lt _) (List.Nodup.of_map _ (hids ▸ Store.listed_nodup hs plan))
  · have hdraw : 0 < entries.length → (draw (UInt64.ofNat entries.length)).toNat < entries.length :=
      fun hpos => hlt.mp (h (hlt.mpr hpos))
    refine ⟨fun fault hfault => ?_, fun hnone => ⟨?_, fun hpos => ?_⟩⟩
    · rw [result_of_entries hs hplan hentries hdraw, hfault]
      rfl
    · rw [noResults_iff hs hplan hentries hdraw hnone, ← Set.image_eq_empty (f := Image.summary), hmatches]
      exact List.eq_nil_iff_forall_not_mem.trans Set.eq_empty_iff_forall_notMem.symm
    · rw [result_of_entries hs hplan hentries hdraw, hnone, hfound (h hpos)]
      rfl

/-- Both images of the sample lie at some place. -/
theorem random_of_sample :
    ∃ total, (Inquiry.countMatches (.count .image (.all [.isIn (.carryingEvery .image [1])]))
        (Database.ready .sample).source).result = .ok total ∧
      (∃ place < total, (Search.randomImage [skyWanted] (fun _ => place) (Database.ready .sample).source).result =
        .ok ⟨1, "dawn", "/dawn.png", 1, "unrated", 0⟩) ∧
      ∃ place < total, (Search.randomImage [skyWanted] (fun _ => place) (Database.ready .sample).source).result =
        .ok ⟨2, "dusk", "/dusk.png", 1, "unrated", 4⟩ := by
  obtain ⟨plan, total, found, hplan, htotal, hplaces, _, _, hdraws⟩ :=
    @random_reaches_matches .sample [skyWanted] .standard (Store.Reachable.empty.run _) allInterpreted_sky
  obtain rfl := Except.ok.inj (ofPredicates_sky.symm.trans hplan)
  have hcount : Engine.standard.refusal? .sample (.count .image (.all [.isIn (.carryingEvery .image [1])])) = none :=
    Engine.refusal_of_few areFew_sky rfl rfl
  have hmatches : ∀ i ∈ Store.sample.images, ⟨i.id, 1⟩ ∈ Store.sample.links → i ∈ Store.sample.Matches [skyWanted] := by
    intro i hi hlink
    refine ⟨hi, List.forall_mem_singleton.mpr ?_⟩
    exact (Store.satisfies_of_included rfl rfl).mpr ⟨rfl, by decide, hlink⟩
  have hpicked : ∀ i ∈ Store.sample.Matches [skyWanted], ∃ place < total,
      (Search.randomImage [skyWanted] (fun _ => place) (Database.ready .sample).source).result = .ok i.summary := by
    intro i hi
    obtain ⟨place, hplace, heq⟩ := hplaces.surjOn ⟨i, hi, rfl⟩
    obtain ⟨_, hanswered⟩ := hdraws (fun _ => place) fun _ => hplace
    refine ⟨place, hplace, ?_⟩
    rw [(hanswered (windowRefusal_sky place 1)).2 (UInt64.lt_of_le_of_lt UInt64.zero_le hplace), heq]
  have hdawn := hmatches ⟨1, "dawn", "/dawn.png", 1, "unrated", 0, 0, 0⟩ (by decide) (by decide)
  have hdusk := hmatches ⟨2, "dusk", "/dusk.png", 1, "unrated", 4, 8, 2⟩ (by decide) (by decide)
  refine ⟨total, ?_, hpicked _ hdawn, hpicked _ hdusk⟩
  rw [Plan.countStatement, hcount] at htotal
  exact htotal

/-- The engine does not take every pattern, and then no draw leads to an image. -/
theorem random_refused :
    Store.Reachable .sample ∧
      Predicate.AllInterpreted .image
        [nameUnlike (String.ofList ('%' :: List.replicate 50000 'a' ++ ['%']))] ∧
      ∀ draw, IsDraw draw →
        (Search.randomImage [nameUnlike (String.ofList ('%' :: List.replicate 50000 'a' ++ ['%']))] draw
          (Database.ready .sample).source).result = .error (.store (.database .patternTooLong)) := by
  have hs : Store.Reachable .sample := Store.Reachable.empty.run _
  refine ⟨hs, allInterpreted_nameUnlike (by decide), fun draw hdraw => ?_⟩
  rw [result_randomImage hs.consistent rfl
    (hdraw.toNat_lt (Nat.lt_trans (Store.listed_length hs.consistent _) (by decide))),
    images_nameUnlike dawn_mem_sample patternLimit_lt]
  rfl

end Search
end TagSearch
