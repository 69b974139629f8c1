import TagSearch.Proofs.Search.Condition

/-! The clause of a plan. It holds of the row of an entity exactly when the entity has what all predicates ask for. -/
namespace TagSearch
open Sql

/-- A plain tag that asks the same as another one. -/
structure Predicate.AsksLike (p q : Predicate) : Prop where
  plain : q.condition = none
  known_eq : q.known = p.known
  excluded_eq : q.excluded = p.excluded
  key_eq : q.tagKey = p.tagKey

lemma Predicate.AsksLike.refl {p : Predicate} (h : p.condition = none) : p.AsksLike p := ⟨h, rfl, rfl, rfl⟩

namespace Plan

variable {kind : Kind} {predicates : List Predicate} {found : List Part} {plan : Plan}

lemma parts_cons_eq_ok {p : Predicate} {c : MetaCondition} (hc : p.condition = some c) :
    parts kind (p :: predicates) = .ok found ↔
      ∃ part more, partOf kind p.name p.excluded c = .ok part ∧ parts kind predicates = .ok more ∧
        found = part :: more := by
  simp only [parts, hc, Inquiry.bind_eq_ok]
  constructor
  · rintro ⟨part, hpart, more, hmore, h⟩
    exact ⟨part, more, hpart, hmore, (Except.ok.inj h).symm⟩
  · rintro ⟨part, more, hpart, hmore, rfl⟩
    exact ⟨part, hpart, more, hmore, rfl⟩

lemma parts_append {before after : List Predicate} :
    parts kind (before ++ after) = .ok found ↔
      ∃ first second, parts kind before = .ok first ∧ parts kind after = .ok second ∧ found = first ++ second := by
  induction before generalizing found with
  | nil => simp [parts]
  | cons p rest ih =>
    cases hc : p.condition with
    | none =>
      simp only [List.cons_append, parts, hc]
      exact ih
    | some c =>
      rw [List.cons_append, parts_cons_eq_ok hc]
      constructor
      · rintro ⟨part, more, hpart, hmore, rfl⟩
        obtain ⟨first, second, hfirst, hsecond, rfl⟩ := ih.mp hmore
        exact ⟨part :: first, second, (parts_cons_eq_ok hc).mpr ⟨part, first, hpart, hfirst, rfl⟩, hsecond, rfl⟩
      · rintro ⟨first, second, hfirst, hsecond, rfl⟩
        obtain ⟨part, more, hpart, hmore, rfl⟩ := (parts_cons_eq_ok hc).mp hfirst
        exact ⟨part, more ++ second, hpart, ih.mpr ⟨more, second, hmore, hsecond, rfl⟩, rfl⟩

/-- The parts of a plan are those of the metatags. -/
lemma mem_parts (h : parts kind predicates = .ok found) {part : Part} :
    part ∈ found ↔
      ∃ p ∈ predicates, ∃ c, p.condition = some c ∧ partOf kind p.name p.excluded c = .ok part := by
  induction predicates generalizing found with
  | nil =>
    cases h
    simp
  | cons p rest ih =>
    cases hc : p.condition with
    | none =>
      simp only [parts, hc] at h
      simp [hc, ih h]
    | some c =>
      obtain ⟨first, more, hfirst, hmore, rfl⟩ := (parts_cons_eq_ok hc).mp h
      simp [hc, ih hmore, hfirst, @eq_comm _ part]

lemma exists_parts
    (h : ∀ p ∈ predicates, ∀ c, p.condition = some c → ∃ part, partOf kind p.name p.excluded c = .ok part) :
    ∃ found, parts kind predicates = .ok found := by
  induction predicates with
  | nil => exact ⟨[], rfl⟩
  | cons p rest ih =>
    rw [List.forall_mem_cons] at h
    obtain ⟨more, hmore⟩ := ih h.2
    cases hc : p.condition with
    | none => exact ⟨more, by simp only [parts, hc, hmore]⟩
    | some c =>
      obtain ⟨part, hpart⟩ := h.1 c hc
      exact ⟨part :: more, (parts_cons_eq_ok hc).mpr ⟨part, more, hpart, hmore, rfl⟩⟩

lemma ofPredicates_eq_ok :
    ofPredicates predicates kind = .ok plan ↔
      ∃ found, parts kind predicates = .ok found ∧
        plan = ⟨kind, if predicates.any isUnsatisfiable then .nothing
          else .all (tagConditions kind predicates ++ found.filterMap Part.condition?),
          (found.filterMap Part.order?).head?⟩ := by
  simp only [ofPredicates, Inquiry.bind_eq_ok]
  constructor
  · rintro ⟨found, hfound, h⟩
    exact ⟨found, hfound, (Except.ok.inj h).symm⟩
  · rintro ⟨found, hfound, rfl⟩
    exact ⟨found, hfound, rfl⟩

lemma kind_of_ofPredicates (h : ofPredicates predicates kind = .ok plan) : plan.kind = kind := by
  obtain ⟨found, _, rfl⟩ := ofPredicates_eq_ok.mp h
  rfl

/-- Only the metatag for similarity orders a page. -/
lemma key_of_order {name : String} {excluded : Bool} {c : MetaCondition} {pair : HashPair}
    (h : partOf kind name excluded c = .ok (.order pair)) : c.key = "ordersimilar" := by
  have hrow : ∀ d ∈ Metatag.registry, d.target = .orderSimilar → d.name = "ordersimilar" := by decide
  unfold partOf at h
  cases hd : (Metatag.descriptor? c.key).filter (·.appliesTo kind) with
  | none =>
    rw [hd] at h
    cases h
  | some d =>
    have hsome := (Option.filter_eq_some_iff.mp hd).1
    have hname := List.find?_some hsome
    rw [hd] at h
    cases htarget : d.target with
    | orderSimilar => exact (of_decide_eq_true hname).symm.trans (hrow d (List.mem_of_find?_eq_some hsome) htarget)
    | inCollection =>
      simp only [htarget] at h
      cases h
    | column column =>
      simp only [htarget, Inquiry.bind_eq_ok] at h
      obtain ⟨v, _, h⟩ := h
      cases h
    | tagCount =>
      simp only [htarget, Inquiry.bind_eq_ok] at h
      obtain ⟨v, _, h⟩ := h
      cases h

lemma similarTo_eq_none (h : ofPredicates predicates kind = .ok plan)
    (hno : ∀ p ∈ predicates, ∀ c, p.condition = some c → c.key ≠ "ordersimilar") : plan.similarTo = none := by
  obtain ⟨found, hfound, rfl⟩ := ofPredicates_eq_ok.mp h
  rw [List.head?_eq_none_iff, List.filterMap_eq_nil_iff]
  intro part hpart
  cases part with
  | condition q => rfl
  | order pair =>
    obtain ⟨p, hp, c, hc, hok⟩ := (mem_parts hfound).mp hpart
    exact absurd (key_of_order hok) (hno p hp c hc)

/-- Plain tags have no parts. -/
lemma parts_append_plain {rest : List Predicate} (hrest : ∀ p ∈ rest, p.condition = none) :
    parts kind (predicates ++ rest) = parts kind predicates := by
  induction predicates with
  | nil =>
    induction rest with
    | nil => rfl
    | cons p rest ih =>
      rw [List.forall_mem_cons] at hrest
      simp only [List.nil_append, parts, hrest.1] at ih ⊢
      exact ih hrest.2
  | cons p predicates ih =>
    cases hc : p.condition with
    | none => simp only [List.cons_append, parts, hc, ih]
    | some c => simp only [List.cons_append, parts, hc, ih]

/-- Keys are in ascending order, so lists of the same keys are equal. -/
lemma tagKeys_congr {left right : List Predicate} {excluded : Bool}
    (h : ∀ k, k ∈ tagKeys excluded left ↔ k ∈ tagKeys excluded right) :
    tagKeys excluded left = tagKeys excluded right := by
  have hordered : ∀ list : List Predicate, (tagKeys excluded list).Pairwise fun a b => a.toNat < b.toNat :=
    fun list => Ordered.isOrdered_ofList UInt64.toNat _
  have hperm := (List.perm_ext_iff_of_nodup (keySet_nodup _) (keySet_nodup _)).mpr h
  exact hperm.eq_of_pairwise (fun a b _ _ hab hba => absurd hab (Nat.lt_asymm hba)) (hordered left) (hordered right)

/-- Predicates whose plain tags ask for the same keys have one plan if their metatags have the same parts. -/
theorem ofPredicates_congr {left right : List Predicate} (hparts : parts kind left = parts kind right)
    (h : ∀ p ∈ left, p.condition = none → ∃ q ∈ right, p.AsksLike q)
    (h' : ∀ p ∈ right, p.condition = none → ∃ q ∈ left, p.AsksLike q) :
    ofPredicates left kind = ofPredicates right kind := by
  have hunsatisfiable : ∀ {left right : List Predicate},
      (∀ p ∈ left, p.condition = none → ∃ q ∈ right, p.AsksLike q) → left.any isUnsatisfiable = true →
        right.any isUnsatisfiable = true := by
    intro left right h hany
    obtain ⟨p, hp, hunsatisfiable⟩ := List.any_eq_true.mp hany
    have hc : p.condition = none := by
      cases hc : p.condition with
      | none => rfl
      | some c => simp [isUnsatisfiable, Predicate.isMeta, hc] at hunsatisfiable
    obtain ⟨q, hq, hpq⟩ := h p hp hc
    refine List.any_eq_true.mpr ⟨q, hq, ?_⟩
    rw [← hunsatisfiable]
    simp only [isUnsatisfiable, Predicate.isMeta, hc, hpq.plain, hpq.known_eq, hpq.excluded_eq, hpq.key_eq]
  have hkeys : ∀ {left right : List Predicate} {excluded : Bool} {k : UInt64},
      (∀ p ∈ left, p.condition = none → ∃ q ∈ right, p.AsksLike q) → k ∈ tagKeys excluded left →
        k ∈ tagKeys excluded right := by
    intro left right excluded k h hk
    obtain ⟨p, hp, hc, hknown, hx, h0, hkey⟩ := mem_tagKeys.mp hk
    obtain ⟨q, hq, hpq⟩ := h p hp hc
    exact mem_tagKeys.mpr ⟨q, hq, hpq.plain, hpq.known_eq ▸ hknown, hpq.excluded_eq.trans hx, hpq.key_eq ▸ h0,
      hpq.key_eq.trans hkey⟩
  have hany : left.any isUnsatisfiable = right.any isUnsatisfiable :=
    Bool.eq_iff_iff.mpr ⟨hunsatisfiable h, hunsatisfiable h'⟩
  have htags : tagConditions kind left = tagConditions kind right := by
    have hequal : ∀ excluded, tagKeys excluded left = tagKeys excluded right := fun excluded =>
      tagKeys_congr fun k => ⟨hkeys h, hkeys h'⟩
    simp only [tagConditions, hequal]
  simp only [ofPredicates, hparts, hany, htags]

end Plan

namespace Predicate

variable {kind : Kind} {predicates : List Predicate}

lemma AllInterpreted.reads (hp : AllInterpreted kind predicates) {p : Predicate} (h : p ∈ predicates)
    {c : MetaCondition} (hc : p.condition = some c) : p.name = c.key ∧ Metatag.Reads kind p.excluded c := by
  obtain ⟨d, hd, hname, hreads⟩ := (hp p h (by rw [isMeta, hc]; rfl)).reads
  obtain rfl := Option.some.inj (hc.symm.trans hd)
  exact ⟨hname, hreads⟩

/-- Predicates whose metatags are interpreted have a plan. -/
theorem AllInterpreted.exists_plan (hp : AllInterpreted kind predicates) :
    ∃ plan, Plan.ofPredicates predicates kind = .ok plan := by
  obtain ⟨found, hfound⟩ := Plan.exists_parts fun p h c hc =>
    (Store.partOf_reads (hp.reads h hc).2 p.name).imp fun _ hpart => hpart.1
  exact ⟨_, Plan.ofPredicates_eq_ok.mpr ⟨found, hfound, rfl⟩⟩

end Predicate

namespace Store

variable {s : Store} {e : Entity} {kind : Kind} {predicates : List Predicate} {plan : Plan}

/-- No tag has the id 0. -/
lemma not_carries_zero (hs : s.Consistent) : ¬ s.Carries e 0 := by
  have hlink : ∀ image, ⟨image, 0⟩ ∉ s.links := fun image hl =>
    hs.tagIds.ne_zero (hs.linkedTag _ hl) rfl
  cases e with
  | image i => exact hlink i.id
  | collection c =>
    rintro ⟨m, _, _, hl⟩
    exact hlink m.image hl

lemma not_satisfies_of_isUnsatisfiable {p : Predicate} (h : Plan.isUnsatisfiable p = true) :
    ¬ s.Satisfies e p := by
  simp only [Plan.isUnsatisfiable, Predicate.isMeta, Bool.and_eq_true, Bool.or_eq_true, Bool.not_eq_true',
    decide_eq_true_eq, Option.isSome_eq_false_iff, Option.isNone_iff_eq_none] at h
  obtain ⟨⟨hc, hx⟩, hkey⟩ := h
  rw [satisfies_of_included hc hx]
  rintro ⟨hknown, hne, _⟩
  rcases hkey with hkey | hkey
  · rw [hkey] at hknown
    cases hknown
  · exact hne hkey

/-- If every included tag can be carried, the plain tags ask for the keys of one sign and against those of the
other. -/
lemma satisfies_plain_iff (hs : s.Consistent) (hsat : ∀ p ∈ predicates, Plan.isUnsatisfiable p = false) :
    (∀ p ∈ predicates, p.condition = none → s.Satisfies e p) ↔
      (∀ k ∈ Plan.tagKeys false predicates, s.Carries e k) ∧
        ∀ k ∈ Plan.tagKeys true predicates, ¬ s.Carries e k := by
  constructor
  · intro h
    refine ⟨fun k hk => ?_, fun k hk => ?_⟩
    · obtain ⟨p, hp, hc, _, hx, _, rfl⟩ := Plan.mem_tagKeys.mp hk
      exact ((satisfies_of_included hc hx).mp (h p hp hc)).2.2
    · obtain ⟨p, hp, hc, hknown, hx, _, rfl⟩ := Plan.mem_tagKeys.mp hk
      exact (satisfies_of_excluded hc hx).mp (h p hp hc) hknown
  · rintro ⟨hin, hout⟩ p hp hc
    cases hx : p.excluded with
    | false =>
      have hkey := hsat p hp
      simp only [Plan.isUnsatisfiable, Predicate.isMeta, hc, hx, Option.isSome_none, Bool.not_false, Bool.true_and,
        Bool.or_eq_false_iff, Bool.not_eq_false', decide_eq_false_iff_not] at hkey
      refine (satisfies_of_included hc hx).mpr ⟨hkey.1, hkey.2, ?_⟩
      exact hin _ (Plan.mem_tagKeys.mpr ⟨p, hp, hc, hkey.1, hx, hkey.2, rfl⟩)
    | true =>
      refine (satisfies_of_excluded hc hx).mpr fun hknown => ?_
      by_cases h0 : p.tagKey = 0
      · rw [h0]
        exact not_carries_zero hs
      · exact hout _ (Plan.mem_tagKeys.mpr ⟨p, hp, hc, hknown, hx, h0, rfl⟩)

lemma holds_parts (hs : s.Consistent) (he : e.kind = kind) (hp : Predicate.AllInterpreted kind predicates)
    {found : List Plan.Part} (h : Plan.parts kind predicates = .ok found) :
    (∀ q ∈ found.filterMap Plan.Part.condition?, s.holds e.row q = true) ↔
      ∀ p ∈ predicates, ∀ c, p.condition = some c → s.Meets e c := by
  have hpart : ∀ p ∈ predicates, ∀ c, p.condition = some c → ∃ part ∈ found,
      Plan.partOf kind p.name p.excluded c = .ok part ∧ (s.HoldsPart e.row part ↔ s.Meets e c) := by
    intro p hpm c hc
    obtain ⟨part, hok, hmeets⟩ := partOf_reads (hp.reads hpm hc).2 p.name
    exact ⟨part, (Plan.mem_parts h).mpr ⟨p, hpm, c, hc, hok⟩, hok, hmeets s e hs he⟩
  have hall : (∀ q ∈ found.filterMap Plan.Part.condition?, s.holds e.row q = true) ↔
      ∀ part ∈ found, s.HoldsPart e.row part := by
    simp only [List.mem_filterMap]
    constructor
    · intro hq part hm
      cases part with
      | condition q => exact hq q ⟨_, hm, rfl⟩
      | order _ => trivial
    · rintro hm q ⟨part, hpart, hq⟩
      cases part with
      | condition c =>
        cases hq
        exact hm _ hpart
      | order _ => cases hq
  rw [hall]
  constructor
  · intro hm p hpm c hc
    obtain ⟨part, hmem, _, hiff⟩ := hpart p hpm c hc
    exact hiff.mp (hm part hmem)
  · intro hm part hmem
    obtain ⟨p, hpm, c, hc, hok⟩ := (Plan.mem_parts h).mp hmem
    obtain ⟨part', _, hok', hiff⟩ := hpart p hpm c hc
    obtain rfl := Except.ok.inj (hok.symm.trans hok')
    exact hiff.mpr (hm p hpm c hc)

/-- The clause of a plan holds of the rows of the entities that have what the predicates ask for. -/
theorem satisfies_clause (hs : s.Consistent) (he : e.kind = kind) (hp : Predicate.AllInterpreted kind predicates)
    (h : Plan.ofPredicates predicates kind = .ok plan) :
    s.satisfies plan.clause e.row = true ↔ ∀ p ∈ predicates, s.Satisfies e p := by
  obtain ⟨found, hfound, rfl⟩ := Plan.ofPredicates_eq_ok.mp h
  by_cases hsat : predicates.any Plan.isUnsatisfiable = true
  · obtain ⟨p, hpm, hunsat⟩ := List.any_eq_true.mp hsat
    simp only [hsat, if_true, satisfies, Bool.false_eq_true, false_iff]
    exact fun hall => not_satisfies_of_isUnsatisfiable hunsat (hall p hpm)
  · have hsat' : ∀ p ∈ predicates, Plan.isUnsatisfiable p = false := by simpa using hsat
    simp only [hsat, Bool.false_eq_true, if_false, satisfies, List.all_eq_true, List.forall_mem_append]
    rw [holds_tagConditions he, ← satisfies_plain_iff hs hsat', holds_parts hs he hp hfound]
    constructor
    · rintro ⟨hplain, hmeta⟩ p hpm
      cases hc : p.condition with
      | none => exact hplain p hpm hc
      | some c => exact (satisfies_of_condition hc).mpr (hmeta p hpm c hc)
    · intro hall
      exact ⟨fun p hpm _ => hall p hpm, fun p hpm c hc => (satisfies_of_condition hc).mp (hall p hpm)⟩

end Store
end TagSearch
