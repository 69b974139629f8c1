import TagSearch.Proofs.Search.Clause

/-! Plans and the keys of plain tags. The clause holds the keys of either sign in one order, so a plan knows plain tags
by their sets of keys only. -/
namespace TagSearch.Plan
open Sql

/-- Some included tag can never be carried. -/
def IncludesNever (predicates : List Predicate) : Prop := ∃ p ∈ predicates, isUnsatisfiable p = true

/-- A plain tag of the given sign asks for the key. -/
def Demands (excluded : Bool) (key : UInt64) (predicates : List Predicate) : Prop :=
  ∃ p ∈ predicates, p.condition = none ∧ p.known ∧ p.excluded = excluded ∧ p.tagKey ≠ 0 ∧ p.tagKey = key

/-- The plain tags of two lists have the same meaning: no entity has what they ask for, or they ask for the same keys of
either sign. -/
def DemandsAlike (left right : List Predicate) : Prop :=
  (IncludesNever left ∧ IncludesNever right) ∨
    (¬ IncludesNever left ∧ ¬ IncludesNever right ∧
      ∀ excluded key, Demands excluded key left ↔ Demands excluded key right)

variable {kind : Kind} {predicates left right : List Predicate} {plan : Plan}

lemma any_isUnsatisfiable : predicates.any isUnsatisfiable = true ↔ IncludesNever predicates := List.any_eq_true

/-- Plain tags have no parts, wherever they stand. -/
lemma parts_filter_isMeta : parts kind (predicates.filter Predicate.isMeta) = parts kind predicates := by
  induction predicates with
  | nil => rfl
  | cons p rest ih =>
    cases hc : p.condition with
    | none =>
      rw [List.filter_cons_of_neg (by simp [Predicate.isMeta, hc]), ih]
      simp only [parts, hc]
    | some c =>
      rw [List.filter_cons_of_pos (by simp [Predicate.isMeta, hc])]
      simp only [parts, hc, ih]

lemma parts_congr (h : left.filter Predicate.isMeta = right.filter Predicate.isMeta) :
    parts kind left = parts kind right := by
  rw [← parts_filter_isMeta, h, parts_filter_isMeta]

lemma tagKeys_eq_iff :
    (∀ excluded, tagKeys excluded left = tagKeys excluded right) ↔
      ∀ excluded key, Demands excluded key left ↔ Demands excluded key right := by
  constructor
  · intro h excluded key
    have hmem : key ∈ tagKeys excluded left ↔ key ∈ tagKeys excluded right := by rw [h]
    rwa [mem_tagKeys, mem_tagKeys] at hmem
  · intro h excluded
    refine tagKeys_congr fun key => ?_
    rw [mem_tagKeys, mem_tagKeys]
    exact h excluded key

/-- The conditions of plain tags tell their keys. -/
lemma tagConditions_eq_iff :
    tagConditions kind left = tagConditions kind right ↔
      ∀ excluded, tagKeys excluded left = tagKeys excluded right := by
  constructor
  · intro h
    have hlists : ∀ included included' omitted omitted' : List Int64,
        (if included.isEmpty then [] else [Condition.isIn (.carryingEvery kind included)]) ++
            (if omitted.isEmpty then [] else [Condition.isNotIn (.carryingAny kind omitted)]) =
          (if included'.isEmpty then [] else [Condition.isIn (.carryingEvery kind included')]) ++
            (if omitted'.isEmpty then [] else [Condition.isNotIn (.carryingAny kind omitted')]) →
        included = included' ∧ omitted = omitted' := by
      intro included included' omitted omitted'
      cases included <;> cases included' <;> cases omitted <;> cases omitted' <;> simp
    obtain ⟨hincluded, homitted⟩ := hlists _ _ _ _ h
    have hinjective : Function.Injective (List.map UInt64.toInt64) :=
      List.map_injective_iff.mpr fun _ _ => toInt64_inj.mp
    intro excluded
    cases excluded with
    | false => exact hinjective hincluded
    | true => exact hinjective homitted
  · intro h
    rw [tagConditions, tagConditions, h false, h true]

/-- The clause tells what the plain tags mean, whatever the conditions of the metatags are. -/
lemma clause_eq_iff (conditions : List Condition) :
    (if left.any isUnsatisfiable then Clause.nothing else .all (tagConditions kind left ++ conditions)) =
        (if right.any isUnsatisfiable then Clause.nothing else .all (tagConditions kind right ++ conditions)) ↔
      DemandsAlike left right := by
  rw [DemandsAlike, ← any_isUnsatisfiable, ← any_isUnsatisfiable, ← tagKeys_eq_iff, ← @tagConditions_eq_iff kind]
  cases left.any isUnsatisfiable <;> cases right.any isUnsatisfiable <;> simp

/-- Plain tags mean the same if the same ones occur. -/
lemma demandsAlike_of_mem_iff (h : ∀ p, p.isMeta = false → (p ∈ left ↔ p ∈ right)) : DemandsAlike left right := by
  have hnever : IncludesNever left ↔ IncludesNever right := by
    refine exists_congr fun p => and_congr_left fun hp => h p ?_
    simp only [isUnsatisfiable, Bool.and_eq_true, Bool.not_eq_true'] at hp
    exact hp.1.1
  have hdemands : ∀ excluded key, Demands excluded key left ↔ Demands excluded key right := by
    intro excluded key
    refine exists_congr fun p => and_congr_left fun hp => h p ?_
    rw [Predicate.isMeta, hp.1, Option.isSome_none]
  by_cases hleft : IncludesNever left
  · exact .inl ⟨hleft, hnever.mp hleft⟩
  · exact .inr ⟨hleft, fun hright => hleft (hnever.mpr hright), hdemands⟩

/-- Metatags with the same parts and plain tags that mean the same make the same plan, or fail alike. -/
lemma ofPredicates_of_demandsAlike (hparts : parts kind left = parts kind right) (h : DemandsAlike left right) :
    ofPredicates left kind = ofPredicates right kind := by
  rw [ofPredicates, ofPredicates, hparts]
  cases parts kind right with
  | error e => rfl
  | ok found =>
    have hclause := (@clause_eq_iff kind _ _ (found.filterMap Part.condition?)).mpr h
    exact congrArg (fun clause => Except.ok (Plan.mk kind clause (found.filterMap Part.order?).head?)) hclause

/-- A plan depends on plain tags only through their sets of keys. Lists with the same metatags in the same order have
one plan, or one error, if the same plain tags occur in them, in whatever order, however often, and wherever they stand
among the metatags. More exactly, where there is a plan, the lists with this plan are those whose plain tags mean the
same. -/
theorem ofPredicates_of_same_plain (hmetas : left.filter Predicate.isMeta = right.filter Predicate.isMeta) :
    ((∀ p, p.isMeta = false → (p ∈ left ↔ p ∈ right)) → ofPredicates left kind = ofPredicates right kind) ∧
      ∀ plan, ofPredicates left kind = .ok plan →
        (ofPredicates right kind = .ok plan ↔ DemandsAlike left right) := by
  have hparts : parts kind left = parts kind right := parts_congr hmetas
  refine ⟨fun h => ofPredicates_of_demandsAlike hparts (demandsAlike_of_mem_iff h), fun plan hleft => ?_⟩
  constructor
  · intro hright
    obtain ⟨found, hfound, rfl⟩ := ofPredicates_eq_ok.mp hleft
    obtain ⟨found', hfound', hplan⟩ := ofPredicates_eq_ok.mp hright
    obtain rfl := Except.ok.inj (hfound.symm.trans (hparts.trans hfound'))
    exact (clause_eq_iff _).mp (congrArg Plan.clause hplan)
  · intro halike
    rw [← ofPredicates_of_demandsAlike hparts halike]
    exact hleft

/-- Plain tags around two metatags. -/
def orderly : List Predicate :=
  [.ofTag ⟨1, "sky", "", 1, none, 0, false⟩ false, .ofCondition ⟨"rating", .text "safe", .eq⟩ false,
    .ofTag ⟨2, "heavens", "", 1, none, 1, true⟩ false, .ofCondition ⟨"name", .pattern "%dusk%", .like⟩ false,
    .ofTag ⟨3, "water", "", 1, none, 0, false⟩ true]

/-- The same predicates with the plain tags in another order, one of them twice. -/
def shuffled : List Predicate :=
  [.ofTag ⟨3, "water", "", 1, none, 0, false⟩ true, .ofCondition ⟨"rating", .text "safe", .eq⟩ false,
    .ofTag ⟨2, "heavens", "", 1, none, 1, true⟩ false, .ofTag ⟨1, "sky", "", 1, none, 0, false⟩ false,
    .ofTag ⟨3, "water", "", 1, none, 0, false⟩ true, .ofCondition ⟨"name", .pattern "%dusk%", .like⟩ false]

theorem plan_of_shuffled :
    orderly.filter Predicate.isMeta = shuffled.filter Predicate.isMeta ∧
      ofPredicates orderly .image = ofPredicates shuffled .image ∧
      ofPredicates (orderly.take 4) .image ≠ ofPredicates shuffled .image := by
  have hmetas : orderly.filter Predicate.isMeta = shuffled.filter Predicate.isMeta := rfl
  have hfewer : (orderly.take 4).filter Predicate.isMeta = shuffled.filter Predicate.isMeta := rfl
  refine ⟨hmetas, (ofPredicates_of_same_plain hmetas).1 fun p _ => ?_, fun hsame => ?_⟩
  · simp only [orderly, shuffled, List.mem_cons, List.not_mem_nil, or_false]
    tauto
  · have hplan : ofPredicates (orderly.take 4) .image =
        .ok ⟨.image, .all [.isIn (.carryingEvery .image [1]), .compare .rating .eq (.text "safe") false,
          .compare .name .like (.text "%dusk%") true], none⟩ := rfl
    have halike := ((ofPredicates_of_same_plain hfewer).2 _ hplan).mp (hsame.symm.trans hplan)
    rcases halike with ⟨⟨p, hp, hnever⟩, _⟩ | ⟨_, _, hkeys⟩
    · have hnone : ∀ p ∈ orderly.take 4, isUnsatisfiable p = false := by decide
      rw [hnone p hp] at hnever
      cases hnever
    · obtain ⟨p, hp, -, -, hx, -⟩ :=
        (hkeys true 3).mpr ⟨_, List.mem_cons_self, rfl, rfl, rfl, by decide, rfl⟩
      have hnone : ∀ p ∈ orderly.take 4, p.excluded = false := by decide
      rw [hnone p hp] at hx
      cases hx

end TagSearch.Plan
