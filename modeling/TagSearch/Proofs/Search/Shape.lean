import TagSearch.Proofs.Search.Clause
import TagSearch.Proofs.Sql.Placeholder

/-! The texts that plans send to the engine. They follow from the shape of the predicates: how many keys the plain tags
ask for and which metatags there are. Names, ids, texts, numbers and hashes are bound to placeholders. -/
namespace TagSearch
open Sql

/-- What a metatag has apart from its value, and what its value decides. -/
structure MetaShape where
  key : String
  comparator : Comparator
  isPattern : Bool
  isTrue : Bool
deriving Repr, DecidableEq

def MetaCondition.shape (c : MetaCondition) : MetaShape where
  key := c.key
  comparator := c.comparator
  isPattern := Plan.isPatternValue c.value
  isTrue := c.value = .flag true

/-- The metatags among predicates, in order. -/
def Predicate.conditions (predicates : List Predicate) : List MetaCondition :=
  predicates.filterMap Predicate.condition

namespace Plan

/-- Two lists of predicates that have one shape. -/
structure Alike (left right : List Predicate) : Prop where
  unsatisfiable : left.any isUnsatisfiable = right.any isUnsatisfiable
  included : (tagKeys false left).length = (tagKeys false right).length
  excluded : (tagKeys true left).length = (tagKeys true right).length
  metatags : (Predicate.conditions left).map MetaCondition.shape = (Predicate.conditions right).map MetaCondition.shape

def Part.wiped : Part → Part
  | condition q => condition q.wiped
  | order _ => order ⟨0, 0⟩

/-- The plan without its values. -/
def wiped (plan : Plan) : Plan := ⟨plan.kind, plan.clause.wiped, plan.similarTo.map fun _ => ⟨0, 0⟩⟩

variable {kind : Kind} {predicates others : List Predicate} {found : List Part} {plan other : Plan}

lemma wantsMembers_congr {c c' : MetaCondition} (h : c.shape = c'.shape) : wantsMembers c = wantsMembers c' := by
  have htrue : decide (c.value = .flag true) = decide (c'.value = .flag true) := congrArg MetaShape.isTrue h
  have hcomparator : c.comparator = c'.comparator := congrArg MetaShape.comparator h
  rw [wantsMembers, wantsMembers, htrue, hcomparator]

/-- The part of a metatag follows from its shape, up to values. -/
lemma wiped_partOf {name name' : String} {excluded excluded' : Bool} {c c' : MetaCondition} {part part' : Part}
    (hshape : c.shape = c'.shape) (h : partOf kind name excluded c = .ok part)
    (h' : partOf kind name' excluded' c' = .ok part') : part.wiped = part'.wiped := by
  have hkey : c.key = c'.key := congrArg MetaShape.key hshape
  have hcomparator : c.comparator = c'.comparator := congrArg MetaShape.comparator hshape
  have hpattern : isPatternValue c.value = isPatternValue c'.value := congrArg MetaShape.isPattern hshape
  unfold partOf at h h'
  rw [← hkey] at h'
  cases hd : (Metatag.descriptor? c.key).filter (·.appliesTo kind) with
  | none =>
    rw [hd] at h
    cases h
  | some d =>
    rw [hd] at h h'
    cases htarget : d.target with
    | column column =>
      simp only [htarget, Inquiry.bind_eq_ok] at h h'
      obtain ⟨v, _, h⟩ := h
      obtain ⟨v', _, h'⟩ := h'
      cases h
      cases h'
      simp only [Part.wiped, Condition.wiped, hcomparator, hpattern]
    | inCollection =>
      simp only [htarget] at h h'
      cases h
      cases h'
      rw [wantsMembers_congr hshape]
    | tagCount =>
      simp only [htarget, Inquiry.bind_eq_ok] at h h'
      obtain ⟨v, _, h⟩ := h
      obtain ⟨v', _, h'⟩ := h'
      cases h
      cases h'
      simp only [Part.wiped, Condition.wiped, hcomparator]
    | orderSimilar =>
      simp only [htarget] at h h'
      split at h
      · cases h
      split at h'
      · cases h'
      split at h <;> cases h
      split at h' <;> cases h'
      rfl

/-- Every metatag has its part, in order. -/
lemma forall₂_parts (h : parts kind predicates = .ok found) :
    List.Forall₂ (fun c part => ∃ name excluded, partOf kind name excluded c = .ok part)
      (Predicate.conditions predicates) found := by
  induction predicates generalizing found with
  | nil =>
    cases h
    exact .nil
  | cons p rest ih =>
    cases hc : p.condition with
    | none =>
      simp only [parts, hc] at h
      rw [Predicate.conditions, List.filterMap_cons, hc]
      exact ih h
    | some c =>
      obtain ⟨part, more, hpart, hmore, rfl⟩ := (parts_cons_eq_ok hc).mp h
      rw [Predicate.conditions, List.filterMap_cons, hc]
      exact .cons ⟨p.name, p.excluded, hpart⟩ (ih hmore)

lemma map_wiped_congr {left right : List MetaCondition} {found found' : List Part}
    (hshape : left.map MetaCondition.shape = right.map MetaCondition.shape)
    (h : List.Forall₂ (fun c part => ∃ name excluded, partOf kind name excluded c = .ok part) left found)
    (h' : List.Forall₂ (fun c part => ∃ name excluded, partOf kind name excluded c = .ok part) right found') :
    found.map Part.wiped = found'.map Part.wiped := by
  induction h generalizing right found' with
  | nil =>
    obtain rfl := List.map_eq_nil_iff.mp hshape.symm
    cases h'
    rfl
  | @cons c part left found hpart _ ih =>
    cases h' with
    | nil => cases hshape
    | @cons c' part' right found' hpart' hrest' =>
      obtain ⟨hhead, htail⟩ := List.cons.inj hshape
      obtain ⟨name, excluded, hpart⟩ := hpart
      obtain ⟨name', excluded', hpart'⟩ := hpart'
      rw [List.map_cons, List.map_cons, wiped_partOf hhead hpart hpart', ih htail hrest']

/-- The conditions of plain tags follow from the number of keys, up to the keys. -/
lemma wiped_tagConditions (h : Alike predicates others) :
    (tagConditions kind predicates).map Condition.wiped = (tagConditions kind others).map Condition.wiped := by
  have hwiped : ∀ list : List Predicate, (tagConditions kind list).map Condition.wiped =
      (if (tagKeys false list).length = 0 then []
        else [Condition.isIn (.carryingEvery kind (List.replicate (tagKeys false list).length 0))]) ++
      (if (tagKeys true list).length = 0 then []
        else [Condition.isNotIn (.carryingAny kind (List.replicate (tagKeys true list).length 0))]) := by
    intro list
    simp only [tagConditions, List.map_append, List.isEmpty_iff, List.map_eq_nil_iff, List.length_eq_zero_iff,
      apply_ite (List.map Condition.wiped), List.map_nil, List.map_cons, Condition.wiped, Owners.wiped,
      List.length_map]
  rw [hwiped, hwiped, h.included, h.excluded]

lemma map_wiped_conditions (found : List Part) :
    (found.filterMap Part.condition?).map Condition.wiped = (found.map Part.wiped).filterMap Part.condition? := by
  rw [List.map_filterMap, List.filterMap_map]
  refine List.filterMap_congr fun part _ => ?_
  cases part <;> rfl

lemma wiped_order (found : List Part) :
    (found.filterMap Part.order?).head?.map (fun _ => (⟨0, 0⟩ : HashPair)) =
      ((found.map Part.wiped).filterMap Part.order?).head? := by
  rw [← List.head?_map, List.map_filterMap, List.filterMap_map]
  refine congrArg List.head? (List.filterMap_congr fun part _ => ?_)
  cases part <;> rfl

/-- Plans of one shape differ in their values only. -/
theorem wiped_eq (halike : Alike predicates others) (h : ofPredicates predicates kind = .ok plan)
    (hother : ofPredicates others kind = .ok other) : plan.wiped = other.wiped := by
  obtain ⟨found, hfound, rfl⟩ := ofPredicates_eq_ok.mp h
  obtain ⟨found', hfound', rfl⟩ := ofPredicates_eq_ok.mp hother
  have hparts := map_wiped_congr halike.metatags (forall₂_parts hfound) (forall₂_parts hfound')
  simp only [wiped, wiped_order, hparts, halike.unsatisfiable]
  by_cases hsome : others.any isUnsatisfiable = true
  · rw [if_pos hsome, if_pos hsome]
  · rw [if_neg hsome, if_neg hsome]
    simp only [Clause.wiped, List.map_append, wiped_tagConditions halike, map_wiped_conditions, hparts]

lemma countStatement_congr (h : plan.wiped = other.wiped) :
    plan.countStatement.render.text = other.countStatement.render.text := by
  refine text_congr ?_
  exact congrArg countStatement h

lemma pageStatement_congr (h : plan.wiped = other.wiped) (start stride start' stride' : UInt64) :
    (plan.pageStatement start stride).render.text = (other.pageStatement start' stride').render.text := by
  have hwiped : ∀ (plan : Plan) (start stride : UInt64), (plan.pageStatement start stride).wiped =
      .page plan.wiped.kind plan.wiped.clause
        (if plan.wiped.kind = .image then plan.wiped.similarTo else none) 0 0 := by
    intro plan start stride
    simp only [pageStatement, Statement.wiped, wiped, apply_ite (Option.map _), Option.map_none]
    rfl
  refine text_congr ?_
  rw [hwiped, hwiped, h]

lemma adjacentStatement_congr (h : plan.wiped = other.wiped) (pivot pivot' : UInt64) (direction : Direction) :
    (plan.adjacentStatement pivot direction).render.text = (other.adjacentStatement pivot' direction).render.text := by
  refine text_congr ?_
  exact congrArg (fun plan : Plan => Statement.adjacent plan.kind plan.clause 0 direction) h

/-- No value reaches the text of a statement: there is one placeholder for each value, and predicates of one shape give
the same texts, whatever their values, windows and pivots. -/
theorem text_without_values (h : ofPredicates predicates kind = .ok plan) :
    (plan.countStatement.render.text.toList.count '?' = plan.countStatement.render.bound.length ∧
      (∀ start stride, (plan.pageStatement start stride).render.text.toList.count '?' =
        (plan.pageStatement start stride).render.bound.length) ∧
      ∀ pivot direction, (plan.adjacentStatement pivot direction).render.text.toList.count '?' =
        (plan.adjacentStatement pivot direction).render.bound.length) ∧
    ∀ others other, ofPredicates others kind = .ok other → Alike predicates others →
      plan.countStatement.render.text = other.countStatement.render.text ∧
      (∀ start stride start' stride',
        (plan.pageStatement start stride).render.text = (other.pageStatement start' stride').render.text) ∧
      ∀ pivot pivot' direction,
        (plan.adjacentStatement pivot direction).render.text =
          (other.adjacentStatement pivot' direction).render.text := by
  refine ⟨⟨isBound_statement _, fun _ _ => isBound_statement _, fun _ _ => isBound_statement _⟩, ?_⟩
  intro others other hother halike
  have hwiped := wiped_eq halike h hother
  exact ⟨countStatement_congr hwiped, pageStatement_congr hwiped, adjacentStatement_congr hwiped⟩

/-- A text that looks like a statement is bound like any other text. -/
theorem text_of_hostile_rating :
    ∃ plan other,
      ofPredicates [.ofCondition ⟨"rating", .text "x' OR 1=1 -- ?", .eq⟩ false,
        .ofTag ⟨9, "?", "", 1, none, 7, true⟩ false] .image = .ok plan ∧
      ofPredicates [.ofTag ⟨1, "sky", "", 1, none, 0, false⟩ false, .ofTag ⟨2, "heavens", "", 1, none, 1, true⟩ false,
        .ofCondition ⟨"rating", .text "safe", .eq⟩ true] .image = .ok other ∧
      plan.countStatement.render.text.toList.count '?' = plan.countStatement.render.bound.length ∧
      ∀ start stride,
        (plan.pageStatement start stride).render.text = (other.pageStatement 0 0).render.text := by
  have hplan : ofPredicates [.ofCondition ⟨"rating", .text "x' OR 1=1 -- ?", .eq⟩ false,
      .ofTag ⟨9, "?", "", 1, none, 7, true⟩ false] .image =
    .ok ⟨.image, .all [.isIn (.carryingEvery .image [7]),
      .compare .rating .eq (.text "x' OR 1=1 -- ?") false], none⟩ := rfl
  have hother : ofPredicates [.ofTag ⟨1, "sky", "", 1, none, 0, false⟩ false,
      .ofTag ⟨2, "heavens", "", 1, none, 1, true⟩ false, .ofCondition ⟨"rating", .text "safe", .eq⟩ true] .image =
    .ok ⟨.image, .all [.isIn (.carryingEvery .image [1]), .compare .rating .eq (.text "safe") false], none⟩ := rfl
  obtain ⟨⟨hcount, _⟩, hsame⟩ := text_without_values hplan
  obtain ⟨_, hpage, _⟩ := hsame _ _ hother ⟨rfl, rfl, rfl, rfl⟩
  exact ⟨_, _, hplan, hother, hcount, fun start stride => hpage start stride 0 0⟩

end Plan
end TagSearch
