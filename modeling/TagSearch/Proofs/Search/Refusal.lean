import TagSearch.Proofs.Search.Found

/-! What an engine may refuse of a search. A search comes to an answer unless the engine refuses one of the statements
that are sent for it. -/
namespace TagSearch
open Sql

namespace Engine

variable {engine : Engine} {s : Store} {plan : Plan} {start stride : UInt64}

/-- An answer, unless the engine refuses it. -/
def unlessRefused {α : Type} (refusal : Option Fault) (answer : α) : Except SearchError α :=
  match refusal with
  | some fault => .error (.store (.database fault))
  | none => .ok answer

lemma unlessRefused_eq_ok {α : Type} {refusal : Option Fault} {answer found : α} :
    unlessRefused refusal answer = .ok found ↔ refusal = none ∧ answer = found := by
  cases refusal <;> simp [unlessRefused]

lemma execute_ready {α : Type} (statement : Statement) (f : Store → α) :
    (engine.execute (.ready s) statement f).mapError SearchError.store =
      unlessRefused (engine.refusal? s statement) (f s) := by
  rw [execute, refusal?]
  cases engine.rejects? statement with
  | some fault => rfl
  | none =>
    rw [Option.none_or, Database.answer]
    cases engine.abandons? s statement <;> rfl

/-- Why an engine refuses a window of a search. The page is asked for only where the start lies before the end. -/
def windowRefusal? (engine : Engine) (s : Store) (plan : Plan) (start stride : UInt64) : Option Fault :=
  if plan.matchesNothing then none
  else
    (engine.refusal? s plan.countStatement).or
      (if (s.listed plan).length ≤ start.toNat then none else engine.refusal? s (plan.pageStatement start stride))

/-- Why an engine refuses the neighbours of a pivot. -/
def neighbourRefusal? (engine : Engine) (s : Store) (plan : Plan) (pivot : UInt64) : Option Fault :=
  if plan.matchesNothing then none
  else
    (engine.refusal? s (plan.adjacentStatement pivot .previous)).or
      (engine.refusal? s (plan.adjacentStatement pivot .next))

/-- A window is answered where its statements are. -/
lemma windowRefusal_eq_none (hcount : engine.refusal? s plan.countStatement = none)
    (hpage : engine.refusal? s (plan.pageStatement start stride) = none) :
    engine.windowRefusal? s plan start stride = none := by
  rw [windowRefusal?, hcount, hpage, ite_self, Option.none_or, ite_self]

/-- Before the end of an answered count, it is the page that may be refused. -/
lemma windowRefusal_of_lt (hnothing : plan.matchesNothing = false)
    (hcount : engine.refusal? s plan.countStatement = none) (hstart : start.toNat < (s.listed plan).length) :
    engine.windowRefusal? s plan start stride = engine.refusal? s (plan.pageStatement start stride) := by
  rw [windowRefusal?, hnothing, if_neg Bool.false_ne_true, hcount, Option.none_or, if_neg (Nat.not_le.mpr hstart)]

/-- Where a page is refused as its count is, so is the window. -/
lemma windowRefusal_of_eq (hnothing : plan.matchesNothing = false)
    (h : engine.refusal? s (plan.pageStatement start stride) = engine.refusal? s plan.countStatement) :
    engine.windowRefusal? s plan start stride = engine.refusal? s plan.countStatement := by
  rw [windowRefusal?, hnothing, if_neg Bool.false_ne_true, h]
  cases engine.refusal? s plan.countStatement with
  | some fault => rfl
  | none => rw [ite_self, Option.none_or]

lemma neighbourRefusal_eq_none {pivot : UInt64}
    (h : ∀ direction, engine.refusal? s (plan.adjacentStatement pivot direction) = none) :
    engine.neighbourRefusal? s plan pivot = none := by
  rw [neighbourRefusal?, h, h, Option.none_or, ite_self]

/-- The previous neighbour is asked for first. -/
lemma neighbourRefusal_of_previous {pivot : UInt64} {fault : Fault} (hnothing : plan.matchesNothing = false)
    (h : engine.refusal? s (plan.adjacentStatement pivot .previous) = some fault) :
    engine.neighbourRefusal? s plan pivot = some fault := by
  rw [neighbourRefusal?, hnothing, if_neg Bool.false_ne_true, h, Option.some_or]

end Engine
end TagSearch
