import TagSearch.Proofs.Search.Refusal
import TagSearch.Proofs.Sql.Bound

/-! What the engine of the program takes. A statement may bind 32,766 values, of which the clause has most; the
expression of its conditions may be 1,000 deep, and each condition that is joined to it makes it deeper; and its patterns
are those of the clause. -/
namespace TagSearch
open Sql

namespace Sql

variable {statement : Statement} {depth stop : ℕ} {pieces : List Piece}

lemma jointDepth_le {left right bound : ℕ} (hleft : left ≤ bound) (hright : right ≤ bound) :
    jointDepth left right ≤ bound + 1 :=
  Nat.succ_le_succ (Nat.max_le.mpr ⟨hleft, hright⟩)

/-- A piece that is no deeper than a bound makes an expression that is no deeper by one deeper. -/
lemma foldl_jointDepth_le {bound : ℕ} (h : ∀ piece ∈ pieces, piece.depth ≤ bound) (hdepth : depth ≤ bound) :
    pieces.foldl (fun depth piece => jointDepth depth piece.depth) depth ≤ bound + pieces.length := by
  induction pieces generalizing depth bound with
  | nil => exact hdepth
  | cons piece rest ih =>
    rw [List.forall_mem_cons] at h
    have hrest := ih (fun other hother => Nat.le_succ_of_le (h.2 other hother)) (jointDepth_le hdepth h.1)
    rwa [List.foldl_cons, List.length_cons, Nat.add_comm rest.length, ← Nat.add_assoc]

lemma excessDepth_of_le {bound : ℕ} (h : ∀ piece ∈ pieces, piece.depth ≤ bound) (hdepth : depth ≤ bound)
    (hlength : bound + pieces.length ≤ depthLimit) : excessDepth? depth stop pieces = none := by
  induction pieces generalizing depth bound stop with
  | nil => rfl
  | cons piece rest ih =>
    rw [List.forall_mem_cons] at h
    have hjoint := jointDepth_le hdepth h.1
    rw [List.length_cons] at hlength
    rw [excessDepth?, if_neg (by omega)]
    exact ih (fun other hother => Nat.le_succ_of_le (h.2 other hother)) hjoint (by omega)

/-- Each piece makes an expression deeper. -/
lemma excessDepth_ne_none (hdepth : depth ≤ depthLimit) (hlength : depthLimit < depth + pieces.length) :
    excessDepth? depth stop pieces ≠ none := by
  induction pieces generalizing depth stop with
  | nil => exact absurd hlength (Nat.not_lt.mpr hdepth)
  | cons piece rest ih =>
    have hjoint : depth + 1 ≤ jointDepth depth piece.depth := Nat.succ_le_succ (Nat.le_max_left ..)
    rw [List.length_cons] at hlength
    rw [excessDepth?]
    split
    · exact Option.some_ne_none _
    · exact ih (by omega) (by omega)

lemma misplacedEscape_eq_none {conditions : List Condition} (h : ∀ c ∈ conditions, c.misplacedEscape? = none) :
    misplacedEscape? conditions = none := by
  induction conditions with
  | nil => rfl
  | cons c rest ih =>
    rw [List.forall_mem_cons] at h
    simp only [misplacedEscape?, h.1, ih h.2, Option.map_none]

lemma earlier_eq_none {left right : Option (ℕ × Fault)} : earlier? left right = none ↔ left = none ∧ right = none := by
  cases left <;> cases right <;> simp only [earlier?, reduceCtorEq, and_self, and_false, false_and, iff_false]
  split <;> exact Option.some_ne_none _

/-- Nothing is wrong with a statement that is not too deep, has its escape characters in place and binds no more values
than it may. -/
lemma fault_eq_none : statement.fault? = none ↔
    statement.excessDepth? = none ∧ statement.misplacedEscape? = none ∧
      statement.render.bound.length ≤ valueLimit := by
  simp only [Statement.fault?, Option.map_eq_none_iff, earlier_eq_none, surplusValue_statement]

lemma fault_of_depth (hdepth : statement.excessDepth? ≠ none) (hescape : statement.misplacedEscape? = none)
    (hvalue : statement.render.bound.length ≤ valueLimit) : statement.fault? = some .tooDeep := by
  obtain ⟨place, hplace⟩ := Option.ne_none_iff_exists'.mp hdepth
  rw [Statement.fault?, hplace, hescape, surplusValue_statement.mpr hvalue]
  rfl

/-- Where too many values are bound, the engine says so. -/
lemma fault_of_surplus (hdepth : statement.excessDepth? = none) (hescape : statement.misplacedEscape? = none)
    (hvalue : valueLimit < statement.render.bound.length) :
    ∃ text offset, statement.fault? = some (.tooManyValues text offset) := by
  cases hsurplus : surplusValue? statement.render.text with
  | none => exact absurd (surplusValue_statement.mp hsurplus) (Nat.not_le.mpr hvalue)
  | some offset =>
    refine ⟨statement.render.text, offset, ?_⟩
    rw [Statement.fault?, hdepth, hescape, hsurplus]
    rfl

/-- A statement within the limits that do not depend on what the tables hold. -/
def Statement.IsSmall (statement : Statement) : Prop := statement.fault? = none ∧ statement.isDeep = false

lemma depth_owners_le (owners : Owners) : owners.depth ≤ 3 := by
  unfold Owners.depth
  split <;> decide

lemma depth_condition_le (c : Condition) : c.depth ≤ 6 := by
  cases c with
  | isIn owners =>
    have hquery := depth_owners_le owners
    rw [Condition.depth]
    omega
  | isNotIn owners =>
    have hquery := depth_owners_le owners
    rw [Condition.depth]
    omega
  | compare column comparator value escaped =>
    rw [Condition.depth]
    split <;> decide
  | tagCount comparator value =>
    rw [Condition.depth]
    split <;> decide

lemma innerDepth_condition_le (c : Condition) : c.innerDepth ≤ 3 := by
  have howners : ∀ owners : Owners, owners.innerDepth ≤ 3 := by
    intro owners
    unfold Owners.innerDepth
    split
    · exact Nat.le_refl 3
    · exact depth_owners_le owners
  cases c with
  | isIn owners => exact howners owners
  | isNotIn owners => exact howners owners
  | compare column comparator value escaped => exact Nat.zero_le 3
  | tagCount comparator value => exact Nat.le_refl 3

lemma foldl_max_le {bound start : ℕ} {depths : List ℕ} (hstart : start ≤ bound) (h : ∀ depth ∈ depths, depth ≤ bound) :
    depths.foldl max start ≤ bound := by
  induction depths generalizing start with
  | nil => exact hstart
  | cons depth rest ih =>
    rw [List.forall_mem_cons] at h
    exact ih (Nat.max_le.mpr ⟨hstart, h.1⟩) h.2

lemma innerDepth_all_le {conditions : List Condition} {bound : ℕ} (h : ∀ c ∈ conditions, c.innerDepth ≤ bound) :
    (Clause.all conditions).innerDepth ≤ bound :=
  foldl_max_le (Nat.zero_le bound) (List.forall_mem_map.mpr h)

lemma innerDepth_clause_le (clause : Clause) : clause.innerDepth ≤ 3 := by
  cases clause with
  | nothing => exact Nat.zero_le 3
  | all conditions => exact innerDepth_all_le fun c _ => innerDepth_condition_le c

lemma depth_firstPiece_le (clause : Clause) : clause.firstPiece.depth ≤ 6 := by
  unfold Clause.firstPiece
  split
  · decide
  · decide
  · exact depth_condition_le _

lemma depth_joinedPieces_le {piece : Piece} (h : piece ∈ statement.joinedPieces) : piece.depth ≤ 6 := by
  unfold Statement.joinedPieces at h
  rcases List.mem_append.mp h with h | h
  · split at h
    · cases h
    · obtain ⟨c, _, rfl⟩ := List.mem_map.mp h
      exact depth_condition_le c
  · split at h
    · rw [List.mem_singleton.mp h]
      decide
    · cases h

lemma depth_statement_le (statement : Statement) : statement.depth ≤ statement.joinedPieces.length + 7 := by
  have hjoined := @foldl_jointDepth_le _ statement.joinedPieces 6 (fun _ => depth_joinedPieces_le)
    (depth_firstPiece_le statement.clause)
  unfold Statement.depth
  dsimp only
  split
  · refine Nat.le_trans (jointDepth_le hjoined (by omega)) (by omega)
  · omega

/-- A statement of few conditions is not too deep. -/
lemma isSmall_of_joinedPieces (hescape : statement.misplacedEscape? = none)
    (hvalue : statement.render.bound.length ≤ valueLimit) (hlength : statement.joinedPieces.length + 10 ≤ depthLimit) :
    statement.IsSmall := by
  have hexcess : statement.excessDepth? = none :=
    excessDepth_of_le (fun _ => depth_joinedPieces_le) (depth_firstPiece_le statement.clause) (by omega)
  have hdepth := depth_statement_le statement
  have hinner := innerDepth_clause_le statement.clause
  exact ⟨fault_eq_none.mpr ⟨hexcess, hescape, hvalue⟩, decide_eq_false (by omega)⟩

/-- Besides the values of its clause, a statement binds four at most. -/
lemma length_bound_le (statement : Statement) :
    statement.render.bound.length ≤ statement.clause.values.length + 4 := by
  rw [bound_statement]
  cases statement with
  | count kind clause => exact Nat.le_add_right ..
  | page kind clause nearest limit offset =>
    have hhashes : (hashValues nearest).length ≤ 2 := by
      cases nearest with
      | none => exact Nat.zero_le 2
      | some pair => exact Nat.le_refl 2
    simp only [Statement.values, Statement.clause, List.length_append, List.length_cons, List.length_nil]
    omega
  | adjacent kind clause pivot direction =>
    simp only [Statement.values, Statement.clause, List.length_append, List.length_cons, List.length_nil]
    omega

lemma length_joinedPieces_le {conditions : List Condition} (hclause : statement.clause = .all conditions) :
    statement.joinedPieces.length ≤ conditions.length + 1 := by
  unfold Statement.joinedPieces
  rw [hclause, List.length_append, List.length_map, List.length_tail]
  split <;> simp only [List.length_cons, List.length_nil] <;> omega

/-- Conditions that are few enough for every statement. -/
def AreFew (conditions : List Condition) : Prop :=
  misplacedEscape? conditions = none ∧ (Clause.all conditions).values.length + 4 ≤ valueLimit ∧
    conditions.length + 11 ≤ depthLimit

lemma areFew_nil : AreFew [] := ⟨rfl, Nat.le_of_ble_eq_true rfl, Nat.le_of_ble_eq_true rfl⟩

lemma AreFew.isSmall {conditions : List Condition} (h : AreFew conditions)
    (hclause : statement.clause = .all conditions) : statement.IsSmall := by
  obtain ⟨hescape, hvalue, hlength⟩ := h
  have hbound := length_bound_le statement
  have hpieces := length_joinedPieces_le hclause
  rw [hclause] at hbound
  refine isSmall_of_joinedPieces ?_ (by omega) (by omega)
  rw [Statement.misplacedEscape?, hclause]
  dsimp only
  rw [hescape, Option.map_none]

end Sql

namespace Plan

/-- The number of values that the clause of a plan binds. -/
def valueCount (plan : Plan) : ℕ := plan.clause.values.length

lemma bound_countStatement (plan : Plan) : plan.countStatement.render.bound.length = plan.valueCount := by
  rw [bound_statement]
  rfl

/-- A page binds its limit and its offset, and two hashes if it is ordered by similarity. -/
lemma bound_pageStatement (plan : Plan) (start stride : UInt64) :
    (plan.pageStatement start stride).render.bound.length =
      plan.valueCount + (if plan.kind = .image ∧ plan.similarTo ≠ none then 4 else 2) := by
  rw [bound_statement, pageStatement]
  cases hkind : plan.kind <;> cases hsimilar : plan.similarTo <;> simp [Statement.values, hashValues, valueCount]

/-- A statement for a neighbour binds its pivot. -/
lemma bound_adjacentStatement (plan : Plan) (pivot : UInt64) (direction : Direction) :
    (plan.adjacentStatement pivot direction).render.bound.length = plan.valueCount + 1 := by
  rw [bound_statement, adjacentStatement, Statement.values, List.length_append]
  rfl

end Plan

namespace Engine

variable {s : Store} {plan : Plan} {statement : Statement} {start stride : UInt64}

lemma refusal_of_fault {fault : Fault} (h : statement.fault? = some fault) :
    standard.refusal? s statement = some fault := by
  have hrejects : standard.rejects? statement = some fault := h
  rw [refusal?, hrejects, Option.some_or]

/-- A small statement is refused only where it meets a pattern that is too long. -/
lemma refusal_of_isSmall (h : statement.IsSmall) :
    standard.refusal? s statement = if s.meetsLongPattern statement then some .patternTooLong else none := by
  have hrejects : standard.rejects? statement = none := h.1
  rw [refusal?, hrejects, Option.none_or]
  exact if_neg (Bool.eq_false_iff.mp h.2)

/-- A page meets the patterns that the count meets. -/
lemma meetsLongPattern_page (plan : Plan) (start stride : UInt64) :
    s.meetsLongPattern (plan.pageStatement start stride) = s.meetsLongPattern plan.countStatement := rfl

/-- The engine takes a window whose statements are small and meet no pattern that is too long. -/
lemma windowRefusal_of_isSmall (hcount : plan.countStatement.IsSmall)
    (hpage : (plan.pageStatement start stride).IsSmall) (hpattern : s.meetsLongPattern plan.countStatement = false) :
    standard.windowRefusal? s plan start stride = none := by
  refine windowRefusal_eq_none ?_ ?_
  · rw [refusal_of_isSmall hcount, hpattern, if_neg Bool.false_ne_true]
  · rw [refusal_of_isSmall hpage, meetsLongPattern_page, hpattern, if_neg Bool.false_ne_true]

/-- Short patterns are never too long. -/
lemma meetsLongPattern_of_short {conditions : List Condition} (h : conditions.any Condition.hasLongPattern = false)
    (hclause : statement.clause = .all conditions) : s.meetsLongPattern statement = false := by
  rw [Store.meetsLongPattern, hclause]
  dsimp only
  rw [h, Bool.false_and]

section Few

variable {conditions : List Condition} (hfew : AreFew conditions)
  (hpattern : conditions.any Condition.hasLongPattern = false)

include hfew hpattern

/-- The engine takes few conditions, if their patterns are short. -/
lemma refusal_of_few (hclause : statement.clause = .all conditions) : standard.refusal? s statement = none := by
  rw [refusal_of_isSmall (hfew.isSmall hclause), meetsLongPattern_of_short hpattern hclause,
    if_neg Bool.false_ne_true]

lemma windowRefusal_of_few {kind : Kind} {similarTo : Option HashPair} :
    standard.windowRefusal? s ⟨kind, .all conditions, similarTo⟩ start stride = none :=
  windowRefusal_eq_none (refusal_of_few hfew hpattern rfl) (refusal_of_few hfew hpattern rfl)

lemma neighbourRefusal_of_few {kind : Kind} {similarTo : Option HashPair} {pivot : UInt64} :
    standard.neighbourRefusal? s ⟨kind, .all conditions, similarTo⟩ pivot = none :=
  neighbourRefusal_eq_none fun _ => refusal_of_few hfew hpattern rfl

end Few

/-- A comparison that is the only condition meets a pattern that is too long where there is a row to compare. -/
lemma meetsLongPattern_compare {column : Column} {comparator : Comparator} {value : Value} {escaped : Bool}
    (hlike : comparator.isPattern = true) (hbeside : ∀ row, statement.isBeside row = true)
    (hclause : statement.clause = .all [.compare column comparator value escaped]) :
    s.meetsLongPattern statement =
      (decide (patternLimit < value.asText.utf8ByteSize) && !(s.rows statement.kind).isEmpty) := by
  have hne : comparator ≠ .eq := by
    rintro rfl
    cases hlike
  have hseeks : ∀ other, Condition.seeks other (.compare column comparator value escaped) = false := fun other =>
    decide_eq_false fun h => hne h.2
  have hindex : statement.index? [.compare column comparator value escaped] = none := by
    simp only [Statement.index?, List.any_cons, hseeks, List.any_nil, Bool.or_false, Bool.false_and,
      Bool.false_eq_true, if_false, ite_self]
  have horder : Condition.inOrder none [.compare column comparator value escaped] =
    [.compare column comparator value escaped] := rfl
  rw [Store.meetsLongPattern, hclause]
  simp only [hindex, horder, hbeside, Bool.or_true, List.filter_true, Store.reachesLongPattern,
    Condition.hasLongPattern, hlike, Bool.true_and, List.any_cons, List.any_nil, Bool.or_false, Bool.and_false]
  cases decide (patternLimit < value.asText.utf8ByteSize) with
  | false => rfl
  | true => cases s.rows statement.kind <;> simp

/-- The engine refuses a pattern that is too long, if there is a row to compare. -/
lemma refusal_compare {column : Column} {comparator : Comparator} {value : Value} {escaped : Bool}
    (hlike : comparator.isPattern = true) (hsmall : statement.IsSmall) (hbeside : ∀ row, statement.isBeside row = true)
    (hclause : statement.clause = .all [.compare column comparator value escaped]) :
    standard.refusal? s statement =
      if patternLimit < value.asText.utf8ByteSize ∧ s.rows statement.kind ≠ [] then some .patternTooLong
      else none := by
  rw [refusal_of_isSmall hsmall, meetsLongPattern_compare hlike hbeside hclause]
  simp

end Engine
end TagSearch
