import TagSearch.Proofs.Signed
import TagSearch.Proofs.Sql.Placeholder

/-! The values that are bound to a statement, in the order of their placeholders. They are the values that a selection
evaluates, each at its place: those of the clause, then the hashes of the order, then the limit and the offset. So a
statement is given by its shape and its bound values. -/
namespace TagSearch.Sql
open Fragment

def Owners.values : Owners → List Value
  | carryingAny _ tags => tags.map .integer
  | carryingEvery _ tags => tags.map .integer ++ [.integer (Int64.ofNat tags.length)]
  | collected => []

def Condition.values : Condition → List Value
  | isIn owners | isNotIn owners => owners.values
  | compare _ _ value _ | tagCount _ value => [value]

def Clause.values : Clause → List Value
  | nothing => []
  | all conditions => conditions.flatMap Condition.values

/-- The values of an order. -/
def hashValues : Option HashPair → List Value
  | none => []
  | some pair => [.integer pair.horizontal.toInt64, .integer pair.vertical.toInt64]

def Statement.values : Statement → List Value
  | count _ clause => clause.values
  | page _ clause nearest limit offset =>
    clause.values ++ hashValues nearest ++ [.integer limit, .integer offset]
  | adjacent _ clause pivot _ => clause.values ++ [.integer pivot]

@[simp] lemma bound_plain (text : String) : (plain text).bound = [] := rfl

@[simp] lemma bound_placeholder (value : Value) : (placeholder value).bound = [value] := rfl

lemma bound_owners (owners : Owners) : owners.render.bound = owners.values := by
  cases owners with
  | carryingAny kind tags => simp [Owners.render, Owners.values, bound_list]
  | carryingEvery kind tags => simp [Owners.render, Owners.values, bound_list]
  | collected => rfl

lemma bound_condition (c : Condition) : c.render.bound = c.values := by
  cases c with
  | isIn owners => simp [Condition.render, Condition.values, bound_owners]
  | isNotIn owners => simp [Condition.render, Condition.values, bound_owners]
  | compare column comparator value escaped => simp [Condition.render, Condition.values]
  | tagCount comparator value => rfl

lemma bound_join (joiner : String) (pieces : List Fragment) :
    (join joiner pieces).bound = pieces.flatMap Fragment.bound := by
  induction pieces with
  | nil => rfl
  | cons a rest ih =>
    cases rest with
    | nil => simp [join]
    | cons b rest =>
      rw [List.flatMap_cons, ← ih]
      simp [join]

lemma bound_clause (clause : Clause) : clause.render.bound = clause.values := by
  cases clause with
  | nothing => rfl
  | all conditions =>
    cases conditions with
    | nil => rfl
    | cons c rest =>
      change (join " AND " ((c :: rest).map Condition.render)).bound = (c :: rest).flatMap Condition.values
      rw [bound_join, List.flatMap_map]
      simp only [bound_condition]

/-- What is bound to a statement, in order. -/
theorem bound_statement (statement : Statement) : statement.render.bound = statement.values := by
  cases statement with
  | count kind clause => simp [Statement.render, Statement.values, bound_clause]
  | page kind clause nearest limit offset =>
    cases nearest <;> simp [Statement.render, Statement.values, hashValues, bound_clause, orderText]
  | adjacent kind clause pivot direction => simp [Statement.render, Statement.values, bound_clause]

lemma integers_injective : Function.Injective (List.map Value.integer) :=
  List.map_injective_iff.mpr fun _ _ => Value.integer.inj

/-- Shapes tell how many values there are. -/
lemma length_values_owners {left right : Owners} (h : left.wiped = right.wiped) :
    left.values.length = right.values.length := by
  have hlength : ∀ owners : Owners, owners.wiped.values.length = owners.values.length := by
    intro owners
    cases owners <;> simp [Owners.wiped, Owners.values]
  rw [← hlength left, h, hlength]

lemma length_values_condition {left right : Condition} (h : left.wiped = right.wiped) :
    left.values.length = right.values.length := by
  cases left <;> cases right <;> simp only [Condition.wiped, reduceCtorEq, Condition.isIn.injEq,
    Condition.isNotIn.injEq] at h
  · exact length_values_owners h
  · exact length_values_owners h
  · rfl
  · rfl

lemma owners_eq {left right : Owners} (hshape : left.wiped = right.wiped) (hvalues : left.values = right.values) :
    left = right := by
  cases left with
  | carryingAny kind tags =>
    cases right <;> simp only [Owners.wiped, reduceCtorEq, Owners.carryingAny.injEq] at hshape
    rw [hshape.1, integers_injective hvalues]
  | carryingEvery kind tags =>
    cases right <;> simp only [Owners.wiped, reduceCtorEq, Owners.carryingEvery.injEq] at hshape
    rw [hshape.1, integers_injective (List.append_inj_left' hvalues rfl)]
  | collected => cases right <;> simp only [Owners.wiped, reduceCtorEq] at hshape ⊢

lemma condition_eq {left right : Condition} (hshape : left.wiped = right.wiped)
    (hvalues : left.values = right.values) : left = right := by
  cases left with
  | isIn owners =>
    cases right <;> simp only [Condition.wiped, reduceCtorEq, Condition.isIn.injEq] at hshape
    rw [owners_eq hshape hvalues]
  | isNotIn owners =>
    cases right <;> simp only [Condition.wiped, reduceCtorEq, Condition.isNotIn.injEq] at hshape
    rw [owners_eq hshape hvalues]
  | compare column comparator value escaped =>
    cases right <;> simp only [Condition.wiped, reduceCtorEq, Condition.compare.injEq] at hshape
    obtain ⟨rfl, rfl, -, rfl⟩ := hshape
    rw [List.singleton_inj.mp hvalues]
  | tagCount comparator value =>
    cases right <;> simp only [Condition.wiped, reduceCtorEq, Condition.tagCount.injEq] at hshape
    obtain ⟨rfl, -⟩ := hshape
    rw [List.singleton_inj.mp hvalues]

lemma conditions_eq {left right : List Condition} (hshape : left.map Condition.wiped = right.map Condition.wiped)
    (hvalues : left.flatMap Condition.values = right.flatMap Condition.values) : left = right := by
  induction left generalizing right with
  | nil => exact (List.map_eq_nil_iff.mp hshape.symm).symm
  | cons c rest ih =>
    cases right with
    | nil => cases hshape
    | cons d others =>
      obtain ⟨hhead, htail⟩ := List.cons.inj hshape
      obtain ⟨hfirst, hrest⟩ := List.append_inj hvalues (length_values_condition hhead)
      rw [condition_eq hhead hfirst, ih htail hrest]

lemma clause_eq {left right : Clause} (hshape : left.wiped = right.wiped) (hvalues : left.values = right.values) :
    left = right := by
  cases left with
  | nothing => cases right <;> simp only [Clause.wiped, reduceCtorEq] at hshape ⊢
  | all conditions =>
    cases right <;> simp only [Clause.wiped, reduceCtorEq, Clause.all.injEq] at hshape
    rw [conditions_eq hshape hvalues]

lemma length_hashValues {left right : Option HashPair}
    (h : (left.map fun _ => (⟨0, 0⟩ : HashPair)) = right.map fun _ => ⟨0, 0⟩) :
    (hashValues left).length = (hashValues right).length := by
  cases left <;> cases right <;> cases h <;> rfl

lemma hashes_eq {left right : Option HashPair} (h : hashValues left = hashValues right) : left = right := by
  cases left <;> cases right <;> simp only [hashValues, reduceCtorEq, List.cons.injEq, Value.integer.injEq,
    toInt64_inj, and_true] at h ⊢
  exact congrArg some (HashPair.mk.injEq .. ▸ h)

/-- A statement is given by its shape and the values that are bound to it, so what it selects follows from these. -/
theorem statement_eq {left right : Statement} (hshape : left.wiped = right.wiped)
    (hbound : left.render.bound = right.render.bound) : left = right := by
  rw [bound_statement, bound_statement] at hbound
  cases left with
  | count kind clause =>
    cases right <;> simp only [Statement.wiped, reduceCtorEq, Statement.count.injEq] at hshape
    rw [hshape.1, clause_eq hshape.2 hbound]
  | page kind clause nearest limit offset =>
    cases right <;> simp only [Statement.wiped, reduceCtorEq, Statement.page.injEq] at hshape
    obtain ⟨rfl, hclause, hnearest, -⟩ := hshape
    obtain ⟨hrows, hwindow⟩ := List.append_inj' hbound rfl
    obtain ⟨hvalues, hhashes⟩ := List.append_inj' hrows (length_hashValues hnearest)
    simp only [List.cons.injEq, Value.integer.injEq, and_true] at hwindow
    rw [clause_eq hclause hvalues, hashes_eq hhashes, hwindow.1, hwindow.2]
  | adjacent kind clause pivot direction =>
    cases right <;> simp only [Statement.wiped, reduceCtorEq, Statement.adjacent.injEq] at hshape
    obtain ⟨rfl, hclause, -, rfl⟩ := hshape
    obtain ⟨hvalues, hpivot⟩ := List.append_inj' hbound rfl
    rw [clause_eq hclause hvalues, Value.integer.inj (List.singleton_inj.mp hpivot)]

end TagSearch.Sql
