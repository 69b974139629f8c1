import Mathlib.Data.List.Forall2
import Mathlib.Tactic.Lemma
import TagSearch.Store.Answer

/-! The texts of statements. A text has one placeholder for each value that is bound to it, and it stays the same when
the values are wiped out of the statement. -/
namespace TagSearch.Sql
open Fragment

/-- A fragment has one placeholder for each of its values. -/
def Fragment.IsBound (f : Fragment) : Prop := f.text.toList.count '?' = f.bound.length

namespace Fragment

lemma isBound_plain {chars : List Char} (h : chars.count '?' = 0) : (plain (String.ofList chars)).IsBound := by
  change (String.ofList chars).toList.count '?' = 0
  rw [String.toList_ofList, h]

lemma isBound_plain_append {a b : String} (ha : (plain a).IsBound) (hb : (plain b).IsBound) :
    (plain (a ++ b)).IsBound := by
  change (a ++ b).toList.count '?' = 0
  rw [String.toList_append, List.count_append, show a.toList.count '?' = 0 from ha,
    show b.toList.count '?' = 0 from hb]

lemma isBound_placeholder (value : Value) : (placeholder value).IsBound := by
  change "?".toList.count '?' = 1
  rfl

lemma IsBound.append {a b : Fragment} (ha : a.IsBound) (hb : b.IsBound) : (a ++ b).IsBound := by
  rw [IsBound, text_append, bound_append, String.toList_append, List.count_append, List.length_append, ha, hb]

lemma isBound_join {joiner : String} (hjoiner : (plain joiner).IsBound) {pieces : List Fragment}
    (h : ∀ piece ∈ pieces, piece.IsBound) : (join joiner pieces).IsBound := by
  induction pieces with
  | nil => exact isBound_plain rfl
  | cons a rest ih =>
    rw [List.forall_mem_cons] at h
    cases rest with
    | nil => exact h.1
    | cons b rest => exact (h.1.append hjoiner).append (ih h.2)

lemma bound_list (values : List Value) : (list values).bound = values := by
  induction values with
  | nil => rfl
  | cons value rest ih =>
    cases rest with
    | nil => rfl
    | cons next rest => exact congrArg (value :: ·) ih

lemma isBound_list (values : List Value) : (list values).IsBound :=
  isBound_join (isBound_plain rfl) (List.forall_mem_map.mpr fun value _ => isBound_placeholder value)

end Fragment

lemma isBound_table (kind : Kind) : (plain (table kind)).IsBound := by
  cases kind <;> exact isBound_plain rfl

lemma isBound_tagTable (kind : Kind) : (plain (tagTable kind)).IsBound := by
  cases kind <;> exact isBound_plain rfl

lemma isBound_ownerColumn (kind : Kind) : (plain (ownerColumn kind)).IsBound := by
  cases kind <;> exact isBound_plain rfl

lemma isBound_selectColumns (kind : Kind) : (plain (selectColumns kind)).IsBound := by
  cases kind with
  | image => exact isBound_plain rfl
  | collection =>
    refine isBound_plain_append (isBound_plain_append (isBound_plain_append ?_ ?_) ?_) ?_ <;> exact isBound_plain rfl

lemma isBound_column (column : Column) : (plain column.sql).IsBound := by
  cases column <;> exact isBound_plain rfl

lemma isBound_comparator (comparator : Comparator) : (plain comparator.sql).IsBound := by
  cases comparator <;> exact isBound_plain rfl

lemma isBound_joinText (nearest : Option HashPair) : (plain (joinText nearest)).IsBound := by
  cases nearest <;> exact isBound_plain rfl

lemma isBound_owners (owners : Owners) : owners.render.IsBound := by
  have hhead : ∀ kind, (plain ("SELECT " ++ ownerColumn kind ++ " FROM " ++ tagTable kind ++
      " WHERE tag_id IN (")).IsBound := fun kind =>
    isBound_plain_append (isBound_plain_append (isBound_plain_append (isBound_plain_append (isBound_plain rfl)
      (isBound_ownerColumn kind)) (isBound_plain rfl)) (isBound_tagTable kind)) (isBound_plain rfl)
  cases owners with
  | carryingAny kind tags => exact ((hhead kind).append (isBound_list _)).append (isBound_plain rfl)
  | carryingEvery kind tags =>
    have htail := isBound_plain_append (isBound_plain_append (@isBound_plain ") GROUP BY ".toList rfl)
      (isBound_ownerColumn kind)) (@isBound_plain " HAVING COUNT(DISTINCT tag_id) = ".toList rfl)
    exact (((hhead kind).append (isBound_list _)).append htail).append (isBound_placeholder _)
  | collected => exact isBound_plain rfl

lemma isBound_condition (c : Condition) : c.render.IsBound := by
  cases c with
  | isIn owners => exact ((isBound_plain rfl).append (isBound_owners owners)).append (isBound_plain rfl)
  | isNotIn owners => exact ((isBound_plain rfl).append (isBound_owners owners)).append (isBound_plain rfl)
  | compare column comparator value escaped =>
    refine (IsBound.append ?_ (isBound_placeholder value)).append ?_
    · exact isBound_plain_append (isBound_plain_append (isBound_plain_append (isBound_plain_append (isBound_plain rfl)
        (isBound_column column)) (isBound_plain rfl)) (isBound_comparator comparator)) (isBound_plain rfl)
    · cases escaped <;> exact isBound_plain rfl
  | tagCount comparator value =>
    refine IsBound.append ?_ (isBound_placeholder value)
    exact isBound_plain_append (isBound_plain_append (isBound_plain rfl) (isBound_comparator comparator))
      (isBound_plain rfl)

lemma isBound_clause (clause : Clause) : clause.render.IsBound := by
  cases clause with
  | nothing => exact isBound_plain rfl
  | all conditions =>
    cases conditions with
    | nil => exact isBound_plain rfl
    | cons c rest => exact isBound_join (isBound_plain rfl) (List.forall_mem_map.mpr fun c _ => isBound_condition c)

lemma isBound_orderText (nearest : Option HashPair) : (orderText nearest).IsBound := by
  cases nearest with
  | none => exact isBound_plain rfl
  | some pair =>
    exact ((((isBound_plain rfl).append (isBound_placeholder _)).append (isBound_plain rfl)).append
      (isBound_placeholder _)).append (isBound_plain rfl)

/-- A statement has as many placeholders as values. -/
theorem isBound_statement (statement : Statement) : statement.render.IsBound := by
  cases statement with
  | count kind clause =>
    refine IsBound.append ?_ (isBound_clause clause)
    exact isBound_plain_append (isBound_plain_append (isBound_plain rfl) (isBound_table kind)) (isBound_plain rfl)
  | page kind clause nearest limit offset =>
    have hcolumns := isBound_plain_append (@isBound_plain "SELECT ".toList rfl) (isBound_selectColumns kind)
    have hfrom := isBound_plain_append (isBound_plain_append hcolumns (@isBound_plain " FROM ".toList rfl))
      (isBound_table kind)
    have hhead := isBound_plain_append (isBound_plain_append (isBound_plain_append hfrom
      (@isBound_plain " e".toList rfl)) (isBound_joinText nearest)) (@isBound_plain " WHERE ".toList rfl)
    have hrows := (hhead.append (isBound_clause clause)).append (@isBound_plain " ORDER BY ".toList rfl)
    have hlimit := ((hrows.append (isBound_orderText nearest)).append (@isBound_plain " LIMIT ".toList rfl)).append
      (isBound_placeholder (.integer limit))
    exact (hlimit.append (@isBound_plain " OFFSET ".toList rfl)).append (isBound_placeholder _)
  | adjacent kind clause pivot direction =>
    refine (((IsBound.append ?_ (isBound_clause clause)).append ?_).append (isBound_placeholder _)).append ?_
    · exact isBound_plain_append (isBound_plain_append (isBound_plain rfl) (isBound_table kind)) (isBound_plain rfl)
    · cases direction <;>
        exact isBound_plain_append (isBound_plain_append (isBound_plain rfl) (isBound_plain rfl)) (isBound_plain rfl)
    · cases direction <;>
        exact isBound_plain_append (isBound_plain_append (isBound_plain rfl) (isBound_plain rfl)) (isBound_plain rfl)

/-- The owners of as many tags, whatever the tags. -/
def Owners.wiped : Owners → Owners
  | carryingAny kind tags => carryingAny kind (List.replicate tags.length 0)
  | carryingEvery kind tags => carryingEvery kind (List.replicate tags.length 0)
  | collected => collected

def Condition.wiped : Condition → Condition
  | isIn owners => isIn owners.wiped
  | isNotIn owners => isNotIn owners.wiped
  | compare column comparator _ escaped => compare column comparator (.integer 0) escaped
  | tagCount comparator _ => tagCount comparator (.integer 0)

def Clause.wiped : Clause → Clause
  | nothing => nothing
  | all conditions => all (conditions.map Condition.wiped)

/-- The statement without its values: what is left is its shape. -/
def Statement.wiped : Statement → Statement
  | count kind clause => count kind clause.wiped
  | page kind clause nearest _ _ => page kind clause.wiped (nearest.map fun _ => ⟨0, 0⟩) 0 0
  | adjacent kind clause _ direction => adjacent kind clause.wiped 0 direction

lemma text_join_congr {α β : Type} {joiner : String} {f : α → Fragment} {g : β → Fragment} {left : List α}
    {right : List β} (h : List.Forall₂ (fun a b => (f a).text = (g b).text) left right) :
    (join joiner (left.map f)).text = (join joiner (right.map g)).text := by
  induction h with
  | nil => rfl
  | @cons a b left right hab hrest ih =>
    cases hrest with
    | nil => exact hab
    | cons =>
      simp only [List.map_cons, join, text_append] at ih ⊢
      rw [hab, ih]

lemma text_list_congr {left right : List Value} (h : left.length = right.length) :
    (list left).text = (list right).text := by
  refine text_join_congr ?_
  rw [List.forall₂_iff_zip]
  exact ⟨h, fun _ => rfl⟩

/-- The values of a statement are not in its text. -/
lemma text_owners_wiped (owners : Owners) : owners.wiped.render.text = owners.render.text := by
  cases owners with
  | carryingAny kind tags =>
    have hlist := @text_list_congr ((List.replicate tags.length 0).map .integer) (tags.map .integer) (by simp)
    simp only [Owners.wiped, Owners.render, text_append, hlist]
  | carryingEvery kind tags =>
    have hlist := @text_list_congr ((List.replicate tags.length 0).map .integer) (tags.map .integer) (by simp)
    simp only [Owners.wiped, Owners.render, text_append, hlist, placeholder]
  | collected => rfl

lemma text_condition_wiped (c : Condition) : c.wiped.render.text = c.render.text := by
  cases c with
  | isIn owners => simp only [Condition.wiped, Condition.render, text_append, text_owners_wiped]
  | isNotIn owners => simp only [Condition.wiped, Condition.render, text_append, text_owners_wiped]
  | compare column comparator value escaped => rfl
  | tagCount comparator value => rfl

lemma text_clause_wiped (clause : Clause) : clause.wiped.render.text = clause.render.text := by
  cases clause with
  | nothing => rfl
  | all conditions =>
    cases conditions with
    | nil => rfl
    | cons c rest =>
      change (join " AND " (((c :: rest).map Condition.wiped).map Condition.render)).text =
        (join " AND " ((c :: rest).map Condition.render)).text
      rw [List.map_map]
      exact text_join_congr (List.forall₂_same.mpr fun c _ => text_condition_wiped c)

/-- The text of a statement does not change when its values are wiped out. -/
theorem text_statement_wiped (statement : Statement) : statement.wiped.render.text = statement.render.text := by
  cases statement with
  | count kind clause => simp only [Statement.wiped, Statement.render, text_append, text_clause_wiped]
  | page kind clause nearest limit offset =>
    cases nearest <;>
      simp only [Statement.wiped, Statement.render, text_append, text_clause_wiped, Option.map, joinText, orderText,
        placeholder]
  | adjacent kind clause pivot direction =>
    simp only [Statement.wiped, Statement.render, text_append, text_clause_wiped, placeholder]

/-- Statements of one shape have one text. -/
theorem text_congr {left right : Statement} (h : left.wiped = right.wiped) :
    left.render.text = right.render.text := by
  rw [← text_statement_wiped left, h, text_statement_wiped]

lemma surplusValue_eq_none {text : String} : surplusValue? text = none ↔ text.toList.count '?' ≤ valueLimit := by
  have hcount : (text.toList.zipIdx.filter fun x => x.1 = '?').length = text.toList.count '?' :=
    calc (text.toList.zipIdx.filter fun x => x.1 = '?').length
        = text.toList.zipIdx.countP fun x => x.1 = '?' := List.countP_eq_length_filter.symm
      _ = (text.toList.zipIdx.map Prod.fst).countP (· = '?') := by rw [List.countP_map]; rfl
      _ = text.toList.count '?' := by
        rw [List.zipIdx_map_fst, List.count]
        rfl
  rw [surplusValue?, Option.map_eq_none_iff, List.getElem?_eq_none_iff, hcount]

/-- A statement has too many values when more are bound to it than the engine takes. -/
theorem surplusValue_statement {statement : Statement} :
    surplusValue? statement.render.text = none ↔ statement.render.bound.length ≤ valueLimit := by
  rw [surplusValue_eq_none, isBound_statement]

end TagSearch.Sql
