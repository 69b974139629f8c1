/-! The comparisons a metatag may ask for. -/
namespace TagSearch

inductive Comparator
  | eq | ne | lt | le | gt | ge | like | notLike
deriving Repr, DecidableEq

namespace Comparator

/-- The comparison that holds exactly when this one does not. -/
def inverse : Comparator → Comparator
  | eq => ne
  | ne => eq
  | lt => ge
  | ge => lt
  | gt => le
  | le => gt
  | like => notLike
  | notLike => like

def sql : Comparator → String
  | eq => "="
  | ne => "!="
  | lt => "<"
  | le => "<="
  | gt => ">"
  | ge => ">="
  | like => "LIKE"
  | notLike => "NOT LIKE"

/-- Pattern comparisons read their right side as a pattern. -/
def isPattern : Comparator → Bool
  | like | notLike => true
  | _ => false

@[simp] theorem inverse_inverse (c : Comparator) : c.inverse.inverse = c := by
  cases c <;> rfl

end Comparator
end TagSearch
