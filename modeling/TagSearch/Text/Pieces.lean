/-! The pieces of a list between its breaks. -/
namespace TagSearch.Text

variable {α : Type} (isBreak : α → Bool)

/-- The pieces between the breaks, in order; neighbouring breaks have an empty piece between them. -/
def pieces : List α → List (List α)
  | [] => [[]]
  | c :: rest =>
    if isBreak c then [] :: pieces rest
    else
      match pieces rest with
      | [] => [[c]]
      | piece :: others => (c :: piece) :: others

end TagSearch.Text
