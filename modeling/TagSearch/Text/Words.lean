/-! Blanks and words. The words of a text are its longest runs without a blank. -/
namespace TagSearch.Text

/-- A blank is a character with the Unicode property White_Space. -/
def isBlank (c : Char) : Bool :=
  ('\t' ≤ c && c ≤ '\r') || c == ' ' || c == '\u0085' || c == '\u00a0' || c == '\u1680' ||
    ('\u2000' ≤ c && c ≤ '\u200a') || c == '\u2028' || c == '\u2029' || c == '\u202f' ||
    c == '\u205f' || c == '\u3000'

/-- A run of characters is a word unless it is empty. -/
def ofRun : List Char → List (List Char)
  | [] => []
  | c :: word => [c :: word]

/-- The words of a text that continues a run, of which the last character comes first. -/
def wordsFrom (run : List Char) : List Char → List (List Char)
  | [] => ofRun run.reverse
  | c :: rest =>
    if isBlank c then ofRun run.reverse ++ wordsFrom [] rest else wordsFrom (c :: run) rest

def words (text : List Char) : List (List Char) :=
  wordsFrom [] text

/-- The words with one character between neighbours. -/
def joinWith (joiner : Char) : List (List Char) → List Char
  | [] => []
  | [word] => word
  | word :: rest => word ++ joiner :: joinWith joiner rest

theorem wordsFrom_blank (run before after : List Char) {c : Char} (h : isBlank c = true) :
    wordsFrom run (before ++ c :: after) = wordsFrom run before ++ words after := by
  induction before generalizing run with
  | nil => simp [wordsFrom, words, h]
  | cons d before ih =>
    by_cases hd : isBlank d = true <;> simp [wordsFrom, hd, ih]

/-- A blank separates the words before it from the words after it. -/
theorem words_blank (before after : List Char) {c : Char} (h : isBlank c = true) :
    words (before ++ c :: after) = words before ++ words after :=
  wordsFrom_blank [] before after h

theorem wordsFrom_solid (run text : List Char) (h : ∀ c ∈ text, isBlank c = false) :
    wordsFrom run text = ofRun (run.reverse ++ text) := by
  induction text generalizing run with
  | nil => simp [wordsFrom]
  | cons c text ih =>
    rw [wordsFrom, if_neg (by simp [h c (by simp)]), ih _ fun d hd => h d (by simp [hd])]
    simp

/-- A text without a blank is one word, or none when it is empty. -/
theorem words_solid (text : List Char) (h : ∀ c ∈ text, isBlank c = false) :
    words text = ofRun text :=
  wordsFrom_solid [] text h

end TagSearch.Text
