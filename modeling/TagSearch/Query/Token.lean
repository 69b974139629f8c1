import TagSearch.FirstOfKey
import TagSearch.Text.Words

/-!
The tokens of a query. Words are tags, a minus sign in front excludes, and words between quotes form one tag. An
open quote ends with the text, and of several tokens with one text the first counts.
-/
namespace TagSearch.Query

/-- One item of a query without its sign and quotes. -/
structure Token where
  text : String
  negated : Bool
deriving Repr, DecidableEq

def isQuote (c : Char) : Bool := c == '\x22' || c == '\x27'

/-- Where the reader stands between two words. -/
inductive Scan
  | outside
  /-- Inside a quotation, with the words that were read of it, the last one first. -/
  | inside (quote : Char) (negated : Bool) (read : List (List Char))
deriving Repr, DecidableEq

/-- The word without its last character, if that is the given one. -/
def dropLast? (c : Char) (word : List Char) : Option (List Char) :=
  if word.getLast? = some c then some word.dropLast else none

/-- Whether a word has a minus sign, and the word without its sign. -/
def splitSign : List Char → Bool × List Char
  | '-' :: body => (true, body)
  | '+' :: body => (false, body)
  | body => (false, body)

def token (negated : Bool) (text : List Char) : Token := ⟨String.ofList text, negated⟩

/-- The text of a quotation: its words, of which the last comes first, with underscores between them. -/
def phrase (read : List (List Char)) : List Char := Text.joinWith '_' read.reverse

/-- Read a word outside a quotation. -/
def openWord (negated : Bool) : List Char → Scan × List Token
  | [] => (.outside, [token negated []])
  | c :: rest =>
    if isQuote c then
      match dropLast? c rest with
      | some text => (.outside, [token negated text])
      | none => (.inside c negated (Text.ofRun rest), [])
    else (.outside, [token negated (c :: rest)])

/-- Read one word: the new state, and the token that the word completes. -/
def Scan.step : Scan → List Char → Scan × List Token
  | outside, word => openWord (splitSign word).1 (splitSign word).2
  | inside quote negated read, word =>
    match dropLast? quote word with
    | some last => (outside, [token negated (phrase (last :: read))])
    | none => (inside quote negated (word :: read), [])

def Scan.run : Scan → List (List Char) → Scan × List Token
  | scan, [] => (scan, [])
  | scan, word :: rest =>
    let (next, found) := scan.step word
    let (last, more) := next.run rest
    (last, found ++ more)

/-- What an open quotation holds at the end of the text. -/
def Scan.close : Scan → List Token
  | outside => []
  | inside _ negated read => [token negated (phrase read)]

/-- All items of a text, with empty and repeated ones. -/
def items (raw : List Char) : List Token :=
  let (last, found) := Scan.outside.run (Text.words raw)
  found ++ last.close

/-- The tokens of a query: no text is empty or occurs twice. -/
def tokenize (raw : String) : List Token :=
  firstOfKey Token.text ((items raw.toList).filter fun t => !t.text.isEmpty)

theorem Scan.run_append (scan : Scan) (before after : List (List Char)) :
    scan.run (before ++ after) =
      (((scan.run before).1.run after).1, (scan.run before).2 ++ ((scan.run before).1.run after).2) := by
  induction before generalizing scan with
  | nil => simp [Scan.run]
  | cons word before ih => simp [Scan.run, ih]

end TagSearch.Query
