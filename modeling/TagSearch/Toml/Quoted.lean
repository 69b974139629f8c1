import TagSearch.Text.Hex

/-!
Quoted text in TOML. Between quotation marks a backslash begins an escape, between apostrophes every character stands
for itself, and between three marks a text may hold line feeds.
-/
namespace TagSearch.Toml

structure Quotes where
  /-- Whether the marks are quotation marks and a backslash begins an escape; else they are apostrophes. -/
  escaped : Bool
  /-- Whether there are three marks on either side. -/
  multiline : Bool
deriving Repr, DecidableEq

def Quotes.mark (q : Quotes) : Char := if q.escaped then '\x22' else '\x27'

def Quotes.delimiter (q : Quotes) : List Char := List.replicate (if q.multiline then 3 else 1) q.mark

/-- A character that stands for itself: no control character but the tab. -/
def isPlain (c : Char) : Bool := c == '\t' || (' ' ≤ c && c ≠ '\x7f')

def isSpace (c : Char) : Bool := c == ' ' || c == '\t'

/-- Where the reader of a quoted text stands. -/
inductive Phase
  /-- In the text; after an escaped end of line, blanks and line feeds do not count. -/
  | text (skipping : Bool)
  | escape
  /-- After a backslash and blanks that must lead to the end of the line. -/
  | lineEnd
  /-- In a character code: the number of digits that are left, and its value so far. -/
  | code (left value : Nat)
deriving Repr, DecidableEq

/-- A character in front of a text that was read. -/
def keep (c : Char) (read : Option (List Char × List Char)) : Option (List Char × List Char) :=
  read.map fun (text, rest) => (c :: text, rest)

/-- The character that an escape of one letter stands for. -/
def escapeOf? (c : Char) : Option Char :=
  if c = 'b' then some '\x08'
  else if c = 't' then some '\t'
  else if c = 'n' then some '\n'
  else if c = 'f' then some '\x0c'
  else if c = 'r' then some '\r'
  else if c = '\x22' then some '\x22'
  else if c = '\\' then some '\\'
  else none

/-- What three closing marks, of which the first was read, leave: up to two marks more belong to the text. -/
def close? (mark : Char) (rest : List Char) : Option (List Char × List Char) :=
  if rest.take 2 = [mark, mark] then
    let extra := ((rest.drop 2).take 2).takeWhile (· = mark)
    some (extra, rest.drop (2 + extra.length))
  else none

/-- The text up to the closing marks, and what follows them. -/
def Quotes.readBody (q : Quotes) : Phase → List Char → Option (List Char × List Char)
  | _, [] => none
  | .text skipping, c :: rest =>
    if skipping && (isSpace c || c == '\n') then q.readBody (.text true) rest
    else if c = q.mark then
      if q.multiline then
        match close? q.mark rest with
        | some ended => some ended
        | none => keep c (q.readBody (.text false) rest)
      else some ([], rest)
    else if q.escaped && c == '\\' then q.readBody .escape rest
    else if isPlain c || (q.multiline && c == '\n') then keep c (q.readBody (.text false) rest)
    else none
  | .escape, c :: rest =>
    if c = 'u' then q.readBody (.code 4 0) rest
    else if c = 'U' then q.readBody (.code 8 0) rest
    else if q.multiline && c == '\n' then q.readBody (.text true) rest
    else if q.multiline && isSpace c then q.readBody .lineEnd rest
    else match escapeOf? c with
      | some d => keep d (q.readBody (.text false) rest)
      | none => none
  | .lineEnd, c :: rest =>
    if c = '\n' then q.readBody (.text true) rest
    else if isSpace c then q.readBody .lineEnd rest
    else none
  | .code left value, c :: rest =>
    match Text.hexValue? c with
    | none => none
    | some digit =>
      let value := 16 * value + digit
      if left ≤ 1 then
        if value.isValidChar then keep (Char.ofNat value) (q.readBody (.text false) rest) else none
      else q.readBody (.code (left - 1) value) rest

/-- The marks that open a text. -/
def Quotes.ofText? : List Char → Option Quotes
  | '\x22' :: '\x22' :: '\x22' :: _ => some ⟨true, true⟩
  | '\x27' :: '\x27' :: '\x27' :: _ => some ⟨false, true⟩
  | '\x22' :: _ => some ⟨true, false⟩
  | '\x27' :: _ => some ⟨false, false⟩
  | _ => none

/-- A line feed directly after three opening marks does not belong to the text. -/
def Quotes.afterOpening (q : Quotes) (text : List Char) : List Char :=
  match q.multiline, text.drop q.delimiter.length with
  | true, '\n' :: rest => rest
  | _, rest => rest

def readQuoted (text : List Char) : Option (List Char × List Char) :=
  (Quotes.ofText? text).bind fun q => q.readBody (.text false) (q.afterOpening text)

/-- A character that only an escape can write. -/
def needsEscape (c : Char) : Bool := (c < ' ' && c ≠ '\t' && c ≠ '\n') || c == '\x7f'

/-- The length of the longest run of a character in a text that continues a run of it. -/
def longestRun (mark : Char) (run : Nat) : List Char → Nat
  | [] => run
  | c :: rest => if c = mark then longestRun mark (run + 1) rest else max run (longestRun mark 0 rest)

/-- The plainest quotes for a text: one mark before three, without escapes where that is possible. -/
def Quotes.forText (text : List Char) : Quotes :=
  let plain := !text.any needsEscape
  let backslash := text.contains '\\'
  let newline := text.contains '\n'
  if plain && !backslash && !newline && longestRun '\x22' 0 text = 0 then ⟨true, false⟩
  else if plain && !newline && longestRun '\x27' 0 text = 0 then ⟨false, false⟩
  else if plain && !backslash && longestRun '\x22' 0 text ≤ 2 then ⟨true, true⟩
  else if plain && longestRun '\x27' 0 text ≤ 2 then ⟨false, true⟩
  else ⟨true, newline⟩

/-- A character between quotation marks. -/
def escape (multiline : Bool) (c : Char) : List Char :=
  if c = '\\' then ['\\', '\\']
  else if c = '\x08' then ['\\', 'b']
  else if c = '\t' then ['\\', 't']
  else if c = '\n' then (if multiline then ['\n'] else ['\\', 'n'])
  else if c = '\x0c' then ['\\', 'f']
  else if c = '\r' then ['\\', 'r']
  else if needsEscape c then ['\\', 'u', '0', '0', Text.hexDigit 'A' (c.toNat / 16), Text.hexDigit 'A' (c.toNat % 16)]
  else [c]

/-- A text between quotation marks; `run` marks stand in front of it. Three marks must not meet, nor one where one
mark ends the text. -/
def escapeAll (multiline : Bool) (run : Nat) : List Char → List Char
  | [] => []
  | c :: rest =>
    if c = '\x22' then
      if multiline && run < 2 then c :: escapeAll multiline (run + 1) rest
      else '\\' :: c :: escapeAll multiline 0 rest
    else escape multiline c ++ escapeAll multiline 0 rest

def Quotes.write (q : Quotes) (text : List Char) : List Char :=
  q.delimiter ++ (if q.multiline && text.contains '\n' then ['\n'] else []) ++
    (if q.escaped then escapeAll q.multiline 0 text else text) ++ q.delimiter

def writeQuoted (text : List Char) : List Char := (Quotes.forText text).write text

end TagSearch.Toml
