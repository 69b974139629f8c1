import Mathlib.Tactic.SplitIfs
import TagSearch.Export.Json
import TagSearch.Proofs.Text.Decimal

/-! The tokens of JSON are read back. The lexer knows marks, blanks, words, and quoted texts with all their escapes. -/
namespace TagSearch.Export.Json

inductive Token
  | openArray | closeArray | openObject | closeObject | comma | colon
  | null
  | flag (b : Bool)
  | number (n : Int)
  | text (s : String)
deriving Repr, DecidableEq

/-- The value of digits without needless zeros in front. -/
def digits? (digits : List Char) : Option Nat :=
  if digits.head? = some '0' ∧ digits ≠ ['0'] then none else Text.natural? digits

/-- Numbers are whole; fractions and exponents are not read. -/
def number? : List Char → Option Int
  | '-' :: digits => (digits? digits).map fun n => -Int.ofNat n
  | digits => (digits? digits).map Int.ofNat

def word? (read : List Char) : Option Token :=
  if read = "null".toList then some .null
  else if read = "true".toList then some (.flag true)
  else if read = "false".toList then some (.flag false)
  else (number? read).map .number

def mark? : Char → Option Token
  | '[' => some .openArray
  | ']' => some .closeArray
  | '\x7b' => some .openObject
  | '\x7d' => some .closeObject
  | ',' => some .comma
  | ':' => some .colon
  | _ => none

def isBlank (c : Char) : Bool :=
  c == ' ' || c == '\t' || c == '\n' || c == '\r'

/-- Whether a character ends a word that stands before it. -/
def endsWord (c : Char) : Bool :=
  isBlank c || c == '\x22' || (mark? c).isSome

/-- What a character stands for behind a backslash. -/
def unescape? : Char → Option Char
  | '\x22' => some '\x22'
  | '\\' => some '\\'
  | '/' => some '/'
  | 'b' => some '\x08'
  | 'f' => some '\x0c'
  | 'n' => some '\n'
  | 'r' => some '\r'
  | 't' => some '\t'
  | _ => none

inductive Place
  | between
  | word (read : List Char)
  | quoted (read : List Char)
  /-- Behind a backslash. -/
  | escaped (read : List Char)
  /-- In a character code, before the given number of digits and one more; those read have the given value. -/
  | coded (read : List Char) (missing value : Nat)
deriving Repr, DecidableEq

structure Lexer where
  place : Place
  tokens : List Token
deriving Repr, DecidableEq

namespace Lexer

/-- The first character of a token, or a blank. -/
def begin? (tokens : List Token) (c : Char) : Option Lexer :=
  if isBlank c then some ⟨.between, tokens⟩
  else if c = '\x22' then some ⟨.quoted [], tokens⟩
  else match mark? c with
    | some mark => some ⟨.between, tokens ++ [mark]⟩
    | none => some ⟨.word [c], tokens⟩

/-- The tokens at the end of a word. -/
def endWord? (read : List Char) (tokens : List Token) : Option (List Token) :=
  (word? read).map fun token => tokens ++ [token]

/-- What follows a digit of a code. Half of a surrogate pair is no character. -/
def endDigit? (read : List Char) (missing value : Nat) (tokens : List Token) : Option Lexer :=
  match missing with
  | missing + 1 => some ⟨.coded read missing value, tokens⟩
  | 0 => if value.isValidChar then some ⟨.quoted (read ++ [Char.ofNat value]), tokens⟩ else none

def step (l : Lexer) (c : Char) : Option Lexer :=
  match l.place with
  | .between => begin? l.tokens c
  | .word read =>
    if endsWord c then (endWord? read l.tokens).bind fun tokens => begin? tokens c
    else some ⟨.word (read ++ [c]), l.tokens⟩
  | .quoted read =>
    if c = '\x22' then some ⟨.between, l.tokens ++ [.text (String.ofList read)]⟩
    else if c = '\\' then some ⟨.escaped read, l.tokens⟩
    else if c.toNat < 32 then none
    else some ⟨.quoted (read ++ [c]), l.tokens⟩
  | .escaped read =>
    if c = 'u' then some ⟨.coded read 3 0, l.tokens⟩
    else (unescape? c).map fun d => ⟨.quoted (read ++ [d]), l.tokens⟩
  | .coded read missing value =>
    (Text.hexValue? c).bind fun digit => endDigit? read missing (16 * value + digit) l.tokens

def finish? (l : Lexer) : Option (List Token) :=
  match l.place with
  | .between => some l.tokens
  | .word read => endWord? read l.tokens
  | _ => none

end Lexer

/-- The tokens of a text, none if it holds something else. -/
def tokens? (text : List Char) : Option (List Token) :=
  (text.foldlM Lexer.step ⟨.between, []⟩).bind Lexer.finish?

section Reading

variable {c : Char} {read text word : List Char} {tokens more before : List Token} {n : Int}

lemma hexValue?_hexDigit {n : Nat} (h : n < 16) : Text.hexValue? (Text.hexDigit 'a' n) = some n := by
  revert n
  decide

lemma step_digit {digit missing value : Nat} (h : digit < 16) :
    Lexer.step ⟨.coded read missing value, tokens⟩ (Text.hexDigit 'a' digit) =
      Lexer.endDigit? read missing (16 * value + digit) tokens := by
  change (Text.hexValue? (Text.hexDigit 'a' digit)).bind _ = _
  rw [hexValue?_hexDigit h, Option.bind_some]

/-- The code of a character with two digits is read back. -/
lemma run_code (h : c.toNat < 256) :
    ['\\', 'u', '0', '0', Text.hexDigit 'a' (c.toNat / 16), Text.hexDigit 'a' (c.toNat % 16)].foldlM Lexer.step
      ⟨.quoted read, tokens⟩ = some ⟨.quoted (read ++ [c]), tokens⟩ := by
  have hvalue : 16 * (16 * 0 + c.toNat / 16) + c.toNat % 16 = c.toNat := by omega
  have hvalid : c.toNat.isValidChar := c.valid
  change Lexer.step ⟨.coded read 1 0, tokens⟩ (Text.hexDigit 'a' (c.toNat / 16)) >>= _ = _
  rw [step_digit (by omega)]
  change Lexer.step ⟨.coded read 0 _, tokens⟩ (Text.hexDigit 'a' (c.toNat % 16)) >>= pure = _
  rw [bind_pure, step_digit (Nat.mod_lt _ (by decide)), hvalue, Lexer.endDigit?, if_pos hvalid, Char.ofNat_toNat]

/-- An escaped character is read back. -/
lemma run_escape (c : Char) :
    (escape c).foldlM Lexer.step ⟨.quoted read, tokens⟩ = some ⟨.quoted (read ++ [c]), tokens⟩ := by
  unfold escape
  split_ifs with hquote hbackslash hfeed hreturn htab hback hform hcontrol
  · rw [hquote]; rfl
  · rw [hbackslash]; rfl
  · rw [hfeed]; rfl
  · rw [hreturn]; rfl
  · rw [htab]; rfl
  · rw [hback]; rfl
  · rw [hform]; rfl
  · exact run_code (Nat.lt_trans hcontrol (by decide))
  · change Lexer.step ⟨.quoted read, tokens⟩ c >>= pure = _
    rw [bind_pure]
    exact (if_neg hquote).trans ((if_neg hbackslash).trans (if_neg hcontrol))

lemma run_escaped : (text.flatMap escape).foldlM Lexer.step ⟨.quoted read, tokens⟩ =
    some ⟨.quoted (read ++ text), tokens⟩ := by
  induction text generalizing read with
  | nil => rw [List.append_nil]; rfl
  | cons c rest ih =>
    rw [List.flatMap_cons, List.foldlM_append, run_escape, List.append_cons read c rest]
    exact ih

lemma run_word (h : ∀ c ∈ word, endsWord c = false) :
    word.foldlM Lexer.step ⟨.word read, tokens⟩ = some ⟨.word (read ++ word), tokens⟩ := by
  induction word generalizing read with
  | nil => rw [List.append_nil]; rfl
  | cons c rest ih =>
    rw [List.forall_mem_cons] at h
    have hstep : Lexer.step ⟨.word read, tokens⟩ c = some ⟨.word (read ++ [c]), tokens⟩ :=
      if_neg (Bool.eq_false_iff.mp h.1)
    rw [List.foldlM_cons, hstep, List.append_cons read c rest]
    exact ih h.2

lemma begin?_of_word (h : endsWord c = false) : Lexer.begin? tokens c = some ⟨.word [c], tokens⟩ := by
  rw [endsWord, Bool.or_eq_false_iff, Bool.or_eq_false_iff, beq_eq_false_iff_ne] at h
  obtain ⟨⟨hblank, hquote⟩, hmark⟩ := h
  rw [Option.isSome_eq_false_iff, Option.isNone_iff_eq_none] at hmark
  rw [Lexer.begin?, if_neg (Bool.eq_false_iff.mp hblank), if_neg hquote, hmark]

/-- A text has the given tokens, whatever stands before and after it. -/
def Closes (text : List Char) (tokens : List Token) : Prop :=
  ∀ before, text.foldlM Lexer.step ⟨.between, before⟩ = some ⟨.between, before ++ tokens⟩

/-- A text has the given tokens if a blank, a quote or a mark stands behind it. -/
def Lexes (text : List Char) (tokens : List Token) : Prop :=
  ∀ before, ∃ l : Lexer, text.foldlM Lexer.step ⟨.between, before⟩ = some l ∧
    ∀ c, endsWord c = true → l.step c = Lexer.step ⟨.between, before ++ tokens⟩ c

lemma Closes.lexes (h : Closes text tokens) : Lexes text tokens :=
  fun before => ⟨_, h before, fun _ _ => rfl⟩

lemma closes_nil : Closes [] [] := by
  intro before
  rw [List.append_nil]
  rfl

lemma Closes.append (h : Closes text tokens) (hmore : Closes read more) : Closes (text ++ read) (tokens ++ more) := by
  intro before
  rw [List.foldlM_append, h, ← List.append_assoc]
  exact hmore _

lemma Closes.append_lexes (h : Closes text tokens) (hmore : Lexes read more) :
    Lexes (text ++ read) (tokens ++ more) := by
  intro before
  rw [List.foldlM_append, h, ← List.append_assoc]
  exact hmore _

/-- A text is cut off by what follows it. -/
lemma Lexes.append (h : Lexes text tokens) (hc : endsWord c = true) (hmore : Closes (c :: read) more) :
    Closes (text ++ c :: read) (tokens ++ more) := by
  intro before
  obtain ⟨l, hl, hends⟩ := h before
  rw [List.foldlM_append, hl, ← List.append_assoc, ← hmore, List.foldlM_cons, ← hends c hc]
  rfl

lemma closes_quoted (text : List Char) : Closes (quoted text) [.text (String.ofList text)] := by
  intro before
  change (text.flatMap escape ++ ['\x22']).foldlM Lexer.step ⟨.quoted [], before⟩ = _
  rw [List.foldlM_append, run_escaped]
  rfl

lemma lexes_word {token : Token} (hne : word ≠ []) (hword : ∀ c ∈ word, endsWord c = false)
    (htoken : word? word = some token) : Lexes word [token] := by
  intro before
  refine ⟨⟨.word word, before⟩, ?_, fun c hc => ?_⟩
  · cases word with
    | nil => exact absurd rfl hne
    | cons c rest =>
      rw [List.forall_mem_cons] at hword
      have hstep : Lexer.step ⟨.between, before⟩ c = some ⟨.word [c], before⟩ := begin?_of_word hword.1
      rw [List.foldlM_cons, hstep]
      exact run_word hword.2
  · refine (if_pos hc).trans ?_
    rw [Lexer.endWord?, htoken]
    rfl

lemma digits?_toString (n : Nat) : digits? (toString n).toList = some n := by
  rw [digits?, if_neg fun h => h.2 (Text.head?_toString h.1)]
  exact Text.natural?_eq_some.mpr (Text.denotes_toString n)

lemma number?_of_digits {digits : List Char} (h : ∀ rest, digits ≠ '-' :: rest) :
    number? digits = (digits? digits).map Int.ofNat := by
  unfold number?
  split
  · exact absurd rfl (h _)
  · rfl

lemma number?_toString (n : Int) : number? (toString n).toList = some n := by
  cases n with
  | ofNat m =>
    have hminus : ∀ rest, (toString m).toList ≠ '-' :: rest := fun rest hrest =>
      (Text.denotes_toString m).notMem (c := '-') rfl (hrest ▸ List.mem_cons_self)
    exact (number?_of_digits hminus).trans (congrArg (Option.map _) (digits?_toString m))
  | negSucc m =>
    have htext : (toString (Int.negSucc m)).toList = '-' :: (toString (m + 1)).toList := String.toList_append
    rw [htext]
    exact congrArg (Option.map _) (digits?_toString (m + 1))

/-- The words that are names stand for no number. -/
lemma word?_of_number (h : number? word = some n) : word? word = some (.number n) := by
  have hnames : ∀ name ∈ ["null", "true", "false"], number? name.toList = none := by decide
  rw [word?, if_neg, if_neg, if_neg, h]
  · rfl
  all_goals
    rintro rfl
    rw [hnames _ (by decide)] at h
    cases h

lemma isDigit_of_endsWord (h : endsWord c = true) : Text.isDigit c = false ∧ c ≠ '-' := by
  simp only [endsWord, isBlank, Bool.or_eq_true, beq_iff_eq] at h
  rcases h with ((((rfl | rfl) | rfl) | rfl) | rfl) | hmark
  all_goals try decide
  unfold mark? at hmark
  split at hmark <;> first | decide | cases hmark

lemma endsWord_toString (n : Int) : ∀ c ∈ (toString n).toList, endsWord c = false := by
  intro c hc
  rw [Bool.eq_false_iff]
  intro hends
  obtain ⟨hdigit, hminus⟩ := isDigit_of_endsWord hends
  exact (Text.denotesInteger_toString n).notMem hdigit hminus hc

lemma lexes_number (n : Int) : Lexes (toString n).toList [.number n] := by
  refine lexes_word (fun hnil => ?_) (endsWord_toString n) (word?_of_number (number?_toString n))
  have hnone := number?_toString n
  rw [hnil] at hnone
  cases hnone

/-- A character is a token. -/
def Marks (c : Char) (mark : Token) : Prop :=
  ∀ before, Lexer.step ⟨.between, before⟩ c = some ⟨.between, before ++ [mark]⟩

lemma Marks.closes {mark : Token} (hmark : Marks c mark) (h : Closes text tokens) :
    Closes (c :: text) (mark :: tokens) := by
  intro before
  rw [List.foldlM_cons, hmark, List.append_cons before mark tokens]
  exact h _

lemma closes_spaces (n : Nat) : Closes (List.replicate n ' ') [] := by
  induction n with
  | zero => exact closes_nil
  | succ n ih => exact ih

lemma closes_newLine (n : Nat) : Closes ('\n' :: List.replicate n ' ') [] := closes_spaces n

/-- The tokens of entries between brackets. -/
def blockTokens (openMark closeMark : Token) : List (List Token) → List Token
  | [] => [openMark, closeMark]
  | first :: rest => openMark :: (first ++ (rest.flatMap fun entry => .comma :: entry) ++ [closeMark])

variable {α : Type} {write : α → List Char} {tokensOf : α → List Token} {entries : List α} {closeBracket : Char}
  {closeMark : Token}

/-- The entries that follow the first one, and the bracket that closes them. -/
lemma closes_rest (hclose : Marks closeBracket closeMark) (indent depth : Nat) (hfirst : Lexes text tokens)
    (h : ∀ a ∈ entries, Lexes (write a) (tokensOf a)) :
    Closes (text ++ (entries.flatMap fun a => ',' :: ('\n' :: List.replicate depth ' ') ++ write a) ++
        '\n' :: List.replicate indent ' ' ++ [closeBracket])
      (tokens ++ (entries.flatMap fun a => .comma :: tokensOf a) ++ [closeMark]) := by
  -- an entry ends at the comma or the line end behind it, so each step takes the entry before
  induction entries generalizing text tokens with
  | nil =>
    have hend : Closes ('\n' :: List.replicate indent ' ' ++ [closeBracket]) ([] ++ [closeMark]) :=
      (closes_newLine indent).append (hclose.closes closes_nil)
    simpa using hfirst.append rfl hend
  | cons a rest ih =>
    rw [List.forall_mem_cons] at h
    have hrest := hfirst.append (c := ',') rfl
      (Marks.closes (fun _ => rfl) ((closes_newLine depth).append (ih h.1 h.2)))
    simpa using hrest

lemma closes_block {openBracket : Char} {openMark : Token} (hopen : Marks openBracket openMark)
    (hclose : Marks closeBracket closeMark) (indent : Nat) (h : ∀ a ∈ entries, Lexes (write a) (tokensOf a)) :
    Closes (block openBracket closeBracket indent (entries.map write))
      (blockTokens openMark closeMark (entries.map tokensOf)) := by
  cases entries with
  | nil => exact hopen.closes (hclose.closes closes_nil)
  | cons first rest =>
    rw [List.forall_mem_cons] at h
    have hrest := closes_rest hclose (2 * indent) (2 * indent + 2) h.1 h.2
    have hblock := hopen.closes ((closes_newLine (2 * indent + 2)).append hrest)
    simpa [block, blockTokens, List.flatMap_map] using hblock

def cellToken : Cell → Token
  | .null => .null
  | .number n => .number n
  | .text s => .text s

lemma lexes_cell (value : Cell) : Lexes (cell value) [cellToken value] := by
  cases value with
  | null =>
    have hword : (cell .null).any endsWord = false := rfl
    exact lexes_word (List.cons_ne_nil _ _) (fun c hc => Bool.eq_false_iff.mpr (List.any_eq_false.mp hword c hc)) rfl
  | number n => exact lexes_number n
  | text s =>
    have h := closes_quoted s.toList
    rw [String.ofList_toList] at h
    exact h.lexes

def memberTokens (member : String × Cell) : List Token := [.text member.1, .colon, cellToken member.2]

/-- The tokens of an object. -/
def recordTokens (record : Record) : List Token :=
  blockTokens .openObject .closeObject (record.map memberTokens)

lemma lexes_member (member : String × Cell) :
    Lexes (quoted member.1.toList ++ ':' :: ' ' :: cell member.2) (memberTokens member) := by
  have hname := closes_quoted member.1.toList
  rw [String.ofList_toList] at hname
  have hcolon : Closes [':', ' '] [.colon] := Marks.closes (fun _ => rfl) (closes_spaces 1)
  exact hname.append_lexes (hcolon.append_lexes (lexes_cell member.2))

lemma closes_object (indent : Nat) (record : Record) : Closes (object indent record) (recordTokens record) :=
  closes_block (fun _ => rfl) (fun _ => rfl) indent fun member _ => lexes_member member

/-- The tokens of an export are those of its records, in order. -/
theorem tokens?_render (records : List Record) :
    tokens? (render records).toList =
      some (blockTokens .openArray .closeArray (records.map recordTokens)) := by
  have h : Closes (block '[' ']' 0 (records.map (object 1))) _ :=
    closes_block (fun _ => rfl) (fun _ => rfl) 0 fun record _ => (closes_object 1 record).lexes
  rw [tokens?, render, String.toList_ofList, h, List.nil_append]
  rfl

end Reading

end TagSearch.Export.Json
