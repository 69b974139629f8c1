import Mathlib.Data.List.Basic
import TagSearch.Proofs.Text.Decimal
import TagSearch.Proofs.Toml.Quoted
import TagSearch.Toml.Document

/-! Lines that are written are read back: entries with texts and whole numbers, and headers of tables. -/
namespace TagSearch.Toml

variable {text digits rest : List Char} {n : Nat}

lemma ungroup_of_digits {after : Bool} (hafter : after = true ∨ digits ≠ [])
    (h : ∀ c ∈ digits, Text.isDigit c = true) : ungroup Text.isDigit after digits = some digits := by
  induction digits generalizing after with
  | nil => rw [ungroup, if_pos (hafter.resolve_right fun hne => hne rfl)]
  | cons c digits ih =>
    rw [List.forall_mem_cons] at h
    have hc : c ≠ '_' := by
      rintro rfl
      cases h.1
    rw [ungroup, if_neg hc, if_pos h.1, ih (.inl rfl) h.2]
    rfl

lemma ofDigits_of_denotes (h : Text.Denotes digits n) : ofDigits 10 digits = n := by
  rw [← h.2.2, ofDigits, Nat.ofDigitChars]
  refine List.foldl_ext _ _ _ fun value c hc => ?_
  rw [digitOf, if_pos (h.2.1 c hc)]

lemma fit?_toInt (n : Int64) : fit? n.toInt = some n := by
  rw [fit?, if_pos ⟨Int64.le_toInt n, Int64.toInt_le n⟩, Int64.ofInt_toInt]

/-- A whole number is written as its digits, for a negative one behind a minus sign. -/
lemma splitSign_toString (k : Int) :
    ∃ (negative : Bool) (m : Nat), Text.splitSign (toString k).toList = (negative, (toString m).toList) ∧
      (if negative then -(m : Int) else m) = k := by
  have hplain : ∀ m : Nat, Text.splitSign (toString m).toList = (false, (toString m).toList) := by
    intro m
    have hdigits := Text.denotes_toString m
    unfold Text.splitSign
    split
    · rename_i heq
      exact absurd (heq ▸ List.mem_cons_self) (hdigits.notMem (c := '-') rfl)
    · rename_i heq
      exact absurd (heq ▸ List.mem_cons_self) (hdigits.notMem (c := '+') rfl)
    · rfl
  cases k with
  | ofNat m => exact ⟨false, m, hplain m, rfl⟩
  | negSucc m =>
    have htext : (toString (Int.negSucc m)).toList = '-' :: (toString (m + 1)).toList := String.toList_append
    exact ⟨true, m + 1, by rw [htext]; rfl, rfl⟩

lemma notMem_toString {k : Int} {c : Char} (hdigit : Text.isDigit c = false) (hminus : c ≠ '-') :
    c ∉ (toString k).toList :=
  (Text.denotesInteger_toString k).notMem hdigit hminus

/-- The digits of a number are read as its value. -/
lemma integer?_toString (n : Int64) : integer? (toString n.toInt).toList = some n := by
  obtain ⟨negative, m, hsplit, hvalue⟩ := splitSign_toString n.toInt
  have hdigits := Text.denotes_toString m
  have hunpadded : unpadded? (toString m).toList = some (toString m).toList := by
    rw [unpadded?, if_neg fun h => h.2 (Text.head?_toString h.1)]
    exact ungroup_of_digits (.inr hdigits.1) hdigits.2.1
  have hbase : ∀ {c : Char} {others : List Char}, Text.isDigit c = false → c ≠ '-' →
      (toString n.toInt).toList ≠ '0' :: c :: others := by
    intro c others hdigit hminus heq
    exact notMem_toString hdigit hminus (heq ▸ List.mem_cons_of_mem _ List.mem_cons_self)
  unfold integer?
  split
  · rename_i heq
    exact absurd heq (hbase rfl (by decide))
  · rename_i heq
    exact absurd heq (hbase rfl (by decide))
  · rename_i heq
    exact absurd heq (hbase rfl (by decide))
  · rw [hsplit]
    dsimp only
    rw [hunpadded, Option.bind_some, ofDigits_of_denotes hdigits, hvalue, fit?_toInt]

lemma mem_of_after? {c : Char} (h : Timestamp.after? c text = some rest) : c ∈ text := by
  cases text with
  | nil => cases h
  | cons d text =>
    rw [Timestamp.after?] at h
    split at h
    · rename_i hd
      exact hd ▸ List.mem_cons_self
    · cases h

lemma eq_drop_of_fixed? {width low high : Nat} (h : fixed? width low high text = some (n, rest)) :
    rest = text.drop width := by
  unfold fixed? at h
  dsimp only at h
  split at h
  · obtain ⟨m, _, h⟩ := Option.bind_eq_some_iff.mp h
    split at h <;> cases h
    rfl
  · cases h

lemma afterTime?_eq_none (h : ':' ∉ text) : afterTime? text = none := by
  refine Option.eq_none_iff_forall_ne_some.mpr fun rest hrest => ?_
  simp only [afterTime?, Option.bind_eq_bind, Option.bind_eq_some_iff] at hrest
  obtain ⟨⟨hour, more⟩, hhour, next, hcolon, _⟩ := hrest
  exact h (List.mem_of_mem_drop (eq_drop_of_fixed? hhour ▸ mem_of_after? hcolon))

lemma afterDate?_eq_none (h : '-' ∉ text.drop 4) : afterDate? text = none := by
  refine Option.eq_none_iff_forall_ne_some.mpr fun rest hrest => ?_
  simp only [afterDate?, Option.bind_eq_bind, Option.bind_eq_some_iff] at hrest
  obtain ⟨⟨year, more⟩, hyear, next, hminus, _⟩ := hrest
  exact h (eq_drop_of_fixed? hyear ▸ mem_of_after? hminus)

/-- A minus sign comes first in a number. -/
lemma minus_notMem_drop (k : Int) (width : Nat) : '-' ∉ (toString k).toList.drop (width + 1) := by
  have h := Text.denotesInteger_toString k
  generalize (toString k).toList = text at h
  cases h with
  | plain h => exact fun hmem => h.notMem rfl (List.mem_of_mem_drop hmem)
  | minus h => exact fun hmem => h.notMem rfl (List.mem_of_mem_drop hmem)

/-- A number is no date and no time. -/
lemma isMoment_toString (k : Int) : isMoment (toString k).toList = false := by
  have htime : afterTime? (toString k).toList = none := afterTime?_eq_none (notMem_toString rfl (by decide))
  have hdate : afterDate? (toString k).toList = none := afterDate?_eq_none (minus_notMem_drop k 3)
  rw [isMoment, hdate, htime]
  rfl

/-- A number has no fraction and no exponent. -/
lemma isFloat_toString (k : Int) : isFloat (toString k).toList = false := by
  obtain ⟨negative, m, hsplit, _⟩ := splitSign_toString k
  have hdigits := Text.denotes_toString m
  have hscaled : ((toString m).toList.any fun c => c == 'e' || c == 'E') = false := by
    rw [List.any_eq_false]
    intro c hc hmark
    rw [Bool.or_eq_true, beq_iff_eq, beq_iff_eq] at hmark
    rcases hmark with rfl | rfl
    · exact hdigits.notMem rfl hc
    · exact hdigits.notMem rfl hc
  have hpointed : ((toString m).toList.takeWhile fun c => !(c == 'e' || c == 'E')).contains '.' = false := by
    rw [Bool.eq_false_iff, ne_eq, List.contains_iff_mem]
    exact fun hmem => hdigits.notMem rfl ((List.takeWhile_prefix _).subset hmem)
  unfold isFloat
  rw [hsplit]
  simp only [hscaled, hpointed, Bool.or_self, Bool.false_and]
  split <;> rfl

lemma ofAtom?_toString (n : Int64) : Value.ofAtom? (toString n.toInt).toList = some (.integer n) := by
  have hword : ∀ {word : List Char}, (∃ c ∈ word, Text.isDigit c = false ∧ c ≠ '-') →
      (toString n.toInt).toList ≠ word := by
    rintro word ⟨c, hc, hdigit, hminus⟩ rfl
    exact notMem_toString hdigit hminus hc
  have hspecial : isSpecial (toString n.toInt).toList = false := by
    obtain ⟨negative, m, hsplit, _⟩ := splitSign_toString n.toInt
    have hn : 'n' ∉ (toString m).toList := (Text.denotes_toString m).notMem rfl
    rw [isSpecial, hsplit, String.ofList_toList, Bool.or_eq_false_iff, beq_eq_false_iff_ne, beq_eq_false_iff_ne]
    constructor
    · rintro hword
      exact hn (hword ▸ by decide)
    · rintro hword
      exact hn (hword ▸ by decide)
  rw [Value.ofAtom?, if_neg (hword ⟨'t', by decide⟩), if_neg (hword ⟨'f', by decide⟩), isMoment_toString,
    isFloat_toString, hspecial, integer?_toString]
  rfl

/-- The value that a document holds for a scalar. -/
def Scalar.toValue : Scalar → Value
  | .text s => .text s
  | .integer n => .integer n

lemma takeWhile_append_of_stop {p : Char → Bool} (htext : ∀ c ∈ text, p c = true)
    (hrest : ∀ c, rest.head? = some c → p c = false) : (text ++ rest).takeWhile p = text := by
  rw [List.takeWhile_append_of_pos htext]
  cases rest with
  | nil => rw [List.takeWhile_nil, List.append_nil]
  | cons c rest => rw [List.takeWhile_cons_of_neg (Bool.eq_false_iff.mp (hrest c rfl)), List.append_nil]

lemma ofText?_eq_none (h : Leaves text) : Quotes.ofText? text = none := by
  unfold Quotes.ofText?
  split
  · exact absurd rfl (h _ rfl).1
  · exact absurd rfl (h _ rfl).2
  · exact absurd rfl (h _ rfl).1
  · exact absurd rfl (h _ rfl).2
  · rfl

lemma digit_or_minus {k : Int} {c : Char} (h : c ∈ (toString k).toList) : Text.isDigit c = true ∨ c = '-' := by
  by_contra hc
  rw [not_or, Bool.not_eq_true] at hc
  exact notMem_toString hc.1 hc.2 h

lemma isAtomChar_toString (k : Int) : ∀ c ∈ (toString k).toList, isAtomChar c = true := by
  intro c hc
  rcases digit_or_minus hc with hdigit | rfl
  · simp [isAtomChar, isKeyChar, hdigit]
  · decide

/-- A number begins with a digit or a minus sign. -/
lemma head?_toString (k : Int) (rest : List Char) :
    ∃ c more, (toString k).toList ++ rest = c :: more ∧ ∀ d, Text.isDigit d = false → d ≠ '-' → c ≠ d := by
  cases htext : (toString k).toList with
  | nil =>
    have hne : (toString k).toList ≠ [] := by
      have h := Text.denotesInteger_toString k
      generalize (toString k).toList = text at h
      cases h with
      | plain h => exact h.1
      | minus _ => exact List.cons_ne_nil _ _
    exact absurd htext hne
  | cons c more =>
    refine ⟨c, more ++ rest, rfl, ?_⟩
    rintro d hdigit hminus rfl
    exact notMem_toString hdigit hminus (htext ▸ List.mem_cons_self)

/-- What a value begins with is no blank, and begins no array and no table. -/
lemma exists_write_eq (s : Scalar) (rest : List Char) :
    ∃ c more, s.write ++ rest = c :: more ∧ isSpace c = false ∧ c ≠ '[' ∧ c ≠ '\x7b' := by
  cases s with
  | text s =>
    rw [Scalar.write, writeQuoted, write_append]
    generalize Quotes.forText s.toList = q
    obtain ⟨escaped, multiline⟩ := q
    cases escaped <;> cases multiline <;> exact ⟨_, _, rfl, by decide⟩
  | integer n =>
    obtain ⟨c, more, htext, hne⟩ := head?_toString n.toInt rest
    refine ⟨c, more, htext, ?_, hne _ rfl (by decide), hne _ rfl (by decide)⟩
    simp [isSpace, hne ' ' rfl (by decide), hne '\t' rfl (by decide)]

/-- A value is read back from its line. -/
lemma readScalar_write (s : Scalar) (rest : List Char) :
    readScalar (s.write ++ '\n' :: rest) = some (s.toValue, '\n' :: rest) := by
  cases s with
  | text s =>
    have hread : readQuoted (writeQuoted s.toList ++ '\n' :: rest) = some (s.toList, '\n' :: rest) :=
      readQuoted_writeQuoted fun c hc => by cases hc; decide
    obtain ⟨q, hq, _⟩ := Option.bind_eq_some_iff.mp hread
    rw [readScalar, Scalar.write, hq]
    dsimp only
    rw [hread, Option.map_some, String.ofList_toList]
    rfl
  | integer n =>
    have hquotes : Quotes.ofText? ((toString n.toInt).toList ++ '\n' :: rest) = none := by
      obtain ⟨c, more, htext, hne⟩ := head?_toString n.toInt ('\n' :: rest)
      rw [htext]
      exact ofText?_eq_none fun d hd => by cases hd; exact ⟨hne _ rfl (by decide), hne _ rfl (by decide)⟩
    have hsplit : splitAtom ((toString n.toInt).toList ++ '\n' :: rest) =
        ((toString n.toInt).toList, '\n' :: rest) := by
      have hatom : ((toString n.toInt).toList ++ '\n' :: rest).takeWhile isAtomChar = (toString n.toInt).toList :=
        takeWhile_append_of_stop (isAtomChar_toString n.toInt) fun c hc => by cases hc; decide
      rw [splitAtom, hatom, List.drop_left]
      split
      · rename_i heq
        cases heq
      · rfl
    rw [readScalar, Scalar.write, hquotes]
    dsimp only
    rw [hsplit]
    dsimp only
    rw [ofAtom?_toString]
    rfl

/-- A name that needs no quotes. -/
def IsBare (name : String) : Prop := name.toList ≠ [] ∧ ∀ c ∈ name.toList, isKeyChar c = true

instance (name : String) : Decidable (IsBare name) :=
  decidable_of_iff (name.toList ≠ [] ∧ name.toList.all isKeyChar = true) (and_congr_right fun _ => List.all_eq_true)

variable {name : String}

/-- A bare name begins with a key character. -/
lemma IsBare.exists_eq (h : IsBare name) (rest : List Char) :
    ∃ c more, name.toList ++ rest = c :: more ∧ ∀ d, isKeyChar d = false → c ≠ d := by
  obtain ⟨hne, hchars⟩ := h
  cases htext : name.toList with
  | nil => exact absurd htext hne
  | cons c more =>
    refine ⟨c, more ++ rest, rfl, ?_⟩
    rintro d hd rfl
    rw [hchars c (htext ▸ List.mem_cons_self)] at hd
    cases hd

lemma skipSpaces_of_head {c : Char} (h : isSpace c = false) : skipSpaces (c :: rest) = c :: rest :=
  List.dropWhile_cons_of_neg (Bool.eq_false_iff.mp h)

lemma IsBare.skipSpaces_append (h : IsBare name) (rest : List Char) :
    skipSpaces (name.toList ++ rest) = name.toList ++ rest := by
  obtain ⟨c, more, htext, hne⟩ := h.exists_eq rest
  rw [htext]
  exact skipSpaces_of_head (by simp [isSpace, hne ' ' rfl, hne '\t' rfl])

lemma readKey_of_isBare (h : IsBare name) (hrest : ∀ c, rest.head? = some c → isKeyChar c = false) :
    readKey (name.toList ++ rest) = some (name, skipSpaces rest) := by
  have hquotes : Quotes.ofText? (name.toList ++ rest) = none := by
    obtain ⟨c, more, htext, hne⟩ := h.exists_eq rest
    rw [htext]
    exact ofText?_eq_none fun d hd => by cases hd; exact ⟨hne _ rfl, hne _ rfl⟩
  unfold readKey
  rw [h.skipSpaces_append]
  dsimp only
  rw [hquotes]
  dsimp only
  rw [takeWhile_append_of_stop h.2 hrest, List.drop_left, if_neg (by simpa using h.1), Option.map_some,
    String.ofList_toList]

/-- A bare key without a point behind it is read as a name. -/
lemma readPath_of_isBare (h : IsBare name) (limit : Nat) (hrest : ∀ c, rest.head? = some c → isKeyChar c = false)
    (hpoint : (skipSpaces rest).head? ≠ some '.') :
    readPath (limit + 1) (name.toList ++ rest) = some (([], name), skipSpaces rest) := by
  rw [readPath, readKey_of_isBare h hrest]
  split
  · rename_i heq
    obtain ⟨_, hskip⟩ := Prod.mk.inj (Option.some.inj heq)
    exact absurd (by rw [hskip]; rfl) hpoint
  · rename_i heq
    cases heq
    rfl
  · rename_i heq
    cases heq

/-- The line of an entry. -/
def Line.ofEntry (entry : String × Scalar) : Line := .entry [] entry.1 entry.2.toValue

/-- The lines of a table with its entries. -/
def Line.ofTable (table : String × List (String × Scalar)) : List Line := .table [] table.1 :: table.2.map .ofEntry

lemma readValue_write (depth : Nat) (s : Scalar) (rest : List Char) :
    readValue (depth + 1) (s.write ++ '\n' :: rest) = some (s.toValue, '\n' :: rest) := by
  obtain ⟨c, more, htext, _, harray, htable⟩ := exists_write_eq s ('\n' :: rest)
  have hread := readScalar_write s rest
  rw [htext] at hread ⊢
  rw [readValue]
  dsimp only
  split
  · rename_i heq
    exact absurd (List.cons.inj heq).1 harray
  · rename_i heq
    exact absurd (List.cons.inj heq).1 htable
  · exact hread

lemma readPair_writeEntry {entry : String × Scalar} (h : IsBare entry.1) (rest : List Char) :
    readPair (readValue depthLimit) (Document.writeEntry entry ++ rest) =
      some (([], entry.1, entry.2.toValue), '\n' :: rest) := by
  have htext : Document.writeEntry entry ++ rest =
      entry.1.toList ++ ' ' :: '=' :: ' ' :: (entry.2.write ++ '\n' :: rest) := by
    simp [Document.writeEntry]
  have hpath : readPath depthLimit (entry.1.toList ++ ' ' :: '=' :: ' ' :: (entry.2.write ++ '\n' :: rest)) =
      some (([], entry.1), '=' :: ' ' :: (entry.2.write ++ '\n' :: rest)) :=
    readPath_of_isBare h 78 (fun c hc => by cases hc; decide) (by exact nofun)
  have hskip : skipSpaces (' ' :: (entry.2.write ++ '\n' :: rest)) = entry.2.write ++ '\n' :: rest := by
    obtain ⟨c, more, hwrite, hspace, _⟩ := exists_write_eq entry.2 ('\n' :: rest)
    rw [hwrite]
    exact skipSpaces_of_head hspace
  rw [htext, readPair, hpath]
  change Option.map _ (readValue depthLimit (skipSpaces (' ' :: (entry.2.write ++ '\n' :: rest)))) = _
  rw [hskip, depthLimit, readValue_write]
  rfl

/-- A written entry is read as a line. -/
lemma readLine_writeEntry {entry : String × Scalar} (h : IsBare entry.1) (rest : List Char) :
    readLine (Document.writeEntry entry ++ rest) = some (.ofEntry entry, rest) := by
  have hpair := readPair_writeEntry h rest
  obtain ⟨c, more, htext, hne⟩ := h.exists_eq (" = ".toList ++ entry.2.write ++ ['\n'] ++ rest)
  have hentry : Document.writeEntry entry ++ rest = c :: more := by
    rw [← htext]
    simp [Document.writeEntry]
  rw [hentry] at hpair ⊢
  unfold readLine
  split
  · rename_i heq
    exact absurd (List.cons.inj heq).1 (hne _ rfl)
  · rename_i heq
    exact absurd (List.cons.inj heq).1 (hne _ rfl)
  · rw [hpair]
    rfl

/-- A written header is read as a line. -/
lemma readLine_header (h : IsBare name) (rest : List Char) :
    readLine ('[' :: name.toList ++ ']' :: '\n' :: rest) = some (.table [] name, rest) := by
  have hpath : readPath depthLimit (name.toList ++ ']' :: '\n' :: rest) = some (([], name), ']' :: '\n' :: rest) :=
    readPath_of_isBare h 78 (fun c hc => by cases hc; decide) (by exact nofun)
  have hheader : readHeader [']'] (name.toList ++ ']' :: '\n' :: rest) = some (([], name), rest) := by
    rw [readHeader, hpath]
    rfl
  obtain ⟨c, more, htext, hne⟩ := h.exists_eq (']' :: '\n' :: rest)
  rw [List.cons_append, htext]
  rw [htext] at hheader
  unfold readLine
  split
  · rename_i heq
    exact absurd (List.cons.inj (List.cons.inj heq).2).1 (hne _ rfl)
  · rename_i heq
    obtain ⟨_, rfl⟩ := List.cons.inj heq
    rw [hheader]
    rfl
  · rename_i hbracket
    exact absurd rfl (hbracket _)

end TagSearch.Toml
