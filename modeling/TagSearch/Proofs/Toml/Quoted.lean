import Mathlib.Tactic.SplitIfs
import Mathlib.Tactic.Lemma
import TagSearch.Toml.Quoted

/-! Quoted texts are read back. Whatever characters a text holds, the quotes that are chosen for it give the text, and
nothing of what follows them. -/
namespace TagSearch.Toml

variable {q : Quotes} {c : Char} {text rest : List Char}

/-- A text that does not go on with a mark of either kind. -/
def Leaves (rest : List Char) : Prop := ∀ c, rest.head? = some c → c ≠ '\x22' ∧ c ≠ '\x27'

lemma Leaves.head_ne (h : Leaves rest) (q : Quotes) : ∀ c, rest.head? = some c → c ≠ q.mark := by
  intro c hc
  obtain ⟨hquote, hapostrophe⟩ := h c hc
  unfold Quotes.mark
  split_ifs
  · exact hquote
  · exact hapostrophe

lemma isPlain_of_not_needsEscape (h : needsEscape c = false) : isPlain c = true ∨ c = '\n' := by
  simp only [needsEscape, Bool.or_eq_false_iff, Bool.and_eq_false_iff, decide_eq_false_iff_not, beq_eq_false_iff_ne,
    Decidable.not_not, Char.not_lt] at h
  obtain ⟨(hspace | htab) | hfeed, hdelete⟩ := h
  · simp [isPlain, hspace, hdelete]
  · simp [isPlain, htab]
  · exact .inr hfeed

/-- Two digits of base 16 are enough for a character that only an escape can write. -/
lemma toNat_lt_of_needsEscape (h : needsEscape c = true) : c.toNat < 256 := by
  simp only [needsEscape, Bool.or_eq_true, Bool.and_eq_true, decide_eq_true_eq, beq_iff_eq] at h
  rcases h with ⟨⟨hcontrol, _⟩, _⟩ | rfl
  · exact Nat.lt_trans hcontrol (by decide)
  · decide

/-- A character that stands for itself is read as itself. -/
lemma readBody_plain (hmark : c ≠ q.mark) (hbackslash : q.escaped = true → c ≠ '\\')
    (h : isPlain c = true ∨ (q.multiline = true ∧ c = '\n')) :
    q.readBody (.text false) (c :: rest) = keep c (q.readBody (.text false) rest) := by
  have hescape : (q.escaped && c == '\\') = false := by
    cases hq : q.escaped with
    | false => rfl
    | true => simpa using hbackslash hq
  have hplain : (isPlain c || (q.multiline && c == '\n')) = true := by
    simpa only [Bool.or_eq_true, Bool.and_eq_true, beq_iff_eq] using h
  rw [Quotes.readBody, Bool.false_and, if_neg Bool.false_ne_true, if_neg hmark, if_neg (Bool.eq_false_iff.mp hescape),
    if_pos hplain]

lemma hexValue?_upper {n : Nat} (h : n < 16) : Text.hexValue? (Text.hexDigit 'A' n) = some n := by
  revert n
  decide

/-- The code of a character with two digits is read back. -/
lemma readBody_code (multiline : Bool) (h : c.toNat < 256) :
    Quotes.readBody ⟨true, multiline⟩ (.text false)
        ('\\' :: 'u' :: '0' :: '0' :: Text.hexDigit 'A' (c.toNat / 16) :: Text.hexDigit 'A' (c.toNat % 16) :: rest) =
      keep c (Quotes.readBody ⟨true, multiline⟩ (.text false) rest) := by
  have hvalue : 16 * (16 * 0 + c.toNat / 16) + c.toNat % 16 = c.toNat := by omega
  have hhigh : c.toNat / 16 < 16 := by omega
  have hlow : c.toNat % 16 < 16 := Nat.mod_lt _ (by decide)
  have hvalid : c.toNat.isValidChar := c.valid
  change Quotes.readBody ⟨true, multiline⟩ (.code 2 0)
    (Text.hexDigit 'A' (c.toNat / 16) :: Text.hexDigit 'A' (c.toNat % 16) :: rest) = _
  rw [Quotes.readBody, hexValue?_upper hhigh]
  change Quotes.readBody ⟨true, multiline⟩ (.code 1 _) (Text.hexDigit 'A' (c.toNat % 16) :: rest) = _
  rw [Quotes.readBody, hexValue?_upper hlow]
  change (if Nat.isValidChar (16 * (16 * 0 + c.toNat / 16) + c.toNat % 16) then
    keep (Char.ofNat (16 * (16 * 0 + c.toNat / 16) + c.toNat % 16)) _ else none) = _
  rw [hvalue, if_pos hvalid, Char.ofNat_toNat]

/-- An escape of one letter is read back. -/
lemma readBody_letter (multiline : Bool) {letter : Char} (hescape : escapeOf? letter = some c)
    (hletter : letter ≠ 'u' ∧ letter ≠ 'U' ∧ letter ≠ '\n' ∧ isSpace letter = false) :
    Quotes.readBody ⟨true, multiline⟩ (.text false) ('\\' :: letter :: rest) =
      keep c (Quotes.readBody ⟨true, multiline⟩ (.text false) rest) := by
  obtain ⟨hshort, hlong, hfeed, hspace⟩ := hletter
  change Quotes.readBody ⟨true, multiline⟩ .escape (letter :: rest) = _
  rw [Quotes.readBody, if_neg hshort, if_neg hlong, if_neg (by simp [hfeed]), if_neg (by simp [hspace]), hescape]

/-- A character between quotation marks is read back, unless it is such a mark. -/
lemma readBody_escape (multiline : Bool) (h : c ≠ '\x22') :
    Quotes.readBody ⟨true, multiline⟩ (.text false) (escape multiline c ++ rest) =
      keep c (Quotes.readBody ⟨true, multiline⟩ (.text false) rest) := by
  unfold escape
  split_ifs with hbackslash hback htab hfeed hmultiline hform hreturn hcontrol
  · rw [hbackslash]; exact readBody_letter multiline rfl (by decide)
  · rw [hback]; exact readBody_letter multiline rfl (by decide)
  · rw [htab]; exact readBody_letter multiline rfl (by decide)
  · subst hfeed
    exact readBody_plain (q := ⟨true, multiline⟩) h (fun _ => hbackslash) (.inr ⟨hmultiline, rfl⟩)
  · rw [hfeed]; exact readBody_letter multiline rfl (by decide)
  · rw [hform]; exact readBody_letter multiline rfl (by decide)
  · rw [hreturn]; exact readBody_letter multiline rfl (by decide)
  · exact readBody_code multiline (toNat_lt_of_needsEscape hcontrol)
  · refine readBody_plain h (fun _ => hbackslash) (.inl ?_)
    exact (isPlain_of_not_needsEscape (Bool.eq_false_iff.mpr hcontrol)).resolve_right hfeed

/-- One mark ends a text between single marks. -/
lemma readBody_closing (escaped : Bool) (rest : List Char) :
    Quotes.readBody ⟨escaped, false⟩ (.text false) (Quotes.delimiter ⟨escaped, false⟩ ++ rest) = some ([], rest) := by
  cases escaped <;> rfl

lemma close?_marks {mark : Char} {n : Nat} (hn : n ≤ 2) (hrest : ∀ c, rest.head? = some c → c ≠ mark) :
    close? mark (List.replicate (n + 2) mark ++ rest) = some (List.replicate n mark, rest) := by
  have htake : (List.replicate (n + 2) mark ++ rest).take 2 = [mark, mark] := rfl
  have hdrop : (List.replicate (n + 2) mark ++ rest).drop 2 = List.replicate n mark ++ rest := rfl
  have hend : (rest.take (2 - n)).takeWhile (· = mark) = [] := by
    cases rest with
    | nil => rw [List.take_nil, List.takeWhile_nil]
    | cons c rest =>
      cases 2 - n with
      | zero => rfl
      | succ m => rw [List.take_succ_cons, List.takeWhile_cons_of_neg (by simpa using hrest c rfl)]
  have hextra : ((List.replicate n mark ++ rest).take 2).takeWhile (· = mark) = List.replicate n mark := by
    rw [List.take_append, List.length_replicate, List.take_replicate, Nat.min_eq_right hn,
      List.takeWhile_append_of_pos (by simp), hend, List.append_nil]
  rw [close?, if_pos htake, hdrop]
  simp only [hextra, List.length_replicate, ← List.drop_drop, hdrop, List.drop_left']

/-- Up to two marks in front of the three closing ones belong to the text. -/
lemma readBody_closing_three (escaped : Bool) {n : Nat} (hn : n ≤ 2) (hrest : Leaves rest) :
    Quotes.readBody ⟨escaped, true⟩ (.text false)
        (List.replicate n (Quotes.mark ⟨escaped, true⟩) ++ (Quotes.delimiter ⟨escaped, true⟩ ++ rest)) =
      some (List.replicate n (Quotes.mark ⟨escaped, true⟩), rest) := by
  have hmarks : List.replicate n (Quotes.mark ⟨escaped, true⟩) ++ (Quotes.delimiter ⟨escaped, true⟩ ++ rest) =
      Quotes.mark ⟨escaped, true⟩ :: (List.replicate (n + 2) (Quotes.mark ⟨escaped, true⟩) ++ rest) := by
    rw [Quotes.delimiter, if_pos rfl, ← List.append_assoc, List.replicate_append_replicate]
    rfl
  rw [hmarks, Quotes.readBody, Bool.false_and, if_neg Bool.false_ne_true, if_pos rfl, if_pos rfl,
    close?_marks hn (hrest.head_ne ⟨escaped, true⟩)]

/-- A mark belongs to a text between three marks unless two more marks follow it. -/
lemma readBody_mark (escaped : Bool) (h : rest.take 2 ≠ [Quotes.mark ⟨escaped, true⟩, Quotes.mark ⟨escaped, true⟩]) :
    Quotes.readBody ⟨escaped, true⟩ (.text false) (Quotes.mark ⟨escaped, true⟩ :: rest) =
      keep (Quotes.mark ⟨escaped, true⟩) (Quotes.readBody ⟨escaped, true⟩ (.text false) rest) := by
  rw [Quotes.readBody, Bool.false_and, if_neg Bool.false_ne_true, if_pos rfl, if_pos rfl, close?, if_neg h]

/-- What is written of a character begins with a mark or a line feed only if the character is one. -/
lemma exists_escape_eq (multiline : Bool) (c : Char) :
    ∃ d more, escape multiline c = d :: more ∧ (d = c ∨ d = '\\' ∨ (d = '\n' ∧ c = '\n')) := by
  unfold escape
  split_ifs with _ _ _ hfeed
  all_goals refine ⟨_, _, rfl, ?_⟩
  all_goals simp_all

/-- A text in which a mark must be escaped next, or that begins with no mark, is not written with a mark in front. -/
lemma head?_escapeAll {multiline : Bool} {run : Nat} (h : c ≠ '\x22' ∨ (multiline && run < 2) = false)
    (more : List Char) : (escapeAll multiline run (c :: text) ++ more).head? ≠ some '\x22' := by
  rw [escapeAll]
  by_cases hc : c = '\x22'
  · rw [if_pos hc, if_neg (Bool.eq_false_iff.mp (h.resolve_left fun hne => hne hc))]
    simp
  · obtain ⟨d, others, hescape, hd⟩ := exists_escape_eq multiline c
    rw [if_neg hc, hescape]
    rcases hd with rfl | rfl | ⟨rfl, -⟩
    · simpa using hc
    · simp
    · simp

/-- Between single marks every mark is escaped. -/
lemma readBody_escapeAll (run : Nat) :
    Quotes.readBody ⟨true, false⟩ (.text false)
      (escapeAll false run text ++ (Quotes.delimiter ⟨true, false⟩ ++ rest)) = some (text, rest) := by
  induction text generalizing run with
  | nil => exact readBody_closing true rest
  | cons c text ih =>
    rw [escapeAll]
    by_cases hc : c = '\x22'
    · subst hc
      exact (readBody_letter false rfl (by decide)).trans (congrArg (keep _) (ih 0))
    · rw [if_neg hc, List.append_assoc, readBody_escape false hc, ih 0]
      rfl

/-- Two marks behind a mark are those that close the text, with the last mark of the text between them or none. -/
lemma eq_replicate_of_marks {run : Nat}
    (h : (escapeAll true (run + 1) text ++ (Quotes.delimiter ⟨true, true⟩ ++ rest)).take 2 = ['\x22', '\x22']) :
    ∃ n ≤ 1, text = List.replicate n '\x22' ∧ escapeAll true (run + 1) text = List.replicate n '\x22' := by
  have hhead : ∀ {list : List Char}, list.take 2 = ['\x22', '\x22'] →
      list.head? = some '\x22' ∧ list.tail.head? = some '\x22' := by
    intro list hlist
    match list, hlist with
    | a :: b :: _, hlist =>
      obtain ⟨rfl, hb⟩ := List.cons.inj hlist
      obtain ⟨rfl, _⟩ := List.cons.inj hb
      exact ⟨rfl, rfl⟩
  obtain ⟨hfirst, hsecond⟩ := hhead h
  cases text with
  | nil => exact ⟨0, Nat.zero_le _, rfl, rfl⟩
  | cons c text =>
    by_cases hmark : c = '\x22' ∧ run = 0
    · obtain ⟨rfl, rfl⟩ := hmark
      cases text with
      | nil => exact ⟨1, Nat.le_refl _, rfl, rfl⟩
      | cons d text => exact absurd hsecond (head?_escapeAll (.inr rfl) _)
    · refine absurd hfirst (head?_escapeAll ?_ _)
      by_cases hc : c = '\x22'
      · have hrun : ¬ run + 1 < 2 := by
          have hne : run ≠ 0 := fun h => hmark ⟨hc, h⟩
          omega
        exact .inr (by simpa using hrun)
      · exact .inl hc

/-- Between three marks no three marks meet in the text, whatever marks stand in front of it. -/
lemma readBody_escapeAll_three (run : Nat) (hrest : Leaves rest) :
    Quotes.readBody ⟨true, true⟩ (.text false)
      (escapeAll true run text ++ (Quotes.delimiter ⟨true, true⟩ ++ rest)) = some (text, rest) := by
  induction text generalizing run with
  | nil => exact readBody_closing_three true (Nat.zero_le _) hrest
  | cons c text ih =>
    rw [escapeAll]
    by_cases hc : c = '\x22'
    · subst hc
      rw [if_pos rfl]
      by_cases hrun : run < 2
      · rw [if_pos (by simpa using hrun), List.cons_append]
        by_cases hclose : (escapeAll true (run + 1) text ++ (Quotes.delimiter ⟨true, true⟩ ++ rest)).take 2 =
            ['\x22', '\x22']
        · obtain ⟨n, hn, htext, hwritten⟩ := eq_replicate_of_marks hclose
          rw [hwritten, htext]
          exact readBody_closing_three true (Nat.succ_le_succ hn) hrest
        · exact (readBody_mark true hclose).trans (congrArg (keep _) (ih _))
      · rw [if_neg (by simpa using hrun)]
        exact (readBody_letter true rfl (by decide)).trans (congrArg (keep _) (ih 0))
    · rw [if_neg hc, List.append_assoc, readBody_escape true hc, ih 0]
      rfl

/-- Between single apostrophes a text stands as it is, if it holds none of them. -/
lemma readBody_literal (h : ∀ c ∈ text, isPlain c = true ∧ c ≠ '\x27') :
    Quotes.readBody ⟨false, false⟩ (.text false) (text ++ (Quotes.delimiter ⟨false, false⟩ ++ rest)) =
      some (text, rest) := by
  induction text with
  | nil => exact readBody_closing false rest
  | cons c text ih =>
    rw [List.forall_mem_cons] at h
    rw [List.cons_append, readBody_plain (q := ⟨false, false⟩) h.1.2 nofun (.inl h.1.1), ih h.2]
    rfl

lemma le_longestRun (mark : Char) (run : Nat) (text : List Char) : run ≤ longestRun mark run text := by
  induction text generalizing run with
  | nil => exact Nat.le_refl run
  | cons c text ih =>
    rw [longestRun]
    split_ifs
    · exact Nat.le_of_succ_le (ih _)
    · exact Nat.le_max_left _ _

/-- Two apostrophes behind an apostrophe are those that close the text, with the last of the text between them or none. -/
lemma eq_replicate_of_apostrophes {run : Nat} (hrun : longestRun '\x27' (run + 1) text ≤ 2)
    (h : (text ++ (Quotes.delimiter ⟨false, true⟩ ++ rest)).take 2 = ['\x27', '\x27']) :
    ∃ n ≤ 1, text = List.replicate n '\x27' := by
  match text, h with
  | [], _ => exact ⟨0, Nat.zero_le _, rfl⟩
  | [d], h => exact ⟨1, Nat.le_refl _, congrArg (· :: []) (List.cons.inj h).1⟩
  | d :: e :: more, h =>
    obtain ⟨rfl, he⟩ := List.cons.inj h
    obtain ⟨rfl, _⟩ := List.cons.inj he
    have hle := le_longestRun '\x27' (run + 1 + 1 + 1) more
    simp only [longestRun, if_true] at hrun
    omega

/-- Between three apostrophes a text stands as it is, if no three of them meet in it. -/
lemma readBody_literal_three {run : Nat} (hrun : longestRun '\x27' run text ≤ 2)
    (h : ∀ c ∈ text, isPlain c = true ∨ c = '\n') (hrest : Leaves rest) :
    Quotes.readBody ⟨false, true⟩ (.text false) (text ++ (Quotes.delimiter ⟨false, true⟩ ++ rest)) =
      some (text, rest) := by
  induction text generalizing run with
  | nil => exact readBody_closing_three false (Nat.zero_le _) hrest
  | cons c text ih =>
    rw [List.forall_mem_cons] at h
    rw [longestRun] at hrun
    by_cases hc : c = '\x27'
    · subst hc
      rw [if_pos rfl] at hrun
      by_cases hclose : (text ++ (Quotes.delimiter ⟨false, true⟩ ++ rest)).take 2 = ['\x27', '\x27']
      · obtain ⟨n, hn, htext⟩ := eq_replicate_of_apostrophes hrun hclose
        rw [htext]
        exact readBody_closing_three false (Nat.succ_le_succ hn) hrest
      · exact (readBody_mark false hclose).trans (congrArg (keep _) (ih hrun h.2))
    · rw [if_neg hc] at hrun
      rw [List.cons_append,
        readBody_plain (q := ⟨false, true⟩) hc nofun (h.1.imp_right fun hfeed => ⟨rfl, hfeed⟩),
        ih (Nat.le_trans (Nat.le_max_right _ _) hrun) h.2]
      rfl

lemma ne_of_longestRun_eq_zero {mark : Char} (h : longestRun mark 0 text = 0) : ∀ c ∈ text, c ≠ mark := by
  induction text with
  | nil => exact fun _ hc => absurd hc List.not_mem_nil
  | cons c text ih =>
    rw [longestRun] at h
    split_ifs at h with hc
    · have hle := le_longestRun mark (0 + 1) text
      omega
    · rw [List.forall_mem_cons]
      exact ⟨hc, ih (by omega)⟩

/-- Quotes without escapes are chosen only for texts that they can hold. -/
lemma forText_cases (text : List Char) :
    (Quotes.forText text).escaped = true ∨
      (Quotes.forText text = ⟨false, false⟩ ∧ ∀ c ∈ text, isPlain c = true ∧ c ≠ '\x27') ∨
      (Quotes.forText text = ⟨false, true⟩ ∧ (∀ c ∈ text, isPlain c = true ∨ c = '\n') ∧
        longestRun '\x27' 0 text ≤ 2) := by
  have hplain : (!text.any needsEscape) = true → ∀ c ∈ text, isPlain c = true ∨ c = '\n' := by
    intro h c hc
    rw [Bool.not_eq_true', List.any_eq_false] at h
    exact isPlain_of_not_needsEscape (Bool.eq_false_iff.mpr (h c hc))
  dsimp only [Quotes.forText]
  split_ifs with hbasic hliteral hthree hliteralThree
  · exact .inl rfl
  · simp only [Bool.and_eq_true, Bool.not_eq_true', decide_eq_true_eq] at hliteral
    obtain ⟨⟨hno, hfeed⟩, hrun⟩ := hliteral
    refine .inr (.inl ⟨rfl, fun c hc => ⟨?_, ne_of_longestRun_eq_zero hrun c hc⟩⟩)
    refine (hplain (by rw [hno]; rfl) c hc).resolve_right ?_
    rintro rfl
    rw [List.contains_iff_mem.mpr hc] at hfeed
    cases hfeed
  · exact .inl rfl
  · rw [Bool.and_eq_true, decide_eq_true_eq] at hliteralThree
    exact .inr (.inr ⟨rfl, hplain hliteralThree.1, hliteralThree.2⟩)
  · exact .inl rfl

/-- One mark opens a text, unless two more follow it. -/
lemma readQuoted_single (escaped : Bool) {body : List Char}
    (h : body.take 2 ≠ [Quotes.mark ⟨escaped, false⟩, Quotes.mark ⟨escaped, false⟩]) :
    readQuoted (Quotes.delimiter ⟨escaped, false⟩ ++ body) = Quotes.readBody ⟨escaped, false⟩ (.text false) body := by
  have hopen : Quotes.ofText? (Quotes.mark ⟨escaped, false⟩ :: body) = some ⟨escaped, false⟩ := by
    cases escaped
    all_goals
      simp only [Quotes.mark, Bool.false_eq_true, if_true, if_false] at h ⊢
      unfold Quotes.ofText?
      split
    all_goals simp_all
  change (Quotes.ofText? (Quotes.mark ⟨escaped, false⟩ :: body)).bind _ = _
  rw [hopen]
  rfl

/-- Three marks open a text, with a line feed behind them if the text holds one. -/
lemma readQuoted_three (escaped : Bool) {feeds : Bool} {body : List Char}
    (h : feeds = false → body.head? ≠ some '\n') :
    readQuoted (Quotes.delimiter ⟨escaped, true⟩ ++ ((if feeds then ['\n'] else []) ++ body)) =
      Quotes.readBody ⟨escaped, true⟩ (.text false) body := by
  have hopen : ∀ more, Quotes.ofText? (Quotes.delimiter ⟨escaped, true⟩ ++ more) = some ⟨escaped, true⟩ := by
    cases escaped <;> exact fun _ => rfl
  rw [readQuoted, hopen, Option.bind_some]
  refine congrArg _ ?_
  cases feeds with
  | true => rfl
  | false =>
    rw [if_neg Bool.false_ne_true, List.nil_append, Quotes.afterOpening, List.drop_left]
    split
    · exact absurd rfl (h rfl)
    · rfl

lemma write_append (q : Quotes) (text rest : List Char) :
    q.write text ++ rest =
      q.delimiter ++ ((if q.multiline && text.contains '\n' then ['\n'] else []) ++
        ((if q.escaped then escapeAll q.multiline 0 text else text) ++ (q.delimiter ++ rest))) := by
  simp only [Quotes.write, List.append_assoc]

/-- A text between single marks does not begin with a mark, so two marks behind the first one would be its end and what
follows. -/
lemma take_two_ne {mark : Char} {written : List Char} (hwritten : written.head? ≠ some mark)
    (hrest : ∀ c, rest.head? = some c → c ≠ mark) : (written ++ ([mark] ++ rest)).take 2 ≠ [mark, mark] := by
  intro htake
  match written, rest, htake with
  | [], c :: rest, htake => exact hrest c rfl (List.cons.inj (List.cons.inj htake).2).1
  | c :: written, _, htake => exact hwritten (congrArg some (List.cons.inj htake).1)

/-- Between three marks only a text with a line feed can begin with one. -/
lemma head?_ne_lineFeed (escaped : Bool) (h : text.contains '\n' = false) :
    ((if escaped then escapeAll true 0 text else text) ++ (Quotes.delimiter ⟨escaped, true⟩ ++ rest)).head? ≠
      some '\n' := by
  cases text with
  | nil => cases escaped <;> exact nofun
  | cons c text =>
    have hc : c ≠ '\n' := by
      rintro rfl
      cases h
    cases escaped with
    | false => simpa using hc
    | true =>
      obtain ⟨d, more, hescape, hd⟩ := exists_escape_eq true c
      rw [if_pos rfl, escapeAll, hescape]
      split_ifs with hmark hrun
      · simpa using hc
      · simp
      · rcases hd with rfl | rfl | ⟨-, rfl⟩
        · simpa using hc
        · simp
        · exact absurd rfl hc

/-- Every text is read back from its quotes. -/
theorem readQuoted_writeQuoted (hrest : Leaves rest) : readQuoted (writeQuoted text ++ rest) = some (text, rest) := by
  rw [writeQuoted, write_append]
  rcases forText_cases text with hescaped | ⟨hq, hplain⟩ | ⟨hq, hplain, hrun⟩
  · generalize Quotes.forText text = q at hescaped ⊢
    obtain ⟨escaped, multiline⟩ := q
    obtain rfl : escaped = true := hescaped
    cases multiline with
    | false =>
      have hhead : (escapeAll false 0 text).head? ≠ some '\x22' := by
        cases text with
        | nil => exact nofun
        | cons c text => simpa using @head?_escapeAll c text false 0 (.inr rfl) []
      exact (readQuoted_single true (take_two_ne hhead (hrest.head_ne ⟨true, false⟩))).trans (readBody_escapeAll 0)
    | true => exact (readQuoted_three true (head?_ne_lineFeed true)).trans (readBody_escapeAll_three 0 hrest)
  · have hhead : text.head? ≠ some '\x27' := fun h => (hplain _ (List.mem_of_head? h)).2 rfl
    rw [hq]
    exact (readQuoted_single false (take_two_ne hhead (hrest.head_ne ⟨false, false⟩))).trans (readBody_literal hplain)
  · rw [hq]
    exact (readQuoted_three false (head?_ne_lineFeed false)).trans (readBody_literal_three hrun hplain hrest)

lemma return_notMem_escape (multiline : Bool) (c : Char) : '\r' ∉ escape multiline c := by
  have hdigit : ∀ n < 16, Text.hexDigit 'A' n ≠ '\r' := by decide
  unfold escape
  split_ifs with _ _ _ _ _ _ hreturn hcontrol
  · decide
  · decide
  · decide
  · decide
  · decide
  · decide
  · decide
  · have hlt := toNat_lt_of_needsEscape hcontrol
    have hhigh := hdigit (c.toNat / 16) (by omega)
    have hlow := hdigit (c.toNat % 16) (by omega)
    simp [hhigh.symm, hlow.symm]
  · simpa using fun h => hreturn h.symm

lemma return_notMem_escapeAll (multiline : Bool) (run : Nat) (text : List Char) :
    '\r' ∉ escapeAll multiline run text := by
  induction text generalizing run with
  | nil => exact List.not_mem_nil
  | cons c text ih =>
    rw [escapeAll]
    split_ifs with hc
    · simpa [hc] using ih (run + 1)
    · simpa [hc] using ih 0
    · rw [List.mem_append, not_or]
      exact ⟨return_notMem_escape multiline c, ih 0⟩

/-- A carriage return is always escaped, so the ends of lines in a written text stay as they are. -/
lemma return_notMem_writeQuoted (text : List Char) : '\r' ∉ writeQuoted text := by
  have hbody :
      '\r' ∉ if (Quotes.forText text).escaped then escapeAll (Quotes.forText text).multiline 0 text else text := by
    rcases forText_cases text with hescaped | ⟨hq, hplain⟩ | ⟨hq, hplain, _⟩
    · rw [if_pos hescaped]
      exact return_notMem_escapeAll _ _ _
    · rw [hq]
      exact fun hmem => absurd (hplain _ hmem).1 (by decide)
    · rw [hq]
      exact fun hmem => absurd (hplain _ hmem) (by decide)
  have hdelimiter : ∀ q : Quotes, '\r' ∉ q.delimiter := by
    rintro ⟨escaped, multiline⟩
    cases escaped <;> cases multiline <;> decide
  rw [writeQuoted, Quotes.write]
  simp only [List.mem_append, not_or]
  refine ⟨⟨⟨hdelimiter _, ?_⟩, hbody⟩, hdelimiter _⟩
  split_ifs <;> decide

example : readQuoted (writeQuoted "C:\\new 'x' \x22\x22\x22\x01\r\n".toList) =
    some ("C:\\new 'x' \x22\x22\x22\x01\r\n".toList, []) := by decide +kernel

end TagSearch.Toml
