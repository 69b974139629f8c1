import Mathlib.Tactic.Lemma
import TagSearch.Query.Token

/-! The texts of tokens have no blanks, and tokens that are written one after the other read as themselves. -/
namespace TagSearch

/-- A text without blanks. -/
def Text.IsSolid (text : List Char) : Prop := ∀ c ∈ text, isBlank c = false

namespace Text

instance (text : List Char) : Decidable (IsSolid text) := List.decidableBAll _ text

lemma IsSolid.append {before after : List Char} (hbefore : IsSolid before) (hafter : IsSolid after) :
    IsSolid (before ++ after) :=
  List.forall_mem_append.mpr ⟨hbefore, hafter⟩

lemma mem_ofRun {text word : List Char} : word ∈ ofRun text ↔ word = text ∧ text ≠ [] := by
  cases text with
  | nil => simp [ofRun]
  | cons c rest => simp [ofRun]

lemma ofRun_of_ne_nil {text : List Char} (h : text ≠ []) : ofRun text = [text] := by
  cases text with
  | nil => exact absurd rfl h
  | cons c rest => rfl

lemma mem_wordsFrom {run text word : List Char} (hrun : IsSolid run) (h : word ∈ wordsFrom run text) :
    word ≠ [] ∧ IsSolid word := by
  have hfirst : ∀ {w}, w ∈ ofRun run.reverse → w ≠ [] ∧ IsSolid w := by
    intro w hw
    obtain ⟨rfl, hne⟩ := mem_ofRun.mp hw
    exact ⟨hne, fun c hc => hrun c (List.mem_reverse.mp hc)⟩
  induction text generalizing run with
  | nil => exact hfirst h
  | cons c rest ih =>
    rw [wordsFrom] at h
    split at h
    · rcases List.mem_append.mp h with h | h
      · exact hfirst h
      · have hnil : IsSolid [] := fun d hd => absurd hd List.not_mem_nil
        exact ih hnil h fun hw => absurd (mem_ofRun.mp hw).2 (by simp)
    · rename_i hc
      have hcons : IsSolid (c :: run) := List.forall_mem_cons.mpr ⟨Bool.not_eq_true _ ▸ hc, hrun⟩
      refine ih hcons h fun hw => ?_
      obtain ⟨rfl, hne⟩ := mem_ofRun.mp hw
      exact ⟨hne, fun d hd => hcons d (List.mem_reverse.mp hd)⟩

/-- A word is not empty and has no blanks. -/
theorem mem_words {text word : List Char} (h : word ∈ words text) : word ≠ [] ∧ IsSolid word :=
  mem_wordsFrom (fun _ hc => absurd hc List.not_mem_nil) h

lemma isSolid_joinWith {joiner : Char} (hjoiner : isBlank joiner = false) {pieces : List (List Char)}
    (h : ∀ piece ∈ pieces, IsSolid piece) : IsSolid (joinWith joiner pieces) := by
  induction pieces with
  | nil => exact fun c hc => absurd hc List.not_mem_nil
  | cons piece rest ih =>
    rw [List.forall_mem_cons] at h
    cases rest with
    | nil => exact h.1
    | cons next rest => exact h.1.append (List.forall_mem_cons.mpr ⟨hjoiner, ih h.2⟩)

/-- Words with blanks between them are the words of the text. -/
theorem words_joinWith {joiner : Char} (hjoiner : isBlank joiner = true) {pieces : List (List Char)}
    (h : ∀ piece ∈ pieces, piece ≠ [] ∧ IsSolid piece) : words (joinWith joiner pieces) = pieces := by
  have hword : ∀ {piece}, piece ≠ [] ∧ IsSolid piece → words piece = [piece] := by
    rintro piece ⟨hne, hsolid⟩
    rw [words_solid piece hsolid, ofRun_of_ne_nil hne]
  induction pieces with
  | nil => rfl
  | cons piece rest ih =>
    rw [List.forall_mem_cons] at h
    cases rest with
    | nil => exact hword h.1
    | cons next rest =>
      rw [joinWith, words_blank _ _ hjoiner, hword h.1, ih h.2]
      · rfl
      · intro hnil
        cases hnil

end Text

namespace Query
open Text

/-- The words that were read of an open quotation have no blanks. -/
def Scan.IsSolid : Scan → Prop
  | outside => True
  | inside _ _ read => ∀ word ∈ read, Text.IsSolid word

def Token.IsSolid (t : Token) : Prop := Text.IsSolid t.text.toList

lemma isSolid_token {negated : Bool} {text : List Char} (h : Text.IsSolid text) : (token negated text).IsSolid := by
  rwa [Token.IsSolid, token, String.toList_ofList]

lemma dropLast?_eq_some {c : Char} {word text : List Char} (h : dropLast? c word = some text) :
    text = word.dropLast := by
  rw [dropLast?] at h
  split at h
  · exact (Option.some.inj h).symm
  · cases h

lemma isSolid_dropLast? {c : Char} {word text : List Char} (hword : Text.IsSolid word)
    (h : dropLast? c word = some text) : Text.IsSolid text := by
  rw [dropLast?_eq_some h]
  exact fun d hd => hword d ((List.dropLast_sublist word).subset hd)

lemma isSolid_phrase {read : List (List Char)} (h : ∀ word ∈ read, Text.IsSolid word) :
    Text.IsSolid (phrase read) :=
  isSolid_joinWith rfl fun word hword => h word (List.mem_reverse.mp hword)

lemma isSolid_splitSign {word : List Char} (h : Text.IsSolid word) : Text.IsSolid (splitSign word).2 := by
  unfold splitSign
  split
  · exact (List.forall_mem_cons.mp h).2
  · exact (List.forall_mem_cons.mp h).2
  · exact h

lemma isSolid_openWord {negated : Bool} {word : List Char} (h : Text.IsSolid word) :
    (openWord negated word).1.IsSolid ∧ ∀ t ∈ (openWord negated word).2, t.IsSolid := by
  cases word with
  | nil => exact ⟨trivial, by simpa [openWord] using isSolid_token h⟩
  | cons c rest =>
    have hrest := (List.forall_mem_cons.mp h).2
    rw [openWord]
    split
    · split
      · rename_i text htext
        exact ⟨trivial, by simpa using isSolid_token (isSolid_dropLast? hrest htext)⟩
      · refine ⟨fun word hword => ?_, by simp⟩
        obtain ⟨rfl, _⟩ := mem_ofRun.mp hword
        exact hrest
    · exact ⟨trivial, by simpa using isSolid_token h⟩

/-- One word keeps the quotation without blanks. -/
lemma Scan.isSolid_step {scan : Scan} (hscan : scan.IsSolid) {word : List Char} (hword : Text.IsSolid word) :
    (scan.step word).1.IsSolid ∧ ∀ t ∈ (scan.step word).2, t.IsSolid := by
  cases scan with
  | outside => exact isSolid_openWord (isSolid_splitSign hword)
  | inside quote negated read =>
    rw [step]
    split
    · rename_i last hlast
      have hpieces := List.forall_mem_cons.mpr ⟨isSolid_dropLast? hword hlast, hscan⟩
      exact ⟨trivial, by simpa using isSolid_token (isSolid_phrase hpieces)⟩
    · exact ⟨List.forall_mem_cons.mpr ⟨hword, hscan⟩, by simp⟩

lemma Scan.isSolid_run {scan : Scan} (hscan : scan.IsSolid) {words : List (List Char)}
    (h : ∀ word ∈ words, Text.IsSolid word) :
    (scan.run words).1.IsSolid ∧ ∀ t ∈ (scan.run words).2, t.IsSolid := by
  induction words generalizing scan with
  | nil => exact ⟨hscan, by simp [run]⟩
  | cons word rest ih =>
    rw [List.forall_mem_cons] at h
    have hstep := isSolid_step hscan h.1
    have hrun := ih hstep.1 h.2
    exact ⟨hrun.1, List.forall_mem_append.mpr ⟨hstep.2, hrun.2⟩⟩

lemma Scan.isSolid_close {scan : Scan} (hscan : scan.IsSolid) : ∀ t ∈ scan.close, t.IsSolid := by
  cases scan with
  | outside => simp [close]
  | inside quote negated read => simpa [close] using isSolid_token (isSolid_phrase hscan)

lemma isSolid_of_mem_items {raw : List Char} {t : Token} (h : t ∈ items raw) : t.IsSolid := by
  have hwords : ∀ word ∈ words raw, Text.IsSolid word := fun word hword => (mem_words hword).2
  have hrun := @Scan.isSolid_run .outside trivial _ hwords
  rcases List.mem_append.mp h with h | h
  · exact hrun.2 t h
  · exact Scan.isSolid_close hrun.1 t h

/-- The text of a token is not empty and has no blanks. -/
theorem text_of_mem_tokenize {raw : String} {t : Token} (h : t ∈ tokenize raw) : t.text ≠ "" ∧ t.IsSolid := by
  have h := List.mem_filter.mp (mem_of_mem_firstOfKey _ h)
  exact ⟨by simpa using h.2, isSolid_of_mem_items h.1⟩

lemma tokenize_of_items {raw : String} {found : List Token} (h : items raw.toList = found)
    (hne : ∀ t ∈ found, t.text ≠ "") : tokenize raw = firstOfKey Token.text found := by
  have hkept : found.filter (fun t => !t.text.isEmpty) = found :=
    List.filter_eq_self.mpr fun t ht => by simpa using hne t ht
  rw [tokenize, h, hkept]

/-- A text that reads as it stands: a word without a sign or a quote in front. -/
structure IsBare (word : List Char) : Prop where
  solid : Text.IsSolid word
  start : ∃ c rest, word = c :: rest ∧ c ≠ '-' ∧ c ≠ '+' ∧ isQuote c = false

lemma IsBare.ne_empty {text : String} (h : IsBare text.toList) : text ≠ "" := by
  rintro rfl
  obtain ⟨c, rest, hword, _⟩ := h.start
  cases hword

/-- A token with its sign. -/
def Token.write (t : Token) : List Char :=
  if t.negated then '-' :: t.text.toList else t.text.toList

lemma splitSign_of_bare {word : List Char} (h : IsBare word) : splitSign word = (false, word) := by
  obtain ⟨c, rest, rfl, hminus, hplus, _⟩ := h.start
  unfold splitSign
  split
  · rename_i body heq
    exact absurd (List.cons.inj heq).1 hminus
  · rename_i body heq
    exact absurd (List.cons.inj heq).1 hplus
  · rfl

lemma openWord_of_bare {word : List Char} (h : IsBare word) (negated : Bool) :
    openWord negated word = (.outside, [token negated word]) := by
  obtain ⟨c, rest, rfl, _, _, hquote⟩ := h.start
  rw [openWord, hquote, if_neg Bool.false_ne_true]

lemma step_write {t : Token} (h : IsBare t.text.toList) : Scan.outside.step t.write = (.outside, [t]) := by
  obtain ⟨text, negated⟩ := t
  have htoken : token negated text.toList = ⟨text, negated⟩ := by rw [token, String.ofList_toList]
  cases negated with
  | false =>
    change openWord (splitSign text.toList).1 (splitSign text.toList).2 = _
    rw [splitSign_of_bare h, openWord_of_bare h, htoken]
  | true => exact (openWord_of_bare h true).trans (by rw [htoken])

lemma run_write {tokens : List Token} (h : ∀ t ∈ tokens, IsBare t.text.toList) :
    Scan.outside.run (tokens.map Token.write) = (.outside, tokens) := by
  induction tokens with
  | nil => rfl
  | cons t rest ih =>
    rw [List.forall_mem_cons] at h
    simp only [List.map_cons, Scan.run, step_write h.1, ih h.2, List.singleton_append]

lemma write_isWord {t : Token} (h : IsBare t.text.toList) : t.write ≠ [] ∧ Text.IsSolid t.write := by
  obtain ⟨c, rest, hword, _⟩ := h.start
  rw [Token.write]
  split
  · exact ⟨List.cons_ne_nil _ _, List.forall_mem_cons.mpr ⟨rfl, h.solid⟩⟩
  · exact ⟨by rw [hword]; exact List.cons_ne_nil _ _, h.solid⟩

/-- Tokens with blanks between them read as themselves. -/
theorem items_write {tokens : List Token} (h : ∀ t ∈ tokens, IsBare t.text.toList) :
    items (joinWith ' ' (tokens.map Token.write)) = tokens := by
  have hwords : words (joinWith ' ' (tokens.map Token.write)) = tokens.map Token.write :=
    words_joinWith rfl (List.forall_mem_map.mpr fun t ht => write_isWord (h t ht))
  rw [items, hwords, run_write h]
  exact List.append_nil tokens

theorem tokenize_joinWith {tokens : List Token} (h : ∀ t ∈ tokens, IsBare t.text.toList)
    (hdistinct : tokens.Pairwise fun t u => t.text ≠ u.text) :
    tokenize (String.ofList (joinWith ' ' (tokens.map Token.write))) = tokens := by
  have hitems : items (String.ofList (joinWith ' ' (tokens.map Token.write))).toList = tokens := by
    rw [String.toList_ofList, items_write h]
  rw [tokenize_of_items hitems fun t ht => (h t ht).ne_empty, firstOfKey_eq_self _ hdistinct]

example : tokenize "-sky +sea \x22two words\x22" =
    [⟨"sky", true⟩, ⟨"sea", false⟩, ⟨"two_words", false⟩] := by decide +kernel

end Query
end TagSearch
