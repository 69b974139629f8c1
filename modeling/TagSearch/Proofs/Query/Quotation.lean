import TagSearch.Proofs.Query.Boundary

/-! Quotations that are written out. Each reads as one token, its words with underscores between them, whatever blanks
stand between the words. Blanks behind the opening quote make no difference, and blanks in front of the closing quote
leave one more underscore. -/
namespace TagSearch

namespace Text

/-- Pieces with blanks between neighbours. -/
inductive Spaced : List (List Char) → List Char → Prop
  | nil : Spaced [] []
  | single (piece) : Spaced [piece] piece
  | cons {piece gap next rest text} (hgap : IsGap gap) (h : Spaced (next :: rest) text) :
      Spaced (piece :: next :: rest) (piece ++ gap ++ text)

lemma Spaced.concat {pieces : List (List Char)} {text gap : List Char} (h : Spaced pieces text) (hne : pieces ≠ [])
    (hgap : IsGap gap) (last : List Char) : Spaced (pieces ++ [last]) (text ++ gap ++ last) := by
  induction h with
  | nil => exact absurd rfl hne
  | single piece => exact .cons hgap (.single last)
  | @cons piece gap' next rest text hgap' _ ih =>
    have hrest : Spaced (next :: (rest ++ [last])) (text ++ gap ++ last) := ih (List.cons_ne_nil next rest)
    have htext : piece ++ gap' ++ text ++ gap ++ last = piece ++ gap' ++ (text ++ gap ++ last) := by
      simp only [List.append_assoc]
    rw [htext]
    exact .cons hgap' hrest

end Text

namespace Query
open Text

variable {quote : Char} {negated : Bool} {text piece : List Char} {pieces : List (List Char)}

inductive Sign
  | none
  | plus
  | minus
deriving Repr, DecidableEq

namespace Sign

/-- What is written for a sign. -/
def marker : Sign → List Char
  | none => []
  | plus => ['+']
  | minus => ['-']

def negates (sign : Sign) : Bool := sign = minus

end Sign

lemma splitSign_marker (sign : Sign) (hquote : isQuote quote = true) (rest : List Char) :
    splitSign (sign.marker ++ quote :: rest) = (sign.negates, quote :: rest) := by
  cases sign with
  | none =>
    rw [isQuote, Bool.or_eq_true, beq_iff_eq, beq_iff_eq] at hquote
    rcases hquote with rfl | rfl <;> rfl
  | plus => rfl
  | minus => rfl

lemma isSolid_marker (hquote : isQuote quote = true) (sign : Sign) (h : IsSolid text) :
    IsSolid (sign.marker ++ quote :: text) := by
  have hmarker : IsSolid sign.marker := by cases sign <;> decide
  exact hmarker.append (List.forall_mem_cons.mpr ⟨isBlank_of_isQuote hquote, h⟩)

/-- What a quotation can hold in one piece. -/
structure FitsIn (quote : Char) (piece : List Char) : Prop where
  solid : IsSolid piece
  not_mem : quote ∉ piece

instance (quote : Char) (piece : List Char) : Decidable (FitsIn quote piece) :=
  decidable_of_iff (IsSolid piece ∧ quote ∉ piece) ⟨fun h => ⟨h.1, h.2⟩, fun h => ⟨h.solid, h.not_mem⟩⟩

/-- What the reader takes in of the pieces between two quotes: an empty piece counts only as the last one. -/
def taken : List (List Char) → List (List Char)
  | [] => []
  | [piece] => [piece]
  | piece :: rest => ofRun piece ++ taken rest

lemma taken_cons (piece : List Char) {rest : List (List Char)} (hne : rest ≠ []) :
    taken (piece :: rest) = ofRun piece ++ taken rest := by
  cases rest with
  | nil => exact absurd rfl hne
  | cons next rest => rfl

lemma taken_concat {words : List (List Char)} (h : ∀ word ∈ words, word ≠ []) (last : List Char) :
    taken (words ++ [last]) = words ++ [last] := by
  induction words with
  | nil => rfl
  | cons word rest ih =>
    rw [List.forall_mem_cons] at h
    rw [List.cons_append, taken_cons _ (by simp), ofRun_of_ne_nil h.1, ih h.2, List.singleton_append]

lemma taken_eq_self {words : List (List Char)} (h : ∀ word ∈ words, word ≠ []) : taken words = words := by
  rcases List.eq_nil_or_concat words with rfl | ⟨init, last, rfl⟩
  · rfl
  · rw [List.concat_eq_append, List.forall_mem_append] at h
    rw [List.concat_eq_append, taken_concat h.1]

lemma dropLast?_of_not_mem {c : Char} {word : List Char} (h : c ∉ word) : dropLast? c word = none := by
  rw [dropLast?, if_neg fun hlast => h (List.mem_of_getLast? hlast)]

lemma run_piece (hfits : FitsIn quote piece) (read : List (List Char)) :
    (Scan.inside quote negated read).run (words piece) =
      (.inside quote negated ((ofRun piece).reverse ++ read), []) := by
  rw [words_solid _ hfits.solid]
  cases piece with
  | nil => rfl
  | cons c rest =>
    simp only [ofRun, Scan.run, Scan.step, dropLast?_of_not_mem hfits.not_mem]
    rfl

/-- Inside a quotation, the pieces up to its closing quote end it. -/
lemma run_pieces (hquote : isQuote quote = true) (h : Spaced pieces text) (hne : pieces ≠ [])
    (hfits : ∀ piece ∈ pieces, FitsIn quote piece) (read : List (List Char)) :
    (Scan.inside quote negated read).run (words (text ++ [quote])) =
      (.outside, [token negated (phrase ((taken pieces).reverse ++ read))]) := by
  have hsolid : IsSolid [quote] := List.forall_mem_singleton.mpr (isBlank_of_isQuote hquote)
  induction h generalizing read with
  | nil => exact absurd rfl hne
  | single piece =>
    have hpiece := (hfits piece List.mem_cons_self).solid
    rw [words_solid _ (hpiece.append hsolid), ofRun_of_ne_nil (by simp)]
    simp only [Scan.run, Scan.step, dropLast?_concat]
    rfl
  | @cons piece gap next rest text hgap _ ih =>
    rw [List.forall_mem_cons] at hfits
    have hrest := ih (List.cons_ne_nil next rest) hfits.2 ((ofRun piece).reverse ++ read)
    rw [List.append_assoc, words_gap _ hgap, Scan.run_append, run_piece hfits.1, hrest,
      taken_cons _ (List.cons_ne_nil next rest), List.reverse_append, List.append_assoc]
    rfl

/-- What is written between two quotes, with a sign in front. -/
def enclose (sign : Sign) (quote : Char) (text : List Char) : List Char :=
  sign.marker ++ quote :: text ++ [quote]

/-- The first piece stands in one word with the opening quote. -/
lemma run_opening (hquote : isQuote quote = true) (hfits : FitsIn quote piece) (sign : Sign) :
    Scan.outside.run (words (sign.marker ++ quote :: piece)) =
      (.inside quote sign.negates (ofRun piece), []) := by
  rw [words_solid _ (isSolid_marker hquote sign hfits.solid), ofRun_of_ne_nil (by simp)]
  simp only [Scan.run, Scan.step, splitSign_marker sign hquote, openWord, if_pos hquote,
    dropLast?_of_not_mem hfits.not_mem]
  rfl

/-- A quotation reads as one token. -/
lemma readsAs_enclose (hquote : isQuote quote = true) (h : Spaced pieces text) (hne : pieces ≠ [])
    (hfits : ∀ piece ∈ pieces, FitsIn quote piece) (sign : Sign) :
    ReadsAs (enclose sign quote text) [token sign.negates (joinWith '_' (taken pieces))] := by
  cases h with
  | nil => exact absurd rfl hne
  | single =>
    have hsolid : IsSolid [quote] := List.forall_mem_singleton.mpr (isBlank_of_isQuote hquote)
    have htext := (hfits text List.mem_cons_self).solid
    have hword : enclose sign quote text = sign.marker ++ quote :: (text ++ [quote]) := by simp [enclose]
    rw [ReadsAs, hword, words_solid _ (isSolid_marker hquote sign (htext.append hsolid)), ofRun_of_ne_nil (by simp)]
    simp only [Scan.run, Scan.step, splitSign_marker sign hquote, openWord, if_pos hquote, dropLast?_concat]
    rfl
  | @cons piece gap next rest text hgap h =>
    rw [List.forall_mem_cons] at hfits
    have htext : enclose sign quote (piece ++ gap ++ text) =
        sign.marker ++ quote :: piece ++ gap ++ (text ++ [quote]) := by
      simp [enclose]
    have hread : (ofRun piece).reverse = ofRun piece := by cases piece <;> rfl
    rw [ReadsAs, htext, words_gap _ hgap, Scan.run_append, run_opening hquote hfits.1,
      run_pieces hquote h (List.cons_ne_nil next rest) hfits.2, phrase, List.reverse_append, List.reverse_reverse,
      hread, taken_cons _ (List.cons_ne_nil next rest)]
    rfl

/-- A phrase in quotes: its words have no blanks and not the quote. -/
structure Quotation where
  sign : Sign
  quote : Char
  words : List (List Char)
  isQuote_quote : isQuote quote = true
  words_ne_nil : words ≠ []
  isWord : ∀ word ∈ words, word ≠ [] ∧ FitsIn quote word

namespace Quotation

variable (q : Quotation)

/-- The words with underscores between them; only a minus sign negates. -/
def token : Token := ⟨String.ofList (List.intercalate ['_'] q.words), q.sign = .minus⟩

/-- The quotation with a text between its quotes that has blanks between the words. -/
def IsWritten (written : List Char) : Prop := ∃ text, Spaced q.words text ∧ written = enclose q.sign q.quote text

lemma joinWith_eq_intercalate (joiner : Char) (words : List (List Char)) :
    joinWith joiner words = List.intercalate [joiner] words := by
  induction words with
  | nil => rfl
  | cons word rest ih =>
    cases rest with
    | nil => simp [joinWith, List.intercalate]
    | cons next rest => simp [joinWith, ih, List.intercalate]

lemma token_eq : q.token = Query.token q.sign.negates (joinWith '_' q.words) := by
  rw [joinWith_eq_intercalate]
  rfl

lemma fits : ∀ word ∈ q.words, FitsIn q.quote word := fun word hword => (q.isWord word hword).2

lemma taken_words : taken q.words = q.words := taken_eq_self fun word hword => (q.isWord word hword).1

lemma text_token_ne_empty : q.token.text ≠ "" := by
  obtain ⟨word, rest, hwords⟩ := List.exists_cons_of_ne_nil q.words_ne_nil
  have hword : word ≠ [] := (q.isWord word (hwords ▸ List.mem_cons_self)).1
  have hphrase : joinWith '_' q.words ≠ [] := by
    rw [hwords]
    cases rest with
    | nil => exact hword
    | cons next rest => exact List.append_ne_nil_of_left_ne_nil hword _
  intro hempty
  rw [token_eq, Query.token, ← String.toList_inj, String.toList_ofList] at hempty
  exact hphrase hempty

variable {q}

lemma readsAs_written {written : List Char} (h : q.IsWritten written) : ReadsAs written [q.token] := by
  obtain ⟨text, htext, rfl⟩ := h
  rw [token_eq, ← q.taken_words]
  exact readsAs_enclose q.isQuote_quote htext q.words_ne_nil q.fits q.sign

end Quotation

/-- Written quotations with blanks between neighbours. -/
def WritesOut (quotations : List Quotation) (text : List Char) : Prop :=
  ∃ written, List.Forall₂ Quotation.IsWritten quotations written ∧ Spaced written text

/-- The tokens whose text none in front of them has. -/
def withoutRepeats (tokens : List Token) : List Token :=
  (tokens.zipIdx.filter fun x : Token × ℕ => ∀ t ∈ tokens.take x.2, t.text ≠ x.1.text).map Prod.fst

lemma withoutRepeats_eq (tokens : List Token) : withoutRepeats tokens = firstOfKey Token.text tokens :=
  (firstOfKey_eq_filter _ _).symm

lemma readsAs_writesOut {quotations : List Quotation} (h : WritesOut quotations text) :
    ReadsAs text (quotations.map Quotation.token) := by
  obtain ⟨written, hwritten, hspaced⟩ := h
  induction hspaced generalizing quotations with
  | nil =>
    cases hwritten
    rfl
  | single piece =>
    cases hwritten with
    | cons hfirst hrest =>
      cases hrest
      exact Quotation.readsAs_written hfirst
  | cons hgap _ ih =>
    cases hwritten with
    | cons hfirst hrest => exact (Quotation.readsAs_written hfirst).append hgap (ih hrest)

/-- Quotations that are written out read as their tokens, without those whose text an earlier one has. And whatever the
text, tokens are not empty, have no blanks, and differ in their texts. -/
theorem tokenize_quotations :
    (∀ quotations raw, WritesOut quotations raw.toList →
      tokenize raw = withoutRepeats (quotations.map Quotation.token)) ∧
    ∀ raw, (∀ t ∈ tokenize raw, t.text ≠ "" ∧ t.IsSolid) ∧
      (tokenize raw).Pairwise fun t u => t.text ≠ u.text := by
  constructor
  · intro quotations raw h
    rw [withoutRepeats_eq]
    refine tokenize_of_items (readsAs_writesOut h).items_eq (List.forall_mem_map.mpr ?_)
    exact fun q _ => q.text_token_ne_empty
  · intro raw
    exact ⟨fun t => text_of_mem_tokenize, firstOfKey_pairwise Token.text _⟩

/-- An excluded phrase of two words. -/
def seaAirPhrase : Quotation :=
  ⟨.minus, '\x22', [['s', 'e', 'a'], ['\x27', 'a', 'i', 'r']], rfl, by decide, by decide⟩

def skyPhrase : Quotation := ⟨.plus, '\x27', [['s', 'k', 'y']], rfl, by decide, by decide⟩

theorem tokens_of_written_phrases :
    WritesOut [seaAirPhrase, skyPhrase, seaAirPhrase] "-\x22sea 'air\x22 +'sky' \t-\x22sea\n'air\x22".toList ∧
      tokenize "-\x22sea 'air\x22 +'sky' \t-\x22sea\n'air\x22" = [⟨"sea_'air", true⟩, ⟨"sky", false⟩] := by
  have hphrase : ∀ {gap}, IsGap gap → seaAirPhrase.IsWritten
      (enclose .minus '\x22' (['s', 'e', 'a'] ++ gap ++ ['\x27', 'a', 'i', 'r'])) :=
    fun hgap => ⟨_, .cons hgap (.single _), rfl⟩
  have hsky : skyPhrase.IsWritten (enclose .plus '\x27' ['s', 'k', 'y']) := ⟨_, .single _, rfl⟩
  have hblank : IsGap [' '] := by decide
  have htab : IsGap [' ', '\t'] := by decide
  have hbreak : IsGap ['\n'] := by decide
  have hwritten :
      WritesOut [seaAirPhrase, skyPhrase, seaAirPhrase] "-\x22sea 'air\x22 +'sky' \t-\x22sea\n'air\x22".toList :=
    ⟨_, .cons (hphrase hblank) (.cons hsky (.cons (hphrase hbreak) .nil)), .cons hblank (.cons htab (.single _))⟩
  exact ⟨hwritten, (tokenize_quotations.1 _ _ hwritten).trans (by decide +kernel)⟩

/-- Between the quotes, the text is taken in as the given words. -/
def TakenAs (quote : Char) (text : List Char) (words : List (List Char)) : Prop :=
  ∃ pieces, pieces ≠ [] ∧ Spaced pieces text ∧ (∀ piece ∈ pieces, FitsIn quote piece) ∧ taken pieces = words

lemma TakenAs.readsAs {words : List (List Char)} (h : TakenAs quote text words) (hquote : isQuote quote = true)
    (sign : Sign) : ReadsAs (enclose sign quote text) [token sign.negates (joinWith '_' words)] := by
  obtain ⟨pieces, hne, hspaced, hfits, rfl⟩ := h
  exact readsAs_enclose hquote hspaced hne hfits sign

lemma fitsIn_nil (quote : Char) : FitsIn quote [] :=
  ⟨fun _ hc => absurd hc List.not_mem_nil, List.not_mem_nil⟩

/-- The first piece may be empty, so blanks behind the opening quote are left out. -/
lemma TakenAs.blanks_append {words : List (List Char)} {before : List Char} (h : TakenAs quote text words)
    (hbefore : IsBlanks before) : TakenAs quote (before ++ text) words := by
  by_cases hnil : before = []
  · rwa [hnil, List.nil_append]
  · obtain ⟨pieces, hne, hspaced, hfits, htaken⟩ := h
    obtain ⟨next, rest, rfl⟩ := List.exists_cons_of_ne_nil hne
    refine ⟨[] :: next :: rest, List.cons_ne_nil _ _, .cons ⟨hnil, hbefore⟩ hspaced,
      List.forall_mem_cons.mpr ⟨fitsIn_nil quote, hfits⟩, ?_⟩
    rw [taken_cons _ hne, htaken]
    rfl

/-- The closing quote behind blanks is a word of its own, and what is left of it is the last piece. -/
lemma Quotation.takenAs_append_blanks (q : Quotation) {after : List Char} (htext : Spaced q.words text)
    (hafter : IsBlanks after) :
    TakenAs q.quote (text ++ after) (if after = [] then q.words else q.words ++ [[]]) := by
  by_cases hnil : after = []
  · rw [hnil, List.append_nil, if_pos rfl]
    exact ⟨q.words, q.words_ne_nil, htext, q.fits, q.taken_words⟩
  · have hspaced : Spaced (q.words ++ [[]]) (text ++ after ++ []) := htext.concat q.words_ne_nil ⟨hnil, hafter⟩ []
    rw [List.append_nil] at hspaced
    rw [if_neg hnil]
    exact ⟨q.words ++ [[]], by simp, hspaced,
      List.forall_mem_append.mpr ⟨q.fits, List.forall_mem_singleton.mpr (fitsIn_nil q.quote)⟩,
      taken_concat (fun word hword => (q.isWord word hword).1) []⟩

lemma joinWith_concat_nil (joiner : Char) {words : List (List Char)} (hne : words ≠ []) :
    joinWith joiner (words ++ [[]]) = joinWith joiner words ++ [joiner] := by
  induction words with
  | nil => exact absurd rfl hne
  | cons word rest ih =>
    cases rest with
    | nil => rfl
    | cons next rest =>
      have hrest := ih (List.cons_ne_nil next rest)
      simp only [List.cons_append, joinWith, List.append_assoc] at hrest ⊢
      rw [hrest]

lemma Quotation.token_concat (q : Quotation) :
    Query.token q.sign.negates (joinWith '_' (q.words ++ [[]])) = ⟨q.token.text ++ "_", q.token.negated⟩ := by
  rw [joinWith_concat_nil _ q.words_ne_nil, token_eq, Query.token, Query.token, String.ofList_append]

/-- Blanks behind the opening quote of a phrase leave its token as it is, and blanks in front of the closing quote put an
underscore behind its text. -/
theorem tokenize_padded {q : Quotation} {before after : List Char} (htext : Spaced q.words text)
    (hbefore : IsBlanks before) (hafter : IsBlanks after) :
    tokenize (String.ofList (enclose q.sign q.quote (before ++ text ++ after))) =
        [if after = [] then q.token else ⟨q.token.text ++ "_", q.token.negated⟩] ∧
      (tokenize (String.ofList (enclose q.sign q.quote (before ++ text ++ after))) =
        tokenize (String.ofList (enclose q.sign q.quote text)) ↔ after = []) := by
  have hplain : tokenize (String.ofList (enclose q.sign q.quote text)) = [q.token] := by
    refine ReadsAs.tokenize_eq ?_ q.text_token_ne_empty
    rw [String.toList_ofList]
    exact Quotation.readsAs_written ⟨text, htext, rfl⟩
  have hpadded : tokenize (String.ofList (enclose q.sign q.quote (before ++ text ++ after))) =
      [if after = [] then q.token else ⟨q.token.text ++ "_", q.token.negated⟩] := by
    have hreads := ((q.takenAs_append_blanks htext hafter).blanks_append hbefore).readsAs q.isQuote_quote q.sign
    have htoken : Query.token q.sign.negates (joinWith '_' (if after = [] then q.words else q.words ++ [[]])) =
        if after = [] then q.token else ⟨q.token.text ++ "_", q.token.negated⟩ := by
      split
      · exact q.token_eq.symm
      · exact q.token_concat
    refine ReadsAs.tokenize_eq ?_ ?_
    · rwa [String.toList_ofList, List.append_assoc, ← htoken]
    · split
      · exact q.text_token_ne_empty
      · simp
  refine ⟨hpadded, ?_⟩
  rw [hpadded, hplain]
  constructor
  · intro htokens
    by_contra hnil
    rw [if_neg hnil, List.singleton_inj] at htokens
    have hlonger : q.token.text ++ "_" = q.token.text := congrArg Token.text htokens
    simpa using congrArg String.length hlonger
  · intro hnil
    rw [if_pos hnil]

theorem token_of_padded_phrase :
    Spaced seaAirPhrase.words ['s', 'e', 'a', ' ', '\x27', 'a', 'i', 'r'] ∧ IsBlanks ['\t'] ∧ IsBlanks [' ', '\n'] ∧
      tokenize "-\x22\tsea 'air \n\x22" = [⟨"sea_'air_", true⟩] ∧
      tokenize "-\x22\tsea 'air\x22" = tokenize "-\x22sea 'air\x22" := by
  have hblank : IsGap [' '] := by decide
  have htext : Spaced seaAirPhrase.words ['s', 'e', 'a', ' ', '\x27', 'a', 'i', 'r'] := .cons hblank (.single _)
  have hbefore : IsBlanks ['\t'] := by decide
  have hafter : IsBlanks [' ', '\n'] := by decide
  have hnone : IsBlanks [] := by decide
  exact ⟨htext, hbefore, hafter, (tokenize_padded htext hbefore hafter).1.trans (by decide +kernel),
    (tokenize_padded htext hbefore hnone).2.mpr rfl⟩

/-- A blank in front of the closing quote makes another tag of a phrase. -/
theorem padded_phrase_differs :
    tokenize "'sky '" = [⟨"sky_", false⟩] ∧ tokenize "'sky'" = [⟨"sky", false⟩] := by
  decide +kernel

end Query
end TagSearch
