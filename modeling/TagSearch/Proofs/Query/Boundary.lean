import Mathlib.Data.List.DropRight
import TagSearch.Proofs.Query.Token

/-! Where the items of a query end. Outside a quotation the reader remembers nothing, so the items on both sides of
blanks are read on their own. A quotation that is open at the end of a text is read as if its quote stood there. -/
namespace TagSearch

namespace Text

variable {text before gap : List Char}

/-- Nothing but blanks. -/
def IsBlanks (text : List Char) : Prop := ∀ c ∈ text, isBlank c = true

/-- Blanks between two words. -/
structure IsGap (text : List Char) : Prop where
  ne_nil : text ≠ []
  blanks : IsBlanks text

instance (text : List Char) : Decidable (IsBlanks text) := List.decidableBAll _ text

instance (text : List Char) : Decidable (IsGap text) :=
  decidable_of_iff (text ≠ [] ∧ IsBlanks text) ⟨fun h => ⟨h.1, h.2⟩, fun h => ⟨h.ne_nil, h.blanks⟩⟩

lemma words_blanks (h : IsBlanks gap) (after : List Char) : words (gap ++ after) = words after := by
  induction gap with
  | nil => rfl
  | cons c rest ih =>
    rw [IsBlanks, List.forall_mem_cons] at h
    exact (words_blank [] (rest ++ after) h.1).trans (ih h.2)

lemma words_append_blanks (before : List Char) (h : IsBlanks gap) : words (before ++ gap) = words before := by
  cases gap with
  | nil => rw [List.append_nil]
  | cons c rest =>
    rw [IsBlanks, List.forall_mem_cons] at h
    have hrest : words (rest ++ []) = [] := words_blanks h.2 []
    rw [List.append_nil] at hrest
    rw [words_blank _ _ h.1, hrest, List.append_nil]

/-- Blanks separate the words before them from the words after them. -/
lemma words_gap (before : List Char) (h : IsGap gap) (after : List Char) :
    words (before ++ gap ++ after) = words before ++ words after := by
  obtain ⟨hne, hblanks⟩ := h
  cases gap with
  | nil => exact absurd rfl hne
  | cons c rest =>
    rw [IsBlanks, List.forall_mem_cons] at hblanks
    rw [List.append_assoc, List.cons_append, words_blank _ _ hblanks.1, words_blanks hblanks.2]

lemma wordsFrom_append_solid (run text : List Char) :
    ∃ before word, ∀ more, IsSolid more → wordsFrom run (text ++ more) = before ++ ofRun (word ++ more) := by
  induction text generalizing run with
  | nil => exact ⟨[], run.reverse, fun more hmore => wordsFrom_solid run more hmore⟩
  | cons c rest ih =>
    by_cases hc : isBlank c = true
    · obtain ⟨before, word, hwords⟩ := ih []
      refine ⟨ofRun run.reverse ++ before, word, fun more hmore => ?_⟩
      rw [List.cons_append, wordsFrom, if_pos hc, hwords more hmore, List.append_assoc]
    · obtain ⟨before, word, hwords⟩ := ih (c :: run)
      refine ⟨before, word, fun more hmore => ?_⟩
      rw [List.cons_append, wordsFrom, if_neg hc, hwords more hmore]

/-- What is written right behind a text without blanks at its end goes on with its last word. -/
lemma words_rdropWhile (h : words text ≠ []) : ∃ before last, last ≠ [] ∧ words text = before ++ [last] ∧
    ∀ more, IsSolid more → words (text.rdropWhile isBlank ++ more) = before ++ [last ++ more] := by
  have hblanks : IsBlanks (text.rtakeWhile isBlank) := fun c hc => List.mem_rtakeWhile_imp hc
  have htext : words text = words (text.rdropWhile isBlank) :=
    calc words text
        = words (text.rdropWhile isBlank ++ text.rtakeWhile isBlank) := by rw [List.rdropWhile_append_rtakeWhile]
      _ = words (text.rdropWhile isBlank) := words_append_blanks _ hblanks
  have hne : text.rdropWhile isBlank ≠ [] := by
    intro hnil
    rw [htext, hnil] at h
    exact h rfl
  obtain ⟨init, c, hinit⟩ := (List.eq_nil_or_concat (text.rdropWhile isBlank)).resolve_left hne
  rw [List.concat_eq_append] at hinit
  have hc : isBlank c = false := by simpa [hinit] using List.rdropWhile_last_not isBlank text hne
  obtain ⟨before, word, hwords⟩ := wordsFrom_append_solid [] init
  have hlast : ∀ more, IsSolid more →
      words (text.rdropWhile isBlank ++ more) = before ++ [word ++ [c] ++ more] := by
    intro more hmore
    have hsolid : IsSolid ([c] ++ more) := List.forall_mem_cons.mpr ⟨hc, hmore⟩
    rw [hinit, List.append_assoc, words, hwords _ hsolid, ofRun_of_ne_nil (by simp), List.append_assoc]
  refine ⟨before, word ++ [c], by simp, ?_, hlast⟩
  have hnil : IsSolid [] := fun d hd => absurd hd List.not_mem_nil
  rw [htext]
  simpa using hlast [] hnil

end Text

namespace Query
open Text

variable {raw gap : String} {text before after blanks : List Char} {found more : List Token} {quote : Char}

/-- The query leaves no quotation open. -/
def IsClosed (raw : String) : Prop := (Scan.outside.run (Text.words raw.toList)).1 = .outside

/-- The query ends inside a quotation that the given quote has opened. -/
def EndsInside (raw : String) (quote : Char) : Prop :=
  ∃ negated read, (Scan.outside.run (Text.words raw.toList)).1 = .inside quote negated read

instance : Decidable (IsClosed raw) := inferInstanceAs (Decidable (_ = _))

/-- The text reads as the given items and leaves no quotation open. -/
def ReadsAs (text : List Char) (found : List Token) : Prop :=
  Scan.outside.run (words text) = (.outside, found)

lemma ReadsAs.items_eq (h : ReadsAs text found) : items text = found := by
  rw [ReadsAs] at h
  rw [items, h]
  exact List.append_nil found

lemma ReadsAs.tokenize_eq {t : Token} (h : ReadsAs raw.toList [t]) (hne : t.text ≠ "") : tokenize raw = [t] :=
  tokenize_of_items h.items_eq (List.forall_mem_singleton.mpr hne)

lemma IsClosed.readsAs (h : IsClosed raw) : ReadsAs raw.toList (items raw.toList) := by
  rw [IsClosed] at h
  have hrun : ReadsAs raw.toList (Scan.outside.run (words raw.toList)).2 := Prod.ext h rfl
  rwa [hrun.items_eq]

/-- Behind a closed text and blanks, the reader begins anew. -/
lemma ReadsAs.items_append (h : ReadsAs before found) (hgap : IsGap blanks) (after : List Char) :
    items (before ++ blanks ++ after) = found ++ items after := by
  rw [ReadsAs] at h
  rw [items, words_gap before hgap after, Scan.run_append, h]
  exact List.append_assoc _ _ _

lemma ReadsAs.append (h : ReadsAs before found) (hgap : IsGap blanks) (hafter : ReadsAs after more) :
    ReadsAs (before ++ blanks ++ after) (found ++ more) := by
  rw [ReadsAs] at h hafter
  rw [ReadsAs, words_gap before hgap after, Scan.run_append, h, hafter]

/-- Of the items of a second text, those are new whose texts no token of the first text has. -/
lemma tokenize_of_items_append {front back : String} (h : items raw.toList = items front.toList ++ items back.toList) :
    tokenize raw =
      tokenize front ++ (tokenize back).filter fun t => t.text ∉ (tokenize front).map Token.text := by
  rw [tokenize, h, List.filter_append, firstOfKey_append, ← tokenize, ← tokenize]
  refine congrArg (tokenize front ++ ·) (List.filter_congr fun t _ => ?_)
  simp only [tokenize, mem_map_firstOfKey]

/-- A closed query and a text behind it have the tokens of both, but those of the text only that the query does not
have yet. -/
theorem tokenize_append (hclosed : IsClosed raw) (hgap : IsGap gap.toList) (other : String) :
    tokenize (raw ++ gap ++ other) =
      tokenize raw ++ (tokenize other).filter fun t => t.text ∉ (tokenize raw).map Token.text := by
  refine tokenize_of_items_append ?_
  rw [String.toList_append, String.toList_append]
  exact hclosed.readsAs.items_append hgap other.toList

theorem tokens_behind_quotation : IsClosed "-sky 'two words'" ∧ IsGap " \t".toList ∧
    tokenize ("-sky 'two words'" ++ " \t" ++ "sky -\x22sea\x22 'two") =
      [⟨"sky", true⟩, ⟨"two_words", false⟩, ⟨"sea", true⟩, ⟨"two", false⟩] := by
  have hclosed : IsClosed "-sky 'two words'" := by decide +kernel
  have hgap : IsGap " \t".toList := by decide +kernel
  refine ⟨hclosed, hgap, ?_⟩
  rw [tokenize_append hclosed hgap]
  decide +kernel

/-- Every quotation begins with a quote. -/
def Scan.IsQuoted : Scan → Prop
  | outside => True
  | inside quote _ _ => isQuote quote = true

/-- Outside a quotation, a word opens one with a quote behind its sign, unless the quote is its last character too. -/
lemma openWord_eq_inside {sign negated : Bool} {word : List Char} {read : List (List Char)}
    (h : (openWord sign word).1 = .inside quote negated read) :
    ∃ rest, word = quote :: rest ∧ isQuote quote = true ∧ read = ofRun rest ∧
      openWord sign word = (.inside quote sign read, []) ∧ sign = negated := by
  cases word with
  | nil => cases h
  | cons c rest =>
    rw [openWord] at h ⊢
    split at h
    · rename_i hquote
      split at h
      · cases h
      · cases h
        exact ⟨rest, rfl, hquote, rfl, if_pos hquote, rfl⟩
    · cases h

lemma Scan.isQuoted_step {scan : Scan} (h : scan.IsQuoted) (word : List Char) : (scan.step word).1.IsQuoted := by
  cases hnext : (scan.step word).1 with
  | outside => trivial
  | inside quote negated read =>
    cases scan with
    | outside =>
      obtain ⟨_, _, hquote, _⟩ := openWord_eq_inside hnext
      exact hquote
    | inside quote negated read =>
      rw [step] at hnext
      split at hnext
      · cases hnext
      · cases hnext
        exact h

lemma Scan.isQuoted_run {scan : Scan} (h : scan.IsQuoted) (words : List (List Char)) :
    (scan.run words).1.IsQuoted := by
  induction words generalizing scan with
  | nil => exact h
  | cons word rest ih => exact ih (isQuoted_step h word)

lemma EndsInside.isQuote_eq_true (h : EndsInside raw quote) : isQuote quote = true := by
  obtain ⟨negated, read, hend⟩ := h
  have hquoted := @Scan.isQuoted_run .outside trivial (words raw.toList)
  rwa [hend] at hquoted

lemma isBlank_of_isQuote (h : isQuote quote = true) : isBlank quote = false := by
  rw [isQuote, Bool.or_eq_true, beq_iff_eq, beq_iff_eq] at h
  rcases h with rfl | rfl <;> rfl

lemma dropLast?_concat (c : Char) (word : List Char) : dropLast? c (word ++ [c]) = some word := by
  rw [dropLast?, List.getLast?_concat, if_pos rfl, List.dropLast_concat]

lemma splitSign_append {word : List Char} (hne : word ≠ []) (more : List Char) :
    splitSign (word ++ more) = ((splitSign word).1, (splitSign word).2 ++ more) := by
  cases word with
  | nil => exact absurd rfl hne
  | cons c rest =>
    rw [List.cons_append]
    unfold splitSign
    split <;> simp_all

/-- A word that leaves a quotation open closes it when the quote is written behind. -/
lemma Scan.step_concat_quote {scan : Scan} {word : List Char} {negated : Bool} {read : List (List Char)}
    (hne : word ≠ []) (h : (scan.step word).1 = inside quote negated read) :
    (scan.step word).2 = [] ∧ scan.step (word ++ [quote]) = (outside, close (inside quote negated read)) := by
  cases scan with
  | outside =>
    rw [step] at h ⊢
    obtain ⟨rest, hbody, hquote, rfl, hopen, rfl⟩ := openWord_eq_inside h
    have hread : phrase (ofRun rest) = rest := by cases rest <;> rfl
    refine ⟨by rw [hopen], ?_⟩
    rw [step, splitSign_append hne, hbody, List.cons_append, openWord, if_pos hquote, dropLast?_concat, close, hread]
  | inside open_ sign words =>
    rw [step] at h ⊢
    split at h
    · cases h
    · cases h
      rw [step, dropLast?_concat]
      exact ⟨rfl, rfl⟩

/-- The items of a text that ends inside a quotation are those of the text with the quote at its end. -/
lemma EndsInside.readsAs (h : EndsInside raw quote) :
    ReadsAs (raw.toList.rdropWhile isBlank ++ [quote]) (items raw.toList) := by
  have hsolid : IsSolid [quote] := List.forall_mem_singleton.mpr (isBlank_of_isQuote h.isQuote_eq_true)
  obtain ⟨negated, read, hend⟩ := h
  have hsome : words raw.toList ≠ [] := by
    intro hnil
    rw [hnil] at hend
    cases hend
  obtain ⟨before, last, hne, hwords, hmore⟩ := words_rdropWhile hsome
  have hlast : ((Scan.outside.run before).1.step last).1 = .inside quote negated read := by
    rwa [hwords, Scan.run_append] at hend
  obtain ⟨hnone, hclose⟩ := Scan.step_concat_quote hne hlast
  rw [ReadsAs, hmore _ hsolid, Scan.run_append, items, hwords, Scan.run_append]
  simp only [Scan.run, hclose, hnone, hlast, List.append_nil]

/-- A query that ends inside a quotation has the tokens of the query that closes it. -/
theorem tokenize_endsInside (h : EndsInside raw quote) :
    tokenize raw = tokenize (String.ofList (raw.toList.rdropWhile isBlank ++ [quote])) ∧
      IsClosed (String.ofList (raw.toList.rdropWhile isBlank ++ [quote])) := by
  have hreads := h.readsAs
  constructor
  · rw [tokenize, tokenize, String.toList_ofList, hreads.items_eq]
  · rw [IsClosed, String.toList_ofList, hreads]

theorem tokens_of_open_quotation : EndsInside "sky -'two \x22words \t" '\x27' ∧
    tokenize "sky -'two \x22words \t" = tokenize "sky -'two \x22words'" ∧ IsClosed "sky -'two \x22words'" := by
  have hend : EndsInside "sky -'two \x22words \t" '\x27' := by
    refine ⟨true, ["\x22words".toList, "two".toList], ?_⟩
    decide +kernel
  exact ⟨hend, tokenize_endsInside hend⟩

end Query
end TagSearch
