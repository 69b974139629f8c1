import TagSearch.Proofs.Query.Merge
import TagSearch.Proofs.Query.NormalForm

/-! Queries of one metatag. The query has the predicate of the metatag, or fails as the metatag does. -/
namespace TagSearch

namespace Metatag

variable {name value : String} {kind : Kind} {d : Descriptor}

/-- Names of metatags are written with the characters of names. -/
lemma isNameChar_of_lookup? (h : lookup? name kind = some d) : ∀ c ∈ name.toList, Query.isNameChar c = true := by
  have hrows : ∀ d ∈ registry, (d.name :: d.aliases).all fun name => name.toList.all Query.isNameChar := by decide
  have hanswers : d.answersTo name = true := by
    have hfound := List.find?_some h
    rw [Bool.and_eq_true] at hfound
    exact hfound.1
  have hmem : name ∈ d.name :: d.aliases := by
    rw [Descriptor.answersTo, Bool.or_eq_true, decide_eq_true_eq, List.contains_iff_mem] at hanswers
    exact List.mem_cons.mpr (hanswers.imp_left Eq.symm)
  exact List.all_eq_true.mp (List.all_eq_true.mp (hrows d (mem_registry_of_lookup? h)) name hmem)

/-- A metatag has the value that is read, with the comparator of its sign. -/
lemma result_interpret {written : Comparator} {excluded : Bool} {source : Source}
    (h : lookup? name kind = some d) :
    (interpret name written value excluded kind source).result = (readValue name d.value value source).result.bind
      fun v => (signedComparator d name (d.chooseComparator written) excluded).map
        fun c => .ofCondition ⟨d.name, v, c⟩ excluded := by
  rw [interpret, h]
  simp only [Inquiry.result_bind, Inquiry.result_ofExcept]
  rfl

end Metatag

namespace Query

variable {kind : Kind} {source : Source} {raw : String} {t : Token} {d : Metatag.Descriptor}

lemma tokenize_write (h : IsBare t.text.toList) : tokenize (String.ofList t.write) = [t] := by
  have hwrite : Text.joinWith ' ' ([t].map Token.write) = t.write := rfl
  rw [← hwrite]
  exact tokenize_joinWith (List.forall_mem_singleton.mpr h) (List.pairwise_singleton _ t)

/-- A text with an optional minus sign in front is one token. -/
lemma tokenize_signed {m : String} (h : IsBare m.toList) (excluded : Bool) :
    tokenize ((if excluded then "-" else "") ++ m) = [⟨m, excluded⟩] := by
  have hwrite : String.ofList (Token.write ⟨m, excluded⟩) = (if excluded then "-" else "") ++ m := by
    rw [← String.toList_inj, String.toList_ofList, String.toList_append]
    cases excluded <;> rfl
  rw [← tokenize_write (t := ⟨m, excluded⟩) h, hwrite]

lemma tokenize_plain {m : String} (h : IsBare m.toList) : tokenize m = [⟨m, false⟩] := by
  simpa using tokenize_signed h false

lemma tokenize_minus {m : String} (h : IsBare m.toList) : tokenize ("-" ++ m) = [⟨m, true⟩] := by
  simpa using tokenize_signed h true

lemma terms_singleton (h : tokenize raw = [t]) (hkey : t.key kind ≠ "") : terms raw kind = [t.term] := by
  rw [terms_eq, h]
  exact List.filter_cons_of_pos (by simpa using hkey)

/-- A query of one metatag has the result of the metatag. -/
theorem result_parse_metatag {name value : String} {comparator : Comparator} (h : tokenize raw = [t])
    (hform : normalize t.text = .metatag name comparator value) (hd : Metatag.lookup? name kind = some d) :
    (parse raw kind source).result =
      (Metatag.interpret name comparator value t.negated kind source).result.map fun p => [p] := by
  have hkey : t.key kind ≠ "" := by
    rw [Token.key, Token.IsMetatag.key_eq ⟨name, comparator, value, hform, hd⟩]
    exact name_ne_empty (Metatag.mem_registry_of_lookup? hd)
  rw [parse, terms_singleton h hkey, Token.term, hform, Inquiry.result_bind, slotsOf, Inquiry.result_bind, slotOf,
    Inquiry.result_bind]
  cases (Metatag.interpret name comparator value t.negated kind source).result with
  | error e => rfl
  | ok p => rfl

/-- A query of one metatag: a minus sign or none, the name, the comparator and the value. -/
def writeMetatag (excluded : Bool) (name mark value : String) : String :=
  (if excluded then "-" else "") ++ (name ++ ":" ++ mark ++ value)

/-- A metatag that is written out has the value that is read, with the comparator of its sign. -/
theorem result_parse_writeMetatag {name mark value : String} {comparator : Comparator} (excluded : Bool)
    (hd : Metatag.lookup? name kind = some d) (hmark : comparator.Writes mark.toList)
    (hvalue : ∀ c ∈ value.toList, isValueChar c = true) :
    (parse (writeMetatag excluded name mark value) kind source).result =
      (Metatag.readValue name d.value value source).result.bind
        fun v => (Metatag.signedComparator d name (d.chooseComparator comparator) excluded).map
          fun c => [.ofCondition ⟨d.name, v, c⟩ excluded] := by
  have hname := Metatag.isNameChar_of_lookup? hd
  have htext : (name ++ ":" ++ mark ++ value).toList = name.toList ++ ':' :: (mark.toList ++ value.toList) := by
    simp
  have hbare : IsBare (name ++ ":" ++ mark ++ value).toList := htext ▸ isBare_metatag hname hmark hvalue
  rw [writeMetatag, result_parse_metatag (tokenize_signed hbare excluded)
    (normalize_metatag hname hmark hvalue htext) hd, Metatag.result_interpret hd]
  cases (Metatag.readValue name d.value value source).result with
  | error e => rfl
  | ok v =>
    cases Metatag.signedComparator d name (d.chooseComparator comparator) excluded with
    | error e => rfl
    | ok c => rfl

end Query
end TagSearch
