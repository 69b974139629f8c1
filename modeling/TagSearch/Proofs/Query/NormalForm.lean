import TagSearch.Proofs.Query.Token
import TagSearch.Query.NormalForm

/-! Canonical normal forms. Normalization gives only these, and writing one and normalizing it gives it back. -/
namespace TagSearch

lemma le_iff_toNat_le {c d : Char} : c ≤ d ↔ c.toNat ≤ d.toNat := Iff.rfl

namespace Text

/-- Visible ASCII characters are not blank. -/
lemma isBlank_of_toNat {c : Char} (low : 33 ≤ c.toNat) (high : c.toNat ≤ 126) : isBlank c = false := by
  simp only [isBlank, Bool.or_eq_false_iff, Bool.and_eq_false_iff, beq_eq_false_iff_ne, decide_eq_false_iff_not,
    le_iff_toNat_le, ne_eq, ← Char.toNat_inj, Char.reduceToNat]
  omega

lemma toNat_lowerAscii (c : Char) :
    (lowerAscii c).toNat = if 65 ≤ c.toNat ∧ c.toNat ≤ 90 then c.toNat + 32 else c.toNat := by
  have hupper : ('A' ≤ c ∧ c ≤ 'Z') ↔ (65 ≤ c.toNat ∧ c.toNat ≤ 90) := Iff.rfl
  rw [lowerAscii]
  simp only [hupper]
  split
  · have hvalid : (c.toNat + 32).isValidChar := .inl (by omega)
    rw [Char.ofNat, dif_pos hvalid]
    rfl
  · rfl

lemma isBlank_lowerAscii {c : Char} (h : isBlank c = false) : isBlank (lowerAscii c) = false := by
  by_cases hupper : 65 ≤ c.toNat ∧ c.toNat ≤ 90
  · have htoNat := toNat_lowerAscii c
    rw [if_pos hupper] at htoNat
    exact isBlank_of_toNat (by omega) (by omega)
  · have hlower : lowerAscii c = c := if_neg hupper
    rwa [hlower]

/-- Lower case brings no blanks in. -/
lemma isSolid_foldCase {text : List Char} (h : IsSolid text) : IsSolid (text.flatMap foldCase) := by
  intro d hd
  obtain ⟨c, hc, hd⟩ := List.mem_flatMap.mp hd
  rw [foldCase] at hd
  split at hd
  · rw [List.mem_singleton.mp hd]
    rfl
  split at hd
  · simp only [List.mem_cons, List.not_mem_nil, or_false] at hd
    rcases hd with rfl | rfl <;> rfl
  · rw [List.mem_singleton.mp hd]
    exact isBlank_lowerAscii (h c hc)

lemma foldCase_ne_nil (c : Char) : foldCase c ≠ [] := by
  rw [foldCase]
  split
  · exact List.cons_ne_nil _ _
  · split <;> exact List.cons_ne_nil _ _

lemma flatMap_foldCase_eq_self {text : List Char} (h : ∀ c ∈ text, foldCase c = [c]) :
    text.flatMap foldCase = text := by
  induction text with
  | nil => rfl
  | cons c rest ih =>
    rw [List.forall_mem_cons] at h
    rw [List.flatMap_cons, h.1, ih h.2]
    rfl

lemma joinWith_ofRun (joiner : Char) (text : List Char) : joinWith joiner (ofRun text) = text := by
  cases text <;> rfl

end Text

/-- The comparators that a query can write. -/
def Comparator.isWritten : Comparator → Bool
  | eq | lt | le | gt | ge => true
  | ne | like | notLike => false

/-- What a query writes for a comparator in front of a value: nothing for equality. -/
def Comparator.marker : Comparator → List Char
  | eq => []
  | c => c.sql.toList

/-- The ways to write a comparator in front of a value: its sign, and for equality also nothing. -/
def Comparator.Writes (c : Comparator) (mark : List Char) : Prop :=
  c.isWritten = true ∧ (mark = c.sql.toList ∨ c = eq ∧ mark = [])

lemma Comparator.writes_marker {c : Comparator} (h : c.isWritten = true) : c.Writes c.marker := by
  refine ⟨h, ?_⟩
  cases c with
  | eq => exact .inr ⟨rfl, rfl⟩
  | ne | lt | le | gt | ge | like | notLike => exact .inl rfl

namespace Query
open Text

/-- The normal forms that queries have: names and values of their characters, and a comparator that can be
written. -/
def NormalForm.IsCanonical : NormalForm → Prop
  | tag name => ∀ c ∈ name.toList, isNameChar c = true
  | metatag name comparator value =>
    (∀ c ∈ name.toList, isNameChar c = true) ∧ comparator.isWritten = true ∧
      ∀ c ∈ value.toList, isValueChar c = true

/-- Characters of a canonical normal form that is written out. -/
def isWrittenChar (c : Char) : Bool := isValueChar c || [':', '<', '=', '>'].contains c

lemma isValueChar_of_isNameChar {c : Char} (h : isNameChar c = true) : isValueChar c = true := by
  rw [isValueChar, h]
  rfl

lemma isWrittenChar_of_isValueChar {c : Char} (h : isValueChar c = true) : isWrittenChar c = true := by
  rw [isWrittenChar, h]
  rfl

lemma mem_of_writes {comparator : Comparator} {mark : List Char} (h : comparator.Writes mark) :
    ∀ c ∈ mark, ['<', '=', '>'].contains c = true := by
  rw [← List.all_eq_true]
  obtain ⟨hwritten, rfl | ⟨rfl, rfl⟩⟩ := h
  · revert hwritten
    cases comparator <;> decide
  · rfl

/-- The characters of a metatag that is written out. -/
lemma isWrittenChar_metatag {comparator : Comparator} {name mark value : List Char}
    (hname : ∀ c ∈ name, isNameChar c = true) (hmark : comparator.Writes mark)
    (hvalue : ∀ c ∈ value, isValueChar c = true) :
    ∀ c ∈ name ++ ':' :: (mark ++ value), isWrittenChar c = true := by
  rw [List.forall_mem_append, List.forall_mem_cons, List.forall_mem_append]
  refine ⟨fun c hc => isWrittenChar_of_isValueChar (isValueChar_of_isNameChar (hname c hc)), rfl, fun c hc => ?_,
    fun c hc => isWrittenChar_of_isValueChar (hvalue c hc)⟩
  have hc := mem_of_writes hmark c hc
  rw [isWrittenChar, List.contains_cons, hc, Bool.or_true, Bool.or_true]

/-- Of the visible ASCII characters, the capital letters are not written. -/
lemma toNat_of_isWrittenChar {c : Char} (h : isWrittenChar c = true) :
    33 ≤ c.toNat ∧ c.toNat ≤ 126 ∧ ¬ (65 ≤ c.toNat ∧ c.toNat ≤ 90) := by
  simp only [isWrittenChar, isValueChar, isNameChar, Bool.or_eq_true, Bool.and_eq_true, beq_iff_eq,
    decide_eq_true_eq, List.contains_iff_mem, List.mem_cons, List.not_mem_nil, or_false, le_iff_toNat_le,
    ← Char.toNat_inj, Char.reduceToNat] at h
  omega

lemma isBlank_of_isWrittenChar {c : Char} (h : isWrittenChar c = true) : isBlank c = false :=
  isBlank_of_toNat (toNat_of_isWrittenChar h).1 (toNat_of_isWrittenChar h).2.1

lemma foldCase_of_isWrittenChar {c : Char} (h : isWrittenChar c = true) : foldCase c = [c] := by
  have hupper : ¬ ('A' ≤ c ∧ c ≤ 'Z') := (toNat_of_isWrittenChar h).2.2
  rw [foldCase, if_neg, if_neg, lowerAscii, if_neg hupper]
  · rintro rfl
    cases h
  · rintro rfl
    cases h

/-- Lower case and joining words change nothing in a written normal form. -/
lemma collapse_eq_self {text : List Char} (h : ∀ c ∈ text, isWrittenChar c = true) : collapse text = text := by
  rw [collapse, flatMap_foldCase_eq_self fun c hc => foldCase_of_isWrittenChar (h c hc),
    words_solid text fun c hc => isBlank_of_isWrittenChar (h c hc), joinWith_ofRun]

lemma collapse_ne_nil {text : List Char} (hne : text ≠ []) (hsolid : IsSolid text) : collapse text ≠ [] := by
  rw [collapse, words_solid _ (isSolid_foldCase hsolid), joinWith_ofRun]
  cases text with
  | nil => exact absurd rfl hne
  | cons c rest =>
    rw [List.flatMap_cons]
    exact fun h => foldCase_ne_nil c (List.append_eq_nil_iff.mp h).1

lemma allowed_of_mem_sanitize {allowed : Char → Bool} (h : allowed '_' = true) {text : List Char} :
    ∀ c ∈ sanitize allowed text, allowed c = true := by
  intro c hc
  obtain ⟨d, _, rfl⟩ := List.mem_map.mp hc
  split
  · rename_i hd
    exact hd
  · exact h

lemma sanitize_eq_self {allowed : Char → Bool} {text : List Char} (h : ∀ c ∈ text, allowed c = true) :
    sanitize allowed text = text := by
  have hmap : sanitize allowed text = text.map id := List.map_congr_left fun c hc => if_pos (h c hc)
  rw [hmap, List.map_id]

lemma isWritten_splitComparator (value : List Char) : (splitComparator value).1.isWritten = true := by
  unfold splitComparator
  split <;> rfl

theorem isCanonical_normalize (token : String) : (normalize token).IsCanonical := by
  rw [normalize, normalizeChars]
  split
  · simp only [NormalForm.IsCanonical, String.toList_ofList]
    exact ⟨allowed_of_mem_sanitize rfl, isWritten_splitComparator _, allowed_of_mem_sanitize rfl⟩
  · simp only [NormalForm.IsCanonical, String.toList_ofList]
    exact allowed_of_mem_sanitize rfl

/-- A word has a name. -/
lemma normalize_ne_empty {token : String} (hne : token ≠ "") (hsolid : IsSolid token.toList) :
    normalize token ≠ .tag "" := by
  have hnil : token.toList ≠ [] := fun h => hne (String.toList_inj.mp h)
  rw [normalize, normalizeChars]
  split
  · exact NormalForm.noConfusion
  · intro h
    have hname := congrArg String.toList (NormalForm.tag.inj h)
    rw [String.toList_ofList] at hname
    exact collapse_ne_nil hnil hsolid (List.map_eq_nil_iff.mp hname)

lemma toList_render_metatag (name : String) (comparator : Comparator) (value : String) :
    (NormalForm.metatag name comparator value).render.toList =
      name.toList ++ ':' :: (comparator.marker ++ value.toList) := by
  cases comparator <;> simp [NormalForm.render, Comparator.marker]

lemma isWrittenChar_of_mem_render {x : NormalForm} (h : x.IsCanonical) :
    ∀ c ∈ x.render.toList, isWrittenChar c = true := by
  cases x with
  | tag name => exact fun c hc => isWrittenChar_of_isValueChar (isValueChar_of_isNameChar (h c hc))
  | metatag name comparator value =>
    rw [toList_render_metatag]
    exact isWrittenChar_metatag h.1 (Comparator.writes_marker h.2.1) h.2.2

lemma splitAtOnly?_eq_some {c : Char} {before after : List Char} (hbefore : c ∉ before) (hafter : c ∉ after) :
    splitAtOnly? c (before ++ c :: after) = some (before, after) := by
  have hcount : (before ++ c :: after).count c = 1 := by
    rw [List.count_append, List.count_cons_self, List.count_eq_zero.mpr hbefore, List.count_eq_zero.mpr hafter]
  have hne : ∀ d ∈ before, decide (d ≠ c) = true := fun d hd => decide_eq_true fun h => hbefore (h ▸ hd)
  rw [splitAtOnly?, if_pos hcount, List.takeWhile_append_of_pos hne, List.dropWhile_append_of_pos hne]
  simp

/-- A comparator in front of a value is read back, as no value begins like a comparator. -/
lemma splitComparator_writes {comparator : Comparator} {mark : List Char} (hmark : comparator.Writes mark)
    {value : List Char} (hvalue : ∀ c ∈ value, isValueChar c = true) :
    splitComparator (mark ++ value) = (comparator, value) := by
  have hstart : ∀ c rest, value = c :: rest → c ≠ '<' ∧ c ≠ '=' ∧ c ≠ '>' := by
    rintro c rest rfl
    have hc := hvalue c List.mem_cons_self
    refine ⟨?_, ?_, ?_⟩ <;>
    · rintro rfl
      cases hc
  obtain ⟨hwritten, rfl | ⟨rfl, rfl⟩⟩ := hmark
  · cases comparator with
    | ne | like | notLike => cases hwritten
    | eq | lt | le | gt | ge =>
      cases value with
      | nil => rfl
      | cons c rest => simp [Comparator.sql, splitComparator, hstart c rest rfl]
  · cases value with
    | nil => rfl
    | cons c rest => simp [splitComparator, hstart c rest rfl]

lemma colon_notMem {text : List Char} (h : ∀ c ∈ text, isValueChar c = true) : ':' ∉ text :=
  fun hmem => absurd (h _ hmem) (by decide)

/-- A metatag that is written out normalizes to its name, comparator and value. -/
lemma normalize_metatag {text name value : String} {comparator : Comparator} {mark : List Char}
    (hname : ∀ c ∈ name.toList, isNameChar c = true) (hmark : comparator.Writes mark)
    (hvalue : ∀ c ∈ value.toList, isValueChar c = true)
    (htext : text.toList = name.toList ++ ':' :: (mark ++ value.toList)) :
    normalize text = .metatag name comparator value := by
  have hsplit : splitAtOnly? ':' (name.toList ++ ':' :: (mark ++ value.toList)) =
      some (name.toList, mark ++ value.toList) := by
    refine splitAtOnly?_eq_some (colon_notMem fun c hc => isValueChar_of_isNameChar (hname c hc)) ?_
    rw [List.mem_append]
    rintro (hmem | hmem)
    · exact absurd (mem_of_writes hmark _ hmem) (by decide)
    · exact colon_notMem hvalue hmem
  rw [normalize, normalizeChars, htext, collapse_eq_self (isWrittenChar_metatag hname hmark hvalue)]
  simp only [hsplit, splitComparator_writes hmark hvalue, sanitize_eq_self hname, sanitize_eq_self hvalue,
    String.ofList_toList]

/-- A canonical normal form that is written out normalizes to itself. -/
theorem normalize_render {x : NormalForm} (h : x.IsCanonical) : normalize x.render = x := by
  cases x with
  | tag name =>
    have hnone : splitAtOnly? ':' name.toList = none := by
      rw [splitAtOnly?, List.count_eq_zero.mpr (colon_notMem fun c hc => isValueChar_of_isNameChar (h c hc))]
      rfl
    rw [normalize, normalizeChars, collapse_eq_self (isWrittenChar_of_mem_render h)]
    simp only [NormalForm.render, hnone, sanitize_eq_self h, String.ofList_toList]
  | metatag name comparator value =>
    exact normalize_metatag h.1 (Comparator.writes_marker h.2.1) h.2.2 (toList_render_metatag name comparator value)

example : (normalize "Score:>=8").render = "score:>=8" := by decide +kernel

/-- Normalization gives the canonical normal forms, and these are what it gives back when they are written out. So
normalizing what was normalized changes nothing. -/
theorem normalForm_round_trip (token : String) (x : NormalForm) :
    (normalize token).IsCanonical ∧ (x.IsCanonical ↔ normalize x.render = x) ∧
      normalize (normalize token).render = normalize token := by
  refine ⟨isCanonical_normalize token, ⟨normalize_render, fun h => ?_⟩,
    normalize_render (isCanonical_normalize token)⟩
  rw [← h]
  exact isCanonical_normalize x.render

example : (normalize "Score:>== İ-9é").render = "score:>=__i_-9_" := by decide +kernel

lemma start_of_isNameChar {c : Char} (h : isNameChar c = true) : c ≠ '-' ∧ c ≠ '+' ∧ isQuote c = false := by
  refine ⟨?_, ?_, ?_⟩
  · rintro rfl
    cases h
  · rintro rfl
    cases h
  · rw [isQuote, Bool.or_eq_false_iff, beq_eq_false_iff_ne, beq_eq_false_iff_ne]
    constructor <;>
    · rintro rfl
      cases h

/-- A metatag that is written out reads as it stands. -/
lemma isBare_metatag {comparator : Comparator} {name mark value : List Char}
    (hname : ∀ c ∈ name, isNameChar c = true) (hmark : comparator.Writes mark)
    (hvalue : ∀ c ∈ value, isValueChar c = true) : IsBare (name ++ ':' :: (mark ++ value)) := by
  refine ⟨fun c hc => isBlank_of_isWrittenChar (isWrittenChar_metatag hname hmark hvalue c hc), ?_⟩
  cases name with
  | nil => exact ⟨':', _, rfl, by decide, by decide, rfl⟩
  | cons c rest => exact ⟨c, _, rfl, start_of_isNameChar (hname c List.mem_cons_self)⟩

/-- A written normal form reads as it stands. -/
theorem isBare_render {x : NormalForm} (h : x.IsCanonical) (hne : x ≠ .tag "") : IsBare x.render.toList := by
  cases x with
  | tag name =>
    refine ⟨fun c hc => isBlank_of_isWrittenChar (isWrittenChar_of_mem_render h c hc), ?_⟩
    cases hchars : name.toList with
    | nil => exact absurd (congrArg NormalForm.tag (String.toList_inj.mp hchars)) hne
    | cons c rest => exact ⟨c, rest, hchars, start_of_isNameChar (h c (hchars ▸ List.mem_cons_self))⟩
  | metatag name comparator value =>
    rw [toList_render_metatag]
    exact isBare_metatag h.1 (Comparator.writes_marker h.2.1) h.2.2

end Query
end TagSearch
