import Mathlib.Data.List.TakeWhile
import TagSearch.Proofs.Query.NormalForm
import TagSearch.Proofs.Sql.Like
import TagSearch.Metatag.Value

/-! The pattern of a written value. It describes the texts that contain what the value asks for, and no character of the
value is a wildcard. -/
namespace TagSearch

namespace Sql
open Text

variable {text part : List Char}

/-- ASCII characters but NUL are read as they are. -/
lemma readText_eq_self (h : ∀ c ∈ text, 0 < c.toNat ∧ c.toNat < 128) : readText (String.ofList text) = text := by
  have hnul : beforeNul text = text := by
    refine List.takeWhile_eq_self_iff.mpr fun c hc => decide_eq_true ?_
    rintro rfl
    exact absurd (h _ hc).1 (by decide)
  have hread : text.map readChar = text.map id := by
    refine List.map_congr_left fun c hc => if_neg ?_
    rintro (rfl | rfl)
    · exact absurd (h _ hc).2 (by decide)
    · exact absurd (h _ hc).2 (by decide)
  rw [readText, String.toList_ofList, hnul, hread, List.map_id]

lemma toNat_lowerAscii_lt {d : Char} (h : d.toNat < 128) : (lowerAscii d).toNat < 128 := by
  rw [toNat_lowerAscii]
  split <;> omega

/-- No ASCII character is read from a noncharacter. -/
lemma lowerAscii_readChar {c d : Char} (h : d.toNat < 128) :
    lowerAscii (readChar c) = lowerAscii d ↔ lowerAscii c = lowerAscii d := by
  have hlt := toNat_lowerAscii_lt h
  have hne : ∀ e : Char, 128 ≤ (lowerAscii e).toNat → lowerAscii e ≠ lowerAscii d := by
    intro e he heq
    rw [heq] at he
    omega
  rw [readChar]
  split
  · rename_i hc
    refine iff_of_false (hne _ (by decide)) (hne c ?_)
    rcases hc with rfl | rfl <;> decide
  · exact Iff.rfl

lemma map_lowerAscii_readChar (h : ∀ d ∈ part, d.toNat < 128) :
    (text.map readChar).map lowerAscii = part.map lowerAscii ↔ text.map lowerAscii = part.map lowerAscii := by
  induction text generalizing part with
  | nil => exact Iff.rfl
  | cons c text ih =>
    cases part with
    | nil => simp
    | cons d part =>
      rw [List.forall_mem_cons] at h
      simp only [List.map_cons, List.cons.injEq, lowerAscii_readChar h.1, ih h.2]

/-- Whether a text contains ASCII characters can be told from what the engine reads of it. -/
lemma contains_map_readChar (h : ∀ d ∈ part, d.toNat < 128) :
    Contains (text.map readChar) part ↔ Contains text part := by
  constructor
  · rintro ⟨before, middle, after, htext, hmiddle⟩
    obtain ⟨front, after', rfl, hfront, _⟩ := List.map_eq_append_iff.mp htext
    obtain ⟨before', middle', rfl, _, rfl⟩ := List.map_eq_append_iff.mp hfront
    exact ⟨before', middle', after', rfl, (map_lowerAscii_readChar h).mp hmiddle⟩
  · rintro ⟨before, middle, after, rfl, hmiddle⟩
    exact ⟨before.map readChar, middle.map readChar, after.map readChar, by simp,
      (map_lowerAscii_readChar h).mpr hmiddle⟩

end Sql

namespace Metatag
open Sql Text Query

/-- What a written value asks for: every pair of underscores, from the left, is a blank. -/
def literalText : List Char → List Char
  | '_' :: '_' :: rest => ' ' :: literalText rest
  | c :: rest => c :: literalText rest
  | [] => []

variable {value : List Char}

lemma mem_literalText {c : Char} (h : c ∈ literalText value) : c = ' ' ∨ c ∈ value := by
  fun_induction literalText value with
  | case1 rest ih =>
    rcases List.mem_cons.mp h with rfl | h
    · exact .inl rfl
    · exact (ih h).imp_right fun h => List.mem_cons_of_mem _ (List.mem_cons_of_mem _ h)
  | case2 d rest _ ih =>
    rcases List.mem_cons.mp h with rfl | h
    · exact .inr List.mem_cons_self
    · exact (ih h).imp_right (List.mem_cons_of_mem _)
  | case3 => exact absurd h List.not_mem_nil

lemma mem_literalPattern {c : Char} (h : c ∈ literalPattern value) : c = ' ' ∨ c = '\\' ∨ c ∈ value := by
  fun_induction literalPattern value with
  | case1 rest ih =>
    rcases List.mem_cons.mp h with rfl | h
    · exact .inl rfl
    · exact (ih h).imp_right (.imp_right fun h => List.mem_cons_of_mem _ (List.mem_cons_of_mem _ h))
  | case2 rest _ ih =>
    rcases List.mem_cons.mp h with rfl | h
    · exact .inr (.inl rfl)
    rcases List.mem_cons.mp h with rfl | h
    · exact .inr (.inr List.mem_cons_self)
    · exact (ih h).imp_right (.imp_right (List.mem_cons_of_mem _))
  | case3 d rest _ _ ih =>
    rcases List.mem_cons.mp h with rfl | h
    · exact .inr (.inr List.mem_cons_self)
    · exact (ih h).imp_right (.imp_right (List.mem_cons_of_mem _))
  | case4 => exact absurd h List.not_mem_nil

lemma likeItems?_escaped (c : Char) (rest : List Char) :
    likeItems? (some '\\') ('\\' :: c :: rest) = (likeItems? (some '\\') rest).map (.letter c :: ·) := by
  rw [likeItems?.eq_def]
  exact if_pos rfl

lemma likeItems?_anyText (rest : List Char) :
    likeItems? (some '\\') ('%' :: rest) = (likeItems? (some '\\') rest).map (.anyText :: ·) := by
  rw [likeItems?.eq_def]
  exact if_neg (by decide)

lemma likeItems?_letter {c : Char} (hescape : c ≠ '\\') (htext : c ≠ '%') (hchar : c ≠ '_') (rest : List Char) :
    likeItems? (some '\\') (c :: rest) = (likeItems? (some '\\') rest).map (.letter c :: ·) := by
  rw [likeItems?.eq_def]
  simp [hescape, htext, hchar]

/-- The engine reads the pattern of a value letter by letter. -/
lemma likeItems_literalPattern (h : ∀ c ∈ value, isValueChar c = true) (rest : List Char) :
    likeItems? (some '\\') (literalPattern value ++ rest) =
      (likeItems? (some '\\') rest).map ((literalText value).map .letter ++ ·) := by
  fun_induction literalPattern value with
  | case1 more ih =>
    have hmore := (List.forall_mem_cons.mp (List.forall_mem_cons.mp h).2).2
    rw [List.cons_append, likeItems?_letter (by decide) (by decide) (by decide), ih hmore, literalText,
      Option.map_map]
    rfl
  | case2 more hpair ih =>
    have hmore := (List.forall_mem_cons.mp h).2
    rw [List.cons_append, List.cons_append, likeItems?_escaped, ih hmore, literalText, Option.map_map]
    · rfl
    · exact fun rest _ => hpair rest
  | case3 c more hpair hsingle ih =>
    rw [List.forall_mem_cons] at h
    have hescape : c ≠ '\\' := by
      rintro rfl
      cases h.1
    have htext : c ≠ '%' := by
      rintro rfl
      cases h.1
    have hliteral : literalText (c :: more) = c :: literalText more := by
      rw [literalText]
      exact fun rest hc _ => hsingle hc
    rw [List.cons_append, likeItems?_letter hescape htext hsingle, ih h.2, hliteral, Option.map_map]
    rfl
  | case4 => simp [literalText]

lemma toNat_of_isValueChar {c : Char} (h : isValueChar c = true) : 0 < c.toNat ∧ c.toNat < 128 := by
  have hbounds := toNat_of_isWrittenChar (isWrittenChar_of_isValueChar h)
  omega

/-- The characters of a pattern are ASCII. -/
lemma toNat_of_mem_pattern (h : ∀ c ∈ value, isValueChar c = true) :
    ∀ c ∈ '%' :: literalPattern value ++ ['%'], 0 < c.toNat ∧ c.toNat < 128 := by
  rw [List.cons_append, List.forall_mem_cons, List.forall_mem_append, List.forall_mem_singleton]
  refine ⟨by decide, fun c hc => ?_, by decide⟩
  rcases mem_literalPattern hc with rfl | rfl | hc
  · decide
  · decide
  · exact toNat_of_isValueChar (h c hc)

lemma toNat_of_mem_literalText (h : ∀ c ∈ value, isValueChar c = true) : ∀ c ∈ literalText value, c.toNat < 128 := by
  intro c hc
  rcases mem_literalText hc with rfl | hc
  · decide
  · exact (toNat_of_isValueChar (h c hc)).2

/-- The items of the pattern are the letters that the value asks for, between two wildcards. -/
lemma likeItems_pattern (h : ∀ c ∈ value, isValueChar c = true) :
    likeItems? (some '\\') ('%' :: literalPattern value ++ ['%']) =
      some (.anyText :: ((literalText value).map .letter ++ [.anyText])) := by
  have hlast : likeItems? (some '\\') ['%'] = some [.anyText] := by
    rw [likeItems?_anyText]
    rfl
  rw [List.cons_append, likeItems?_anyText, likeItems_literalPattern h, hlast]
  rfl

/-- The pattern of a value takes the texts that contain what the value asks for. The engine reads a text up to its
first NUL. -/
theorem like_pattern_iff {value pattern : String} (h : ∀ c ∈ value.toList, isValueChar c = true)
    (hpattern : containsPattern? value = some pattern) (text : String) :
    like (some '\\') pattern text = true ↔ Contains (beforeNul text.toList) (literalText value.toList) := by
  rw [containsPattern?] at hpattern
  split at hpattern
  · cases hpattern
  obtain rfl := Option.some.inj hpattern
  rw [like, readText_eq_self (toNat_of_mem_pattern h), likeItems_pattern h]
  simp only [matchItems_iff]
  rw [describes_containing, readText, contains_map_readChar (toNat_of_mem_literalText h)]

example : (containsPattern? "a___b.c").map (like (some '\\') · "x A _B.Cx") = some true := by decide +kernel

end Metatag
end TagSearch
