import Mathlib.Tactic.Lemma
import TagSearch.Sql.Like

/-! What patterns describe. The matcher keeps all ends that a text may have behind the items it has read, and it takes a
text exactly when the items describe the text. -/
namespace TagSearch

namespace Text

/-- A text has another one in it, whatever the case of the letters A to Z. -/
def Contains (text part : List Char) : Prop :=
  ∃ before middle after, text = before ++ middle ++ after ∧ middle.map lowerAscii = part.map lowerAscii

end Text

namespace Sql
open Text

variable {text : List Char} {ends : List (List Char)} {item : LikeItem} {items : List LikeItem}

/-- The texts that the items of a pattern describe. -/
inductive Describes : List LikeItem → List Char → Prop
  | nil : Describes [] []
  | letter {c d : Char} {items : List LikeItem} {text : List Char} (same : lowerAscii c = lowerAscii d)
      (h : Describes items text) : Describes (.letter c :: items) (d :: text)
  | anyChar {d : Char} {items : List LikeItem} {text : List Char} (h : Describes items text) :
      Describes (.anyChar :: items) (d :: text)
  | anyText (skipped : List Char) {items : List LikeItem} {text : List Char} (h : Describes items text) :
      Describes (.anyText :: items) (skipped ++ text)

lemma mem_suffixes {rest : List Char} : rest ∈ suffixes text ↔ rest <:+ text := by
  induction text with
  | nil => simp [suffixes]
  | cons c text ih => rw [suffixes, List.mem_cons, ih, List.suffix_cons_iff]

/-- Ends of one text, the longest first. -/
def AreEnds (ends : List (List Char)) : Prop := ends.Pairwise fun a b => b <:+ a

lemma areEnds_suffixes (text : List Char) : AreEnds (suffixes text) := by
  induction text with
  | nil => exact List.pairwise_singleton _ _
  | cons c text ih =>
    refine List.pairwise_cons.mpr ⟨fun rest hrest => ?_, ih⟩
    exact (mem_suffixes.mp hrest).trans (List.suffix_cons c text)

/-- What is left of a text behind an item that describes one character. -/
def LikeItem.rest? (item : LikeItem) : List Char → Option (List Char)
  | [] => none
  | c :: rest => if item.isLike c then some rest else none

lemma LikeItem.step_eq (h : item ≠ .anyText) : item.step ends = ends.filterMap item.rest? := by
  cases item with
  | anyText => exact absurd rfl h
  | anyChar => rfl
  | letter c => rfl

lemma LikeItem.rest?_eq_some {rest : List Char} :
    item.rest? text = some rest ↔ ∃ c, text = c :: rest ∧ item.isLike c = true := by
  cases text with
  | nil => simp [rest?]
  | cons c text =>
    rw [rest?]
    split
    · rename_i hc
      rw [Option.some.injEq]
      constructor
      · rintro rfl
        exact ⟨c, rfl, hc⟩
      · rintro ⟨d, h, _⟩
        exact (List.cons.inj h).2
    · rename_i hc
      constructor
      · intro h
        cases h
      · rintro ⟨d, h, hd⟩
        exact absurd ((List.cons.inj h).1 ▸ hd) hc

/-- One item leaves ends of one text. -/
lemma AreEnds.step (h : AreEnds ends) (item : LikeItem) : AreEnds (LikeItem.step ends item) := by
  by_cases hitem : item = .anyText
  · subst hitem
    cases ends with
    | nil => exact List.Pairwise.nil
    | cons longest ends => exact areEnds_suffixes longest
  · rw [LikeItem.step_eq hitem, AreEnds, List.pairwise_filterMap]
    refine h.imp fun {a b} hab rest hrest rest' hrest' => ?_
    obtain ⟨c, rfl, _⟩ := LikeItem.rest?_eq_some.mp hrest
    obtain ⟨d, rfl, _⟩ := LikeItem.rest?_eq_some.mp hrest'
    -- the shorter end is the longer one or lies behind its first character
    rcases List.suffix_cons_iff.mp hab with heq | hrest
    · exact (List.cons.inj heq).2 ▸ List.suffix_refl _
    · exact (List.suffix_cons d rest').trans hrest

lemma describes_cons (h : item ≠ .anyText) :
    Describes (item :: items) text ↔ ∃ rest, item.rest? text = some rest ∧ Describes items rest := by
  constructor
  · intro hdescribes
    cases hdescribes with
    | @letter c d items rest same hrest =>
      exact ⟨rest, LikeItem.rest?_eq_some.mpr ⟨d, rfl, beq_iff_eq.mpr same⟩, hrest⟩
    | @anyChar d items rest hrest => exact ⟨rest, LikeItem.rest?_eq_some.mpr ⟨d, rfl, rfl⟩, hrest⟩
    | anyText => exact absurd rfl h
  · rintro ⟨rest, hrest, hdescribes⟩
    obtain ⟨d, rfl, hd⟩ := LikeItem.rest?_eq_some.mp hrest
    cases item with
    | anyText => exact absurd rfl h
    | anyChar => exact .anyChar hdescribes
    | letter c => exact .letter (beq_iff_eq.mp hd) hdescribes

lemma describes_anyText : Describes (.anyText :: items) text ↔ ∃ rest, rest <:+ text ∧ Describes items rest := by
  constructor
  · intro h
    cases h with
    | anyText skipped h => exact ⟨_, List.suffix_append _ _, h⟩
  · rintro ⟨rest, ⟨skipped, rfl⟩, h⟩
    exact .anyText skipped h

/-- An item followed by others describes an end exactly when the others describe what the item leaves. -/
lemma AreEnds.exists_step (h : AreEnds ends) :
    (∃ rest ∈ LikeItem.step ends item, Describes items rest) ↔ ∃ text ∈ ends, Describes (item :: items) text := by
  by_cases hitem : item = .anyText
  · subst hitem
    cases ends with
    | nil => simp [LikeItem.step]
    | cons longest ends =>
      simp only [LikeItem.step, mem_suffixes, describes_anyText]
      constructor
      · rintro ⟨rest, hrest, hdescribes⟩
        exact ⟨longest, List.mem_cons_self, rest, hrest, hdescribes⟩
      · rintro ⟨text, htext, rest, hrest, hdescribes⟩
        have hlongest : text <:+ longest := by
          rcases List.mem_cons.mp htext with rfl | htext
          · exact List.suffix_refl _
          · exact (List.pairwise_cons.mp h).1 text htext
        exact ⟨rest, hrest.trans hlongest, hdescribes⟩
  · simp only [LikeItem.step_eq hitem, List.mem_filterMap, describes_cons hitem]
    constructor
    · rintro ⟨rest, ⟨text, htext, hrest⟩, hdescribes⟩
      exact ⟨text, htext, rest, hrest, hdescribes⟩
    · rintro ⟨text, htext, rest, hrest, hdescribes⟩
      exact ⟨rest, ⟨text, htext, hrest⟩, hdescribes⟩

/-- The ends that a run of items leaves hold the empty one exactly when the items describe an end from before. -/
lemma AreEnds.exists_run (h : AreEnds ends) :
    [] ∈ items.foldl LikeItem.step ends ↔ ∃ text ∈ ends, Describes items text := by
  induction items generalizing ends with
  | nil =>
    constructor
    · intro hnil
      exact ⟨[], hnil, .nil⟩
    · rintro ⟨text, htext, hdescribes⟩
      cases hdescribes
      exact htext
  | cons item items ih => rw [List.foldl_cons, ih (h.step item), h.exists_step]

/-- The matcher takes the texts that the items describe. -/
theorem matchItems_iff : matchItems items text = true ↔ Describes items text := by
  have hends : AreEnds [text] := List.pairwise_singleton _ _
  have hempty : matchItems items text = true ↔ [] ∈ items.foldl LikeItem.step [text] := by
    simp [matchItems, List.any_eq_true, List.isEmpty_iff]
  rw [hempty, hends.exists_run]
  simp

lemma describes_letters {letters : List Char} :
    Describes (letters.map .letter ++ items) text ↔
      ∃ middle rest, text = middle ++ rest ∧ middle.map lowerAscii = letters.map lowerAscii ∧
        Describes items rest := by
  induction letters generalizing text with
  | nil =>
    constructor
    · exact fun h => ⟨[], text, rfl, rfl, h⟩
    · rintro ⟨middle, rest, rfl, hmiddle, h⟩
      rwa [List.map_eq_nil_iff.mp hmiddle]
  | cons c letters ih =>
    rw [List.map_cons, List.cons_append]
    constructor
    · intro h
      cases h with
      | @letter c d items rest same h =>
        obtain ⟨middle, rest, rfl, hmiddle, h⟩ := ih.mp h
        exact ⟨d :: middle, rest, rfl, by rw [List.map_cons, List.map_cons, same, hmiddle], h⟩
    · rintro ⟨middle, rest, rfl, hmiddle, h⟩
      obtain ⟨d, middle, rfl, same, hmiddle⟩ := List.map_eq_cons_iff.mp hmiddle
      exact .letter same.symm (ih.mpr ⟨middle, rest, rfl, hmiddle, h⟩)

/-- Letters between two wildcards describe the texts that contain the letters. -/
theorem describes_containing {letters : List Char} :
    Describes (.anyText :: (letters.map .letter ++ [.anyText])) text ↔ Contains text letters := by
  rw [describes_anyText]
  constructor
  · rintro ⟨rest, ⟨before, rfl⟩, h⟩
    obtain ⟨middle, after, rfl, hmiddle, _⟩ := describes_letters.mp h
    exact ⟨before, middle, after, (List.append_assoc _ _ _).symm, hmiddle⟩
  · rintro ⟨before, middle, after, rfl, hmiddle⟩
    refine ⟨middle ++ after, ⟨before, (List.append_assoc _ _ _).symm⟩, ?_⟩
    have hafter : Describes [.anyText] (after ++ []) := .anyText after .nil
    rw [List.append_nil] at hafter
    exact describes_letters.mpr ⟨middle, after, rfl, hmiddle, hafter⟩

end Sql
end TagSearch
