import Mathlib.Algebra.Group.Int.Defs
import Mathlib.Algebra.Group.Nat.Defs
import Mathlib.Tactic.Lemma
import TagSearch.Text.Decimal

/-! Decimal numbers are read exactly. A text reads as a number of 64 bits only if it is digits of that value, and the
digits of every number read as it. -/
namespace TagSearch.Text

variable {text digits : List Char} {n : Nat}

/-- A non-empty run of digits of the given value. -/
def Denotes (digits : List Char) (n : Nat) : Prop :=
  digits ≠ [] ∧ (∀ c ∈ digits, isDigit c = true) ∧ Nat.ofDigitChars 10 digits 0 = n

/-- Digits of the given value, for a negative one behind a minus sign. -/
inductive DenotesInteger : List Char → Int → Prop
  | plain {digits : List Char} {n : Nat} (h : Denotes digits n) : DenotesInteger digits n
  | minus {digits : List Char} {n : Nat} (h : Denotes digits n) : DenotesInteger ('-' :: digits) (-n)

lemma naturalFrom_eq_some {value : Nat} :
    naturalFrom value text = some n ↔
      (∀ c ∈ text, isDigit c = true) ∧ Nat.ofDigitChars 10 text value = n := by
  induction text generalizing value with
  | nil => simp [naturalFrom]
  | cons c rest ih =>
    rw [naturalFrom, Nat.ofDigitChars_cons, List.forall_mem_cons]
    split
    · rename_i hc
      rw [ih, digitValue, and_iff_right hc]
    · rename_i hc
      constructor
      · intro h
        cases h
      · rintro ⟨⟨h, _⟩, _⟩
        exact absurd h hc

/-- A natural number is read from the digits of its value and from nothing else. -/
theorem natural?_eq_some : natural? text = some n ↔ Denotes text n := by
  cases text with
  | nil =>
    constructor
    · intro h
      cases h
    · rintro ⟨h, _⟩
      exact absurd rfl h
  | cons c rest => rw [natural?, naturalFrom_eq_some, Denotes, and_iff_right (List.cons_ne_nil c rest)]

lemma denotes_toString (n : Nat) : Denotes (toString n).toList n := by
  have hdigits : (toString n).toList = Nat.toDigits 10 n := Nat.toList_repr
  rw [hdigits]
  exact ⟨Nat.toDigits_ne_nil, fun c hc => Nat.isDigit_of_mem_toDigits (by decide) (by decide) hc,
    Nat.ofDigitChars_ten_toDigits⟩

/-- No zeros stand in front of the other digits of a number. -/
lemma head?_toString {n : Nat} (h : (toString n).toList.head? = some '0') : (toString n).toList = ['0'] := by
  have hdigits : ∀ m : Nat, (toString m).toList = Nat.toDigits 10 m := fun _ => Nat.toList_repr
  simp only [hdigits] at h ⊢
  induction n using Nat.strongRecOn with
  | ind n ih =>
    rw [Nat.toDigits_eq_if (by decide)] at h ⊢
    split
    · rename_i hlt
      rw [if_pos hlt] at h
      exact congrArg (fun c => [c]) (Option.some.inj h)
    · rename_i hle
      rw [if_neg hle, List.head?_append, Option.or_of_isSome (List.isSome_head?.mpr Nat.toDigits_ne_nil)] at h
      have hzero := congrArg (Nat.ofDigitChars 10 · 0) (ih (n / 10) (by omega) h)
      rw [Nat.ofDigitChars_ten_toDigits] at hzero
      change n / 10 = 0 at hzero
      omega

lemma Denotes.notMem (h : Denotes digits n) {c : Char} (hc : isDigit c = false) : c ∉ digits := by
  intro hmem
  rw [h.2.1 c hmem] at hc
  cases hc

lemma DenotesInteger.notMem {k : Int} (h : DenotesInteger text k) {c : Char} (hdigit : isDigit c = false)
    (hminus : c ≠ '-') : c ∉ text := by
  cases h with
  | plain h => exact h.notMem hdigit
  | minus h => exact List.not_mem_cons_of_ne_of_not_mem hminus (h.notMem hdigit)

/-- Digits of the given value, behind a plus sign or not. -/
inductive DenotesWord : List Char → Nat → Prop
  | plain {digits : List Char} {n : Nat} (h : Denotes digits n) : DenotesWord digits n
  | plus {digits : List Char} {n : Nat} (h : Denotes digits n) : DenotesWord ('+' :: digits) n

/-- The value of digits, if it is below 2⁶⁴. -/
def bounded? (digits : List Char) : Option UInt64 :=
  (natural? digits).bind fun n => if n < UInt64.size then some (UInt64.ofNat n) else none

lemma bounded?_eq_some {w : UInt64} : bounded? digits = some w ↔ Denotes digits w.toNat := by
  rw [bounded?, Option.bind_eq_some_iff]
  constructor
  · rintro ⟨n, hn, h⟩
    split at h
    · rename_i hlt
      rw [← Option.some.inj h, UInt64.toNat_ofNat_of_lt' hlt]
      exact natural?_eq_some.mp hn
    · cases h
  · intro h
    refine ⟨w.toNat, natural?_eq_some.mpr h, ?_⟩
    rw [if_pos w.toNat_lt_size, UInt64.ofNat_toNat]

lemma word?_plus : word? ('+' :: digits) = bounded? digits := by
  simp only [word?, bounded?]
  cases natural? digits <;> rfl

lemma word?_of_head (hplus : ∀ rest, text ≠ '+' :: rest) : word? text = bounded? text := by
  unfold word? bounded?
  split
  · rename_i rest
    exact absurd rfl (hplus rest)
  · dsimp only
    cases natural? text <;> rfl

/-- An unsigned number is read from the digits of its value, which is below 2⁶⁴. -/
theorem word?_eq_some {w : UInt64} (hplus : '+' ∉ text) : word? text = some w ↔ Denotes text w.toNat := by
  have hhead : ∀ rest, text ≠ '+' :: rest := by
    rintro rest rfl
    exact hplus List.mem_cons_self
  rw [word?_of_head hhead, bounded?_eq_some]

/-- A plus sign makes no difference. -/
theorem word?_eq_some_iff {w : UInt64} : word? text = some w ↔ DenotesWord text w.toNat := by
  constructor
  · intro h
    by_cases hplus : ∃ rest, text = '+' :: rest
    · obtain ⟨rest, rfl⟩ := hplus
      exact .plus (bounded?_eq_some.mp (word?_plus.symm.trans h))
    · exact .plain (bounded?_eq_some.mp ((word?_of_head (not_exists.mp hplus)).symm.trans h))
  · rintro (hdigits | hdigits)
    · exact (word?_eq_some (hdigits.notMem rfl)).mpr hdigits
    · exact word?_plus.trans (bounded?_eq_some.mpr hdigits)

lemma ofInt_eq_iff {k : Int} (hlow : -2 ^ 63 ≤ k) (hhigh : k < 2 ^ 63) {n : Int64} :
    Int64.ofInt k = n ↔ n.toInt = k := by
  constructor
  · rintro rfl
    exact Int64.toInt_ofInt_of_le hlow hhigh
  · rintro rfl
    exact Int64.ofInt_toInt n

lemma integer?_minus {n : Int64} : integer? ('-' :: digits) = some n ↔ ∃ m, Denotes digits m ∧ n.toInt = -m := by
  have hbound : (1 <<< 63 : Nat) = 2 ^ 63 := rfl
  have hlow := n.le_toInt
  rw [integer?, Option.bind_eq_some_iff]
  refine exists_congr fun m => ?_
  rw [natural?_eq_some, hbound]
  refine and_congr_right fun _ => ?_
  split
  · rw [Option.some.injEq, ofInt_eq_iff (by omega) (by omega)]
  · constructor
    · intro h
      cases h
    · omega

lemma integer?_digits {n : Int64} (hminus : ∀ rest, text ≠ '-' :: rest) (hplus : '+' ∉ text) :
    integer? text = some n ↔ ∃ m, Denotes text m ∧ n.toInt = m := by
  have hbound : (1 <<< 63 : Nat) = 2 ^ 63 := rfl
  have hhigh := n.toInt_lt
  unfold integer?
  split
  · exact absurd rfl (hminus _)
  · exact absurd List.mem_cons_self hplus
  · rw [Option.bind_eq_some_iff]
    refine exists_congr fun m => ?_
    rw [natural?_eq_some, hbound]
    refine and_congr_right fun _ => ?_
    split
    · rw [Option.some.injEq, ofInt_eq_iff (by omega) (by omega)]
    · constructor
      · intro h
        cases h
      · omega

/-- A signed number is read from the digits of its value, which is at least -2⁶³ and below 2⁶³. -/
theorem integer?_eq_some {n : Int64} (hplus : '+' ∉ text) : integer? text = some n ↔ DenotesInteger text n.toInt := by
  have hminus : isDigit '-' = false := rfl
  constructor
  · intro h
    by_cases hsign : ∃ rest, text = '-' :: rest
    · obtain ⟨rest, rfl⟩ := hsign
      obtain ⟨m, hm, hn⟩ := integer?_minus.mp h
      exact hn ▸ .minus hm
    · obtain ⟨m, hm, hn⟩ := (integer?_digits (fun rest hrest => hsign ⟨rest, hrest⟩) hplus).mp h
      exact hn ▸ .plain hm
  · intro h
    generalize hk : n.toInt = k at h
    cases h with
    | plain h =>
      have hsign : ∀ rest, text ≠ '-' :: rest := fun rest hrest => h.notMem hminus (hrest ▸ List.mem_cons_self)
      exact (integer?_digits hsign hplus).mpr ⟨_, h, hk⟩
    | minus h => exact integer?_minus.mpr ⟨_, h, hk⟩

lemma denotesInteger_toString (n : Int) : DenotesInteger (toString n).toList n := by
  have hrepr : toString n = if 0 ≤ n then n.toNat.repr else "-" ++ (-n).toNat.repr := Int.repr_eq_if
  rw [hrepr]
  split
  · rename_i hn
    have h := DenotesInteger.plain (denotes_toString n.toNat)
    rwa [Int.toNat_of_nonneg hn] at h
  · have h := DenotesInteger.minus (denotes_toString (-n).toNat)
    rw [Int.toNat_of_nonneg (by omega), Int.neg_neg] at h
    rw [String.toList_append]
    exact h

example : integer? "-9223372036854775808".toList = some Int64.minValue := by decide +kernel

end TagSearch.Text
