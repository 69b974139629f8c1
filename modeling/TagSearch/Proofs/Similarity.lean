import Mathlib.Tactic.Lemma
import TagSearch.Similarity

/-! Only equal hashes are at distance zero. -/
namespace TagSearch

/-- A hash without a bit is zero. -/
lemma bitCount_eq_zero {w : UInt64} : bitCount w = 0 ↔ w = 0 := by
  constructor
  · intro h
    rw [bitCount, List.countP_eq_zero] at h
    rw [← UInt64.toNat_inj, UInt64.toNat_zero]
    refine Nat.eq_of_testBit_eq fun i => ?_
    rw [Nat.zero_testBit]
    by_cases hi : i < 64
    · exact Bool.eq_false_iff.mpr (h i (List.mem_range.mpr hi))
    · exact Nat.testBit_lt_two_pow (Nat.lt_of_lt_of_le w.toNat_lt (Nat.pow_le_pow_right (by decide) (by omega)))
  · rintro rfl
    decide

theorem hamming_eq_zero {a b : UInt64} : hamming a b = 0 ↔ a = b := by
  rw [hamming, bitCount_eq_zero, UInt64.xor_eq_zero_iff]

theorem HashPair.distance_eq_zero {p q : HashPair} : p.distance q = 0 ↔ p = q := by
  obtain ⟨h, v⟩ := p
  rw [distance, Nat.add_eq_zero_iff, hamming_eq_zero, hamming_eq_zero, ← HashPair.mk.injEq]

end TagSearch
