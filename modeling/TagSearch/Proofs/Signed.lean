import Mathlib.Algebra.Group.Nat.Defs
import Mathlib.Tactic.Lemma

/-! Unsigned numbers of 64 bits read as signed ones, as ids and hashes are bound to statements. -/
namespace TagSearch

variable {a b : UInt64}

/-- The reading keeps all bits. -/
@[simp] lemma toInt64_inj : a.toInt64 = b.toInt64 ↔ a = b :=
  ⟨fun h => by simpa using congrArg Int64.toUInt64 h, fun h => h ▸ rfl⟩

lemma toInt_toInt64_eq_bmod (a : UInt64) : a.toInt64.toInt = (a.toNat : Int).bmod Int64.size := by
  calc a.toInt64.toInt = (UInt64.ofNat a.toNat).toInt64.toInt := by rw [UInt64.ofNat_toNat]
    _ = (Int64.ofNat a.toNat).toInt := by rw [UInt64.toInt64_ofNat']
    _ = (a.toNat : Int).bmod Int64.size := Int64.toInt_ofNat'

/-- Numbers below 2⁶³ keep their value. -/
lemma toInt_toInt64 (h : a.toNat < 2 ^ 63) : a.toInt64.toInt = a.toNat := by
  rw [toInt_toInt64_eq_bmod, Int64.size, Int.bmod_def]
  omega

lemma toInt64_nonneg (h : a.toNat < 2 ^ 63) : 0 ≤ a.toInt64 := by
  rw [Int64.le_iff_toInt_le, toInt_toInt64 h, Int64.toInt_zero]
  omega

/-- Numbers from 2⁶³ on become negative. -/
lemma toInt64_neg (h : 2 ^ 63 ≤ a.toNat) : a.toInt64 < 0 := by
  have hlt := a.toNat_lt
  rw [Int64.lt_iff_toInt_lt, toInt_toInt64_eq_bmod, Int64.size, Int.bmod_def, Int64.toInt_zero]
  omega

lemma toInt64_le (ha : a.toNat < 2 ^ 63) (hb : b.toNat < 2 ^ 63) :
    a.toInt64 ≤ b.toInt64 ↔ a.toNat ≤ b.toNat := by
  rw [Int64.le_iff_toInt_le, toInt_toInt64 ha, toInt_toInt64 hb]
  omega

lemma toInt64_lt (ha : a.toNat < 2 ^ 63) (hb : b.toNat < 2 ^ 63) : a.toInt64 < b.toInt64 ↔ a < b := by
  rw [Int64.lt_iff_toInt_lt, toInt_toInt64 ha, toInt_toInt64 hb, UInt64.lt_iff_toNat_lt]
  omega

end TagSearch
