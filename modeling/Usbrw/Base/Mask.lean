import Mathlib.Algebra.Group.Nat.Defs
import Mathlib.Data.Nat.Basic

/-!
# Base.Mask

Alignment masks on 64-bit words. For a block length `a` that is a power of two, `x &&& (a - 1)`
is the place of `x` inside its block and `x &&& ~~~(a - 1)` is where that block begins.
-/

namespace Usbrw
namespace Mask

/-- `a` is a power of two. -/
def IsPow2 (a : UInt32) : Prop := ∃ k, a.toNat = 2 ^ k

theorem IsPow2.pos {a : UInt32} (h : IsPow2 a) : 0 < a.toNat := by
  obtain ⟨k, hk⟩ := h
  rw [hk]; exact Nat.two_pow_pos k

theorem toNat_pred {a : UInt32} (h : IsPow2 a) : (a - 1).toUInt64.toNat = a.toNat - 1 := by
  have h1 : (1 : UInt32) ≤ a := by
    rw [UInt32.le_iff_toNat_le]; exact h.pos
  rw [UInt32.toNat_toUInt64, UInt32.toNat_sub_of_le _ _ h1]; rfl

/-- The low bits of `x` are its place inside the block. -/
theorem toNat_and_pred {a : UInt32} (h : IsPow2 a) (x : UInt64) :
    (x &&& (a - 1).toUInt64).toNat = x.toNat % a.toNat := by
  obtain ⟨k, hk⟩ := h
  rw [UInt64.toNat_and, toNat_pred ⟨k, hk⟩, hk, Nat.and_two_pow_sub_one_eq_mod]

theorem and_pred_eq_zero {a : UInt32} (h : IsPow2 a) (x : UInt64) :
    x &&& (a - 1).toUInt64 = 0 ↔ x.toNat % a.toNat = 0 := by
  rw [← toNat_and_pred h x]
  constructor
  · intro e; rw [e]; rfl
  · intro e; exact UInt64.toNat_inj.mp (by simpa using e)

theorem and_two_pow_complement {x k : Nat} (hx : x < 2 ^ 64) (hk : k ≤ 64) :
    x &&& (2 ^ 64 - 1 - (2 ^ k - 1)) = x / 2 ^ k * 2 ^ k := by
  have hle : 2 ^ k ≤ 2 ^ 64 := Nat.pow_le_pow_right (by omega) hk
  have hpos := Nat.two_pow_pos k
  apply Nat.eq_of_testBit_eq
  intro i
  rw [Nat.testBit_and, show 2 ^ 64 - 1 - (2 ^ k - 1) = 2 ^ 64 - (2 ^ k - 1 + 1) by omega,
    Nat.testBit_two_pow_sub_succ (by omega), Nat.testBit_two_pow_sub_one, Nat.mul_comm,
    Nat.testBit_two_pow_mul]
  by_cases hik : i < k
  · have hle : ¬ k ≤ i := by omega
    simp [hik, hle]
  · have e : i - k + k = i := by omega
    simp only [hik, decide_false, Bool.not_false, Bool.and_true, Nat.testBit_div_two_pow, e,
      ge_iff_le, Nat.le_of_not_lt hik, decide_true, Bool.true_and]
    by_cases hi : i < 64
    · simp [hi]
    · have : x < 2 ^ i := Nat.lt_of_lt_of_le hx (Nat.pow_le_pow_right (by omega) (by omega))
      simp [Nat.testBit_lt_two_pow this]

/-- Clearing the low bits of `x` gives the start of its block. -/
theorem toNat_and_not_pred {a : UInt32} (h : IsPow2 a) (x : UInt64) :
    (x &&& ~~~(a - 1).toUInt64).toNat = x.toNat / a.toNat * a.toNat := by
  obtain ⟨k, hk⟩ := h
  have hk64 : k ≤ 64 := by
    have hlt : 2 ^ k < 2 ^ 64 := by
      rw [← hk]; exact Nat.lt_trans a.toNat_lt (by decide)
    exact Nat.le_of_lt ((Nat.pow_lt_pow_iff_right (by omega)).mp hlt)
  rw [UInt64.toNat_and, UInt64.toNat_not, toNat_pred ⟨k, hk⟩, hk]
  exact and_two_pow_complement x.toNat_lt hk64

/-- A block that starts before the end of a whole number of blocks ends there too. -/
theorem block_le {a b l : Nat} (hb : b % a = 0) (hl : l % a = 0) (h : b < l) : b + a ≤ l := by
  obtain ⟨q, rfl⟩ := Nat.dvd_of_mod_eq_zero hb
  obtain ⟨r, rfl⟩ := Nat.dvd_of_mod_eq_zero hl
  have hqr : q + 1 ≤ r := by
    apply Nat.lt_of_mul_lt_mul_left (a := a)
    exact h
  calc a * q + a = a * (q + 1) := by rw [Nat.mul_succ]
    _ ≤ a * r := Nat.mul_le_mul_left a hqr

end Mask
end Usbrw
