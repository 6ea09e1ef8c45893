import Mathlib.Data.Nat.Bitwise
import Mathlib.Tactic

/-!
# Address prefixes

A prefix is a mask of leading ones and a network aligned with it; the addresses that it
matches are an interval.
-/

namespace VgiRpc.Lib

theorem testBit_ones_shiftLeft {width bits index : Nat} :
    ((2 ^ width - 1) <<< bits).testBit index =
      (decide (bits ≤ index) && decide (index - bits < width)) := by
  rw [Nat.testBit_shiftLeft, Nat.testBit_two_pow_sub_one]

/-- A mask of leading ones clears the bits below it. -/
theorem and_leading_ones {address width bits : Nat} (bound : address < 2 ^ (width + bits)) :
    address &&& (2 ^ width - 1) <<< bits = address / 2 ^ bits * 2 ^ bits := by
  rw [← Nat.shiftRight_eq_div_pow, ← Nat.shiftLeft_eq]
  apply Nat.eq_of_testBit_eq
  intro index
  rw [Nat.testBit_and, testBit_ones_shiftLeft, Nat.testBit_shiftLeft, Nat.testBit_shiftRight]
  by_cases low : bits ≤ index
  · by_cases high : index - bits < width
    · simp [low, high]
    · have large : 2 ^ (width + bits) ≤ 2 ^ index :=
        Nat.pow_le_pow_right (Nat.zero_lt_two) (by omega)
      have clear : address.testBit index = false :=
        Nat.testBit_lt_two_pow (lt_of_lt_of_le bound large)
      simp [low, high, clear]
  · simp [low]

/-- What a prefix matches. -/
theorem and_eq_network_iff {address network width bits : Nat}
    (bound : address < 2 ^ (width + bits)) (aligned : 2 ^ bits ∣ network) :
    address &&& (2 ^ width - 1) <<< bits = network ↔
      network ≤ address ∧ address < network + 2 ^ bits := by
  rcases aligned with ⟨quotient, rfl⟩
  have positive : 0 < 2 ^ bits := Nat.two_pow_pos bits
  rw [and_leading_ones bound, Nat.mul_comm, Nat.mul_right_inj positive.ne', Nat.div_eq_iff positive]
  rw [Nat.mul_comm]
  omega

/-- The same of 32-bit words. -/
theorem word_and_eq_iff {address network mask : UInt32} {width bits : Nat}
    (size : width + bits = 32) (masks : mask.toNat = (2 ^ width - 1) <<< bits)
    (aligned : 2 ^ bits ∣ network.toNat) :
    address &&& mask = network ↔
      network.toNat ≤ address.toNat ∧ address.toNat < network.toNat + 2 ^ bits := by
  rw [← UInt32.toNat_inj, UInt32.toNat_and, masks]
  apply and_eq_network_iff _ aligned
  rw [size]
  exact address.toNat_lt

end VgiRpc.Lib
