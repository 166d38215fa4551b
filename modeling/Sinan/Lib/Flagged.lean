import Mathlib.Algebra.Order.Group.Nat

/-!
# A word that is a flag and a count

An atomic word often carries two things: a flag in its top bit and a count in the bits below.  While the
count fits below the flag, the operations of the machine act on the two parts: the flag is read and set
by a mask, and the count goes up and down by one, without a carry into the flag or a borrow from it.
-/

namespace Sinan.Lib

/-- the word of `w + 1` bits with the flag on top and the count below -/
def flagged (w : Nat) (flag : Bool) (count : Nat) : BitVec (w + 1) :=
  BitVec.ofNat (w + 1) (2 ^ w * flag.toNat + count)

/-- the mask of the flag -/
def flagBit (w : Nat) : BitVec (w + 1) := BitVec.twoPow (w + 1) w

section
variable {w count : Nat} (flag : Bool)

theorem flagged_toNat (h : count < 2 ^ w) :
    (flagged w flag count).toNat = 2 ^ w * flag.toNat + count := by
  refine Nat.mod_eq_of_lt ?_
  have hpow : 2 ^ (w + 1) = 2 ^ w + 2 ^ w := by rw [Nat.pow_succ, Nat.mul_two]
  cases flag
  · simp only [Bool.toNat_false]
    omega
  · simp only [Bool.toNat_true]
    omega

theorem flagBit_toNat (w : Nat) : (flagBit w).toNat = 2 ^ w :=
  BitVec.toNat_twoPow_of_lt (Nat.lt_succ_self w)

theorem flagged_getLsbD (h : count < 2 ^ w) : (flagged w flag count).getLsbD w = flag := by
  show (flagged w flag count).toNat.testBit w = flag
  rw [flagged_toNat flag h]
  cases flag
  · simp only [Bool.toNat_false, Nat.mul_zero, Nat.zero_add]
    exact Nat.testBit_lt_two_pow h
  · simp only [Bool.toNat_true, Nat.mul_one]
    rw [Nat.testBit_two_pow_add_eq, Nat.testBit_lt_two_pow h]
    rfl

theorem flagged_and_flagBit (h : count < 2 ^ w) :
    flagged w flag count &&& flagBit w ≠ 0#(w + 1) ↔ flag = true := by
  have hbit : flagBit w ≠ 0#(w + 1) := by
    intro hzero
    have hpos := Nat.two_pow_pos w
    have hnat := congrArg BitVec.toNat hzero
    rw [flagBit_toNat] at hnat
    exact hpos.ne' hnat
  unfold flagBit at hbit ⊢
  rw [BitVec.and_twoPow, flagged_getLsbD flag h]
  cases flag
  · simp only [Bool.false_eq_true, if_false, ne_eq, not_true_eq_false]
  · simp only [if_true, ne_eq, hbit, not_false_eq_true]

theorem flagged_or_flagBit (h : count < 2 ^ w) :
    flagged w flag count ||| flagBit w = flagged w true count := by
  refine BitVec.eq_of_toNat_eq ?_
  rw [BitVec.toNat_or, flagged_toNat flag h, flagged_toNat true h, flagBit_toNat]
  have hor : ∀ b : Bool, 2 ^ w * b.toNat + count = 2 ^ w * b.toNat ||| count :=
    fun b => Nat.two_pow_add_eq_or_of_lt h b.toNat
  rw [hor, hor]
  cases flag
  · simp only [Bool.toNat_false, Bool.toNat_true, Nat.mul_zero, Nat.mul_one, Nat.zero_or]
    exact Nat.or_comm _ _
  · simp only [Bool.toNat_true, Nat.mul_one]
    rw [Nat.or_comm, ← Nat.or_assoc, Nat.or_self]

theorem flagged_and_mask (h : count < 2 ^ w) :
    flagged w flag count &&& (flagBit w - 1#(w + 1)) = flagBit w - 1#(w + 1) ↔
      count = 2 ^ w - 1 := by
  have hpow : 2 ^ (w + 1) = 2 ^ w + 2 ^ w := by rw [Nat.pow_succ, Nat.mul_two]
  have hpos := Nat.two_pow_pos w
  have hmask : (flagBit w - 1#(w + 1)).toNat = 2 ^ w - 1 := by
    have hone : (1#(w + 1)).toNat = 1 := Nat.mod_eq_of_lt (by omega)
    rw [BitVec.toNat_sub_of_le, flagBit_toNat, hone]
    rw [BitVec.le_def, hone, flagBit_toNat]
    exact hpos
  have hcount : (2 ^ w * flag.toNat + count) % 2 ^ w = count := by
    rw [Nat.mul_add_mod, Nat.mod_eq_of_lt h]
  rw [← BitVec.toNat_inj, BitVec.toNat_and, hmask, flagged_toNat flag h,
    Nat.and_two_pow_sub_one_eq_mod, hcount]

theorem flagged_add_one (count : Nat) :
    flagged w flag count + 1#(w + 1) = flagged w flag (count + 1) := by
  exact (BitVec.ofNat_add (2 ^ w * flag.toNat + count) 1).symm

theorem flagged_sub_one (count : Nat) :
    flagged w flag (count + 1) - 1#(w + 1) = flagged w flag count := by
  rw [← flagged_add_one, BitVec.add_sub_cancel]

end

end Sinan.Lib
