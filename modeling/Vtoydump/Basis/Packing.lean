import Mathlib.Algebra.Order.Ring.Nat
import Mathlib.Tactic.Ring

/-!
# Fields of a word

Fields that are shifted to their places and joined by `|` add up, and a mask
takes one field out again.
-/

namespace CRun

/-- A field below the lowest bit of the rest. -/
theorem or_eq_add (width : Nat) {low base : Nat} (small : low < 2 ^ width)
    (multiple : 2 ^ width ∣ base) : base ||| low = base + low := by
  obtain ⟨high, rfl⟩ := multiple
  rw [Nat.mul_comm, ← Nat.shiftLeft_eq, Nat.shiftLeft_add_eq_or_of_lt small]

/-- The bits that a mask of so many bits, so far to the left, leaves. -/
theorem and_mask (value count shift : Nat) :
    value &&& (2 ^ count - 1) <<< shift = value / 2 ^ shift % 2 ^ count * 2 ^ shift := by
  rw [← Nat.shiftRight_eq_div_pow, ← Nat.and_two_pow_sub_one_eq_mod, ← Nat.shiftLeft_eq]
  apply Nat.eq_of_testBit_eq
  intro index
  simp only [Nat.testBit_and, Nat.testBit_shiftLeft, Nat.testBit_shiftRight]
  by_cases above : shift ≤ index
  · simp [above]
  · simp [above]

/-- All bits below a place are set. -/
theorem or_mask (width value : Nat) :
    value ||| (2 ^ width - 1) = value / 2 ^ width * 2 ^ width + (2 ^ width - 1) := by
  have small : 2 ^ width - 1 < 2 ^ width := Nat.sub_lt (Nat.two_pow_pos width) Nat.one_pos
  rw [← or_eq_add width small (Nat.dvd_mul_left _ _), ← Nat.shiftRight_eq_div_pow,
    ← Nat.shiftLeft_eq]
  apply Nat.eq_of_testBit_eq
  intro index
  simp only [Nat.testBit_or, Nat.testBit_two_pow_sub_one, Nat.testBit_shiftLeft,
    Nat.testBit_shiftRight]
  by_cases below : index < width
  · simp [below]
  · have above : width ≤ index := Nat.not_lt.mp below
    simp [below, above]

/-- Three fields of one word. -/
theorem packed_eq {low mid high first second : Nat} (lowSmall : low < 2 ^ first)
    (midSmall : mid < 2 ^ second) :
    low ||| mid <<< first ||| high <<< (first + second) =
      low + 2 ^ first * (mid + 2 ^ second * high) := by
  have inner : low ||| mid <<< first = mid * 2 ^ first + low := by
    rw [Nat.or_comm, Nat.shiftLeft_eq, or_eq_add _ lowSmall (Nat.dvd_mul_left _ _)]
  have small : mid * 2 ^ first + low < 2 ^ (first + second) := by
    have full := Nat.mul_le_mul_right (2 ^ first) (Nat.succ_le_of_lt midSmall)
    rw [Nat.succ_mul] at full
    rw [Nat.pow_add, Nat.mul_comm (2 ^ first) (2 ^ second)]
    omega
  rw [inner, Nat.or_comm, Nat.shiftLeft_eq, or_eq_add _ small (Nat.dvd_mul_left _ _), Nat.pow_add]
  ring

end CRun
