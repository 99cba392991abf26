import Vtoydump.Basis.Packing

/-!
# Running checksums

A checksum that is a fold of one step over the bytes, some of which may be
skipped.  When the step loses neither the sum nor the byte, no change of a
single byte that counts keeps the checksum.  Rotating the sum by a bit and
adding the byte is such a step.
-/

namespace Checksum

variable {Sum Byte : Type}

/-- The step can be undone on either side. -/
structure Tight (step : Sum → Byte → Sum) : Prop where
  sum : ∀ {byte : Byte} {first second : Sum}, step first byte = step second byte → first = second
  byte : ∀ {sum : Sum} {first second : Byte}, step sum first = step sum second → first = second

/-- The sum over the bytes from an index on, without those at the indices skipped. -/
def sumSkipping (step : Sum → Byte → Sum) (skipped : Nat → Bool) :
    Nat → List Byte → Sum → Sum
  | _, [], sum => sum
  | index, byte :: bytes, sum =>
      sumSkipping step skipped (index + 1) bytes (if skipped index then sum else step sum byte)

variable {step : Sum → Byte → Sum} {skipped : Nat → Bool}

theorem sumSkipping_append (index : Nat) (front back : List Byte) (sum : Sum) :
    sumSkipping step skipped index (front ++ back) sum =
      sumSkipping step skipped (index + front.length) back
        (sumSkipping step skipped index front sum) := by
  induction front generalizing index sum with
  | nil => rfl
  | cons byte front inductionHypothesis =>
      rw [List.cons_append, sumSkipping, inductionHypothesis, sumSkipping, List.length_cons]
      congr 1
      omega

/-- A sum that skips nothing is a fold. -/
theorem sumSkipping_eq_foldl {index : Nat} {bytes : List Byte} {sum : Sum}
    (all : ∀ offset < bytes.length, skipped (index + offset) = false) :
    sumSkipping step skipped index bytes sum = bytes.foldl step sum := by
  induction bytes generalizing index sum with
  | nil => rfl
  | cons byte bytes inductionHypothesis =>
      have here := all 0 (Nat.succ_pos _)
      rw [Nat.add_zero] at here
      rw [sumSkipping, if_neg (by rw [here]; exact Bool.false_ne_true), List.foldl_cons]
      apply inductionHypothesis
      intro offset below
      rw [Nat.add_assoc, Nat.add_comm 1]
      exact all (offset + 1) (Nat.succ_lt_succ below)

theorem Tight.sumSkipping_injective (tight : Tight step) {index : Nat} {bytes : List Byte}
    {first second : Sum}
    (same : sumSkipping step skipped index bytes first =
      sumSkipping step skipped index bytes second) : first = second := by
  induction bytes generalizing index first second with
  | nil => exact same
  | cons byte bytes inductionHypothesis =>
      have stepped := inductionHypothesis same
      split_ifs at stepped
      · exact stepped
      · exact tight.sum stepped

/-- Another byte at an index that counts gives another sum. -/
theorem Tight.sumSkipping_ne (tight : Tight step) {index : Nat} {front back : List Byte}
    {byte other : Byte} (counts : skipped (index + front.length) = false)
    (different : byte ≠ other) (sum : Sum) :
    sumSkipping step skipped index (front ++ byte :: back) sum ≠
      sumSkipping step skipped index (front ++ other :: back) sum := by
  intro same
  rw [sumSkipping_append, sumSkipping_append, sumSkipping, sumSkipping, counts] at same
  exact different (tight.byte (tight.sumSkipping_injective same))

/-- The byte at a skipped index does not count. -/
theorem sumSkipping_skipped {index : Nat} {front back : List Byte}
    (skips : skipped (index + front.length) = true) (byte other : Byte) (sum : Sum) :
    sumSkipping step skipped index (front ++ byte :: back) sum =
      sumSkipping step skipped index (front ++ other :: back) sum := by
  rw [sumSkipping_append, sumSkipping_append, sumSkipping, sumSkipping, if_pos skips, if_pos skips]

section Rotate

variable {width first second : Nat}

/-- A rotation to the right, as the shifts of a word of `width + 1` bits give it. -/
theorem rotate_eq (small : first < 2 ^ (width + 1)) :
    first * 2 ^ width % 2 ^ (width + 1) ||| first / 2 = first % 2 * 2 ^ width + first / 2 := by
  have shifted : first * 2 ^ width % 2 ^ (width + 1) = first % 2 * 2 ^ width := by
    rw [Nat.pow_succ, Nat.mul_comm (2 ^ width) 2, Nat.mul_mod_mul_right]
  rw [shifted]
  apply CRun.or_eq_add _ _ (Nat.dvd_mul_left _ _)
  rw [Nat.pow_succ] at small
  omega

theorem rotate_injective (firstSmall : first < 2 ^ (width + 1))
    (secondSmall : second < 2 ^ (width + 1))
    (same : first % 2 * 2 ^ width + first / 2 = second % 2 * 2 ^ width + second / 2) :
    first = second := by
  rw [Nat.pow_succ] at firstSmall secondSmall
  rcases Nat.mod_two_eq_zero_or_one first with even | odd <;>
    rcases Nat.mod_two_eq_zero_or_one second with evenToo | oddToo <;>
    simp only [*] at same <;> omega

end Rotate

end Checksum
