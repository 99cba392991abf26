import Mathlib.Data.Nat.Bitwise
import Mathlib.Data.Set.SymmDiff
import Mathlib.Order.ConditionallyCompleteLattice.Basic
import Mathlib.Order.Bounds.Basic
import Mathlib.Order.Nat

/-!
# Words as sets of bits

A word stands for the set of its bits that are one, and the exclusive or of two
words for the symmetric difference of their sets.  Where two sets differ first,
the element is a new one exactly when every element that is gone has a new one
in front of it.
-/

namespace CRun

/-- The numbers of the bits that are one. -/
def bitSet (word : UInt32) : Set Nat := {index | word.toNat.testBit index = true}

/-- The word with one bit. -/
def bitMask (index : Nat) : UInt32 := 1 <<< UInt32.ofNat index

section Words

variable {word : UInt32} {index other : Nat}

theorem mem_bitSet : index ∈ bitSet word ↔ word.toNat.testBit index = true := Iff.rfl

instance (word : UInt32) : DecidablePred (· ∈ bitSet word) :=
  fun index => inferInstanceAs (Decidable (word.toNat.testBit index = true))

theorem toNat_bitMask (inside : index < 32) : (bitMask index).toNat = 2 ^ index := by
  rw [bitMask, UInt32.toNat_shiftLeft, UInt32.toNat_ofNat', UInt32.toNat_one, Nat.one_shiftLeft,
    Nat.mod_eq_of_lt (Nat.lt_trans inside (by decide)), Nat.mod_eq_of_lt inside]
  exact Nat.mod_eq_of_lt (Nat.pow_lt_pow_right (by decide) inside)

theorem lt_of_mem_bitSet {width : Nat} (small : word.toNat < 2 ^ width)
    (membership : index ∈ bitSet word) : index < width := by
  by_contra beyond
  have large : 2 ^ width ≤ 2 ^ index :=
    Nat.pow_le_pow_right Nat.two_pos (Nat.le_of_not_lt beyond)
  rw [mem_bitSet, Nat.testBit_lt_two_pow (small.trans_le large)] at membership
  cases membership

theorem lt_of_mem_bitSet_word (membership : index ∈ bitSet word) : index < 32 :=
  lt_of_mem_bitSet word.toNat_lt membership

theorem bitSet_injective : Function.Injective bitSet := by
  intro first second same
  apply UInt32.toNat_inj.mp
  apply Nat.eq_of_testBit_eq
  intro index
  exact Bool.eq_iff_iff.mpr (Set.ext_iff.mp same index)

theorem exists_isLeast_bitSet (nonzero : word ≠ 0) : ∃ first, IsLeast (bitSet word) first := by
  have inhabited : (bitSet word).Nonempty := by
    apply Set.nonempty_iff_ne_empty.mpr
    intro empty
    have zero : bitSet 0 = ∅ := by
      apply Set.eq_empty_of_forall_notMem
      intro index
      simp [mem_bitSet]
    exact nonzero (bitSet_injective (empty.trans zero.symm))
  exact ⟨Nat.find inhabited, inhabited.isLeast_natFind⟩

theorem bitSet_xor (first second : UInt32) :
    bitSet (first ^^^ second) = symmDiff (bitSet first) (bitSet second) := by
  ext index
  rw [Set.mem_symmDiff, mem_bitSet, mem_bitSet, mem_bitSet, UInt32.toNat_xor, Nat.testBit_xor]
  cases first.toNat.testBit index <;> cases second.toNat.testBit index <;> simp

theorem mem_bitSet_bitMask (inside : index < 32) :
    other ∈ bitSet (bitMask index) ↔ other = index := by
  rw [mem_bitSet, toNat_bitMask inside, Nat.testBit_two_pow, decide_eq_true_iff, eq_comm]

theorem bitSet_or_bitMask (inside : index < 32) :
    bitSet (word ||| bitMask index) = insert index (bitSet word) := by
  ext other
  rw [Set.mem_insert_iff, ← mem_bitSet_bitMask inside, mem_bitSet, mem_bitSet, mem_bitSet,
    UInt32.toNat_or, Nat.testBit_or, Bool.or_eq_true, or_comm]

theorem bitSet_and_not_bitMask (inside : index < 32) :
    bitSet (word &&& ~~~bitMask index) = bitSet word \ {index} := by
  ext other
  have others : (~~~bitMask index).toNat = 2 ^ 32 - ((bitMask index).toNat + 1) := by
    rw [UInt32.toNat_not, Nat.add_comm, ← Nat.sub_sub]
    rfl
  rw [Set.mem_sdiff, Set.mem_singleton_iff, ← mem_bitSet_bitMask inside, mem_bitSet,
    UInt32.toNat_and, others, Nat.testBit_and,
    Nat.testBit_two_pow_sub_succ (bitMask index).toNat_lt, Bool.and_eq_true, Bool.and_eq_true,
    decide_eq_true_iff, Bool.not_eq_true', ← Bool.not_eq_true]
  constructor
  · rintro ⟨kept, -, different⟩
    exact ⟨kept, different⟩
  · rintro ⟨kept, different⟩
    exact ⟨kept, lt_of_mem_bitSet_word kept, different⟩

theorem and_bitMask_eq_zero_iff (inside : index < 32) :
    word &&& bitMask index = 0 ↔ index ∉ bitSet word := by
  rw [← UInt32.toNat_inj, UInt32.toNat_and, toNat_bitMask inside, UInt32.toNat_zero,
    Nat.and_two_pow, mem_bitSet]
  cases word.toNat.testBit index with
  | false => simp
  | true => simp

theorem mem_bitSet_shiftRight : index ∈ bitSet (word >>> 1) ↔ index + 1 ∈ bitSet word := by
  rw [mem_bitSet, mem_bitSet, UInt32.toNat_shiftRight, UInt32.toNat_one, Nat.testBit_shiftRight,
    Nat.add_comm]

end Words

section Order

variable {Alpha : Type} [LinearOrder Alpha] {before after : Set Alpha} {first : Alpha}

/-- What two sets differ in first is new exactly when nothing that is gone stands in front
of everything that is new. -/
theorem mem_sdiff_iff_of_isLeast (least : IsLeast (symmDiff before after) first) :
    first ∈ after \ before ↔ ∀ gone ∈ before \ after, ∃ came ∈ after \ before, came < gone := by
  constructor
  · intro came gone left
    refine ⟨first, came, lt_of_le_of_ne (least.2 (.inl left)) ?_⟩
    rintro rfl
    exact came.2 left.1
  · intro preceded
    rcases least.1 with left | came
    · obtain ⟨came, new, earlier⟩ := preceded first left
      exact absurd (least.2 (.inr new)) (not_le_of_gt earlier)
    · exact came

end Order

end CRun
