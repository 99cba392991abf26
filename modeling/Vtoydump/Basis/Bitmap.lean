import Mathlib.Data.Finset.Card
import Mathlib.Data.Finset.Range
import Mathlib.Tactic.Common

/-!
# Bits in words

A bit of a bitmap is a bit of one of its words.  A word of ones has no clear bit, so a
search for one can pass it at once.
-/

/-- Some bits in words of some width; the words have room for all of them. -/
structure Bitmap (width size : Nat) where
  words : List (BitVec width)
  room : size ≤ words.length * width

namespace Bitmap

variable {width size : Nat}

def mask (width index : Nat) : BitVec width := BitVec.ofNat width 1 <<< (index % width)

def word (bitmap : Bitmap width size) (block : Nat) : BitVec width :=
  bitmap.words.getD block (BitVec.ofNat width 0)

def get (bitmap : Bitmap width size) (index : Nat) : BitVec width :=
  bitmap.word (index / width) &&& mask width index

def isSet (bitmap : Bitmap width size) (index : Nat) : Bool :=
  bitmap.get index != BitVec.ofNat width 0

def set (bitmap : Bitmap width size) (index : Nat) : Bitmap width size where
  words := bitmap.words.modify (index / width) (· ||| mask width index)
  room := by
    rw [List.length_modify]
    exact bitmap.room

def clear (bitmap : Bitmap width size) (index : Nat) : Bitmap width size where
  words := bitmap.words.modify (index / width) (· &&& ~~~ mask width index)
  room := by
    rw [List.length_modify]
    exact bitmap.room

section Bits

variable {bitmap : Bitmap width size} {index : Nat}

theorem block_lt (bitmap : Bitmap width size) (inside : index < size) :
    index / width < bitmap.words.length := by
  apply Nat.div_lt_of_lt_mul
  rw [Nat.mul_comm]
  exact Nat.lt_of_lt_of_le inside bitmap.room

theorem width_pos (bitmap : Bitmap width size) (inside : index < size) : 0 < width := by
  have room := bitmap.room
  rcases Nat.eq_zero_or_pos width with rfl | positive
  · omega
  · exact positive

theorem getLsbD_mask (width index bit : Nat) :
    (mask width index).getLsbD bit = (decide (bit < width) && decide (bit = index % width)) := by
  rw [mask, BitVec.getLsbD_shiftLeft, BitVec.getLsbD_one]
  rcases Nat.lt_trichotomy bit (index % width) with less | rfl | more
  · simp [less, Nat.ne_of_lt less]
  · by_cases inside : index % width < width <;> simp [inside]
    omega
  · have apart : bit - index % width ≠ 0 := by omega
    simp [apart, Nat.ne_of_gt more]

theorem isSet_eq (bitmap : Bitmap width size) (index : Nat) :
    bitmap.isSet index = (bitmap.word (index / width)).getLsbD (index % width) := by
  rw [isSet, Bool.eq_iff_iff, bne_iff_ne]
  constructor
  · intro some
    by_contra unset
    apply some
    apply BitVec.eq_of_getLsbD_eq
    intro bit _
    rw [get, BitVec.getLsbD_and, getLsbD_mask, BitVec.getLsbD_zero]
    by_cases here : bit = index % width
    · rw [here, Bool.eq_false_iff.mpr unset, Bool.false_and]
    · simp [here]
  · intro some none
    have bit := congrArg (BitVec.getLsbD · (index % width)) none
    have below := BitVec.lt_of_getLsbD some
    simp only [get, BitVec.getLsbD_and, getLsbD_mask, some, below, decide_true, Bool.true_and,
      BitVec.getLsbD_zero, Bool.true_eq_false] at bit

theorem word_modify (bitmap : Bitmap width size) (change : BitVec width → BitVec width)
    {block : Nat} (inside : block < bitmap.words.length) (other : Nat) :
    (bitmap.words.modify block change).getD other (BitVec.ofNat width 0) =
      if other = block then change (bitmap.word other) else bitmap.word other := by
  rw [List.getD_eq_getElem?_getD, List.getElem?_modify, word, List.getD_eq_getElem?_getD]
  by_cases same : other = block
  · subst same
    simp [inside]
  · simp [same, Ne.symm same]

theorem eq_iff_div_mod (width first second : Nat) :
    first = second ↔ first / width = second / width ∧ first % width = second % width := by
  constructor
  · rintro rfl
    exact ⟨rfl, rfl⟩
  · rintro ⟨block, bit⟩
    rw [← Nat.div_add_mod first width, block, bit, Nat.div_add_mod]

theorem isSet_set (bitmap : Bitmap width size) (inside : index < size) (other : Nat) :
    (bitmap.set index).isSet other = (decide (other = index) || bitmap.isSet other) := by
  have positive := bitmap.width_pos inside
  have below := Nat.mod_lt other positive
  have changed := bitmap.word_modify (· ||| mask width index) (bitmap.block_lt inside)
    (other / width)
  have stored : (bitmap.set index).word (other / width) = _ := changed
  rw [isSet_eq, isSet_eq, stored]
  by_cases block : other / width = index / width
  · rw [if_pos block, BitVec.getLsbD_or, getLsbD_mask, Bool.or_comm]
    simp only [below, eq_iff_div_mod width other index, block, decide_true, Bool.true_and,
      true_and]
  · have apart : other ≠ index := fun same => block (by rw [same])
    rw [if_neg block, decide_eq_false apart, Bool.false_or]

theorem isSet_clear (bitmap : Bitmap width size) (inside : index < size) (other : Nat) :
    (bitmap.clear index).isSet other = (decide (other ≠ index) && bitmap.isSet other) := by
  have positive := bitmap.width_pos inside
  have below := Nat.mod_lt other positive
  have changed := bitmap.word_modify (· &&& ~~~ mask width index) (bitmap.block_lt inside)
    (other / width)
  have stored : (bitmap.clear index).word (other / width) = _ := changed
  rw [isSet_eq, isSet_eq, stored]
  by_cases block : other / width = index / width
  · rw [if_pos block, BitVec.getLsbD_and, BitVec.getLsbD_not, getLsbD_mask, Bool.and_comm]
    simp only [below, ne_eq, eq_iff_div_mod width other index, block, decide_true,
      Bool.true_and, true_and, decide_not]
  · have apart : other ≠ index := fun same => block (by rw [same])
    rw [if_neg block, decide_eq_true apart, Bool.true_and]

theorem isSet_of_full {block : Nat} (full : bitmap.word block = BitVec.allOnes width)
    (positive : 0 < width) (here : index / width = block) : bitmap.isSet index = true := by
  rw [isSet_eq, here, full, BitVec.getLsbD_allOnes]
  exact decide_eq_true (Nat.mod_lt index positive)

end Bits

/-- What a search for a clear bit between two bounds finds. -/
def FirstClear (bitmap : Bitmap width size) (low high : Nat) : Option Nat → Prop
  | none => ∀ index, low ≤ index → index < high → bitmap.isSet index = true
  | some found => low ≤ found ∧ found < high ∧ bitmap.isSet found = false ∧
      ∀ index, low ≤ index → index < found → bitmap.isSet index = true

section Search

variable {bitmap : Bitmap width size} {low middle next high : Nat} {found : Option Nat}

theorem firstClear_empty (ordered : high ≤ low) : bitmap.FirstClear low high none :=
  fun _ lower upper => absurd (Nat.lt_of_lt_of_le upper ordered) (Nat.not_lt.mpr lower)

/-- A search that finds nothing goes on behind its bound. -/
theorem FirstClear.append (first : bitmap.FirstClear low middle none)
    (rest : bitmap.FirstClear next high found) (ordered : low ≤ next)
    (covered : ∀ index, low ≤ index → middle ≤ index → index < high → next ≤ index) :
    bitmap.FirstClear low high found := by
  cases found with
  | none =>
      intro index lower upper
      rcases Nat.lt_or_ge index middle with before | behind
      · exact first index lower before
      · exact rest index (covered index lower behind upper) upper
  | some found =>
      obtain ⟨behind, upper, clear, before⟩ := rest
      refine ⟨Nat.le_trans ordered behind, upper, clear, fun index lower below => ?_⟩
      rcases Nat.lt_or_ge index middle with early | late
      · exact first index lower early
      · exact before index (covered index lower late (Nat.lt_trans below upper)) below

/-- A search that has found a bit does not look behind it. -/
theorem FirstClear.extend {index : Nat} (first : bitmap.FirstClear low middle (some index))
    (ordered : middle ≤ high) : bitmap.FirstClear low high (some index) :=
  ⟨first.1, Nat.lt_of_lt_of_le first.2.1 ordered, first.2.2⟩

end Search

/-- The bits that are clear. -/
def clearBits (bitmap : Bitmap width size) : Finset Nat :=
  (Finset.range size).filter fun index => bitmap.isSet index = false

theorem mem_clearBits {bitmap : Bitmap width size} {index : Nat} :
    index ∈ bitmap.clearBits ↔ index < size ∧ bitmap.isSet index = false := by
  rw [clearBits, Finset.mem_filter, Finset.mem_range]

theorem clearBits_set (bitmap : Bitmap width size) {index : Nat} (inside : index < size) :
    (bitmap.set index).clearBits = bitmap.clearBits.erase index := by
  ext other
  rw [mem_clearBits, Finset.mem_erase, mem_clearBits, isSet_set bitmap inside,
    Bool.or_eq_false_iff, decide_eq_false_iff_not]
  tauto

theorem clearBits_clear (bitmap : Bitmap width size) {index : Nat} (inside : index < size) :
    (bitmap.clear index).clearBits = insert index bitmap.clearBits := by
  ext other
  rw [mem_clearBits, Finset.mem_insert, mem_clearBits, isSet_clear bitmap inside]
  by_cases same : other = index
  · simp [same, inside]
  · simp [same]

end Bitmap
