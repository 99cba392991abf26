import Mathlib.Data.List.GetD
import Mathlib.Tactic.Common
import Vtoydump.Basis.Bytes

/-!
# A file stored in blocks

A file of equal blocks, each at a place of its own on a device.  A reader that
takes one piece of a block after another gets the bytes of the file.
-/

namespace Blocks

open CRun

/-- The byte at a position of a file whose blocks have this width. -/
def fileByte (memory : Nat → UInt8) (place : Nat → Nat) (width position : Nat) : UInt8 :=
  memory (place (position / width) + position % width)

variable {memory : Nat → UInt8} {place : Nat → Nat} {width position count : Nat}

/-- Reading two pieces one after the other is reading both at once. -/
theorem bytesAt_append (memory : Nat → UInt8) (offset first second : Nat) :
    bytesAt memory offset (first + second) =
      bytesAt memory offset first ++ bytesAt memory (offset + first) second := by
  simp only [bytesAt, List.range_add, List.map_append, List.map_map, Function.comp_def,
    Nat.add_assoc]

/-- A piece that stays in its block is stored in one piece. -/
theorem bytesAt_fileByte (within : position % width + count ≤ width) :
    bytesAt (fileByte memory place width) position count =
      bytesAt memory (place (position / width) + position % width) count := by
  unfold bytesAt
  apply List.map_congr_left
  intro index below
  rw [List.mem_range] at below
  have inner : position % width + index < width := by omega
  have block : (position + index) / width = position / width := by
    conv_lhs => rw [← Nat.div_add_mod position width]
    rw [Nat.add_assoc, Nat.mul_add_div (by omega), Nat.div_eq_of_lt inner, Nat.add_zero]
  have inside : (position + index) % width = position % width + index := by
    conv_lhs => rw [← Nat.div_add_mod position width]
    rw [Nat.add_assoc, Nat.mul_add_mod, Nat.mod_eq_of_lt inner]
  rw [fileByte, block, inside, Nat.add_assoc]

/-- The piece of the file that a block of `width` bytes still holds at a position. -/
def piece (width position left : Nat) : Nat := min (width - position % width) left

theorem piece_le (width position left : Nat) : piece width position left ≤ left :=
  Nat.min_le_right _ _

theorem piece_within (positive : 0 < width) (position left : Nat) :
    position % width + piece width position left ≤ width := by
  have inner := Nat.mod_lt position positive
  unfold piece
  omega

theorem piece_pos (positive : 0 < width) (position : Nat) {left : Nat} (more : 0 < left) :
    0 < piece width position left := by
  have inner := Nat.mod_lt position positive
  unfold piece
  omega

/-- Behind a piece that is not the last one, the next block begins. -/
theorem next_block (positive : 0 < width) {left : Nat}
    (more : 0 < left - piece width position left) :
    (position + piece width position left) / width = position / width + 1 ∧
      (position + piece width position left) % width = 0 := by
  have inner := Nat.mod_lt position positive
  have full : position % width + piece width position left = width := by
    unfold piece at more ⊢
    omega
  have whole : position + piece width position left = width * (position / width + 1) := by
    have parts := Nat.div_add_mod position width
    rw [Nat.mul_add, Nat.mul_one]
    omega
  rw [whole]
  exact ⟨Nat.mul_div_cancel_left _ positive, Nat.mul_mod_right _ _⟩

/-- A memory after bytes were written at an offset. -/
def put (memory : Nat → UInt8) (offset : Nat) (bytes : List UInt8) : Nat → UInt8 := fun position =>
  if offset ≤ position ∧ position < offset + bytes.length then bytes.getD (position - offset) 0
  else memory position

section Put

variable {offset : Nat} {bytes : List UInt8}

theorem put_apart (apart : position < offset ∨ offset + bytes.length ≤ position) :
    put memory offset bytes position = memory position := by
  apply if_neg
  omega

theorem put_inside {index : Nat} (inside : index < bytes.length) :
    put memory offset bytes (offset + index) = bytes.getD index 0 := by
  rw [put, if_pos (by omega), Nat.add_sub_cancel_left]

theorem bytesAt_put_same (memory : Nat → UInt8) (offset : Nat) (bytes : List UInt8) :
    bytesAt (put memory offset bytes) offset bytes.length = bytes := by
  apply List.ext_getElem
  · rw [length_bytesAt]
  · intro index _ inside
    have here := @put_inside memory offset bytes index inside
    simp only [bytesAt, List.getElem_map, List.getElem_range]
    rw [here, List.getD_eq_getElem?_getD, List.getElem?_eq_getElem inside, Option.getD_some]

theorem bytesAt_put_apart (apart : position + count ≤ offset ∨ offset + bytes.length ≤ position) :
    bytesAt (put memory offset bytes) position count = bytesAt memory position count := by
  apply bytesAt_congr
  intro index below
  exact put_apart (by omega)

theorem put_nil (memory : Nat → UInt8) (offset : Nat) : put memory offset [] = memory := by
  funext position
  apply put_apart
  rw [List.length_nil]
  omega

theorem put_congr {other : Nat → UInt8} (same : other position = memory position) :
    put other offset bytes position = put memory offset bytes position := by
  rw [put, put, same]

/-- Writing two pieces one after the other is writing both at once. -/
theorem put_append (memory : Nat → UInt8) (offset : Nat) (first second : List UInt8) :
    put (put memory offset first) (offset + first.length) second =
      put memory offset (first ++ second) := by
  funext position
  rcases Nat.lt_or_ge position (offset + first.length) with inFirst | behind
  · rw [put_apart (Or.inl inFirst)]
    rcases Nat.lt_or_ge position offset with before | inside
    · rw [put_apart (Or.inl before), put_apart (Or.inl before)]
    · obtain ⟨index, rfl⟩ := Nat.exists_eq_add_of_le inside
      have below : index < first.length := by omega
      rw [put_inside below, put_inside (by rw [List.length_append]; omega),
        List.getD_append _ _ _ _ below]
  · obtain ⟨index, rfl⟩ := Nat.exists_eq_add_of_le behind
    rcases Nat.lt_or_ge index second.length with inSecond | outside
    · rw [put_inside inSecond, Nat.add_assoc,
        put_inside (by rw [List.length_append]; omega), List.getD_append_right _ _ _ _ (by omega),
        Nat.add_sub_cancel_left]
    · rw [put_apart (by omega), put_apart (by omega), put_apart (by rw [List.length_append]; omega)]

/-- Blocks that do not overlap. -/
def Apart (place : Nat → Nat) (width count : Nat) : Prop :=
  ∀ first < count, ∀ second < count, first ≠ second →
    place first + width ≤ place second ∨ place second + width ≤ place first

/-- Writing into one block writes into the file, and changes no other block. -/
theorem fileByte_put {position other : Nat} (apart : Apart place width count)
    (within : position % width + bytes.length ≤ width) (inside : position / width < count)
    (insideToo : other / width < count) (positive : 0 < width) :
    fileByte (put memory (place (position / width) + position % width) bytes) place width other =
      put (fileByte memory place width) position bytes other := by
  have parts := Nat.div_add_mod position width
  have partsOther := Nat.div_add_mod other width
  have inner := Nat.mod_lt other positive
  by_cases block : other / width = position / width
  · rw [block] at partsOther
    by_cases covered : position ≤ other ∧ other < position + bytes.length
    · obtain ⟨index, rfl⟩ := Nat.exists_eq_add_of_le covered.1
      rw [put_inside (by omega), fileByte, block]
      have shifted : place (position / width) + (position + index) % width =
          place (position / width) + position % width + index := by omega
      rw [shifted, put_inside (by omega)]
    · rw [put_apart (by omega), fileByte, fileByte, block, put_apart (by omega)]
  · have elsewhere := apart _ inside _ insideToo (Ne.symm block)
    have away : other < position ∨ position + bytes.length ≤ other := by
      rcases Nat.lt_or_gt_of_ne block with before | behind
      · left
        have lower : other < (other / width + 1) * width := by
          rw [Nat.add_mul, Nat.mul_comm]
          omega
        have upper := Nat.mul_le_mul_right width (Nat.succ_le_of_lt before)
        rw [Nat.mul_comm (position / width)] at upper
        rw [Nat.succ_eq_add_one] at upper
        omega
      · right
        have upper := Nat.mul_le_mul_right width (Nat.succ_le_of_lt behind)
        rw [Nat.succ_mul, Nat.mul_comm (other / width), Nat.mul_comm (position / width)] at upper
        omega
    rw [put_apart away, fileByte, fileByte, put_apart (by omega)]

end Put

end Blocks
