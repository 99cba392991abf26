import Mathlib.Algebra.Ring.Nat
import Mathlib.Data.List.Basic
import Mathlib.Tactic.Common
import Vtoydump.Basis.Fault

/-!
# Little-endian fields and partly initialized blocks

A heap block has a size and a prefix that was written; a read past that prefix
yields no value of the program.
-/

namespace CRun

/-- The little-endian bytes of a number, `width` of them. -/
def leBytes : Nat → Nat → List UInt8
  | 0, _ => []
  | width + 1, value => UInt8.ofNat value :: leBytes width (value / 256)

/-- The number that little-endian bytes stand for. -/
def leValue : List UInt8 → Nat
  | [] => 0
  | byte :: bytes => byte.toNat + 256 * leValue bytes

@[simp] theorem length_leBytes (width value : Nat) : (leBytes width value).length = width := by
  induction width generalizing value with
  | zero => rfl
  | succ width inductionHypothesis => simp [leBytes, inductionHypothesis]

theorem leValue_leBytes (width value : Nat) :
    leValue (leBytes width value) = value % 256 ^ width := by
  induction width generalizing value with
  | zero => simp [leBytes, leValue, Nat.mod_one]
  | succ width inductionHypothesis =>
      rw [leBytes, leValue, inductionHypothesis, Nat.pow_succ, Nat.mul_comm _ 256,
        Nat.mod_mul]
      simp

theorem leValue_lt (bytes : List UInt8) : leValue bytes < 256 ^ bytes.length := by
  induction bytes with
  | nil => simp [leValue]
  | cons byte bytes inductionHypothesis =>
      have small := byte.toNat_lt
      rw [leValue, List.length_cons, Nat.pow_succ]
      omega

/-- The bytes of a memory from an offset on. -/
def bytesAt (memory : Nat → UInt8) (offset width : Nat) : List UInt8 :=
  (List.range width).map fun index => memory (offset + index)

@[simp] theorem length_bytesAt (memory : Nat → UInt8) (offset width : Nat) :
    (bytesAt memory offset width).length = width := by
  simp [bytesAt]

theorem getD_bytesAt {memory : Nat → UInt8} {offset width index : Nat}
    (inside : index < width) (default : UInt8) :
    (bytesAt memory offset width).getD index default = memory (offset + index) := by
  simp [bytesAt, List.getD_eq_getElem?_getD, inside]

theorem bytesAt_congr {first second : Nat → UInt8} {offset width : Nat}
    (same : ∀ index < width, first (offset + index) = second (offset + index)) :
    bytesAt first offset width = bytesAt second offset width := by
  unfold bytesAt
  apply List.map_congr_left
  intro index below
  exact same index (List.mem_range.mp below)

theorem bytesAt_getD_of_le {bytes : List UInt8} {offset width : Nat}
    (inside : offset + width ≤ bytes.length) :
    bytesAt (fun index => bytes.getD index 0) offset width = (bytes.drop offset).take width := by
  apply List.ext_getElem
  · rw [length_bytesAt, List.length_take, List.length_drop]
    omega
  · intro index below _
    rw [length_bytesAt] at below
    have room : offset + index < bytes.length :=
      Nat.lt_of_lt_of_le (Nat.add_lt_add_left below offset) inside
    simp [bytesAt, room]

theorem bytesAt_getD (bytes : List UInt8) :
    bytesAt (fun index => bytes.getD index 0) 0 bytes.length = bytes := by
  rw [bytesAt_getD_of_le (Nat.le_of_eq (Nat.zero_add _)), List.drop_zero, List.take_length]

/-- A block of the heap: `size` bytes, of which the first `written.length`
hold values. -/
structure HeapBlock where
  size : Nat
  written : List UInt8
  written_le : written.length ≤ size

namespace HeapBlock

/-- Read `width` bytes at an offset. -/
def read (block : HeapBlock) (offset width : Nat) : Run (List UInt8) :=
  if offset + width ≤ block.written.length then .ok ((block.written.drop offset).take width)
  else if offset + width ≤ block.size then .error .uninitialized
  else .error .outOfBounds

def readField (block : HeapBlock) (offset width : Nat) : Run Nat := do
  let bytes ← block.read offset width
  return leValue bytes

theorem read_eq_ok_iff {block : HeapBlock} {offset width : Nat} {bytes : List UInt8} :
    block.read offset width = .ok bytes ↔
      offset + width ≤ block.written.length ∧
        (block.written.drop offset).take width = bytes := by
  unfold read
  split_ifs with inside <;> simp [inside]

theorem read_of_le {block : HeapBlock} {offset width : Nat}
    (inside : offset + width ≤ block.written.length) :
    block.read offset width = .ok ((block.written.drop offset).take width) := if_pos inside

theorem readField_of_le {block : HeapBlock} {offset width : Nat}
    (inside : offset + width ≤ block.written.length) :
    block.readField offset width = .ok (leValue ((block.written.drop offset).take width)) := by
  simp [readField, read_of_le inside]

theorem readField_eq_ok_iff {block : HeapBlock} {offset width value : Nat} :
    block.readField offset width = .ok value ↔
      offset + width ≤ block.written.length ∧
        leValue ((block.written.drop offset).take width) = value := by
  rw [readField, bind_eq_ok_iff]
  simp only [read_eq_ok_iff, pure_eq_ok, Except.ok.injEq, and_assoc, exists_and_left,
    exists_eq_left']

theorem readField_leBytes {block : HeapBlock} {front back : List UInt8}
    {offset width value : Nat} (contents : block.written = front ++ (leBytes width value ++ back))
    (place : front.length = offset) :
    block.readField offset width = .ok (value % 256 ^ width) := by
  subst place
  rw [readField_of_le (by simp [contents]), contents, List.drop_left,
    List.take_left' (length_leBytes _ _), leValue_leBytes]

theorem readField_leBytes_of_lt {block : HeapBlock} {front back : List UInt8}
    {offset width value : Nat} (contents : block.written = front ++ (leBytes width value ++ back))
    (place : front.length = offset) (small : value < 256 ^ width) :
    block.readField offset width = .ok value := by
  rw [readField_leBytes contents place, Nat.mod_eq_of_lt small]

end HeapBlock

end CRun
