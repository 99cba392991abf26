import Vtoydump.Basis.Blocks

/-!
# The content of a file as a list of bytes

A file that is cut, made longer or written into, as a list of bytes.  A memory that changes
in the same way holds the list that results.
-/

namespace Blocks

open CRun

/-- Zeros behind a list that is too short. -/
def extend (bytes : List UInt8) (size : Nat) : List UInt8 :=
  bytes ++ List.replicate (size - bytes.length) 0

/-- The bytes from an offset on are replaced, as many as there are new ones. -/
def overwrite (bytes : List UInt8) (offset : Nat) (data : List UInt8) : List UInt8 :=
  bytes.take offset ++ (data ++ bytes.drop (offset + data.length))

section Lists

variable {bytes fill data : List UInt8} {offset size : Nat}

theorem length_extend (bytes : List UInt8) (size : Nat) :
    (extend bytes size).length = max bytes.length size := by
  rw [extend, List.length_append, List.length_replicate]
  omega

theorem extend_of_le (long : size ≤ bytes.length) : extend bytes size = bytes := by
  rw [extend, Nat.sub_eq_zero_of_le long, List.replicate_zero, List.append_nil]

/-- A list that was cut, or made longer with other bytes. -/
theorem take_resized (length : (bytes.take size ++ fill).length = size) :
    (bytes.take size ++ fill).take bytes.length = bytes.take size := by
  rw [List.length_append, List.length_take] at length
  rcases Nat.le_total bytes.length size with longer | shorter
  · rw [List.take_of_length_le longer, List.take_left]
  · have none : fill = [] := List.eq_nil_of_length_eq_zero (by omega)
    rw [none, List.append_nil, List.take_take, Nat.min_eq_right shorter]

theorem take_extend (bytes : List UInt8) (size : Nat) :
    (extend bytes size).take size = bytes.take size ++ List.replicate (size - bytes.length) 0 := by
  rw [extend, List.take_append, List.take_replicate, Nat.min_self]

theorem overwrite_nil (bytes : List UInt8) (offset : Nat) : overwrite bytes offset [] = bytes :=
  List.take_append_drop offset bytes

/-- What was behind the end is overwritten. -/
theorem overwrite_append (reached : offset ≤ bytes.length)
    (covered : bytes.length + fill.length ≤ offset + data.length) :
    overwrite (bytes ++ fill) offset data = overwrite bytes offset data := by
  have behind : (bytes ++ fill).drop (offset + data.length) = [] := by
    apply List.drop_eq_nil_of_le
    rw [List.length_append]
    exact covered
  have behindToo : bytes.drop (offset + data.length) = [] :=
    List.drop_eq_nil_of_le (Nat.le_trans (Nat.le_add_right _ _) covered)
  rw [overwrite, overwrite, behind, behindToo, List.take_append_of_le_length reached]

end Lists

section Memory

variable {memory other : Nat → UInt8} {offset size old new : Nat} {data : List UInt8}

theorem bytesAt_zeros {count : Nat} (zeros : ∀ index < count, memory (offset + index) = 0) :
    bytesAt memory offset count = List.replicate count 0 := by
  apply List.ext_getElem
  · rw [length_bytesAt, List.length_replicate]
  · intro index below _
    rw [length_bytesAt] at below
    simp [bytesAt, zeros index below]

theorem take_drop_bytesAt (memory : Nat → UInt8) (size offset count : Nat) :
    ((bytesAt memory 0 size).drop offset).take count =
      bytesAt memory offset (min count (size - offset)) := by
  apply List.ext_getElem
  · rw [List.length_take, List.length_drop, length_bytesAt, length_bytesAt]
  · intro index below _
    rw [List.length_take, List.length_drop, length_bytesAt] at below
    simp [bytesAt]

/-- A memory whose front is kept holds the front of what it held. -/
theorem bytesAt_resized (same : ∀ position < old, position < new →
    other position = memory position) :
    bytesAt other 0 new = (bytesAt memory 0 old).take new ++ bytesAt other old (new - old) := by
  have front := take_drop_bytesAt memory old 0 new
  rw [List.drop_zero, Nat.sub_zero] at front
  have kept : bytesAt other 0 (min new old) = bytesAt memory 0 (min new old) := by
    apply bytesAt_congr
    intro index below
    rw [Nat.zero_add]
    exact same index (by omega) (by omega)
  rw [front, ← kept]
  rcases Nat.le_total new old with shorter | longer
  · have none : bytesAt other old 0 = [] := rfl
    rw [Nat.min_eq_left shorter, Nat.sub_eq_zero_of_le shorter, none, List.append_nil]
  · have whole := bytesAt_append other 0 old (new - old)
    rw [Nat.add_sub_of_le longer, Nat.zero_add] at whole
    rw [Nat.min_eq_right longer, whole]

/-- A memory that bytes are written into holds them in the list. -/
theorem bytesAt_put (inside : offset + data.length ≤ size) :
    bytesAt (put memory offset data) 0 size = overwrite (bytesAt memory 0 size) offset data := by
  obtain ⟨rest, rfl⟩ := Nat.exists_eq_add_of_le inside
  have front : bytesAt (put memory offset data) 0 offset = bytesAt memory 0 offset :=
    bytesAt_put_apart (Or.inl (Nat.le_of_eq (Nat.zero_add offset)))
  have back : bytesAt (put memory offset data) (offset + data.length) rest =
      bytesAt memory (offset + data.length) rest := bytesAt_put_apart (Or.inr (Nat.le_refl _))
  rw [overwrite, bytesAt_append, bytesAt_append, bytesAt_append memory, bytesAt_append memory,
    Nat.zero_add, Nat.zero_add, front, bytesAt_put_same, back, List.append_assoc]
  congr 1
  · rw [List.append_assoc, List.take_left' (length_bytesAt _ _ _)]
  · rw [List.drop_left']
    rw [List.length_append, length_bytesAt, length_bytesAt]

end Memory

end Blocks
