import Vtoydump.Basis.Bytes

/-!
# Fields of a packed record

A record is its bytes; a field is some of them, at an offset.  Writing a field
changes that field and no other.
-/

namespace Record

open CRun

/-- The bytes of a field. -/
def field (bytes : List UInt8) (offset width : Nat) : List UInt8 := (bytes.drop offset).take width

/-- A number stored with the lowest byte first. -/
def number (bytes : List UInt8) (offset width : Nat) : Nat := leValue (field bytes offset width)

def setField (bytes : List UInt8) (offset : Nat) (data : List UInt8) : List UInt8 :=
  bytes.take offset ++ data ++ bytes.drop (offset + data.length)

variable {bytes data : List UInt8} {offset width other : Nat}

theorem length_setField (inside : offset + data.length ≤ bytes.length) :
    (setField bytes offset data).length = bytes.length := by
  simp only [setField, List.length_append, List.length_take, List.length_drop]
  omega

theorem getElem?_setField (inside : offset + data.length ≤ bytes.length) (index : Nat) :
    (setField bytes offset data)[index]? =
      if offset ≤ index ∧ index < offset + data.length then data[index - offset]?
      else bytes[index]? := by
  have front : (bytes.take offset).length = offset := by
    rw [List.length_take]
    omega
  rw [setField, List.append_assoc, List.getElem?_append, front]
  split_ifs with before within within
  · omega
  · rw [List.getElem?_take, if_pos before]
  · rw [List.getElem?_append, if_pos (by omega)]
  · rw [List.getElem?_append, if_neg (by omega), List.getElem?_drop]
    congr 1
    omega

theorem field_congr {first second : List UInt8}
    (same : ∀ index, offset ≤ index → index < offset + width → first[index]? = second[index]?) :
    field first offset width = field second offset width := by
  apply List.ext_getElem?
  intro index
  simp only [field, List.getElem?_take, List.getElem?_drop]
  split_ifs with inside
  · exact same _ (Nat.le_add_right _ _) (Nat.add_lt_add_left inside _)
  · rfl

theorem field_setField_same (inside : offset + data.length ≤ bytes.length)
    (whole : data.length = width) : field (setField bytes offset data) offset width = data := by
  subst whole
  have front : (bytes.take offset).length = offset := by
    rw [List.length_take]
    omega
  rw [field, setField, List.append_assoc, List.drop_left' front, List.take_left]

/-- A field that the written one does not touch. -/
theorem field_setField_apart (inside : offset + data.length ≤ bytes.length)
    (apart : other + width ≤ offset ∨ offset + data.length ≤ other) :
    field (setField bytes offset data) other width = field bytes other width := by
  apply field_congr
  intro index lower upper
  rw [getElem?_setField inside, if_neg (by omega)]

theorem number_setField_apart (inside : offset + data.length ≤ bytes.length)
    (apart : other + width ≤ offset ∨ offset + data.length ≤ other) :
    number (setField bytes offset data) other width = number bytes other width := by
  rw [number, field_setField_apart inside apart, number]

theorem number_lt (bytes : List UInt8) (offset width : Nat) :
    number bytes offset width < 256 ^ width := by
  apply Nat.lt_of_lt_of_le (leValue_lt _)
  apply Nat.pow_le_pow_right (by decide)
  rw [field, List.length_take]
  omega

/-- The numbers of two fields of one width are equal only when the fields are. -/
theorem leValue_injective {first second : List UInt8} (length : first.length = second.length)
    (same : leValue first = leValue second) : first = second := by
  induction first generalizing second with
  | nil => exact (List.length_eq_zero_iff.mp length.symm).symm
  | cons byte first inductionHypothesis =>
      cases second with
      | nil => cases length
      | cons other second =>
          have small := byte.toNat_lt
          have smallToo := other.toNat_lt
          rw [leValue, leValue] at same
          have head : byte = other := by
            rw [← UInt8.toNat_inj]
            omega
          have tail := inductionHypothesis (Nat.succ.inj length) (by omega)
          rw [head, tail]

/-- A field among others of one width. -/
theorem field_flatMap {Item : Type} {store : Item → List UInt8} (front : List UInt8)
    {items : List Item} (stored : ∀ item ∈ items, (store item).length = width) {index : Nat}
    {item : Item} (found : items[index]? = some item) :
    field (front ++ items.flatMap store) (front.length + width * index) width = store item := by
  have parts : items = items.take index ++ item :: items.drop (index + 1) := by
    obtain ⟨below, rfl⟩ := List.getElem?_eq_some_iff.mp found
    rw [List.getElem_cons_drop, List.take_append_drop]
  have before : ((items.take index).flatMap store).length = width * index := by
    have inside := (List.getElem?_eq_some_iff.mp found).1
    have each : ∀ list : List Item, (∀ item ∈ list, (store item).length = width) →
        (list.flatMap store).length = width * list.length := by
      intro list all
      induction list with
      | nil => rfl
      | cons head list inductionHypothesis =>
          obtain ⟨here, others⟩ := List.forall_mem_cons.mp all
          rw [List.flatMap_cons, List.length_append, here, inductionHypothesis others,
            List.length_cons, Nat.mul_succ, Nat.add_comm]
    rw [each _ fun item membership => stored item (List.mem_of_mem_take membership),
      List.length_take, Nat.min_eq_left (Nat.le_of_lt inside)]
  have whole := stored item (List.mem_of_getElem? found)
  rw [parts, List.flatMap_append, List.flatMap_cons, field, ← List.append_assoc,
    List.drop_left' (by rw [List.length_append, before]), List.take_left' whole]

/-- Pieces of one width, one after the other. -/
theorem flatMap_pieces {Item : Type} (items : List Item) (width count : Nat) :
    ((List.range count).flatMap fun index => (items.drop (width * index)).take width) =
      items.take (width * count) := by
  induction count with
  | zero => simp
  | succ count inductionHypothesis =>
      rw [List.range_succ, List.flatMap_append, inductionHypothesis, List.flatMap_singleton,
        Nat.mul_succ, List.take_add]

end Record
