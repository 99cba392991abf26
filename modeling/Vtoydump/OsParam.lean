import Vtoydump.Basis.Scan
import Vtoydump.Exfat.RegionTable

/-!
# The runtime data

`ventoy_os_param` is a packed structure of 512 bytes, kept here as those bytes.
`vtoy_check_os_param` looks at any 512 bytes as such a structure, wherever they
lie in a buffer.
-/

namespace Vtoydump

open CRun

def sizeofOsParam : Nat := 512

/-- `ventoy_os_param`, as it lies in memory. -/
structure OsParam where
  bytes : List UInt8
  length_bytes : bytes.length = sizeofOsParam
  deriving DecidableEq

/-- The string that begins at the first of some bytes; it must end among them. -/
def cString (bytes : List UInt8) : Run (List UInt8) :=
  if 0 ∈ bytes then .ok (bytes.takeWhile (· != 0)) else .error .outOfBounds

def shown (bytes : List UInt8) : List Char := bytes.map fun byte => Char.ofNat byte.toNat

namespace OsParam

def zero : OsParam := ⟨List.replicate sizeofOsParam 0, List.length_replicate⟩

def field (param : OsParam) (offset width : Nat) : List UInt8 :=
  (param.bytes.drop offset).take width

def vtoyDiskGuid (param : OsParam) : List UInt8 := param.field 17 16

def vtoyDiskSize (param : OsParam) : UInt64 := UInt64.ofNat (leValue (param.field 33 8))

def vtoyDiskPartId (param : OsParam) : UInt16 := UInt16.ofNat (leValue (param.field 41 2))

def vtoyDiskPartType (param : OsParam) : UInt16 := UInt16.ofNat (leValue (param.field 43 2))

/-- The memory from `vtoy_img_path` on. -/
def vtoyImgPath (param : OsParam) : List UInt8 := param.bytes.drop 45

def vtoyImgSize (param : OsParam) : UInt64 := UInt64.ofNat (leValue (param.field 429 8))

def vtoyImgLocationAddr (param : OsParam) : UInt64 := UInt64.ofNat (leValue (param.field 437 8))

def vtoyImgLocationLen (param : OsParam) : UInt32 := UInt32.ofNat (leValue (param.field 445 4))

def vtoyDiskSignature (param : OsParam) : List UInt8 := param.field 481 4

/-- The first bytes of a zeroed structure overwritten. -/
def ofBytes (bytes : List UInt8) : OsParam where
  bytes := (bytes ++ List.replicate sizeofOsParam 0).take sizeofOsParam
  length_bytes := by simp

theorem bytes_injective {param other : OsParam} (same : param.bytes = other.bytes) :
    param = other := by
  cases param
  exact (OsParam.mk.injEq _ _ _ _).mpr same

theorem bytes_ofBytes {bytes : List UInt8} (whole : bytes.length = sizeofOsParam) :
    (ofBytes bytes).bytes = bytes := List.take_left' whole

/-- A field is what its bytes are. -/
theorem field_congr {param other : OsParam} {offset width : Nat}
    (same : ∀ index, offset ≤ index → index < offset + width →
      param.bytes[index]? = other.bytes[index]?) :
    param.field offset width = other.field offset width := by
  apply List.ext_getElem?
  intro index
  rw [field, field, List.getElem?_take, List.getElem?_take]
  split_ifs with inside
  · rw [List.getElem?_drop, List.getElem?_drop]
    exact same _ (Nat.le_add_right _ _) (Nat.add_lt_add_left inside offset)
  · rfl

theorem field_ofBytes {front middle back : List UInt8} {offset width : Nat}
    (place : front.length = offset) (size : middle.length = width)
    (inside : offset + width ≤ sizeofOsParam) :
    (ofBytes (front ++ (middle ++ back))).field offset width = middle := by
  subst place size
  have written : (ofBytes (front ++ (middle ++ back))).bytes =
      (front ++ (middle ++ (back ++ List.replicate sizeofOsParam 0))).take sizeofOsParam := by
    simp [ofBytes, List.append_assoc]
  rw [field, written, List.drop_take, List.drop_left, List.take_take,
    Nat.min_eq_left (Nat.le_sub_of_add_le' inside), List.take_left]

/-- The structure carries the GUID, and its bytes sum to a multiple of 256. -/
def Valid (param : OsParam) : Prop :=
  param.bytes.take 16 = ventoyGuid ∧ (param.bytes.map UInt8.toNat).sum % 256 = 0

instance (param : OsParam) : Decidable param.Valid := inferInstanceAs (Decidable (_ ∧ _))

end OsParam

def byteSum (bytes : List UInt8) : UInt8 := bytes.foldl (· + ·) 0

def vtoyCheckOsParam (param : OsParam) : Int :=
  if param.bytes.take 16 ≠ ventoyGuid then 1
  else if byteSum param.bytes ≠ 0 then 1
  else 0

theorem byteSum_toNat (bytes : List UInt8) :
    (byteSum bytes).toNat = (bytes.map UInt8.toNat).sum % 256 := by
  have general : ∀ start : UInt8, (bytes.foldl (· + ·) start).toNat =
      (start.toNat + (bytes.map UInt8.toNat).sum) % 256 := by
    induction bytes with
    | nil =>
        intro start
        have small := start.toNat_lt
        simp [Nat.mod_eq_of_lt small]
    | cons byte bytes inductionHypothesis =>
        intro start
        rw [List.foldl_cons, inductionHypothesis, UInt8.toNat_add, List.map_cons, List.sum_cons,
          ← Nat.add_assoc, Nat.mod_add_mod]
  rw [byteSum, general, UInt8.toNat_zero, Nat.zero_add]

theorem vtoyCheckOsParam_eq_zero_iff {param : OsParam} :
    vtoyCheckOsParam param = 0 ↔ param.Valid := by
  unfold vtoyCheckOsParam OsParam.Valid
  rw [← byteSum_toNat, ← UInt8.toNat_zero, UInt8.toNat_inj]
  by_cases guid : param.bytes.take 16 = ventoyGuid <;> by_cases sum : byteSum param.bytes = 0 <;>
    simp [guid, sum]

/-- A buffer that a source filled with `size` bytes.  Behind them lies whatever
the memory held before. -/
structure Source where
  size : Nat
  memory : Nat → UInt8

/-- The structure that begins at a place of a memory. -/
def paramAt (memory : Nat → UInt8) (offset : Nat) : OsParam where
  bytes := bytesAt memory offset sizeofOsParam
  length_bytes := length_bytesAt _ _ _

theorem bytes_paramAt (memory : Nat → UInt8) (offset : Nat) :
    (paramAt memory offset).bytes = bytesAt memory offset sizeofOsParam := by
  rw [paramAt]

theorem take_paramAt (memory : Nat → UInt8) (offset : Nat) :
    (paramAt memory offset).bytes.take 16 = bytesAt memory offset 16 := by
  rw [bytes_paramAt, bytesAt, bytesAt, ← List.map_take, List.take_range,
    Nat.min_eq_left (by decide)]

theorem guid_of_valid {memory : Nat → UInt8} {offset : Nat}
    (valid : (paramAt memory offset).Valid) : bytesAt memory offset 16 = ventoyGuid := by
  rw [← take_paramAt]
  exact valid.1

/-- The first structure that is accepted, at offsets a step apart. -/
def firstAccepted (memory : Nat → UInt8) (step : Nat) : Nat → Nat → Option OsParam
  | 0, _ => none
  | count + 1, offset =>
      if vtoyCheckOsParam (paramAt memory offset) = 0 then some (paramAt memory offset)
      else firstAccepted memory step count (offset + step)

/-- The structure that is found begins at the first place that is accepted. -/
theorem reaches_of_firstAccepted {memory : Nat → UInt8} {step count offset : Nat}
    {param : OsParam} (found : firstAccepted memory step count offset = some param) :
    ∃ place, Reaches (fun other => (paramAt memory other).Valid)
        (List.range' offset count step) place ∧
      (paramAt memory place).Valid ∧ param = paramAt memory place := by
  induction count generalizing offset with
  | zero => cases found
  | succ count inductionHypothesis =>
      rw [firstAccepted] at found
      simp only [List.range'_succ, reaches_cons_iff]
      split_ifs at found with here
      · exact ⟨offset, .inl rfl, vtoyCheckOsParam_eq_zero_iff.mp here,
          (Option.some.inj found).symm⟩
      · obtain ⟨place, reached, valid, same⟩ := inductionHypothesis found
        exact ⟨place, .inr ⟨vtoyCheckOsParam_eq_zero_iff.not.mp here, reached⟩, valid, same⟩

theorem firstAccepted_eq_none_iff {memory : Nat → UInt8} {step count offset : Nat} :
    firstAccepted memory step count offset = none ↔
      ∀ place ∈ List.range' offset count step, ¬ (paramAt memory place).Valid := by
  induction count generalizing offset with
  | zero => simp [firstAccepted]
  | succ count inductionHypothesis =>
      rw [firstAccepted, List.range'_succ, List.forall_mem_cons, ← inductionHypothesis]
      split_ifs with here
      · simp [vtoyCheckOsParam_eq_zero_iff.mp here]
      · simp [vtoyCheckOsParam_eq_zero_iff.not.mp here]

theorem valid_of_firstAccepted {memory : Nat → UInt8} {step count offset : Nat}
    {param : OsParam} (found : firstAccepted memory step count offset = some param) :
    param.Valid := by
  obtain ⟨place, -, valid, rfl⟩ := reaches_of_firstAccepted found
  exact valid

theorem firstAccepted_of_valid {memory : Nat → UInt8} {step count offset : Nat}
    (valid : (paramAt memory offset).Valid) :
    firstAccepted memory step (count + 1) offset = some (paramAt memory offset) :=
  if_pos (vtoyCheckOsParam_eq_zero_iff.mpr valid)

/-- What a loader makes of the buffer that it searches, or of the code of a failure. -/
def loadFound (scanned : Except Int Source) (search : Source → Option OsParam)
    (param : OsParam) : Int × OsParam :=
  match scanned with
  | .error rc => (rc, param)
  | .ok source =>
      match search source with
      | none => (1, param)
      | some found => (0, found)

theorem paramAt_getD (param : OsParam) :
    paramAt (fun index => param.bytes.getD index 0) 0 = param := by
  have contents := bytesAt_getD param.bytes
  rw [param.length_bytes] at contents
  exact OsParam.bytes_injective ((bytes_paramAt _ _).trans contents)

/-- Runtime data of the image `/a`, on the first partition of a disk of one sector. -/
def ntfsParam : OsParam :=
  .ofBytes (ventoyGuid ++ [127] ++ List.replicate 16 0 ++ leBytes 8 512 ++ leBytes 2 1 ++
    leBytes 2 1 ++ [47, 97])

theorem valid_ntfsParam : ntfsParam.Valid := by
  decide +kernel

end Vtoydump
