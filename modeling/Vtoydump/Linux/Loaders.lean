import Vtoydump.Linux.System
import Vtoydump.OsParam

/-!
# Loading the runtime data on Linux

Three sources, tried in the order of `main`: the ACPI table, then the EFI
variable or physical memory.  Each of them checks what it read before it
reports success.
-/

namespace Vtoydump.Linux

open CRun

/-- `sizeof(acpi_table_header)` -/
def sizeofAcpiHeader : Nat := 36

def vtoyOsParamFromAcpi (system : System) (param : OsParam) : Int × OsParam :=
  if !system.acpiTable.accessible then (1, param)
  else
    match system.acpiTable.opened with
    | none => (1, .zero)
    | some content =>
        let read := OsParam.ofBytes ((content.drop sizeofAcpiHeader).take sizeofOsParam)
        if vtoyCheckOsParam read = 0 then (0, read) else (1, read)

/-- Read the variable from one of its two files, behind `skip` bytes of attributes. -/
def readEfivar (file : FileState (List UInt8)) (skip : Nat) (param : OsParam) : Int × OsParam :=
  match file.opened with
  | none => (1, param)
  | some content =>
      let delivered := (content.drop skip).take sizeofOsParam
      if delivered.length = sizeofOsParam ∧ vtoyCheckOsParam (.ofBytes delivered) = 0 then
        (0, .ofBytes delivered)
      else (1, .zero)

def vtoyOsParamFromEfivar (system : System) (param : OsParam) : Int × OsParam :=
  if system.efivar.accessible then readEfivar system.efivar 4 param
  else if system.efivarData.accessible then readEfivar system.efivarData 0 param
  else (1, param)

def searchMemStart : Nat := 0x80000

def searchMemLen : Nat := 0x20000

def vtoyOsParamFromPhymem (system : System) (param : OsParam) : Int × OsParam :=
  match system.devMem with
  | .locked errno => (errno, param)
  | .opened mmap =>
      match mmap searchMemStart searchMemLen with
      | .error errno => (errno, param)
      | .ok memory =>
          match firstAccepted memory 16 (searchMemLen / 16) 0 with
          | none => (1, param)
          | some found => (0, found)

/-- The part of `main` that loads the runtime data. -/
def loadOsParam (system : System) : Int × OsParam :=
  let (rc, param) := vtoyOsParamFromAcpi system .zero
  if rc ≠ 0 then
    if system.efi then vtoyOsParamFromEfivar system param
    else vtoyOsParamFromPhymem system param
  else (rc, param)

section Valid

variable {system : System} {before param : OsParam}

theorem valid_of_fromAcpi (loaded : vtoyOsParamFromAcpi system before = (0, param)) :
    param.Valid := by
  unfold vtoyOsParamFromAcpi at loaded
  split_ifs at loaded with absent
  · cases loaded
  · cases opened : system.acpiTable.opened with
    | none =>
        rw [opened] at loaded
        cases loaded
    | some content =>
        simp only [opened] at loaded
        split_ifs at loaded with accepted
        · rw [← (Prod.mk.inj loaded).2]
          exact vtoyCheckOsParam_eq_zero_iff.mp accepted
        · cases loaded

theorem valid_of_readEfivar {file : FileState (List UInt8)} {skip : Nat}
    (loaded : readEfivar file skip before = (0, param)) : param.Valid := by
  unfold readEfivar at loaded
  cases opened : file.opened with
  | none =>
      rw [opened] at loaded
      cases loaded
  | some content =>
      simp only [opened] at loaded
      split_ifs at loaded with accepted
      · rw [← (Prod.mk.inj loaded).2]
        exact vtoyCheckOsParam_eq_zero_iff.mp accepted.2
      · cases loaded

theorem valid_of_fromEfivar (loaded : vtoyOsParamFromEfivar system before = (0, param)) :
    param.Valid := by
  unfold vtoyOsParamFromEfivar at loaded
  split_ifs at loaded
  · exact valid_of_readEfivar loaded
  · exact valid_of_readEfivar loaded
  · cases loaded

theorem valid_of_fromPhymem (loaded : vtoyOsParamFromPhymem system before = (0, param)) :
    param.Valid := by
  unfold vtoyOsParamFromPhymem at loaded
  cases memory : system.devMem with
  | locked errno =>
      rw [memory] at loaded
      exact absurd (Prod.mk.inj loaded).1 errno.property
  | opened mmap =>
      simp only [memory] at loaded
      cases mapped : mmap searchMemStart searchMemLen with
      | error errno =>
          rw [mapped] at loaded
          exact absurd (Prod.mk.inj loaded).1 errno.property
      | ok window =>
          simp only [mapped] at loaded
          cases accepted : firstAccepted window 16 (searchMemLen / 16) 0 with
          | none =>
              rw [accepted] at loaded
              cases loaded
          | some found =>
              rw [accepted] at loaded
              rw [← (Prod.mk.inj loaded).2]
              exact valid_of_firstAccepted accepted

/-- Whatever the sources hold, what `main` goes on with was checked. -/
theorem valid_of_loadOsParam (loaded : loadOsParam system = (0, param)) : param.Valid := by
  unfold loadOsParam at loaded
  rcases acpi : vtoyOsParamFromAcpi system .zero with ⟨rc, read⟩
  simp only [acpi] at loaded
  split_ifs at loaded with failed efi
  · exact valid_of_fromEfivar loaded
  · exact valid_of_fromPhymem loaded
  · cases loaded
    exact valid_of_fromAcpi acpi

end Valid

end Vtoydump.Linux
