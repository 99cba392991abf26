import Vtoydump.Basis.Text
import Vtoydump.Windows.System

/-!
# Loading the runtime data on Windows

A data file, the EFI variable or the iBFT table, and the VTOY table behind
each of them.  The tables and the file are searched for a structure that the
check accepts; the EFI variable is taken as it is.
-/

namespace Vtoydump.Windows

open CRun

def vtoyIsEfiSystem (system : System) : Bool :=
  let status := system.dummyVariable false
  -- ERROR_PRIVILEGE_NOT_HELD: the privilege is granted, and the query repeated
  let status := if status = 1314 then system.dummyVariable true else status
  -- ERROR_INVALID_FUNCTION
  status != 1

/-- `GetFirmwareEnvironmentVariableA` stores a variable that fits, or nothing. -/
def vtoyOsParamFromEfivar (system : System) (param : OsParam) : Int × OsParam :=
  let stored := if system.efivar.length ≤ sizeofOsParam then system.efivar else []
  let filled := OsParam.ofBytes (stored ++ param.bytes.drop stored.length)
  if stored.length ≠ sizeofOsParam then (1, filled) else (0, filled)

/-- The scan of a data file goes on behind a structure that is accepted. -/
def lastAccepted (memory : Nat → UInt8) : Nat → Nat → Option OsParam → Option OsParam
  | 0, _, found => found
  | count + 1, offset, found =>
      lastAccepted memory count (offset + 1)
        (if vtoyCheckOsParam (paramAt memory offset) = 0 then some (paramAt memory offset)
          else found)

def vtoyOsParamFromFile (system : System) (param : OsParam) (file : List Char) : Int × OsParam :=
  match system.dataFile file with
  | none => (1, param)
  | some source =>
      -- the size is an `int`; a negative one is too large for `malloc`
      if 2147483647 < source.size ∨ !system.dataFileMalloc then (1, param)
      else
        match lastAccepted source.memory source.size 0 none with
        | none => (1, param)
        | some found => (0, found)

def scanTable (table : Source) (param : OsParam) : Int × OsParam :=
  match firstAccepted table.memory 1 table.size 0 with
  | none => (1, param)
  | some found => (0, found)

def vtoyOsParamFromIbft (system : System) (param : OsParam) : Int × OsParam :=
  if system.ibft.lastError = 0 ∧ 0 < system.ibft.table.size ∧ system.ibft.table.size < 1024 then
    scanTable system.ibft.table param
  else (1, param)

def vtoyOsParamFromAcpi (system : System) (param : OsParam) : Int × OsParam :=
  if !system.acpiMalloc then (1, param)
  else if system.acpi.lastError = 0 then scanTable system.acpi.table param
  else (1, param)

def loadFirst (system : System) (fromfile : Option (List Char)) : Int × OsParam :=
  match fromfile with
  | some filepath => vtoyOsParamFromFile system .zero filepath
  | none =>
      if vtoyIsEfiSystem system then vtoyOsParamFromEfivar system .zero
      else vtoyOsParamFromIbft system .zero

/-- The part of `main` that loads the runtime data. -/
def loadOsParam (system : System) (fromfile : Option (List Char)) : Int × OsParam :=
  let (rc, param) := loadFirst system fromfile
  if rc ≠ 0 then vtoyOsParamFromAcpi system param else (rc, param)

/-- The runtime data is what the EFI variable holds. -/
def FromEfivar (system : System) (fromfile : Option (List Char)) : Prop :=
  fromfile = none ∧ vtoyIsEfiSystem system = true ∧ (vtoyOsParamFromEfivar system .zero).1 = 0

/-- Replace each `/` up to the terminator, which must be reached. -/
def convertSlashes : List UInt8 → Run (List UInt8)
  | [] => .error .outOfBounds
  | byte :: later =>
      if byte = 0 then .ok (byte :: later)
      else do
        let converted ← convertSlashes later
        return (if byte = 47 then 92 else byte) :: converted

/-- The loop of `main` over `vtoy_img_path`. -/
def convertImgPath (param : OsParam) : Run OsParam := do
  let path ← convertSlashes param.vtoyImgPath
  return .ofBytes (param.bytes.take 45 ++ path)

section Valid

variable {system : System} {before param : OsParam}

theorem valid_of_lastAccepted {memory : Nat → UInt8} {count offset : Nat}
    {earlier : Option OsParam} (validated : ∀ accepted ∈ earlier, accepted.Valid)
    (found : lastAccepted memory count offset earlier = some param) : param.Valid := by
  induction count generalizing offset earlier with
  | zero => exact validated param found
  | succ count inductionHypothesis =>
      refine inductionHypothesis ?_ found
      intro accepted membership
      split_ifs at membership with check
      · rw [← Option.some.inj membership]
        exact vtoyCheckOsParam_eq_zero_iff.mp check
      · exact validated accepted membership

theorem valid_of_fromFile {file : List Char}
    (loaded : vtoyOsParamFromFile system before file = (0, param)) : param.Valid := by
  unfold vtoyOsParamFromFile at loaded
  cases opened : system.dataFile file with
  | none =>
      rw [opened] at loaded
      cases loaded
  | some source =>
      simp only [opened] at loaded
      split_ifs at loaded with refused
      · cases loaded
      · cases searched : lastAccepted source.memory source.size 0 none with
        | none =>
            rw [searched] at loaded
            cases loaded
        | some found =>
            rw [searched] at loaded
            cases loaded
            exact valid_of_lastAccepted
              (fun _ absent => absurd absent (Option.not_mem_none _)) searched

theorem valid_of_scanTable {table : Source} (loaded : scanTable table before = (0, param)) :
    param.Valid := by
  unfold scanTable at loaded
  cases searched : firstAccepted table.memory 1 table.size 0 with
  | none =>
      rw [searched] at loaded
      cases loaded
  | some found =>
      rw [searched] at loaded
      cases loaded
      exact valid_of_firstAccepted searched

theorem valid_of_fromIbft (loaded : vtoyOsParamFromIbft system before = (0, param)) :
    param.Valid := by
  unfold vtoyOsParamFromIbft at loaded
  split_ifs at loaded with present
  · exact valid_of_scanTable loaded
  · cases loaded

theorem valid_of_fromAcpi (loaded : vtoyOsParamFromAcpi system before = (0, param)) :
    param.Valid := by
  unfold vtoyOsParamFromAcpi at loaded
  split_ifs at loaded with refused present
  · cases loaded
  · exact valid_of_scanTable loaded
  · cases loaded

/-- Runtime data that does not come from the EFI variable passed the check. -/
theorem valid_of_loadOsParam {fromfile : Option (List Char)}
    (elsewhere : ¬ FromEfivar system fromfile)
    (loaded : loadOsParam system fromfile = (0, param)) : param.Valid := by
  unfold loadOsParam at loaded
  rcases first : loadFirst system fromfile with ⟨rc, read⟩
  simp only [first] at loaded
  split_ifs at loaded with failed
  · exact valid_of_fromAcpi loaded
  · cases loaded
    unfold loadFirst at first
    cases fromfile with
    | some filepath => exact valid_of_fromFile first
    | none =>
        simp only at first
        split_ifs at first with efi
        · exact absurd ⟨rfl, efi, congrArg Prod.fst first⟩ elsewhere
        · exact valid_of_fromIbft first

end Valid

end Vtoydump.Windows
