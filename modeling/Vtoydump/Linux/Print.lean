import Mathlib.Data.Nat.ModEq
import Vtoydump.Linux.Location

/-!
# Printing the image table

`vtoy_print_image_location` trusts everything in a table but its GUID.  A table
is `Printable` when the header and all regions lie in the bytes delivered, the
disk sectors have a size and the number of regions is an `int`; the printer
returns with a line for each region of exactly these tables.
-/

namespace Vtoydump.Linux

open CRun Exfat

/-- A line of the table that `dmsetup` reads. -/
structure DmLine where
  start : UInt64
  count : UInt64
  device : List Char
  offset : UInt64
  deriving DecidableEq, Repr

inductive OutLine where
  | text (line : List Char)
  | linear (line : DmLine)
  deriving DecidableEq

/-- The lines of the table in an output. -/
def dmLines (out : List OutLine) : List DmLine :=
  out.filterMap fun line =>
    match line with
    | .linear printed => some printed
    | _ => none

/-- `/` on `unsigned long long`. -/
def divide (dividend divisor : UInt64) : Run UInt64 :=
  if divisor = 0 then .error .divByZero else .ok (dividend / divisor)

def printRegion (block : HeapBlock) (device : List Char) (partstart : UInt64) (index : Nat) :
    Run DmLine := do
  let start ← block.readField (sizeofHeader + sizeofRegion * index + 4) 4
  let count ← block.readField (sizeofHeader + sizeofRegion * index) 4
  let imageSectorSize ← block.readField 16 4
  let diskSectorSize ← block.readField 20 4
  let diskStartSector ← block.readField (sizeofHeader + sizeofRegion * index + 8) 8
  let first ← divide (UInt64.ofNat start * UInt64.ofNat imageSectorSize)
    (UInt64.ofNat diskSectorSize)
  let length ← divide (UInt64.ofNat count * UInt64.ofNat imageSectorSize)
    (UInt64.ofNat diskSectorSize)
  return ⟨first, length, device, UInt64.ofNat diskStartSector - partstart⟩

def printLoop (block : HeapBlock) (device : List Char) (partstart : UInt64) :
    Nat → Nat → Run (List DmLine)
  | 0, _ => .ok []
  | remaining + 1, index => do
      let line ← printRegion block device partstart index
      let lines ← printLoop block device partstart remaining (index + 1)
      return line :: lines

/-- The passes of a loop from 0 to `(int)count`. -/
def passesOf (count : Nat) : Nat := if count < 2147483648 then count else 0

def partflag (diskname : List Char) : Bool :=
  decide ("nvme".toList <:+: diskname) || decide ("mmc".toList <:+: diskname) ||
    decide ("nbd".toList <:+: diskname)

/-- The partition number as the lines and the path of sysfs append it. -/
def partSuffix (diskname : List Char) (part : UInt16) : List Char :=
  (if partflag diskname then "p".toList else []) ++ decimal part.toNat

/-- The start of the partition as sysfs has it, or 2048. -/
def partStart (system : System) (diskname : List Char) (part : UInt16) : Run UInt64 :=
  match (system.sysfs (snprintf 255 ("/sys/class/block/".toList ++ diskname ++
      partSuffix diskname part ++ "/start".toList))).opened with
  | none => .ok 2048
  | some text => do
      let value ← strtoull (readInto 64 text.val)
      return UInt64.ofNat value

structure PrintResult where
  rc : Int
  out : List OutLine
  stderr : List String
  deriving DecidableEq

/-- The part of `vtoy_print_image_location` behind the search for a table. -/
def printTable (system : System) (format : Nat) (param : OsParam) (diskname dmdisk : List Char)
    (location : HeapBlock) : Run PrintResult := do
  let guid ← location.read 0 16
  if guid ≠ ventoyGuid then
    return ⟨1, [], ["Image location data corrupted"]⟩
  let banner := if format = 1 then [OutLine.text "=== ventoy image location ===".toList] else []
  let partstart ← partStart system diskname param.vtoyDiskPartId
  let regionCount ← location.readField 24 4
  let lines ← printLoop location (dmdisk ++ partSuffix diskname param.vtoyDiskPartId) partstart
    (passesOf regionCount) 0
  return ⟨0, banner ++ lines.map OutLine.linear, []⟩

def vtoyPrintImageLocation (system : System) (format : Nat) (param : OsParam)
    (diskname : List Char) : Run PrintResult := do
  let (location, dmdisk, stderr) ← imageLocation system param diskname
  match location with
  | none => return ⟨1, [], stderr ++ ["Failed to find image location"]⟩
  | some location => printTable system format param diskname dmdisk location

def regionCount (block : HeapBlock) : Nat := leValue ((block.written.drop 24).take 4)

def diskSectorSize (block : HeapBlock) : Nat := leValue ((block.written.drop 20).take 4)

/-- Everything the printer reads was delivered, and it can count and divide. -/
def Printable (block : HeapBlock) : Prop :=
  sizeofHeader ≤ block.written.length ∧ regionCount block < 2147483648 ∧
    (regionCount block = 0 ∨ diskSectorSize block ≠ 0 ∧
      sizeofHeader + sizeofRegion * regionCount block ≤ block.written.length)

instance (block : HeapBlock) : Decidable (Printable block) :=
  inferInstanceAs (Decidable (_ ∧ _))

section Loop

variable {block : HeapBlock} {device : List Char} {partstart : UInt64}

theorem divide_of_ne_zero {dividend divisor : UInt64} (nonzero : divisor ≠ 0) :
    divide dividend divisor = .ok (dividend / divisor) := if_neg nonzero

theorem diskSectorSize_eq_zero_iff (block : HeapBlock) :
    UInt64.ofNat (diskSectorSize block) = 0 ↔ diskSectorSize block = 0 := by
  have bound := leValue_lt ((block.written.drop 20).take 4)
  have width : ((block.written.drop 20).take 4).length ≤ 4 := List.length_take_le _ _
  have small : diskSectorSize block < 4294967296 :=
    bound.trans_le (Nat.pow_le_pow_right (by decide) width)
  rw [← UInt64.toNat_inj, UInt64.toNat_ofNat', UInt64.toNat_zero]
  omega

/-- A pass returns a line exactly when its region was delivered and the disk sectors
have a size. -/
theorem printRegion_isOk_iff {index : Nat} :
    (∃ line, printRegion block device partstart index = .ok line) ↔
      sizeofHeader + sizeofRegion * (index + 1) ≤ block.written.length ∧
        diskSectorSize block ≠ 0 := by
  constructor
  · rintro ⟨line, printed⟩
    unfold printRegion at printed
    obtain ⟨start, -, printed⟩ := bind_eq_ok_iff.mp printed
    obtain ⟨count, -, printed⟩ := bind_eq_ok_iff.mp printed
    obtain ⟨imageSize, -, printed⟩ := bind_eq_ok_iff.mp printed
    obtain ⟨diskSize, sizeRead, printed⟩ := bind_eq_ok_iff.mp printed
    obtain ⟨diskStart, startRead, printed⟩ := bind_eq_ok_iff.mp printed
    obtain ⟨first, divided, -⟩ := bind_eq_ok_iff.mp printed
    obtain ⟨-, rfl⟩ := HeapBlock.readField_eq_ok_iff.mp sizeRead
    constructor
    · exact (HeapBlock.readField_eq_ok_iff.mp startRead).1
    · intro zero
      have divisor : UInt64.ofNat (leValue ((block.written.drop 20).take 4)) = 0 :=
        (diskSectorSize_eq_zero_iff block).mpr zero
      rw [divide, if_pos divisor] at divided
      cases divided
  · rintro ⟨inside, nonzero⟩
    have length : sizeofHeader + sizeofRegion * index + 16 ≤ block.written.length := inside
    have header : sizeofHeader ≤ block.written.length := by omega
    unfold sizeofHeader at header
    have divisor : UInt64.ofNat (leValue ((block.written.drop 20).take 4)) ≠ 0 :=
      (diskSectorSize_eq_zero_iff block).not.mpr nonzero
    have count := @HeapBlock.readField_of_le block (sizeofHeader + sizeofRegion * index) 4
      (by omega)
    have start := @HeapBlock.readField_of_le block (sizeofHeader + sizeofRegion * index + 4) 4
      (by omega)
    have diskStart := @HeapBlock.readField_of_le block (sizeofHeader + sizeofRegion * index + 8) 8
      length
    have imageSize := @HeapBlock.readField_of_le block 16 4 (by omega)
    have diskSize := @HeapBlock.readField_of_le block 20 4 (by omega)
    simp only [printRegion, start, count, imageSize, diskSize, diskStart, ok_bind,
      divide_of_ne_zero divisor]
    exact ⟨_, rfl⟩

theorem printLoop_isOk_iff {remaining index : Nat} :
    (∃ lines, printLoop block device partstart remaining index = .ok lines) ↔
      remaining = 0 ∨ sizeofHeader + sizeofRegion * (index + remaining) ≤ block.written.length ∧
        diskSectorSize block ≠ 0 := by
  induction remaining generalizing index with
  | zero => simp [printLoop]
  | succ remaining inductionHypothesis =>
      have later := @inductionHypothesis (index + 1)
      rw [printLoop]
      constructor
      · rintro ⟨lines, printed⟩
        obtain ⟨line, here, rest⟩ := bind_eq_ok_iff.mp printed
        obtain ⟨others, there, -⟩ := bind_eq_ok_iff.mp rest
        obtain ⟨inside, nonzero⟩ := printRegion_isOk_iff.mp ⟨line, here⟩
        rcases later.mp ⟨others, there⟩ with rfl | ⟨whole, -⟩
        · exact .inr ⟨inside, nonzero⟩
        · rw [Nat.add_right_comm] at whole
          exact .inr ⟨whole, nonzero⟩
      · rintro (none_left | ⟨whole, nonzero⟩)
        · cases none_left
        · have inside : sizeofHeader + sizeofRegion * (index + 1) ≤ block.written.length := by
            simp only [sizeofRegion] at whole ⊢
            omega
          obtain ⟨line, here⟩ := (@printRegion_isOk_iff block device partstart index).mpr
            ⟨inside, nonzero⟩
          obtain ⟨others, there⟩ := later.mpr (.inr ⟨by
            simp only [sizeofRegion] at whole ⊢
            omega, nonzero⟩)
          refine ⟨line :: others, ?_⟩
          rw [here, ok_bind, there]
          rfl

theorem length_printLoop {remaining index : Nat} {lines : List DmLine}
    (printed : printLoop block device partstart remaining index = .ok lines) :
    lines.length = remaining := by
  induction remaining generalizing index lines with
  | zero =>
      cases printed
      rfl
  | succ remaining inductionHypothesis =>
      obtain ⟨line, -, rest⟩ := bind_eq_ok_iff.mp printed
      obtain ⟨others, there, result⟩ := bind_eq_ok_iff.mp rest
      cases result
      exact congrArg (· + 1) (inductionHypothesis there)

end Loop

theorem exists_partStart (system : System) (diskname : List Char) (part : UInt16) :
    ∃ start, partStart system diskname part = .ok start := by
  unfold partStart
  cases (system.sysfs (snprintf 255 ("/sys/class/block/".toList ++ diskname ++
      partSuffix diskname part ++ "/start".toList))).opened with
  | none => exact ⟨_, rfl⟩
  | some text =>
      obtain ⟨value, parsed⟩ := exists_strtoull_readInto text.property
      exact ⟨_, by simp only [parsed, ok_bind]; rfl⟩

theorem dmLines_printed (format : Nat) (lines : List DmLine) :
    dmLines ((if format = 1 then [OutLine.text "=== ventoy image location ===".toList] else []) ++
      lines.map OutLine.linear) = lines := by
  have only : dmLines (lines.map OutLine.linear) = lines := by
    rw [dmLines, List.filterMap_map]
    exact List.filterMap_some
  unfold dmLines at only ⊢
  rw [List.filterMap_append, only]
  split_ifs <;> rfl

section Tables

variable (system : System) (format : Nat) (param : OsParam) (diskname dmdisk : List Char)
  {block : HeapBlock}

/-- The whole table is printed: success, with a line for each region declared. -/
def PrintsWhole (block : HeapBlock) (run : Run PrintResult) : Prop :=
  ∃ result, run = .ok result ∧ result.rc = 0 ∧
    (dmLines result.out).length = regionCount block

theorem printTable_of_guid (accepted : block.written.take 16 = ventoyGuid) :
    printTable system format param diskname dmdisk block = (do
      let partstart ← partStart system diskname param.vtoyDiskPartId
      let regionCount ← block.readField 24 4
      let lines ← printLoop block (dmdisk ++ partSuffix diskname param.vtoyDiskPartId) partstart
        (passesOf regionCount) 0
      return ⟨0,
        (if format = 1 then [OutLine.text "=== ventoy image location ===".toList] else []) ++
          lines.map OutLine.linear, []⟩) := by
  have delivered : 0 + 16 ≤ block.written.length := by
    have length := congrArg List.length accepted
    rw [List.length_take] at length
    exact min_eq_left_iff.mp (length.trans rfl)
  rw [printTable, HeapBlock.read_of_le delivered, List.drop_zero, accepted]
  simp only [ok_bind, ne_eq, not_true_eq_false, if_false]

theorem printsWhole_printTable_iff (accepted : block.written.take 16 = ventoyGuid) :
    PrintsWhole block (printTable system format param diskname dmdisk block) ↔
      Printable block := by
  rw [printTable_of_guid system format param diskname dmdisk accepted]
  obtain ⟨partstart, started⟩ := exists_partStart system diskname param.vtoyDiskPartId
  rw [started, ok_bind]
  constructor
  · rintro ⟨result, printed, -, lines⟩
    obtain ⟨count, counted, printed⟩ := bind_eq_ok_iff.mp printed
    obtain ⟨printedLines, looped, returned⟩ := bind_eq_ok_iff.mp printed
    obtain ⟨header, rfl⟩ := HeapBlock.readField_eq_ok_iff.mp counted
    cases returned
    rw [dmLines_printed, length_printLoop looped] at lines
    have small : regionCount block < 2147483648 := by
      by_contra large
      rw [passesOf, if_neg (by exact large)] at lines
      rw [← lines] at large
      exact large (by decide)
    rw [passesOf, if_pos (by exact small)] at looped
    refine ⟨header, small, ?_⟩
    rcases printLoop_isOk_iff.mp ⟨_, looped⟩ with none_left | ⟨inside, nonzero⟩
    · exact .inl none_left
    · rw [Nat.zero_add] at inside
      exact .inr ⟨nonzero, inside⟩
  · rintro ⟨header, small, whole⟩
    have counted : block.readField 24 4 = .ok (regionCount block) :=
      HeapBlock.readField_of_le header
    have passes : passesOf (regionCount block) = regionCount block := if_pos small
    rw [counted, ok_bind, passes]
    obtain ⟨lines, looped⟩ := (@printLoop_isOk_iff block
        (dmdisk ++ partSuffix diskname param.vtoyDiskPartId) partstart (regionCount block) 0).mpr
      (whole.imp_right fun both => ⟨(Nat.zero_add (regionCount block)).symm ▸ both.2, both.1⟩)
    refine ⟨_, by rw [looped, ok_bind]; rfl, rfl, ?_⟩
    rw [dmLines_printed, length_printLoop looped]

theorem vtoyPrintImageLocation_of_location {stderr : List String}
    (obtained : imageLocation system param diskname = .ok (some block, dmdisk, stderr)) :
    vtoyPrintImageLocation system format param diskname =
      printTable system format param diskname dmdisk block := by
  rw [vtoyPrintImageLocation, obtained]
  rfl

theorem vtoyPrintImageLocation_firmware (obtained : firmwareLocation system param = some block) :
    vtoyPrintImageLocation system format param diskname =
      printTable system format param diskname (Linux.dmdisk diskname) block := by
  apply vtoyPrintImageLocation_of_location system format param diskname
  rw [imageLocation, obtained]

end Tables

/-- Printing a table of firmware that carries the GUID stays within the bytes
delivered, divides by no zero and prints every region exactly when the table is
printable. -/
theorem printsWhole_iff (system : System) (format : Nat) (param : OsParam) (diskname : List Char)
    (block : HeapBlock) (obtained : firmwareLocation system param = some block)
    (accepted : block.written.take 16 = ventoyGuid) :
    PrintsWhole block (vtoyPrintImageLocation system format param diskname) ↔
      Printable block := by
  rw [vtoyPrintImageLocation_firmware system format param diskname obtained]
  exact printsWhole_printTable_iff system format param diskname _ accepted

/-- An image of four sectors in two regions. -/
def fragmentedTable : List UInt8 :=
  encodeLocation ⟨ventoyGuid, 2048, 512, [⟨1, 0, 2048⟩, ⟨3, 1, 4096⟩]⟩

theorem printsWhole_iff_fragmentedTable :
    ∃ block, firmwareLocation (memorySystem fragmentedTable) (memoryParam 60) = some block ∧
      block.written = fragmentedTable ∧
      (PrintsWhole block (vtoyPrintImageLocation (memorySystem fragmentedTable) 2 (memoryParam 60)
        "sda".toList) ↔ Printable block) := by
  obtain ⟨block, obtained, contents⟩ :=
    @firmwareLocation_memory fragmentedTable (by decide) (by decide)
  have length : fragmentedTable.length = 60 := rfl
  rw [length] at obtained
  exact ⟨block, obtained, contents, printsWhole_iff (memorySystem fragmentedTable) 2
    (memoryParam 60) "sda".toList block obtained (by rw [contents]; rfl)⟩

/-- A header that declares a region it does not have. -/
def lyingHeader : List UInt8 :=
  encodeHeader ⟨ventoyGuid, 2048, 512, [⟨1, 0, 2048⟩]⟩

theorem not_printsWhole_lyingHeader :
    ∃ block, firmwareLocation (memorySystem lyingHeader) (memoryParam 28) = some block ∧
      block.written.take 16 = ventoyGuid ∧
      ¬ PrintsWhole block (vtoyPrintImageLocation (memorySystem lyingHeader) 2 (memoryParam 28)
        "sda".toList) := by
  obtain ⟨block, obtained, contents⟩ :=
    @firmwareLocation_memory lyingHeader (by decide) (by decide)
  have accepted : block.written.take 16 = ventoyGuid := by
    rw [contents]
    rfl
  have unprintable : ¬ Printable block := by
    rw [Printable, regionCount, diskSectorSize, contents]
    decide
  have length : lyingHeader.length = 28 := rfl
  rw [length] at obtained
  refine ⟨block, obtained, accepted, ?_⟩
  rw [vtoyPrintImageLocation_firmware _ _ _ _ obtained,
    printsWhole_printTable_iff _ _ _ _ _ accepted]
  exact unprintable

/-- A table in the layout of the code, with regions that an `int` can count, is
printable. -/
theorem printable_of_encodeLocation {block : HeapBlock} {location : VentoyImageLocation}
    (guid : location.guid.length = 16) (small : location.regions.length < 2147483648)
    (sectors : location.diskSectorSize ≠ 0) (contents : encodeLocation location <+: block.written) :
    Printable block := by
  obtain ⟨-, diskSize, count⟩ := readHeader_encodeLocation guid contents
  have counted : regionCount block = location.regions.length := by
    rw [Nat.mod_eq_of_lt (small.trans (by decide))] at count
    exact (HeapBlock.readField_eq_ok_iff.mp count).2
  have divisor : diskSectorSize block = location.diskSectorSize.toNat :=
    (HeapBlock.readField_eq_ok_iff.mp diskSize).2
  have delivered :
      sizeofHeader + sizeofRegion * location.regions.length ≤ block.written.length := by
    rw [← length_encodeLocation guid]
    exact contents.length_le
  refine ⟨(Nat.le_add_right _ _).trans delivered, counted.symm ▸ small, .inr ⟨?_, ?_⟩⟩
  · intro zero
    rw [divisor] at zero
    exact sectors (UInt32.toNat_inj.mp zero)
  · rw [counted]
    exact delivered

end Vtoydump.Linux
