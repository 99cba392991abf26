import Mathlib.Data.List.Forall2
import Vtoydump.Basis.Bytes
import Vtoydump.Basis.Media

/-!
# Files from the FAT of the disk

`imdisk` is copied from the second partition of the disk, whose start is taken
from the partition table.  The results of the reads and of the copy are not
looked at: a failed read leaves the buffer as it was, and its bytes are used.
-/

namespace Vtoydump.Windows

open CRun

/-- What a `ReadFile` does: its result, the bytes it transfers, and what lies in the buffer
before it. -/
structure ReadOutcome where
  succeeded : Bool
  transferred : Nat
  stale : Nat → UInt8

namespace ReadOutcome

def Complete (outcome : ReadOutcome) (size : Nat) : Prop :=
  outcome.succeeded = true ∧ outcome.transferred = size

instance (outcome : ReadOutcome) (size : Nat) : Decidable (outcome.Complete size) :=
  inferInstanceAs (Decidable (_ ∧ _))

/-- The buffer behind the read. -/
def buffer (outcome : ReadOutcome) (disk : Nat → UInt8) (offset index : Nat) : UInt8 :=
  if index < outcome.transferred then disk (offset + index) else outcome.stale index

end ReadOutcome

/-- What becomes of one copy: whether its buffer is allocated, what lies in it, whether the
file is created, and the bytes that `WriteFile` writes at most. -/
structure CopyOutcome where
  malloc : Bool
  heap : Nat → UInt8
  created : Bool
  written : Nat

/-- A drive, the outcomes of its reads in order, and those of the copies by the file that
they write. -/
structure FatDrive where
  disk : Nat → UInt8
  outcomes : Nat → ReadOutcome
  gptMalloc : Bool
  copies : List Char → CopyOutcome

/-- `sizeof(MBR_HEAD)` -/
def sizeofMbr : Nat := 512

/-- `sizeof(VTOY_GPT_INFO)` -/
def sizeofGpt : Nat := 17408

/-- The start of the second partition, and the number of reads made for it. -/
structure StartSearch where
  startSector : UInt64
  reads : Nat
  deriving DecidableEq

/-- `MBR.PartTbl[1].StartSectorId` -/
def mbrStart (mbr : Nat → UInt8) : UInt64 := UInt64.ofNat (leValue (bytesAt mbr 470 4))

/-- `pGpt->PartTbl[1].StartLBA` -/
def gptStart (gpt : Nat → UInt8) : UInt64 := UInt64.ofNat (leValue (bytesAt gpt 1184 8))

def getVentoyEfiPartStartSector (drive : FatDrive) : StartSearch :=
  let mbr := (drive.outcomes 0).buffer drive.disk 0
  -- for a read that is not complete, the source has `0;` where it means to return 0
  if mbr 450 = 0xEE then
    if !drive.gptMalloc then ⟨0, 1⟩
    else if ¬ (drive.outcomes 1).Complete sizeofGpt then ⟨0, 2⟩
    else ⟨gptStart ((drive.outcomes 1).buffer drive.disk 0), 2⟩
  else ⟨mbrStart mbr, 1⟩

def readOffset (start : UInt64) (sector : UInt32) : Nat :=
  ((UInt64.ofNat sector.toNat + start) * 512).toNat

def readSize (sectorCount : UInt32) : Nat := (sectorCount * 512).toNat

/-- The callback returns 1 whatever the read does. -/
def ventoyFatDiskRead (drive : FatDrive) (start : UInt64) : Callback := fun number sector count =>
  (1, bytesAt ((drive.outcomes number).buffer drive.disk (readOffset start sector)) 0
    (readSize count))

/-- The same callback on a drive whose reads are all complete. -/
def completeRead (drive : FatDrive) (start : UInt64) : Callback := fun _ sector count =>
  (1, bytesAt drive.disk (readOffset start sector) (readSize count))

/-- The `fl_` functions: programs that read through the callback.  `flFread` gives the bytes
that it delivered; their number is what the function returns. -/
structure FatLibrary where
  State : Type
  File : Type
  flAttachMedia : MediaOp (Int × State)
  flFopen : State → List Char → MediaOp (Option File × State)
  /-- `fl_ftell` at the end of the file. -/
  flSize : File → Nat
  flFread : State → File → Nat → MediaOp (List UInt8 × State)

/-- `SaveBuffer2File`: its return code, and what the created file holds. -/
def saveBuffer2File (outcome : CopyOutcome) (buffer : List UInt8) : Int × Option (List UInt8) :=
  if outcome.created then (0, some (buffer.take outcome.written)) else (1, none)

/-- What a copy returns and writes, and the size and bytes of the source as it got them. -/
structure CopyResult where
  rc : Int
  dstFile : Option (List UInt8)
  source : Option (Nat × List UInt8)
  deriving DecidableEq

/-- A buffer from `malloc` behind a read of some bytes into it. -/
def copyBuffer (outcome : CopyOutcome) (size : Nat) (delivered : List UInt8) : List UInt8 :=
  (delivered ++ bytesAt outcome.heap delivered.length (size - delivered.length)).take size

def copyFileFromFatDisk (library : FatLibrary) (outcome : CopyOutcome) (state : library.State)
    (srcFile : List Char) : MediaOp (CopyResult × library.State) := do
  let (flfile, state) ← library.flFopen state srcFile
  match flfile with
  | none => return (⟨1, none, none⟩, state)
  | some file =>
      let size := library.flSize file
      -- the size is an `int`; a negative one is too large for `malloc`
      if 2147483647 < size ∨ !outcome.malloc then return (⟨1, none, none⟩, state)
      else
        let (delivered, state) ← library.flFread state file size
        let (_, dstFile) := saveBuffer2File outcome (copyBuffer outcome size delivered)
        return (⟨0, dstFile, some (size, delivered)⟩, state)

def copyFiles (library : FatLibrary) (drive : FatDrive) :
    List (List Char × List Char) → library.State → MediaOp (List CopyResult)
  | [], _ => return []
  | (srcFile, dstFile) :: files, state => do
      let (result, state) ← copyFileFromFatDisk library (drive.copies dstFile) state srcFile
      let results ← copyFiles library drive files state
      return result :: results

/-- The files that `vtoy_mount_iso_by_imdisk` copies. -/
def imdiskFiles (bits64 : Bool) : List (List Char × List Char) :=
  ["imdisk.sys", "imdisk.exe", "imdisk.cpl"].map fun name =>
    ((if bits64 then "/ventoy/imdisk/64/" else "/ventoy/imdisk/32/").toList ++ name.toList,
      "X:\\Windows\\System32\\".toList ++ name.toList)

/-- Attach the partition and copy the files, unless it is not one. -/
def copySession (library : FatLibrary) (drive : FatDrive) (files : List (List Char × List Char)) :
    MediaOp (Option (List CopyResult)) := do
  let (rc, state) ← library.flAttachMedia
  if rc ≠ 0 then return none
  else
    let results ← copyFiles library drive files state
    return some results

/-- The copies, with the callback on the partition that was found. -/
def runCopies (library : FatLibrary) (drive : FatDrive) (files : List (List Char × List Char))
    (callback : UInt64 → Callback) : Option (List CopyResult) :=
  let search := getVentoyEfiPartStartSector drive
  ((copySession library drive files).run (callback search.startSector) search.reads).1

/-- The file was created with the bytes that the partition has for it. -/
def Copied (actual whole : CopyResult) : Prop :=
  actual.rc = 0 → ∃ size bytes, whole.source = some (size, bytes) ∧ actual.dstFile = some bytes

/-- The start was taken from a table that was read completely. -/
def StartRead (drive : FatDrive) (search : StartSearch) : Prop :=
  search.startSector ≠ 0 →
    (search.reads = 1 ∧ (drive.outcomes 0).Complete sizeofMbr ∧
      search.startSector = mbrStart drive.disk) ∨
    (search.reads = 2 ∧ (drive.outcomes 1).Complete sizeofGpt ∧
      search.startSector = gptStart drive.disk)

/-- Nothing is treated as data of the disk that was not read from it: the callback reports
success for complete reads only, each copy that succeeds holds the bytes of its source, as
complete reads deliver them, and the start comes from a complete table. -/
structure OnlyReadData (library : FatLibrary) (drive : FatDrive)
    (files : List (List Char × List Char)) : Prop where
  media : (copySession library drive files).Reads
    (ventoyFatDiskRead drive (getVentoyEfiPartStartSector drive).startSector)
    (fun number sector count =>
      (ventoyFatDiskRead drive (getVentoyEfiPartStartSector drive).startSector
        number sector count).1 ≠ 0 → (drive.outcomes number).Complete (readSize count))
    (getVentoyEfiPartStartSector drive).reads
  copies : Option.Rel (List.Forall₂ Copied)
    (runCopies library drive files (ventoyFatDiskRead drive))
    (runCopies library drive files (completeRead drive))
  start : StartRead drive (getVentoyEfiPartStartSector drive)

/-- The file is created, and as many bytes are written as were delivered for it. -/
def Written (drive : FatDrive) (file : List Char × List Char) (whole : CopyResult) : Prop :=
  ∀ size bytes, whole.source = some (size, bytes) →
    (drive.copies file.2).created = true ∧
      min (drive.copies file.2).written size = bytes.length

/-- The table that a failed read of the MBR leaves in the buffer leads to the GPT, or to no
partition. -/
def HarmlessMbr (drive : FatDrive) : Prop :=
  (drive.outcomes 0).buffer drive.disk 0 450 = 0xEE ∨
    leValue (bytesAt ((drive.outcomes 0).buffer drive.disk 0) 470 4) = 0

/-- Every read is complete, and so is every write. -/
structure Undisturbed (library : FatLibrary) (drive : FatDrive)
    (files : List (List Char × List Char)) : Prop where
  reads : (copySession library drive files).Reads
    (ventoyFatDiskRead drive (getVentoyEfiPartStartSector drive).startSector)
    (fun number _ count => (drive.outcomes number).Complete (readSize count))
    (getVentoyEfiPartStartSector drive).reads
  writes : ∀ results, runCopies library drive files (completeRead drive) = some results →
    List.Forall₂ (Written drive) files results
  mbr : (drive.outcomes 0).Complete sizeofMbr ∨ HarmlessMbr drive

section Reads

variable {drive : FatDrive} {outcome : ReadOutcome} {disk : Nat → UInt8}

theorem bytesAt_buffer {size offset first width : Nat} (complete : outcome.Complete size)
    (inside : first + width ≤ size) :
    bytesAt (outcome.buffer disk offset) first width = bytesAt disk (offset + first) width := by
  unfold bytesAt
  apply List.map_congr_left
  intro index below
  have room : first + index < outcome.transferred := by
    rw [complete.2]
    exact Nat.lt_of_lt_of_le (Nat.add_lt_add_left (List.mem_range.mp below) first) inside
  rw [ReadOutcome.buffer, if_pos room, Nat.add_assoc]

theorem ventoyFatDiskRead_eq {start : UInt64} {number : Nat} {sector count : UInt32}
    (complete : (drive.outcomes number).Complete (readSize count)) :
    ventoyFatDiskRead drive start number sector count =
      completeRead drive start number sector count := by
  rw [ventoyFatDiskRead, completeRead,
    bytesAt_buffer complete (Nat.le_of_eq (Nat.zero_add _)), Nat.add_zero]

/-- With complete reads the copies run as on a drive without failures. -/
theorem runCopies_eq {library : FatLibrary} {files : List (List Char × List Char)}
    (reads : (copySession library drive files).Reads
      (ventoyFatDiskRead drive (getVentoyEfiPartStartSector drive).startSector)
      (fun number _ count => (drive.outcomes number).Complete (readSize count))
      (getVentoyEfiPartStartSector drive).reads) :
    runCopies library drive files (ventoyFatDiskRead drive) =
      runCopies library drive files (completeRead drive) := by
  apply congrArg Prod.fst
  apply MediaOp.run_congr
  apply reads.mono
  intro number sector count complete
  exact ventoyFatDiskRead_eq complete

end Reads

section Start

variable {drive : FatDrive}

theorem mbrStart_ne_zero {mbr : Nat → UInt8} (nonzero : leValue (bytesAt mbr 470 4) ≠ 0) :
    mbrStart mbr ≠ 0 := by
  intro zero
  apply nonzero
  have small := leValue_lt (bytesAt mbr 470 4)
  rw [length_bytesAt] at small
  have value := congrArg UInt64.toNat zero
  rw [mbrStart, UInt64.toNat_ofNat', Nat.mod_eq_of_lt (Nat.lt_trans small (by decide))] at value
  exact value

theorem getVentoyEfiPartStartSector_of_gpt
    (gpt : (drive.outcomes 0).buffer drive.disk 0 450 = 0xEE) :
    getVentoyEfiPartStartSector drive =
      if !drive.gptMalloc then ⟨0, 1⟩
      else if ¬ (drive.outcomes 1).Complete sizeofGpt then ⟨0, 2⟩
      else ⟨gptStart ((drive.outcomes 1).buffer drive.disk 0), 2⟩ := if_pos gpt

theorem getVentoyEfiPartStartSector_of_mbr
    (mbr : (drive.outcomes 0).buffer drive.disk 0 450 ≠ 0xEE) :
    getVentoyEfiPartStartSector drive =
      ⟨mbrStart ((drive.outcomes 0).buffer drive.disk 0), 1⟩ := if_neg mbr

theorem startRead_of_gpt (gpt : (drive.outcomes 0).buffer drive.disk 0 450 = 0xEE) :
    StartRead drive (getVentoyEfiPartStartSector drive) := by
  rw [getVentoyEfiPartStartSector_of_gpt gpt]
  by_cases refused : (!drive.gptMalloc) = true
  · rw [if_pos refused]
    intro nonzero
    exact absurd rfl nonzero
  · rw [if_neg refused]
    by_cases complete : (drive.outcomes 1).Complete sizeofGpt
    · have whole := @bytesAt_buffer _ drive.disk sizeofGpt 0 1184 8 complete (by decide)
      rw [if_neg (not_not.mpr complete)]
      intro _
      refine .inr ⟨rfl, complete, ?_⟩
      rw [gptStart, gptStart, whole, Nat.zero_add]
    · rw [if_pos complete]
      intro nonzero
      exact absurd rfl nonzero

/-- The start from an incomplete MBR, and only that, is no data of the disk. -/
theorem startRead_iff :
    StartRead drive (getVentoyEfiPartStartSector drive) ↔
      (drive.outcomes 0).Complete sizeofMbr ∨ HarmlessMbr drive := by
  by_cases gpt : (drive.outcomes 0).buffer drive.disk 0 450 = 0xEE
  · have harmless : HarmlessMbr drive := .inl gpt
    exact iff_of_true (startRead_of_gpt gpt) (.inr harmless)
  · rw [getVentoyEfiPartStartSector_of_mbr gpt]
    constructor
    · intro read
      by_cases zero : leValue (bytesAt ((drive.outcomes 0).buffer drive.disk 0) 470 4) = 0
      · exact .inr (.inr zero)
      · rcases read (mbrStart_ne_zero zero) with ⟨-, complete, -⟩ | ⟨two, -⟩
        · exact .inl complete
        · cases two
    · rintro (complete | flag | zero) nonzero
      · have whole := @bytesAt_buffer _ drive.disk sizeofMbr 0 470 4 complete (by decide)
        refine .inl ⟨rfl, complete, ?_⟩
        rw [mbrStart, mbrStart, whole, Nat.zero_add]
      · exact absurd flag gpt
      · exact absurd (congrArg UInt64.ofNat zero) nonzero

end Start

/-- A result is what the outcome of its copy makes of the source. -/
def Finished (outcome : CopyOutcome) (result : CopyResult) : Prop :=
  (result.rc ≠ 0 ∧ result.source = none) ∨
    ∃ size delivered, result = ⟨0,
      (saveBuffer2File outcome (copyBuffer outcome size delivered)).2, some (size, delivered)⟩

section Copies

variable {library : FatLibrary} {drive : FatDrive} {files : List (List Char × List Char)}
  {callback : Callback}

theorem finished_copyFileFromFatDisk (outcome : CopyOutcome) (state : library.State)
    (srcFile : List Char) (number : Nat) :
    Finished outcome
      ((copyFileFromFatDisk library outcome state srcFile).run callback number).1.1 := by
  rw [copyFileFromFatDisk, MediaOp.run_bind]
  cases ((library.flFopen state srcFile).run callback number).1 with
  | mk flfile state =>
      cases flfile with
      | none => exact .inl ⟨Int.one_ne_zero, rfl⟩
      | some file =>
          simp only
          split_ifs with refused
          · exact .inl ⟨Int.one_ne_zero, rfl⟩
          · rw [MediaOp.run_bind]
            exact .inr ⟨_, _, rfl⟩

theorem finished_copyFiles (state : library.State) (number : Nat) :
    List.Forall₂ (fun file result => Finished (drive.copies file.2) result) files
      ((copyFiles library drive files state).run callback number).1 := by
  induction files generalizing state number with
  | nil => exact .nil
  | cons file files inductionHypothesis =>
      rw [copyFiles, MediaOp.run_bind]
      have here := @finished_copyFileFromFatDisk library callback (drive.copies file.2) state
        file.1 number
      simp only [MediaOp.run_bind]
      exact .cons here (inductionHypothesis _ _)

theorem finished_runCopies {reader : UInt64 → Callback} {results : List CopyResult}
    (run : runCopies library drive files reader = some results) :
    List.Forall₂ (fun file result => Finished (drive.copies file.2) result) files results := by
  rw [runCopies, copySession, MediaOp.run_bind] at run
  simp only at run
  split_ifs at run with failed
  · cases run
  · rw [MediaOp.run_bind] at run
    cases run
    exact finished_copyFiles _ _

/-- Behind a read of some bytes the file holds them exactly when it is created and as many
bytes are written. -/
theorem saveBuffer2File_eq_iff {outcome : CopyOutcome} {size : Nat} {delivered : List UInt8} :
    (saveBuffer2File outcome (copyBuffer outcome size delivered)).2 = some delivered ↔
      outcome.created = true ∧ min outcome.written size = delivered.length := by
  unfold saveBuffer2File copyBuffer
  cases outcome.created with
  | false => simp
  | true =>
      simp only [if_true, Option.some.injEq, true_and, List.take_take]
      constructor
      · intro same
        have lengths := congrArg List.length same
        rw [List.length_take, List.length_append, length_bytesAt] at lengths
        omega
      · intro whole
        rw [whole, List.take_left]

theorem copied_iff {file : List Char × List Char} {result : CopyResult}
    (finished : Finished (drive.copies file.2) result) :
    Copied result result ↔ Written drive file result := by
  unfold Copied Written
  rcases finished with ⟨failed, unread⟩ | ⟨size, delivered, rfl⟩
  · apply iff_of_true
    · intro success
      exact absurd success failed
    · intro size bytes read
      rw [unread] at read
      cases read
  · constructor
    · intro copied _ bytes read
      cases read
      obtain ⟨_, _, same, holds⟩ := copied rfl
      cases same
      exact saveBuffer2File_eq_iff.mp holds
    · intro written _
      exact ⟨size, delivered, rfl, saveBuffer2File_eq_iff.mpr (written size delivered rfl)⟩

theorem forall₂_copied_iff {results : List CopyResult}
    (finished : List.Forall₂ (fun file result => Finished (drive.copies file.2) result)
      files results) :
    List.Forall₂ Copied results results ↔ List.Forall₂ (Written drive) files results := by
  induction finished with
  | nil => exact iff_of_true .nil .nil
  | cons here _ inductionHypothesis =>
      rw [List.forall₂_cons, List.forall₂_cons, copied_iff here, inductionHypothesis]

end Copies

/-- Nothing but data of the disk is used exactly when every read of the callback and every
write is complete, and the MBR is, too, unless what its failed read left is harmless. -/
theorem onlyReadData_iff (library : FatLibrary) (drive : FatDrive)
    (files : List (List Char × List Char)) :
    OnlyReadData library drive files ↔ Undisturbed library drive files := by
  constructor
  · rintro ⟨media, copies, start⟩
    have reads := media.mono (fun _ _ _ complete => complete Int.one_ne_zero)
    refine ⟨reads, ?_, startRead_iff.mp start⟩
    intro results run
    rw [runCopies_eq reads, run] at copies
    cases copies with
    | some copied => exact (forall₂_copied_iff (finished_runCopies run)).mp copied
  · rintro ⟨reads, writes, mbr⟩
    refine ⟨reads.mono (fun _ _ _ complete _ => complete), ?_, startRead_iff.mpr mbr⟩
    rw [runCopies_eq reads]
    cases run : runCopies library drive files (completeRead drive) with
    | none => exact .none
    | some results =>
        exact .some ((forall₂_copied_iff (finished_runCopies run)).mpr (writes results run))

section Failure

/-- A library for a medium with one file, of one byte: it checks each read by the code. -/
def byteLibrary : FatLibrary where
  State := Unit
  File := Unit
  flAttachMedia := .read 0 1 fun code _ => .done (if code = 0 then -1 else 0, ())
  flFopen _ _ := .done (some (), ())
  flSize _ := 1
  flFread _ _ size := .read 1 1 fun code buffer =>
    .done (if code = 0 then [] else buffer.take size, ())

/-- A drive of zeros; the third read fails and leaves other bytes in the buffer. -/
def failingDrive : FatDrive where
  disk _ := 0
  outcomes number := if number = 2 then ⟨false, 0, fun _ => 7⟩ else ⟨true, 512, fun _ => 7⟩
  gptMalloc := true
  copies _ := ⟨true, fun _ => 7, true, 1⟩

/-- A drive without a complete read; what lies in the buffer looks like a table. -/
def unreadDrive : FatDrive where
  disk _ := 0
  outcomes _ := ⟨false, 0, fun index => if index = 470 then 1 else 0⟩
  gptMalloc := true
  copies _ := ⟨true, fun _ => 7, true, 1⟩

/-- The first copy succeeds with a byte that was never read.  With any library, a start of
the partition comes from a table that was never read. -/
theorem not_onlyReadData_failing :
    runCopies byteLibrary failingDrive (imdiskFiles true) (ventoyFatDiskRead failingDrive) =
        some [⟨0, some [7], some (1, [7])⟩, ⟨0, some [0], some (1, [0])⟩,
          ⟨0, some [0], some (1, [0])⟩] ∧
      runCopies byteLibrary failingDrive (imdiskFiles true) (completeRead failingDrive) =
        some [⟨0, some [0], some (1, [0])⟩, ⟨0, some [0], some (1, [0])⟩,
          ⟨0, some [0], some (1, [0])⟩] ∧
      ¬ OnlyReadData byteLibrary failingDrive (imdiskFiles true) ∧
      getVentoyEfiPartStartSector unreadDrive = ⟨1, 1⟩ ∧
      ∀ library, ¬ OnlyReadData library unreadDrive (imdiskFiles true) := by
  have actual :
      runCopies byteLibrary failingDrive (imdiskFiles true) (ventoyFatDiskRead failingDrive) =
        some [⟨0, some [7], some (1, [7])⟩, ⟨0, some [0], some (1, [0])⟩,
          ⟨0, some [0], some (1, [0])⟩] := by
    decide +kernel
  have whole :
      runCopies byteLibrary failingDrive (imdiskFiles true) (completeRead failingDrive) =
        some [⟨0, some [0], some (1, [0])⟩, ⟨0, some [0], some (1, [0])⟩,
          ⟨0, some [0], some (1, [0])⟩] := by
    decide +kernel
  refine ⟨actual, whole, ?_, by decide +kernel, ?_⟩
  · intro onlyRead
    have copies := onlyRead.copies
    rw [actual, whole] at copies
    cases copies with
    | some copied =>
        obtain ⟨size, bytes, read, holds⟩ := (List.forall₂_cons.mp copied).1 rfl
        cases read
        cases holds
  · intro library onlyRead
    rcases startRead_iff.mp onlyRead.start with ⟨succeeded, -⟩ | flag | zero
    · cases succeeded
    · cases flag
    · exact absurd zero (by decide +kernel)

end Failure

end Vtoydump.Windows
