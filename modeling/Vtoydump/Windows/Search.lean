import Vtoydump.Basis.Scan
import Vtoydump.Windows.Disk

/-!
# Drives that are verified

`vtoy_find_disk` reports success for the first drive that it verified, and only
for a verified drive, unless the buffer for the drive strings cannot be
allocated or a path does not fit its buffer.
-/

namespace Vtoydump.Windows

open CRun

/-- The number of the disk that a drive is on, and its GUID, when the disk can be read. -/
def physicalDisk (system : System) (drive : List Char) : Option (Int × List UInt8) := do
  let path := "\\\\.\\".toList ++ drive
  let number ← system.volumeDisk
    (path.takeWhile (· ≠ ':') ++ (if ':' ∈ path then [':'] else []))
  let sector ← system.physicalDrive (physicalPath (diskNumber number))
  return (diskNumber number, bytesAt sector 0x180 16)

/-- A file, not a directory, at a path that may hold UTF-8. -/
def FileExists (system : System) (path : List Char) : Prop :=
  if isUTF8Encode path then system.fileW (system.multiByteToWideChar true path) = .regular
  else system.fileA path = .regular

/-- The drive is on a readable disk with the GUID, and the path of the image exists there. -/
def Verified (system : System) (param : OsParam) (drive : List Char) (number : Int) : Prop :=
  physicalDisk system drive = some (number, param.vtoyDiskGuid) ∧
    ∃ name, imgName param = .ok name ∧ FileExists system (drive ++ name)

/-- The paths that are built for a drive fit their buffers; the path of the image is built
on a disk with the GUID only. -/
def DriveFits (system : System) (param : OsParam) (drive : List Char) : Prop :=
  drive.length < 124 ∧
    ∀ number, physicalDisk system drive = some (number, param.vtoyDiskGuid) →
      ∃ name, imgName param = .ok name ∧ (drive ++ name).length < 512 ∧
        (isUTF8Encode (drive ++ name) = true →
          (system.multiByteToWideChar true (drive ++ name)).length < 260)

/-- The search looks at the drives up to the first that it can verify. -/
def Searches (system : System) (param : OsParam) (drives : List (List Char))
    (drive : List Char) : Prop :=
  Reaches (fun other => ∃ number, Verified system param other number) drives drive

/-- The search succeeds exactly when a drive is verified, with the first such drive. -/
def ReportsVerified (system : System) (param : OsParam) (drives : List (List Char))
    (run : Run DriveSearch) : Prop :=
  ∃ search, run = .ok search ∧
    (search.rc = 0 ↔ ∃ drive ∈ drives, ∃ number, Verified system param drive number) ∧
    (search.rc = 0 → ∃ drive number, Searches system param drives drive ∧
      Verified system param drive number ∧ search.diskname = drive ∧
      search.phyDrive = some number)

section Drive

variable {system : System} {param : OsParam} {drive : List Char}

theorem getPhyDiskUUID_eq (short : drive.length < 124) :
    getPhyDiskUUID system drive = .ok (physicalDisk system drive) := by
  have room : ("\\\\.\\".toList ++ drive).length < 128 := by
    rw [List.length_append]
    exact Nat.add_lt_add_left short 4
  unfold getPhyDiskUUID volumePath physicalDisk
  simp only [sprintfS, if_pos room, ok_bind, pure_eq_ok]
  cases system.volumeDisk _ with
  | none => rfl
  | some number =>
      simp only [Option.bind_eq_bind, Option.bind_some]
      cases system.physicalDrive (physicalPath (diskNumber number)) with
      | none => rfl
      | some sector => rfl

theorem getPhyDiskUUID_of_long (long : ¬ drive.length < 124) :
    getPhyDiskUUID system drive = .error .abort := by
  have full : ¬ ("\\\\.\\".toList ++ drive).length < 128 := by
    rw [List.length_append]
    exact fun room => long (Nat.lt_of_add_lt_add_left room)
  rw [getPhyDiskUUID, volumePath, sprintfS, if_neg full]
  rfl

theorem vtoyIsFileExist_eq_ok_iff {path : List Char} {exist : Bool} :
    vtoyIsFileExist system path = .ok exist ↔
      (isUTF8Encode path = true → (system.multiByteToWideChar true path).length < 260) ∧
        (exist = true ↔ FileExists system path) := by
  unfold vtoyIsFileExist FileExists
  by_cases utf8 : isUTF8Encode path = true
  · rw [if_pos utf8, if_pos utf8, utf8ToUtf16]
    split_ifs with room
    · cases exist <;> simp [utf8, room]
    · simp [utf8, room]
  · rw [if_neg utf8, if_neg utf8]
    cases exist <;> simp [utf8]

theorem exists_vtoyIsFileExist {path : List Char}
    (wide : isUTF8Encode path = true → (system.multiByteToWideChar true path).length < 260) :
    ∃ exist, vtoyIsFileExist system path = .ok exist := by
  by_cases present : FileExists system path
  · exact ⟨true, vtoyIsFileExist_eq_ok_iff.mpr ⟨wide, iff_of_true rfl present⟩⟩
  · exact ⟨false, vtoyIsFileExist_eq_ok_iff.mpr
      ⟨wide, iff_of_false Bool.false_ne_true present⟩⟩

end Drive

section Step

variable {system : System} {param : OsParam} {drive : List Char} {later : List (List Char)}

/-- On a disk with the GUID, the file at the path of the image decides. -/
theorem findDiskLoop_carried {number : Int} (fits : DriveFits system param drive)
    (disk : physicalDisk system drive = some (number, param.vtoyDiskGuid))
    (phyDrive : Option Int) (diskname : List Char) :
    ∃ name exist, imgName param = .ok name ∧
      (exist = true ↔ FileExists system (drive ++ name)) ∧
      findDiskLoop system param (drive :: later) phyDrive diskname =
        if exist then .ok ⟨0, some number, drive⟩
        else findDiskLoop system param later (some number) drive := by
  obtain ⟨short, carried⟩ := fits
  obtain ⟨name, named, room, wide⟩ := carried number disk
  have printed : sprintfS 127 drive = .ok drive := sprintfS_of_lt (short.trans (by decide))
  have joined : sprintfS 512 (drive ++ name) = .ok (drive ++ name) := sprintfS_of_lt room
  obtain ⟨exist, checked⟩ := exists_vtoyIsFileExist wide
  refine ⟨name, exist, named, (vtoyIsFileExist_eq_ok_iff.mp checked).2, ?_⟩
  rw [findDiskLoop, getPhyDiskUUID_eq short, disk]
  simp only [ok_bind, ne_eq, not_true, if_false, printed, named, joined, checked]
  rfl

theorem findDiskLoop_verified {number : Int} (fits : DriveFits system param drive)
    (verified : Verified system param drive number) (phyDrive : Option Int)
    (diskname : List Char) :
    findDiskLoop system param (drive :: later) phyDrive diskname =
      .ok ⟨0, some number, drive⟩ := by
  obtain ⟨disk, name, named, present⟩ := verified
  obtain ⟨same, exist, namedToo, decides, step⟩ :=
    @findDiskLoop_carried system param drive later number fits disk phyDrive diskname
  obtain rfl : name = same := Except.ok.inj (named.symm.trans namedToo)
  rw [step, if_pos (decides.mpr present)]

theorem findDiskLoop_not_verified (fits : DriveFits system param drive)
    (refused : ∀ number, ¬ Verified system param drive number) (phyDrive : Option Int)
    (diskname : List Char) :
    ∃ next nextName, findDiskLoop system param (drive :: later) phyDrive diskname =
      findDiskLoop system param later next nextName := by
  have short := fits.1
  cases disk : physicalDisk system drive with
  | none =>
      refine ⟨phyDrive, diskname, ?_⟩
      rw [findDiskLoop, getPhyDiskUUID_eq short, disk]
      rfl
  | some found =>
      obtain ⟨number, uuid⟩ := found
      by_cases other : uuid = param.vtoyDiskGuid
      · subst other
        obtain ⟨name, exist, named, decides, step⟩ :=
          @findDiskLoop_carried system param drive later number fits disk phyDrive diskname
        have absent : ¬ FileExists system (drive ++ name) := by
          intro present
          exact refused number ⟨disk, name, named, present⟩
        refine ⟨some number, drive, ?_⟩
        rw [step, if_neg (decides.not.mpr absent)]
      · refine ⟨some number, diskname, ?_⟩
        rw [findDiskLoop, getPhyDiskUUID_eq short, disk]
        simp only [ok_bind, ne_eq, other, not_false_eq_true, if_true]

/-- A path that does not fit its buffer ends the search with a fault. -/
theorem driveFits_of_findDiskLoop {phyDrive : Option Int} {diskname : List Char}
    {search : DriveSearch}
    (returned : findDiskLoop system param (drive :: later) phyDrive diskname = .ok search) :
    DriveFits system param drive := by
  rw [findDiskLoop] at returned
  by_cases short : drive.length < 124
  · refine ⟨short, ?_⟩
    intro number disk
    rw [getPhyDiskUUID_eq short, disk] at returned
    simp only [ok_bind, ne_eq, not_true, if_false] at returned
    obtain ⟨printed, prints, returned⟩ := bind_eq_ok_iff.mp returned
    obtain ⟨name, named, returned⟩ := bind_eq_ok_iff.mp returned
    obtain ⟨path, joined, returned⟩ := bind_eq_ok_iff.mp returned
    obtain ⟨exist, checked, -⟩ := bind_eq_ok_iff.mp returned
    obtain ⟨-, rfl⟩ := sprintfS_eq_ok_iff.mp prints
    obtain ⟨room, rfl⟩ := sprintfS_eq_ok_iff.mp joined
    exact ⟨name, named, room, (vtoyIsFileExist_eq_ok_iff.mp checked).1⟩
  · rw [getPhyDiskUUID_of_long short] at returned
    cases returned

end Step

section Search

variable {system : System} {param : OsParam} {drives : List (List Char)}

theorem reportsVerified_of_fits
    (fits : ∀ drive, Searches system param drives drive → DriveFits system param drive)
    (phyDrive : Option Int) (diskname : List Char) :
    ReportsVerified system param drives (findDiskLoop system param drives phyDrive diskname) := by
  induction drives generalizing phyDrive diskname with
  | nil =>
      refine ⟨⟨1, phyDrive, diskname⟩, rfl, ?_, ?_⟩
      · apply iff_of_false Int.one_ne_zero
        rintro ⟨drive, ⟨⟩, -⟩
      · intro success
        cases success
  | cons drive later inductionHypothesis =>
      have here := fits drive (reaches_cons_iff.mpr (.inl rfl))
      by_cases verified : ∃ number, Verified system param drive number
      · obtain ⟨number, found⟩ := verified
        refine ⟨_, findDiskLoop_verified here found phyDrive diskname, ?_, ?_⟩
        · exact iff_of_true rfl ⟨drive, List.mem_cons_self, number, found⟩
        · intro _
          exact ⟨drive, number, reaches_cons_iff.mpr (.inl rfl), found, rfl, rfl⟩
      · obtain ⟨next, nextName, step⟩ := @findDiskLoop_not_verified system param drive later
          here (not_exists.mp verified) phyDrive diskname
        have behind : ∀ other, Searches system param later other →
            Searches system param (drive :: later) other :=
          fun other reached => reaches_cons_iff.mpr (.inr ⟨verified, reached⟩)
        obtain ⟨search, run, reported, first⟩ := inductionHypothesis
          (fun other reached => fits other (behind other reached)) next nextName
        refine ⟨search, step.trans run, ?_, ?_⟩
        · rw [reported]
          constructor
          · rintro ⟨other, membership, found⟩
            exact ⟨other, List.mem_cons_of_mem drive membership, found⟩
          · rintro ⟨other, membership, found⟩
            rcases List.mem_cons.mp membership with rfl | inLater
            · exact absurd found verified
            · exact ⟨other, inLater, found⟩
        · intro success
          obtain ⟨other, number, reached, found⟩ := first success
          exact ⟨other, number, behind other reached, found⟩

theorem fits_of_findDiskLoop {phyDrive : Option Int} {diskname : List Char}
    {search : DriveSearch}
    (returned : findDiskLoop system param drives phyDrive diskname = .ok search) :
    ∀ drive, Searches system param drives drive → DriveFits system param drive := by
  induction drives generalizing phyDrive diskname with
  | nil =>
      intro drive reached
      exact absurd reached not_reaches_nil
  | cons drive later inductionHypothesis =>
      have here := driveFits_of_findDiskLoop returned
      intro other reached
      rcases reaches_cons_iff.mp reached with rfl | ⟨refused, behind⟩
      · exact here
      · obtain ⟨next, nextName, step⟩ := @findDiskLoop_not_verified system param drive later
          here (not_exists.mp refused) phyDrive diskname
        exact inductionHypothesis (step ▸ returned) other behind

end Search

/-- Success is reported for the first verified drive, and for no other outcome, exactly
when the buffer for the drive strings is allocated and every path fits its buffer. -/
theorem reportsVerified_iff (system : System) (param : OsParam) :
    ReportsVerified system param system.driveStrings.val (vtoyFindDisk system param) ↔
      system.driveStringsMalloc = true ∧
        ∀ drive, Searches system param system.driveStrings.val drive →
          DriveFits system param drive := by
  unfold vtoyFindDisk
  cases allocated : system.driveStringsMalloc with
  | false =>
      constructor
      · rintro ⟨search, run, -, first⟩
        cases run
        obtain ⟨drive, number, reached, -, rfl, -⟩ := first rfl
        exact absurd reached.mem system.driveStrings.property
      · rintro ⟨⟨⟩, -⟩
  | true =>
      constructor
      · rintro ⟨search, run, -⟩
        exact ⟨rfl, fits_of_findDiskLoop run⟩
      · rintro ⟨-, fits⟩
        exact reportsVerified_of_fits fits none []

/-- No buffer for the drive strings: the search succeeds without a drive. -/
theorem not_reportsVerified_malloc :
    ¬ ReportsVerified { System.bare with driveStringsMalloc := false } .zero []
      (vtoyFindDisk { System.bare with driveStringsMalloc := false } .zero) := by
  rintro ⟨search, run, success, -⟩
  cases run
  obtain ⟨drive, ⟨⟩, -⟩ := success.mp rfl

end Vtoydump.Windows
