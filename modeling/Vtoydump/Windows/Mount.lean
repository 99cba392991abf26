import Vtoydump.Windows.Disk
import Vtoydump.Windows.Drive

/-!
# Mounting the image

Two back ends get a letter, or `0` for none.  The virtual disks of Windows 8
then choose a letter of their own, and `imdisk` gets one from `D` to `W`.
-/

namespace Vtoydump.Windows

open CRun

inductive Mount where
  | letter (drive : Char)
  /-- Attached, with a letter that Windows chooses. -/
  | automatic
  deriving DecidableEq

structure Outcome where
  status : Int
  mounts : List Mount
  out : List (List Char)
  stderr : List String
  deriving DecidableEq

def Outcome.failed (message : List Char) : Outcome := ⟨1, [], [message], []⟩

section Api

def defineLoop (system : System) (drive : Char) (cdromDrive : List Char) :
    Nat → Nat → Bool × List (List Char)
  | 0, _ => (false, [])
  | remaining + 1, attempt =>
      if system.virtualDisk.define attempt drive cdromDrive then
        (true, ["DefineDosDevice success".toList])
      else
        let (defined, out) := defineLoop system drive cdromDrive remaining (attempt + 1)
        (defined, "DefineDosDevice failed".toList :: out)

/-- The name of the device behind `CDROM` in the physical path of the disk. -/
def cdromDevice (physicalDrive : List Char) : Option (List Char) :=
  ((physicalDrive.map Char.toUpper).tails.find? fun tail => "CDROM".toList.isPrefixOf tail).map
    fun pos => "\\Device\\".toList ++ pos

/-- The first letter of the drives that changed. -/
def changedLetter : Nat → UInt32 → Nat → Char
  | 0, _, index => driveLetter index
  | left + 1, changed, index =>
      if changed &&& 1 = 0 then changedLetter left (changed >>> 1) (index + 1)
      else driveLetter index

/-- The path of the image in the buffer of the back end. -/
def isoPath (size : Nat) (param : OsParam) (diskname : List Char) : Run (List Char) := do
  let name ← imgName param
  sprintfS size (diskname ++ name)

/-- The wide path that is opened; a path that does not fit the buffer leaves it empty. -/
def widePath (system : System) (filePath : List Char) : List UInt16 :=
  let wide := system.multiByteToWideChar (isUTF8Encode filePath) filePath
  if wide.length ≤ 512 then wide else []

def mountedLine (drive : Char) (filePath : List Char) : List Char :=
  drive :: ": ".toList ++ filePath

/-- Attach without a letter, and define the letter. -/
def attachLetter (system : System) (drive : Char) (filePath : List Char) : Run Outcome :=
  if system.virtualDisk.attach true ≠ 0 then
    .ok (.failed ("Failed to attach virtual disk ErrorCode:".toList ++
      decimal (system.virtualDisk.attach true).toNat))
  else
    match system.virtualDisk.physicalPath with
    | .error status =>
        .ok (.failed ("Failed GetVirtualDiskPhysicalPath ErrorCode:".toList ++
          decimal status.toNat))
    | .ok physicalDrive =>
        match cdromDevice physicalDrive with
        | none => .ok (.failed "Invalid physical drive".toList)
        | some cdromDrive =>
            -- the limit given to `swprintf_s` is twice the size of the buffer
            if cdromDrive.length < 260 then
              let (defined, out) := defineLoop system drive cdromDrive 3 0
              .ok ⟨0, if defined then [.letter drive] else [],
                out ++ [mountedLine drive filePath], []⟩
            else .error .outOfBounds

/-- Attach with a letter that Windows chooses, and wait for it. -/
def attachAutomatic (system : System) (filePath : List Char) : Run Outcome :=
  if system.virtualDisk.attach false ≠ 0 then
    .ok (.failed ("Failed to attach virtual disk ErrorCode:".toList ++
      decimal (system.virtualDisk.attach false).toNat))
  else
    match system.virtualDisk.drivesAfter with
    | none => .error .diverges
    | some drives1 =>
        if drives1 = system.logicalDrives then .error .diverges
        else
          let drive := changedLetter 32 (system.logicalDrives ^^^ drives1) 0
          .ok ⟨0, [.automatic], [mountedLine drive filePath], []⟩

def vtoyMountIsoByApi (system : System) (param : OsParam) (diskname : List Char) (drive : Char) :
    Run Outcome := do
  let filePath ← isoPath 512 param diskname
  let status := system.virtualDisk.openDisk (widePath system filePath)
  if status ≠ 0 then
    -- ERROR_VIRTDISK_PROVIDER_NOT_FOUND
    if status = 0xC03A0014 then
      return .failed "VirtualDisk for ISO file is not supported in current system".toList
    else
      return .failed ("Failed to open virtual disk ErrorCode:".toList ++ decimal status.toNat)
  else if drive ≠ '\x00' then attachLetter system drive filePath
  else attachAutomatic system filePath

end Api

section Imdisk

/-- The part of `vtoy_load_nt_driver` behind the name of the driver. -/
def loadService (services : ServiceManager) (name : List Char) : Int × List (List Char) :=
  match services.openManager with
  | .error status => (1, ["OpenSCManager failed Error:".toList ++ decimal status.toNat])
  | .ok _ =>
      let opened : Option (List Char) :=
        match services.create name with
        | .ok _ => none
        | .error status =>
            -- ERROR_IO_PENDING and ERROR_SERVICE_EXISTS
            if status ≠ 997 ∧ status ≠ 1073 then
              some ("CreateService failed v ".toList ++ decimal status.toNat)
            else if !services.openService name then
              some ("OpenService failed ".toList ++ decimal status.toNat)
            else none
      match opened with
      | some message => (1, [message])
      | none =>
          match services.start name with
          | .ok _ => (0, [])
          -- ERROR_SERVICE_ALREADY_RUNNING
          | .error status => (if status = 1056 then 0 else 1, [])

/-- The name of a driver is what stands behind the last separator. -/
def driverName (drvBinPath : List Char) : List Char :=
  if '\\' ∈ drvBinPath ∨ '/' ∈ drvBinPath then
    (drvBinPath.reverse.takeWhile fun char => char ≠ '\\' && char ≠ '/').reverse
  else []

def vtoyLoadNtDriver (system : System) (drvBinPath : List Char) :
    Run (Int × List (List Char)) := do
  let name ← sprintfS 256 (driverName drvBinPath)
  return loadService system.services name

def imdiskLetter (system : System) (drive : Char) : Char :=
  if drive ≠ '\x00' then drive else vtoyFindFreeDrive system 0x7FFFF8

def imdiskCommand (imdiskexe isoPath : List Char) (letter : Char) : List Char :=
  imdiskexe ++ " -a -o ro -f \"".toList ++ isoPath ++ "\" -m ".toList ++ [letter, ':']

/-- The image is mounted if the process succeeds, which is not looked at. -/
def ventoyRunImdisk (system : System) (drive : Char) (isoPath imdiskexe : List Char) :
    Run (List Mount) := do
  let letter := imdiskLetter system drive
  let cmdline ← sprintfS 512 (imdiskCommand imdiskexe isoPath letter)
  let command := cmdline.takeWhile (· ≠ '\x00')
  if isUTF8Encode isoPath then
    let _ ← utf8ToUtf16 system 512 command
  return if system.imdisk command then [.letter letter] else []

def imdiskExe : List Char := "X:\\Windows\\System32\\imdisk.exe".toList

/-- Copy `imdisk` from the FAT of the disk and load its driver; the results of the copies
are not looked at. -/
def installImdisk (system : System) (number : Int) : Run (Int × List (List Char)) :=
  if !system.diskLength (physicalPath number) then .ok (1, [])
  else if !system.fatAttach (physicalPath number) then .ok (1, [])
  else vtoyLoadNtDriver system "X:\\Windows\\System32\\imdisk.sys".toList

def vtoyMountIsoByImdisk (system : System) (param : OsParam) (diskname : List Char)
    (drive : Char) (phyDrive : Option Int) : Run Outcome := do
  let path ← isoPath 260 param diskname
  let present ← vtoyIsFileExist system imdiskExe
  if present then
    let mounts ← ventoyRunImdisk system drive path "imdisk.exe".toList
    return ⟨0, mounts, [], []⟩
  else
    match phyDrive with
    | none => throw .uninitialized
    | some number =>
        let (rc, out) ← installImdisk system number
        if rc = 0 then
          let mounts ← ventoyRunImdisk system drive path imdiskExe
          return ⟨0, mounts, out, []⟩
        else return ⟨1, [], out, []⟩

end Imdisk

/-- The image ends up on the letter, and nowhere else. -/
def MountsOn (drive : Char) (run : Run Outcome) : Prop :=
  ∃ outcome, run = .ok outcome ∧ outcome.mounts = [.letter drive]

/-- Nothing is mounted, and the program says so. -/
def Refuses (run : Run Outcome) : Prop :=
  ∃ outcome, run = .ok outcome ∧ outcome.mounts = [] ∧ outcome.status ≠ 0

section ApiOutcome

variable {system : System} {param : OsParam} {diskname : List Char} {drive : Char}

/-- Every call that `vtoy_mount_iso_by_api` makes for a letter succeeds. -/
def ApiMounts (system : System) (param : OsParam) (diskname : List Char) (drive : Char) : Prop :=
  ∃ filePath physicalDrive cdromDrive, isoPath 512 param diskname = .ok filePath ∧
    system.virtualDisk.openDisk (widePath system filePath) = 0 ∧
    system.virtualDisk.attach true = 0 ∧
    system.virtualDisk.physicalPath = .ok physicalDrive ∧
    cdromDevice physicalDrive = some cdromDrive ∧ cdromDrive.length < 260 ∧
    ∃ attempt < 3, system.virtualDisk.define attempt drive cdromDrive = true

/-- The virtual disk cannot be opened, or not be attached with a letter of its own. -/
def ApiRefuses (system : System) (param : OsParam) (diskname : List Char) : Prop :=
  ∃ filePath, isoPath 512 param diskname = .ok filePath ∧
    (system.virtualDisk.openDisk (widePath system filePath) ≠ 0 ∨
      system.virtualDisk.attach false ≠ 0)

theorem defineLoop_fst {cdromDrive : List Char} {remaining attempt : Nat} :
    (defineLoop system drive cdromDrive remaining attempt).1 = true ↔
      ∃ later, attempt ≤ later ∧ later < attempt + remaining ∧
        system.virtualDisk.define later drive cdromDrive = true := by
  induction remaining generalizing attempt with
  | zero =>
      constructor
      · rintro ⟨⟩
      · rintro ⟨later, above, below, -⟩
        exact absurd below (Nat.not_lt_of_le above)
  | succ remaining inductionHypothesis =>
      rw [defineLoop]
      split_ifs with defined
      · simp only [true_iff]
        exact ⟨attempt, Nat.le_refl _, Nat.lt_add_of_pos_right (Nat.succ_pos _), defined⟩
      · change (defineLoop system drive cdromDrive remaining (attempt + 1)).1 = true ↔ _
        rw [inductionHypothesis]
        constructor
        · rintro ⟨later, above, below, succeeds⟩
          exact ⟨later, Nat.le_of_succ_le above, by omega, succeeds⟩
        · rintro ⟨later, above, below, succeeds⟩
          have behind : attempt ≠ later := by
            rintro rfl
            exact defined succeeds
          exact ⟨later, by omega, by omega, succeeds⟩

theorem attachLetter_mountsOn_iff {filePath : List Char} :
    MountsOn drive (attachLetter system drive filePath) ↔
      system.virtualDisk.attach true = 0 ∧ ∃ physicalDrive cdromDrive,
        system.virtualDisk.physicalPath = .ok physicalDrive ∧
        cdromDevice physicalDrive = some cdromDrive ∧ cdromDrive.length < 260 ∧
        ∃ attempt < 3, system.virtualDisk.define attempt drive cdromDrive = true := by
  constructor
  · rintro ⟨outcome, returned, mounted⟩
    unfold attachLetter at returned
    split_ifs at returned with attached
    · cases returned
      cases mounted
    · refine ⟨not_not.mp attached, ?_⟩
      cases path : system.virtualDisk.physicalPath with
      | error status =>
          rw [path] at returned
          cases returned
          cases mounted
      | ok physicalDrive =>
          simp only [path] at returned
          cases device : cdromDevice physicalDrive with
          | none =>
              rw [device] at returned
              cases returned
              cases mounted
          | some cdromDrive =>
              simp only [device] at returned
              split_ifs at returned with fits defined
              · obtain ⟨attempt, -, below, succeeds⟩ := defineLoop_fst.mp defined
                exact ⟨physicalDrive, cdromDrive, rfl, device, fits, attempt, by omega, succeeds⟩
              · cases returned
                cases mounted
  · rintro ⟨attached, physicalDrive, cdromDrive, path, device, fits, attempt, below, succeeds⟩
    have defined : (defineLoop system drive cdromDrive 3 0).1 = true :=
      defineLoop_fst.mpr ⟨attempt, Nat.zero_le _, by omega, succeeds⟩
    refine ⟨_, by simp only [attachLetter, attached, path, device, fits, ne_eq, not_true_eq_false,
      if_true, if_false]; rfl, ?_⟩
    rw [if_pos defined]

theorem attachAutomatic_refuses_iff {filePath : List Char} :
    Refuses (attachAutomatic system filePath) ↔ system.virtualDisk.attach false ≠ 0 := by
  constructor
  · rintro ⟨outcome, returned, -, failed⟩
    unfold attachAutomatic at returned
    split_ifs at returned with refused
    · exact refused
    · cases after : system.virtualDisk.drivesAfter with
      | none =>
          rw [after] at returned
          cases returned
      | some drives1 =>
          simp only [after] at returned
          split_ifs at returned with unchanged
          cases returned
          exact absurd rfl failed
  · intro refused
    refine ⟨_, if_pos refused, rfl, ?_⟩
    exact Int.one_ne_zero

theorem vtoyMountIsoByApi_of_fault {fault : Fault}
    (path : isoPath 512 param diskname = .error fault) :
    vtoyMountIsoByApi system param diskname drive = .error fault := by
  rw [vtoyMountIsoByApi, path, error_bind]

/-- The image is opened, and attached with the letter or without one. -/
theorem vtoyMountIsoByApi_of_opened {filePath : List Char}
    (path : isoPath 512 param diskname = .ok filePath)
    (opened : system.virtualDisk.openDisk (widePath system filePath) = 0) :
    vtoyMountIsoByApi system param diskname drive =
      if drive ≠ '\x00' then attachLetter system drive filePath
      else attachAutomatic system filePath := by
  rw [vtoyMountIsoByApi, path, ok_bind]
  simp only
  rw [if_neg (not_not.mpr opened)]

/-- An image that cannot be opened is refused. -/
theorem exists_failed_of_refused {filePath : List Char}
    (path : isoPath 512 param diskname = .ok filePath)
    (refused : system.virtualDisk.openDisk (widePath system filePath) ≠ 0) :
    ∃ message, vtoyMountIsoByApi system param diskname drive = .ok (.failed message) := by
  rw [vtoyMountIsoByApi, path, ok_bind]
  simp only
  rw [if_pos refused]
  split_ifs
  · exact ⟨_, rfl⟩
  · exact ⟨_, rfl⟩

theorem vtoyMountIsoByApi_mountsOn_iff (asked : drive ≠ '\x00') :
    MountsOn drive (vtoyMountIsoByApi system param diskname drive) ↔
      ApiMounts system param diskname drive := by
  unfold ApiMounts
  cases path : isoPath 512 param diskname with
  | error fault =>
      rw [vtoyMountIsoByApi_of_fault path]
      simp [MountsOn]
  | ok filePath =>
      by_cases opened : system.virtualDisk.openDisk (widePath system filePath) = 0
      · rw [vtoyMountIsoByApi_of_opened path opened, if_pos asked, attachLetter_mountsOn_iff]
        constructor
        · rintro ⟨attached, physicalDrive, cdromDrive, rest⟩
          exact ⟨filePath, physicalDrive, cdromDrive, rfl, opened, attached, rest⟩
        · rintro ⟨_, physicalDrive, cdromDrive, ⟨⟩, -, attached, rest⟩
          exact ⟨attached, physicalDrive, cdromDrive, rest⟩
      · obtain ⟨message, failed⟩ := @exists_failed_of_refused _ _ _ drive _ path opened
        constructor
        · rintro ⟨outcome, returned, mounted⟩
          cases failed.symm.trans returned
          cases mounted
        · rintro ⟨_, _, _, ⟨⟩, reopened, -⟩
          exact absurd reopened opened

theorem vtoyMountIsoByApi_refuses_iff :
    Refuses (vtoyMountIsoByApi system param diskname '\x00') ↔
      ApiRefuses system param diskname := by
  unfold ApiRefuses
  cases path : isoPath 512 param diskname with
  | error fault =>
      rw [vtoyMountIsoByApi_of_fault path]
      simp [Refuses]
  | ok filePath =>
      by_cases opened : system.virtualDisk.openDisk (widePath system filePath) = 0
      · have attaches := @attachAutomatic_refuses_iff system filePath
        rw [vtoyMountIsoByApi_of_opened path opened, if_neg (not_not.mpr rfl)]
        simp [opened, attaches]
      · obtain ⟨message, failed⟩ := @exists_failed_of_refused _ _ _ '\x00' _ path opened
        constructor
        · intro _
          exact ⟨filePath, rfl, .inl opened⟩
        · intro _
          exact ⟨_, failed, rfl, Int.one_ne_zero⟩

end ApiOutcome

section ImdiskOutcome

variable {system : System} {param : OsParam} {diskname : List Char} {drive : Char}
  {phyDrive : Option Int}

/-- The command line that `imdisk` is started with, as the string that it is. -/
def imdiskString (imdiskexe isoPath : List Char) (letter : Char) : List Char :=
  (imdiskCommand imdiskexe isoPath letter).takeWhile (· ≠ '\x00')

/-- `imdisk` is started, and mounts the image. -/
def ImdiskRuns (system : System) (imdiskexe isoPath : List Char) (letter : Char) : Prop :=
  (isUTF8Encode isoPath = true → (system.multiByteToWideChar true
    (imdiskString imdiskexe isoPath letter)).length < 512) ∧
  system.imdisk (imdiskString imdiskexe isoPath letter) = true

def imdiskInstalls (system : System) (number : Int) : Bool :=
  system.diskLength (physicalPath number) && system.fatAttach (physicalPath number) &&
    decide ((loadService system.services "imdisk.sys".toList).1 = 0)

/-- Every step of `vtoy_mount_iso_by_imdisk` succeeds for the letter. -/
def ImdiskMounts (system : System) (param : OsParam) (diskname : List Char)
    (phyDrive : Option Int) (drive : Char) : Prop :=
  ∃ path, isoPath 260 param diskname = .ok path ∧
    if system.fileA imdiskExe = .regular then ImdiskRuns system "imdisk.exe".toList path drive
    else ∃ number, phyDrive = some number ∧ imdiskInstalls system number = true ∧
      ImdiskRuns system imdiskExe path drive

/-- There is no `imdisk`, and it cannot be installed. -/
def ImdiskRefuses (system : System) (param : OsParam) (diskname : List Char)
    (phyDrive : Option Int) : Prop :=
  ∃ path, isoPath 260 param diskname = .ok path ∧ system.fileA imdiskExe ≠ .regular ∧
    ∃ number, phyDrive = some number ∧ imdiskInstalls system number = false

theorem length_isoPath_lt {size : Nat} {path : List Char}
    (built : isoPath size param diskname = .ok path) : path.length < size := by
  obtain ⟨name, -, printed⟩ := bind_eq_ok_iff.mp built
  obtain ⟨fits, rfl⟩ := sprintfS_eq_ok_iff.mp printed
  exact fits

theorem length_imdiskCommand_lt {imdiskexe path : List Char} {letter : Char}
    (short : imdiskexe.length ≤ 32) (fits : path.length < 260) :
    (imdiskCommand imdiskexe path letter).length < 512 := by
  have options : " -a -o ro -f \"".toList.length = 14 := rfl
  have mount : "\" -m ".toList.length = 5 := rfl
  simp only [imdiskCommand, List.length_append, options, mount, List.length_cons, List.length_nil]
  omega

theorem ventoyRunImdisk_eq_ok_iff {imdiskexe path : List Char} {mounts : List Mount}
    (short : imdiskexe.length ≤ 32) (fits : path.length < 260) :
    ventoyRunImdisk system drive path imdiskexe = .ok mounts ↔
      (isUTF8Encode path = true → (system.multiByteToWideChar true
        (imdiskString imdiskexe path (imdiskLetter system drive))).length < 512) ∧
      mounts = if system.imdisk (imdiskString imdiskexe path (imdiskLetter system drive)) then
        [.letter (imdiskLetter system drive)] else [] := by
  have room := @length_imdiskCommand_lt imdiskexe path (imdiskLetter system drive) short fits
  unfold ventoyRunImdisk
  simp only [sprintfS_of_lt room, ok_bind]
  by_cases utf8 : isUTF8Encode path = true
  · simp only [utf8, if_true, utf8ToUtf16, forall_const]
    by_cases narrow : (system.multiByteToWideChar true
        (imdiskString imdiskexe path (imdiskLetter system drive))).length < 512
    · rw [if_pos (by exact narrow)]
      simp only [ok_bind, pure_eq_ok, Except.ok.injEq, narrow, true_and]
      exact eq_comm
    · rw [if_neg (by exact narrow)]
      simp [narrow]
  · rw [if_neg utf8]
    constructor
    · rintro ⟨⟩
      exact ⟨fun wide => absurd wide utf8, rfl⟩
    · rintro ⟨-, rfl⟩
      rfl

theorem ventoyRunImdisk_letter_iff {imdiskexe path : List Char}
    (short : imdiskexe.length ≤ 32) (fits : path.length < 260) (asked : drive ≠ '\x00') :
    ventoyRunImdisk system drive path imdiskexe = .ok [.letter drive] ↔
      ImdiskRuns system imdiskexe path drive := by
  have letter : imdiskLetter system drive = drive := if_pos asked
  rw [ventoyRunImdisk_eq_ok_iff short fits, letter, ImdiskRuns]
  apply and_congr_right
  intro _
  split_ifs with mounts
  · simp [mounts]
  · simp [mounts]

theorem vtoyIsFileExist_imdiskExe :
    vtoyIsFileExist system imdiskExe = .ok (decide (system.fileA imdiskExe = .regular)) := by
  have ascii : isUTF8Encode imdiskExe = false := by decide
  rw [vtoyIsFileExist, ascii]
  rfl

theorem exists_installImdisk (system : System) (number : Int) :
    ∃ rc out, installImdisk system number = .ok (rc, out) ∧
      (rc = 0 ↔ imdiskInstalls system number = true) := by
  have driver : vtoyLoadNtDriver system "X:\\Windows\\System32\\imdisk.sys".toList =
      .ok (loadService system.services "imdisk.sys".toList) := rfl
  rw [installImdisk, imdiskInstalls, driver]
  cases system.diskLength (physicalPath number) with
  | false => exact ⟨1, [], rfl, by simp⟩
  | true =>
      cases system.fatAttach (physicalPath number) with
      | false => exact ⟨1, [], rfl, by simp⟩
      | true =>
          refine ⟨(loadService system.services "imdisk.sys".toList).1, _, rfl, ?_⟩
          rw [Bool.true_and, Bool.true_and, decide_eq_true_iff]

theorem vtoyMountIsoByImdisk_present {path : List Char}
    (built : isoPath 260 param diskname = .ok path)
    (present : system.fileA imdiskExe = .regular) :
    vtoyMountIsoByImdisk system param diskname drive phyDrive = (do
      let mounts ← ventoyRunImdisk system drive path "imdisk.exe".toList
      return ⟨0, mounts, [], []⟩) := by
  rw [vtoyMountIsoByImdisk, built, ok_bind, vtoyIsFileExist_imdiskExe, ok_bind,
    if_pos (decide_eq_true present)]

theorem vtoyMountIsoByImdisk_absent {path : List Char} {number : Int}
    (built : isoPath 260 param diskname = .ok path)
    (absent : system.fileA imdiskExe ≠ .regular) :
    ∃ out, vtoyMountIsoByImdisk system param diskname drive (some number) =
      if imdiskInstalls system number = true then do
        let mounts ← ventoyRunImdisk system drive path imdiskExe
        return ⟨0, mounts, out, []⟩
      else .ok ⟨1, [], out, []⟩ := by
  obtain ⟨rc, out, installed, success⟩ := exists_installImdisk system number
  refine ⟨out, ?_⟩
  rw [vtoyMountIsoByImdisk, built, ok_bind, vtoyIsFileExist_imdiskExe, ok_bind,
    if_neg (by rwa [decide_eq_true_iff])]
  simp only [installed, ok_bind]
  by_cases loaded : rc = 0
  · rw [if_pos loaded, if_pos (success.mp loaded)]
  · rw [if_neg loaded, if_neg (mt success.mpr loaded)]
    rfl

theorem exists_path_of_imdisk {outcome : Outcome}
    (returned : vtoyMountIsoByImdisk system param diskname drive phyDrive = .ok outcome) :
    ∃ path, isoPath 260 param diskname = .ok path :=
  let ⟨path, built, _⟩ := bind_eq_ok_iff.mp returned
  ⟨path, built⟩

theorem exists_number_of_imdisk {path : List Char} {outcome : Outcome}
    (built : isoPath 260 param diskname = .ok path)
    (absent : system.fileA imdiskExe ≠ .regular)
    (returned : vtoyMountIsoByImdisk system param diskname drive phyDrive = .ok outcome) :
    ∃ number, phyDrive = some number := by
  cases phyDrive with
  | some number => exact ⟨number, rfl⟩
  | none =>
      rw [vtoyMountIsoByImdisk, built, ok_bind, vtoyIsFileExist_imdiskExe, ok_bind,
        if_neg (by rwa [decide_eq_true_iff])] at returned
      cases returned

theorem vtoyMountIsoByImdisk_mountsOn_iff (asked : drive ≠ '\x00') :
    MountsOn drive (vtoyMountIsoByImdisk system param diskname drive phyDrive) ↔
      ImdiskMounts system param diskname phyDrive drive := by
  constructor
  · rintro ⟨outcome, returned, mounted⟩
    obtain ⟨path, built⟩ := exists_path_of_imdisk returned
    have fits := length_isoPath_lt built
    refine ⟨path, built, ?_⟩
    split_ifs with present
    · rw [vtoyMountIsoByImdisk_present built present] at returned
      obtain ⟨mounts, ran, result⟩ := bind_eq_ok_iff.mp returned
      cases result
      apply (ventoyRunImdisk_letter_iff (by decide) fits asked).mp
      exact ran.trans (congrArg Except.ok mounted)
    · obtain ⟨number, rfl⟩ := exists_number_of_imdisk built present returned
      obtain ⟨out, run⟩ := @vtoyMountIsoByImdisk_absent system param diskname drive path number
        built present
      rw [run] at returned
      split_ifs at returned with installs
      · obtain ⟨mounts, ran, result⟩ := bind_eq_ok_iff.mp returned
        cases result
        refine ⟨number, rfl, installs, ?_⟩
        apply (ventoyRunImdisk_letter_iff (by decide) fits asked).mp
        exact ran.trans (congrArg Except.ok mounted)
      · cases returned
        cases mounted
  · rintro ⟨path, built, mounts⟩
    have fits := length_isoPath_lt built
    split_ifs at mounts with present
    · refine ⟨⟨0, [.letter drive], [], []⟩, ?_, rfl⟩
      rw [vtoyMountIsoByImdisk_present built present,
        (ventoyRunImdisk_letter_iff (by decide) fits asked).mpr mounts]
      rfl
    · obtain ⟨number, rfl, installs, runs⟩ := mounts
      obtain ⟨out, run⟩ := @vtoyMountIsoByImdisk_absent system param diskname drive path number
        built present
      refine ⟨⟨0, [.letter drive], out, []⟩, ?_, rfl⟩
      rw [run, if_pos installs, (ventoyRunImdisk_letter_iff (by decide) fits asked).mpr runs]
      rfl

theorem vtoyMountIsoByImdisk_refuses_iff :
    Refuses (vtoyMountIsoByImdisk system param diskname drive phyDrive) ↔
      ImdiskRefuses system param diskname phyDrive := by
  constructor
  · rintro ⟨outcome, returned, -, failed⟩
    obtain ⟨path, built⟩ := exists_path_of_imdisk returned
    by_cases present : system.fileA imdiskExe = .regular
    · rw [vtoyMountIsoByImdisk_present built present] at returned
      obtain ⟨mounts, -, result⟩ := bind_eq_ok_iff.mp returned
      cases result
      exact absurd rfl failed
    · obtain ⟨number, rfl⟩ := exists_number_of_imdisk built present returned
      obtain ⟨out, run⟩ := @vtoyMountIsoByImdisk_absent system param diskname drive path number
        built present
      refine ⟨path, built, present, number, rfl, ?_⟩
      rw [run] at returned
      split_ifs at returned with installs
      · obtain ⟨mounts, -, result⟩ := bind_eq_ok_iff.mp returned
        cases result
        exact absurd rfl failed
      · exact Bool.eq_false_iff.mpr installs
  · rintro ⟨path, built, absent, number, rfl, refused⟩
    obtain ⟨out, run⟩ := @vtoyMountIsoByImdisk_absent system param diskname drive path number
      built absent
    refine ⟨⟨1, [], out, []⟩, ?_, rfl, Int.one_ne_zero⟩
    rw [run, if_neg (Bool.eq_false_iff.mp refused)]

end ImdiskOutcome

end Vtoydump.Windows
