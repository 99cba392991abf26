import Vtoydump.Windows.Loaders
import Vtoydump.Windows.Mount

/-!
# The Windows program

`main` reads its arguments, loads the runtime data, turns the path of the image
into one of Windows, searches the drive of the image and prints or mounts it.
-/

namespace Vtoydump.Windows

open CRun

structure Request where
  mountiso : Bool
  drive : Char
  fromfile : Option (List Char)
  deriving DecidableEq

def checkOpt (arg : List Char) (c : Char) : Bool :=
  arg.getD 0 '\x00' == '-' && arg.getD 1 '\x00' == c

def mountOption (system : System) (arg : List Char) (request : Request) : Run Request :=
  if arg.getD 2 '\x00' = '=' then
    if (arg.getD 3 '\x00').isAlpha then
      .ok { request with mountiso := true, drive := (arg.getD 3 '\x00').toUpper }
    else if arg.getD 3 '\x00' = '0' ∧ arg.getD 4 '\x00' = 'x' then do
      let driveBits ← strtoul 4294967295 16 (arg.drop 3 ++ ['\x00'])
      return { request with
        mountiso := true, drive := vtoyFindFreeDrive system (UInt32.ofNat driveBits) }
    else .ok { request with mountiso := true }
  else .ok { request with mountiso := true }

def printUsage : List (List Char) :=
  ["Usage: vtoydump [ -m[=K/0x7FFFF8] ] [ -i filepath ] [ -v ]",
    "  none  Only print ventoy runtime data",
    "  -m    Mount the iso file ",
    "        (Not supported before Windows 8 and Windows Server 2012)",
    "  -i    Load .sys driver",
    "  -v    Verbose, print additional debug info",
    "  -h    Print this help info",
    ""].map String.toList

/-- The option `-i`, which ends the program. -/
def loadDriver (system : System) (driver : List Char) : Run Outcome := do
  let exist ← if ':' ∈ driver then vtoyIsFileExist system driver else pure false
  if exist then
    let filepath ← sprintfS 256 driver
    let (rc, out) ← vtoyLoadNtDriver system filepath
    return ⟨rc, [], out, []⟩
  else return .failed "Must input driver file full path".toList

def dataFilePath (system : System) (file : List Char) : Run (Option (List Char)) := do
  let exist ← vtoyIsFileExist system file
  if exist then
    let filepath ← sprintfS 256 file
    return some filepath
  else return none

def parseArgs (system : System) : List (List Char) → Request → Run (Except Outcome Request)
  | [], request => .ok (.ok request)
  | arg :: later, request =>
      if checkOpt arg 'm' then do
        let next ← mountOption system arg request
        parseArgs system later next
      else if checkOpt arg 'i' then
        match later with
        | [] => .ok (.error (.failed "Must input driver file full path".toList))
        | driver :: _ => do
            let outcome ← loadDriver system driver
            return .error outcome
      else if checkOpt arg 'f' then
        match later with
        | [] => .ok (.error (.failed "Must input data file full path".toList))
        | file :: behind => do
            match ← dataFilePath system file with
            | none => return .error (.failed "Must input data file full path".toList)
            | some filepath => parseArgs system behind { request with fromfile := some filepath }
      else if checkOpt arg 'v' then parseArgs system later request
      else if checkOpt arg 'h' then .ok (.error ⟨0, [], printUsage, []⟩)
      else .ok (.error ⟨1, [], [], []⟩)

/-- The part of `main` up to the search, which it makes unless it ends here. -/
def prepare (system : System) (args : List (List Char)) :
    Run (Except Outcome (Request × OsParam)) := do
  match ← parseArgs system args ⟨false, '\x00', none⟩ with
  | .error outcome => return .error outcome
  | .ok request =>
      let (rc, param) := loadOsParam system request.fromfile
      if rc ≠ 0 then return .error ⟨rc, [], [], ["ventoy runtime data not found"]⟩
      else
        let converted ← convertImgPath param
        return .ok (request, converted)

def vtoyPrintOsParam (param : OsParam) (diskname : List Char) : Run Outcome := do
  let name ← imgName param
  return ⟨0, [], [diskname ++ name], []⟩

def main (system : System) (args : List (List Char)) : Run Outcome := do
  match ← prepare system args with
  | .error outcome => return outcome
  | .ok (request, param) =>
      let search ← vtoyFindDisk system param
      if search.rc ≠ 0 then return ⟨search.rc, [], [], []⟩
      else if request.mountiso then
        if system.windows8OrGreater then
          vtoyMountIsoByApi system param search.diskname request.drive
        else vtoyMountIsoByImdisk system param search.diskname request.drive search.phyDrive
      else vtoyPrintOsParam param search.diskname

section Prepared

variable {system : System} {args : List (List Char)} {request : Request} {param : OsParam}

theorem prepare_eq_ok_iff :
    prepare system args = .ok (.ok (request, param)) ↔
      parseArgs system args ⟨false, '\x00', none⟩ = .ok (.ok request) ∧
      ∃ loaded, loadOsParam system request.fromfile = (0, loaded) ∧
        convertImgPath loaded = .ok param := by
  unfold prepare
  constructor
  · intro prepared
    obtain ⟨parsed, parses, prepared⟩ := bind_eq_ok_iff.mp prepared
    cases parsed with
    | error outcome => cases prepared
    | ok asked =>
        simp only at prepared
        split_ifs at prepared with failed
        · cases prepared
        · obtain ⟨converted, converts, result⟩ := bind_eq_ok_iff.mp prepared
          cases result
          exact ⟨parses, _, Prod.ext (not_not.mp failed) rfl, converts⟩
  · rintro ⟨parses, loaded, loads, converts⟩
    rw [parses]
    simp [loads, converts]

end Prepared

section Parse

/-- Arguments that are read to their end, and what they make of a request. -/
inductive Reads (system : System) : List (List Char) → Request → Request → Prop
  | nil (request) : Reads system [] request request
  | mount {arg later request next final} : checkOpt arg 'm' = true →
      mountOption system arg request = .ok next → Reads system later next final →
      Reads system (arg :: later) request final
  | file {arg file behind request filepath final} : checkOpt arg 'f' = true →
      dataFilePath system file = .ok (some filepath) →
      Reads system behind { request with fromfile := some filepath } final →
      Reads system (arg :: file :: behind) request final
  | verbose {arg later request final} : checkOpt arg 'v' = true →
      Reads system later request final → Reads system (arg :: later) request final

variable {system : System} {request asked final : Request} {arg : List Char}

theorem checkOpt_unique {c d : Char} (first : checkOpt arg c = true)
    (second : checkOpt arg d = true) : c = d := by
  unfold checkOpt at first second
  rw [Bool.and_eq_true, beq_iff_eq, beq_iff_eq] at first second
  exact first.2.symm.trans second.2

theorem not_checkOpt_of_ne {c d : Char} (opt : checkOpt arg c = true) (ne : c ≠ d) :
    ¬ checkOpt arg d = true := fun other => ne (checkOpt_unique opt other)

theorem parseArgs_mount {later : List (List Char)} {next : Request}
    (opt : checkOpt arg 'm' = true) (moved : mountOption system arg request = .ok next) :
    parseArgs system (arg :: later) request = parseArgs system later next := by
  conv_lhs => unfold parseArgs
  rw [if_pos opt, moved]
  rfl

theorem parseArgs_file {file filepath : List Char} {behind : List (List Char)}
    (opt : checkOpt arg 'f' = true) (opened : dataFilePath system file = .ok (some filepath)) :
    parseArgs system (arg :: file :: behind) request =
      parseArgs system behind { request with fromfile := some filepath } := by
  conv_lhs => unfold parseArgs
  rw [if_neg (not_checkOpt_of_ne opt (by decide)), if_neg (not_checkOpt_of_ne opt (by decide)),
    if_pos opt]
  simp only [opened, ok_bind]

theorem parseArgs_verbose {later : List (List Char)} (opt : checkOpt arg 'v' = true) :
    parseArgs system (arg :: later) request = parseArgs system later request := by
  conv_lhs => unfold parseArgs
  rw [if_neg (not_checkOpt_of_ne opt (by decide)), if_neg (not_checkOpt_of_ne opt (by decide)),
    if_neg (not_checkOpt_of_ne opt (by decide)), if_pos opt]

theorem reads_of_parseArgs {args : List (List Char)}
    (parsed : parseArgs system args request = .ok (.ok final)) :
    Reads system args request final := by
  fun_induction parseArgs system args request with
  | case1 request =>
      cases parsed
      exact .nil _
  | case2 arg later request opt inductionHypothesis =>
      obtain ⟨next, moved, rest⟩ := bind_eq_ok_iff.mp parsed
      exact .mount opt moved (inductionHypothesis next rest)
  | case3 | case5 => cases parsed
  | case4 arg request notM opt driver behind =>
      obtain ⟨outcome, -, result⟩ := bind_eq_ok_iff.mp parsed
      cases result
  | case6 arg request notM notI opt file behind inductionHypothesis =>
      obtain ⟨opened, found, rest⟩ := bind_eq_ok_iff.mp parsed
      cases opened with
      | none => cases rest
      | some filepath => exact .file opt found (inductionHypothesis filepath rest)
  | case7 arg later request notM notI notF opt inductionHypothesis =>
      exact .verbose opt (inductionHypothesis parsed)
  | case8 | case9 => cases parsed

theorem Reads.parseArgs_append {front : List (List Char)} (later : List (List Char))
    (reads : Reads system front request asked) :
    parseArgs system (front ++ later) request = parseArgs system later asked := by
  induction reads with
  | nil => rfl
  | mount opt moved _ inductionHypothesis =>
      exact (parseArgs_mount opt moved).trans inductionHypothesis
  | file opt opened _ inductionHypothesis =>
      exact (parseArgs_file opt opened).trans inductionHypothesis
  | verbose opt _ inductionHypothesis =>
      exact (parseArgs_verbose opt).trans inductionHypothesis

theorem Reads.mount_eq {args : List (List Char)} (reads : Reads system args request final)
    (others : ∀ arg ∈ args, checkOpt arg 'm' = false) :
    final.mountiso = request.mountiso ∧ final.drive = request.drive := by
  induction reads with
  | nil => exact ⟨rfl, rfl⟩
  | mount opt _ _ _ =>
      rw [others _ List.mem_cons_self] at opt
      cases opt
  | file _ _ _ inductionHypothesis =>
      exact inductionHypothesis fun arg membership =>
        others arg (List.mem_cons_of_mem _ (List.mem_cons_of_mem _ membership))
  | verbose _ _ inductionHypothesis =>
      exact inductionHypothesis fun arg membership =>
        others arg (List.mem_cons_of_mem _ membership)

/-- The option `-m=0xMASK` asks for the highest letter of the mask that is free. -/
theorem mountOption_mask {digits : List Char} {mask : UInt32}
    (numeric : ∀ digit ∈ digits, isDigit 16 digit = true)
    (value : digitsValue 16 digits = mask.toNat) :
    mountOption system ("-m=0x".toList ++ digits) request =
      .ok { request with mountiso := true, drive := vtoyFindFreeDrive system mask } := by
  have small : digitsValue 16 digits ≤ 4294967295 := by
    rw [value]
    exact Nat.le_of_lt_succ mask.toNat_lt
  have parsed := strtoul_hexadecimal numeric small
  have text : ("-m=0x".toList ++ digits).drop 3 ++ ['\x00'] =
      "0x".toList ++ digits ++ ['\x00'] := rfl
  have equals : ("-m=0x".toList ++ digits).getD 2 '\x00' = '=' := rfl
  have zero : ("-m=0x".toList ++ digits).getD 3 '\x00' = '0' := rfl
  have letter : ("-m=0x".toList ++ digits).getD 4 '\x00' = 'x' := rfl
  have notAlpha : ¬ '0'.isAlpha = true := by decide
  rw [mountOption, if_pos equals, zero, if_neg notAlpha, if_pos ⟨rfl, letter⟩, text, parsed,
    value, ok_bind, UInt32.ofNat_toNat]
  rfl

theorem request_of_mask {before after : List (List Char)} {digits : List Char} {mask : UInt32}
    {earlier : Request} (numeric : ∀ digit ∈ digits, isDigit 16 digit = true)
    (value : digitsValue 16 digits = mask.toNat)
    (front : parseArgs system before request = .ok (.ok earlier))
    (last : ∀ arg ∈ after, checkOpt arg 'm' = false)
    (parsed : parseArgs system (before ++ ("-m=0x".toList ++ digits) :: after) request =
      .ok (.ok final)) :
    final.mountiso = true ∧ final.drive = vtoyFindFreeDrive system mask := by
  rw [(reads_of_parseArgs front).parseArgs_append,
    parseArgs_mount rfl (mountOption_mask numeric value)] at parsed
  obtain ⟨mounting, drive⟩ := (reads_of_parseArgs parsed).mount_eq last
  exact ⟨mounting, drive⟩

end Parse

section Mask

def HighestFree (system : System) (mask : UInt32) (index : Nat) : Prop :=
  index < 26 ∧ freeDrive system mask index = true ∧
    ∀ other, index < other → other < 26 → freeDrive system mask other = false

/-- The image is mounted on the highest letter that the mask asks for and that is free;
if there is none, nothing is mounted and the program fails. -/
def StaysInMask (system : System) (mask : UInt32) (run : Run Outcome) : Prop :=
  ∃ outcome, run = .ok outcome ∧
    (∀ index, HighestFree system mask index →
      outcome.mounts = [.letter (driveLetter index)]) ∧
    ((∀ index < 26, freeDrive system mask index = false) →
      outcome.mounts = [] ∧ outcome.status ≠ 0)

def BackEndMounts (system : System) (param : OsParam) (search : DriveSearch) (drive : Char) :
    Prop :=
  if system.windows8OrGreater then ApiMounts system param search.diskname drive
  else ImdiskMounts system param search.diskname search.phyDrive drive

def BackEndRefuses (system : System) (param : OsParam) (search : DriveSearch) : Prop :=
  if system.windows8OrGreater then ApiRefuses system param search.diskname
  else ImdiskRefuses system param search.diskname search.phyDrive

variable {system : System} {param : OsParam} {search : DriveSearch} {mask : UInt32}

/-- The back end that `main` chooses. -/
def mountIso (system : System) (param : OsParam) (search : DriveSearch) (drive : Char) :
    Run Outcome :=
  if system.windows8OrGreater then vtoyMountIsoByApi system param search.diskname drive
  else vtoyMountIsoByImdisk system param search.diskname drive search.phyDrive

theorem mountIso_mountsOn_iff {drive : Char} (asked : drive ≠ '\x00') :
    MountsOn drive (mountIso system param search drive) ↔
      BackEndMounts system param search drive := by
  unfold mountIso BackEndMounts
  split_ifs
  · exact vtoyMountIsoByApi_mountsOn_iff asked
  · exact vtoyMountIsoByImdisk_mountsOn_iff asked

theorem mountIso_refuses_iff :
    Refuses (mountIso system param search '\x00') ↔ BackEndRefuses system param search := by
  unfold mountIso BackEndRefuses
  split_ifs
  · exact vtoyMountIsoByApi_refuses_iff
  · exact vtoyMountIsoByImdisk_refuses_iff

theorem staysInMask_mountIso_iff :
    StaysInMask system mask (mountIso system param search (vtoyFindFreeDrive system mask)) ↔
      (∃ index, HighestFree system mask index ∧
        BackEndMounts system param search (driveLetter index)) ∨
      (∀ index < 26, freeDrive system mask index = false) ∧
        BackEndRefuses system param search := by
  rw [vtoyFindFreeDrive_eq]
  cases found : highest (freeDrive system mask) 26 with
  | some index =>
      have top : HighestFree system mask index := highest_eq_some_iff.mp found
      have asked := driveLetter_ne_zero top.1
      have only : ∀ other, HighestFree system mask other → other = index := by
        intro other otherTop
        have again := (highest_eq_some_iff.mpr otherTop).symm.trans found
        exact Option.some.inj again
      have some_free : ¬ ∀ other < 26, freeDrive system mask other = false := by
        intro none_free
        exact Bool.false_ne_true ((none_free index top.1).symm.trans top.2.1)
      constructor
      · rintro ⟨outcome, returned, mounted, -⟩
        left
        refine ⟨index, top, ?_⟩
        exact (mountIso_mountsOn_iff asked).mp ⟨outcome, returned, mounted index top⟩
      · rintro (⟨other, otherTop, mounts⟩ | ⟨none_free, -⟩)
        · obtain rfl := only other otherTop
          obtain ⟨outcome, returned, mounted⟩ := (mountIso_mountsOn_iff asked).mpr mounts
          refine ⟨outcome, returned, ?_, fun none_free => absurd none_free some_free⟩
          intro another anotherTop
          rw [only another anotherTop]
          exact mounted
        · exact absurd none_free some_free
  | none =>
      have none_free := highest_eq_none_iff.mp found
      have none_top : ∀ index, ¬ HighestFree system mask index := by
        intro index top
        exact Bool.false_ne_true ((none_free index top.1).symm.trans top.2.1)
      constructor
      · rintro ⟨outcome, returned, -, refused⟩
        right
        obtain ⟨nothing, failed⟩ := refused none_free
        exact ⟨none_free, mountIso_refuses_iff.mp ⟨outcome, returned, nothing, failed⟩⟩
      · rintro (⟨index, top, -⟩ | ⟨-, refuses⟩)
        · exact absurd top (none_top index)
        · obtain ⟨outcome, returned, nothing, failed⟩ := mountIso_refuses_iff.mpr refuses
          exact ⟨outcome, returned, fun index top => absurd top (none_top index),
            fun _ => ⟨nothing, failed⟩⟩

theorem main_of_found {args : List (List Char)} {request : Request}
    (prepared : prepare system args = .ok (.ok (request, param)))
    (searched : vtoyFindDisk system param = .ok search) (found : search.rc = 0)
    (mounting : request.mountiso = true) :
    main system args = mountIso system param search request.drive := by
  rw [main, prepared, ok_bind]
  simp only [searched, ok_bind, found, ne_eq, not_true_eq_false, if_false, mounting, if_true]
  rfl

end Mask

/-- With `-m=0xMASK`, once the image was found, the letters of the mask are kept exactly
when one of them is free and the back end succeeds with it, or none is free and the back
end fails by itself: without a letter it mounts on one of its own. -/
theorem staysInMask_iff (system : System) (before after : List (List Char))
    (digits : List Char) (mask : UInt32) (earlier request : Request) (param : OsParam)
    (search : DriveSearch)
    (numeric : ∀ digit ∈ digits, isDigit 16 digit = true)
    (value : digitsValue 16 digits = mask.toNat)
    (front : parseArgs system before ⟨false, '\x00', none⟩ = .ok (.ok earlier))
    (last : ∀ arg ∈ after, checkOpt arg 'm' = false)
    (prepared : prepare system (before ++ ("-m=0x".toList ++ digits) :: after) =
      .ok (.ok (request, param)))
    (searched : vtoyFindDisk system param = .ok search) (found : search.rc = 0) :
    StaysInMask system mask (main system (before ++ ("-m=0x".toList ++ digits) :: after)) ↔
      (∃ index, HighestFree system mask index ∧
        BackEndMounts system param search (driveLetter index)) ∨
      (∀ index < 26, freeDrive system mask index = false) ∧
        BackEndRefuses system param search := by
  obtain ⟨parsed, -⟩ := prepare_eq_ok_iff.mp prepared
  obtain ⟨mounting, drive⟩ := request_of_mask numeric value front last parsed
  rw [main_of_found prepared searched found mounting, drive]
  exact staysInMask_mountIso_iff

section Occupied

def isoTable : Source := ⟨512, fun index => ntfsParam.bytes.getD index 0⟩

/-- A system with the image on the drive C, where virtual disks can be attached. -/
def isoSystem : System :=
  { System.bare with
    acpi := ⟨isoTable, 0⟩
    driveStrings := ⟨["C:\\".toList], by decide⟩
    volumeDisk := fun _ => some 0
    physicalDrive := fun _ => some fun _ => 0
    fileA := fun path => if path = "C:\\a".toList then .regular else .missing
    logicalDrives := 0xC
    virtualDisk := ⟨fun _ => 0, fun _ => 0, .error 2, fun _ _ _ => false, some 0x1C⟩ }

/-- The data of that system, with the path of the image converted. -/
def isoParam : OsParam := .ofBytes (ntfsParam.bytes.take 45 ++ [92, 97])

theorem scanTable_iso (before : OsParam) : scanTable isoTable before = (0, ntfsParam) := by
  have here : paramAt isoTable.memory 0 = ntfsParam := paramAt_getD ntfsParam
  have valid : (paramAt isoTable.memory 0).Valid := here.symm ▸ valid_ntfsParam
  have accepted : firstAccepted isoTable.memory 1 isoTable.size 0 = some ntfsParam :=
    (firstAccepted_of_valid valid).trans (congrArg some here)
  rw [scanTable, accepted]

theorem prepare_iso : prepare isoSystem ["-m=0x8".toList] =
    .ok (.ok (⟨true, '\x00', none⟩, isoParam)) := by
  apply prepare_eq_ok_iff.mpr
  refine ⟨by decide +kernel, ntfsParam, ?_, by decide +kernel⟩
  have first : loadFirst isoSystem none = (1, .zero) := by decide +kernel
  have acpi : ∀ before, vtoyOsParamFromAcpi isoSystem before = scanTable isoTable before := by
    intro before
    rw [vtoyOsParamFromAcpi, if_neg (show ¬ (!isoSystem.acpiMalloc) = true from Bool.false_ne_true)]
    exact if_pos rfl
  simp only [loadOsParam, first, acpi, scanTable_iso, ne_eq, Int.one_ne_zero, not_false_eq_true,
    if_true]

theorem vtoyFindDisk_iso :
    vtoyFindDisk isoSystem isoParam = .ok ⟨0, some 0, "C:\\".toList⟩ := by
  decide +kernel

theorem staysInMask_iff_iso :
    StaysInMask isoSystem 8 (main isoSystem ["-m=0x8".toList]) ↔
      (∃ index, HighestFree isoSystem 8 index ∧
        BackEndMounts isoSystem isoParam ⟨0, some 0, "C:\\".toList⟩ (driveLetter index)) ∨
      (∀ index < 26, freeDrive isoSystem 8 index = false) ∧
        BackEndRefuses isoSystem isoParam ⟨0, some 0, "C:\\".toList⟩ := by
  have numeric : ∀ digit ∈ ['8'], isDigit 16 digit = true := by
    intro digit membership
    obtain rfl := List.mem_singleton.mp membership
    rfl
  exact staysInMask_iff isoSystem [] [] ['8'] 8 ⟨false, '\x00', none⟩ ⟨true, '\x00', none⟩
    isoParam ⟨0, some 0, "C:\\".toList⟩ numeric rfl rfl (by simp) prepare_iso vtoyFindDisk_iso rfl

/-- The only letter of the mask is in use, and the image is mounted on another one. -/
theorem not_staysInMask_iso :
    (∀ index < 26, freeDrive isoSystem 8 index = false) ∧
      (∃ outcome, main isoSystem ["-m=0x8".toList] = .ok outcome ∧
        outcome.mounts = [.automatic] ∧ outcome.status = 0) ∧
      ¬ StaysInMask isoSystem 8 (main isoSystem ["-m=0x8".toList]) := by
  have occupied : ∀ index < 26, freeDrive isoSystem 8 index = false := by decide
  have run : main isoSystem ["-m=0x8".toList] =
      mountIso isoSystem isoParam ⟨0, some 0, "C:\\".toList⟩ '\x00' :=
    main_of_found prepare_iso vtoyFindDisk_iso rfl rfl
  obtain ⟨outcome, returned, mounted, success⟩ : ∃ outcome,
      mountIso isoSystem isoParam ⟨0, some 0, "C:\\".toList⟩ '\x00' = .ok outcome ∧
        outcome.mounts = [.automatic] ∧ outcome.status = 0 := by
    have path : isoPath 512 isoParam "C:\\".toList = .ok "C:\\a".toList := by decide +kernel
    refine ⟨⟨0, [.automatic], [mountedLine 'E' "C:\\a".toList], []⟩, ?_, rfl, rfl⟩
    change (isoPath 512 isoParam "C:\\".toList >>= _) = _
    rw [path]
    rfl
  rw [← run] at returned
  refine ⟨occupied, ⟨outcome, returned, mounted, success⟩, ?_⟩
  rintro ⟨again, rerun, -, refused⟩
  rw [returned] at rerun
  cases rerun
  exact (refused occupied).2 success

end Occupied

end Vtoydump.Windows
