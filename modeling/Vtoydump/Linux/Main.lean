import Vtoydump.Linux.Disk
import Vtoydump.Linux.Print

/-!
# The Linux program

`main` loads the runtime data, searches the disk and prints.  It returns the
result of the search; what `vtoy_print_image_location` returns is dropped.
-/

namespace Vtoydump.Linux

open CRun

/-- What `main` returns, and the output of the process. -/
structure Outcome where
  status : Int
  out : List OutLine
  stderr : List String
  deriving DecidableEq

structure Options where
  format : Nat
  check : Bool

def printUsage : List OutLine :=
  ["Usage: vtoydump [ -lL ] [ -v ]",
    "  none   Only print ventoy runtime data",
    "  -l     Print ventoy runtime data and image location table",
    "  -L     Only print image location table (used to generate dmsetup table)",
    "  -c     Check whether ventoy runtime data exist",
    "  -v     Verbose, print additional debug info",
    "  -h     Print this help info",
    ""].map fun line => .text line.toList

/-- The loop over what `getopt` returns. -/
def parseOptions : List Char → Options → Except Outcome Options
  | [], options => .ok options
  | ch :: later, options =>
      if ch = 'l' then parseOptions later { options with format := 1 }
      else if ch = 'L' then parseOptions later { options with format := 2 }
      else if ch = 'c' then parseOptions later { options with check := true }
      else if ch = 'v' then parseOptions later options
      else if ch = 'h' then .error ⟨0, printUsage, []⟩
      else .error ⟨1, [], []⟩

def vtoyFsType : List String := ["exfat", "ntfs", "ext", "xfs", "udf", "fat"]

def vtoyPrintOsParam (param : OsParam) (diskname : List Char) : Run (List OutLine) := do
  let fs := vtoyFsType.getD param.vtoyDiskPartType.toNat "unknown"
  let path ← cString param.vtoyImgPath
  return [
    .text "=== ventoy runtime data ===".toList,
    .text ("disk name : /dev/".toList ++ diskname),
    .text ("disk size : ".toList ++ decimal param.vtoyDiskSize.toNat),
    .text ("disk part : ".toList ++ decimal param.vtoyDiskPartId.toNat),
    .text ("filesystem: ".toList ++ fs.toList),
    .text ("image size: ".toList ++ decimal param.vtoyImgSize.toNat),
    .text ("image path: ".toList ++ shown path)]

def printResults (system : System) (format : Nat) (param : OsParam) (diskname : List Char) :
    Run (List OutLine × List String) := do
  let runtime ← if format = 0 ∨ format = 1 then vtoyPrintOsParam param diskname else pure []
  if format = 1 ∨ format = 2 then
    let printed ← vtoyPrintImageLocation system format param diskname
    return (runtime ++ printed.out, printed.stderr)
  else return (runtime, [])

/-- The part of `main` up to the runtime data, which it acts on unless it ends here. -/
def prepare (system : System) (chars : List Char) : Except Outcome (Options × OsParam) :=
  match parseOptions chars ⟨0, false⟩ with
  | .error outcome => .error outcome
  | .ok options =>
      let (rc, param) := loadOsParam system
      if rc ≠ 0 then .error ⟨rc, [], ["ventoy runtime data not found"]⟩
      else .ok (options, param)

/-- `main`, from the characters of the options on. -/
def main (system : System) (chars : List Char) : Run Outcome :=
  match prepare system chars with
  | .error outcome => .ok outcome
  | .ok (options, param) =>
      if options.check then .ok ⟨0, [], []⟩
      else do
        let search ← vtoyFindDisk system param [] 255
        if search.rc = 0 then
          let (out, stderr) ← printResults system options.format param search.diskname
          return ⟨search.rc, out, search.stderr ++ stderr⟩
        else return ⟨search.rc, [], search.stderr⟩

/-- The data that the program acts on passed the check. -/
theorem valid_of_prepare {system : System} {chars : List Char} {options : Options}
    {param : OsParam} (prepared : prepare system chars = .ok (options, param)) : param.Valid := by
  unfold prepare at prepared
  cases parsed : parseOptions chars ⟨0, false⟩ with
  | error outcome =>
      rw [parsed] at prepared
      cases prepared
  | ok asked =>
      simp only [parsed] at prepared
      split_ifs at prepared with failed
      cases prepared
      exact valid_of_loadOsParam (Prod.ext (not_not.mp failed) rfl)

section Table

variable (system : System) (format : Nat) (param : OsParam) (diskname : List Char)

/-- A table was obtained, it carries the GUID and all its regions were printed. -/
def TableProduced (out : List OutLine) : Prop :=
  ∃ block device stderr, imageLocation system param diskname = .ok (some block, device, stderr) ∧
    block.written.take 16 = ventoyGuid ∧
    PrintsWhole block (vtoyPrintImageLocation system format param diskname) ∧
    (dmLines out).length = regionCount block

/-- No source has a table, or the table does not carry the GUID. -/
def TableMissing : Prop :=
  ∃ location device stderr, imageLocation system param diskname = .ok (location, device, stderr) ∧
    ∀ block ∈ location, block.written.take 16 ≠ ventoyGuid

/-- The program returns 0 only if it produced the table, and without a table it
returns something else and prints no line of one. -/
def StatusTells (run : Run Outcome) : Prop :=
  ∃ outcome, run = .ok outcome ∧
    (outcome.status = 0 → TableProduced system format param diskname outcome.out) ∧
    (TableMissing system param diskname → outcome.status ≠ 0 ∧ dmLines outcome.out = [])

/-- The sources lead to a table with the GUID that can be printed. -/
def TableReady : Prop :=
  ∃ block device stderr, imageLocation system param diskname = .ok (some block, device, stderr) ∧
    block.written.take 16 = ventoyGuid ∧ Printable block

variable {system format param diskname}

theorem vtoyPrintOsParam_isOk_iff :
    (∃ runtime, vtoyPrintOsParam param diskname = .ok runtime) ↔ 0 ∈ param.vtoyImgPath := by
  unfold vtoyPrintOsParam cString
  by_cases terminated : 0 ∈ param.vtoyImgPath
  · simp [terminated]
  · simp [terminated]

theorem dmLines_vtoyPrintOsParam {runtime later : List OutLine}
    (printed : vtoyPrintOsParam param diskname = .ok runtime) :
    dmLines (runtime ++ later) = dmLines later := by
  unfold vtoyPrintOsParam at printed
  obtain ⟨path, -, result⟩ := bind_eq_ok_iff.mp printed
  cases result
  rfl

theorem printResults_eq_ok_iff {out : List OutLine} {stderr : List String}
    (asked : format = 1 ∨ format = 2) :
    printResults system format param diskname = .ok (out, stderr) ↔
      ∃ runtime printed, (if format = 1 then vtoyPrintOsParam param diskname else .ok []) =
          .ok runtime ∧
        vtoyPrintImageLocation system format param diskname = .ok printed ∧
        runtime ++ printed.out = out ∧ printed.stderr = stderr := by
  rcases asked with rfl | rfl
  · simp [printResults, bind_eq_ok_iff]
  · simp [printResults, bind_eq_ok_iff]

theorem main_of_found {chars : List Char} {options : Options} {search : DiskSearch}
    (prepared : prepare system chars = .ok (options, param)) (printing : options.check = false)
    (searched : vtoyFindDisk system param [] 255 = .ok search) (found : search.rc = 0) :
    main system chars = (do
      let (out, stderr) ← printResults system options.format param search.diskname
      return ⟨0, out, search.stderr ++ stderr⟩) := by
  simp [main, prepared, printing, searched, found]

theorem statusTells_return_iff {search : DiskSearch} (asked : format = 1 ∨ format = 2) :
    StatusTells system format param diskname (do
      let (out, stderr) ← printResults system format param diskname
      return ⟨0, out, search.stderr ++ stderr⟩) ↔
      (format = 1 → 0 ∈ param.vtoyImgPath) ∧ TableReady system param diskname := by
  constructor
  · rintro ⟨outcome, returned, produced, -⟩
    obtain ⟨⟨out, stderr⟩, results, result⟩ := bind_eq_ok_iff.mp returned
    cases result
    constructor
    · rintro rfl
      obtain ⟨runtime, -, shown, -⟩ := (printResults_eq_ok_iff asked).mp results
      exact vtoyPrintOsParam_isOk_iff.mp ⟨runtime, shown⟩
    · obtain ⟨block, device, stderr, obtained, accepted, whole, -⟩ := produced rfl
      rw [vtoyPrintImageLocation_of_location system format param diskname device obtained] at whole
      exact ⟨block, device, stderr, obtained, accepted,
        (printsWhole_printTable_iff system format param diskname device accepted).mp whole⟩
  · rintro ⟨terminated, block, device, stderr, obtained, accepted, printable⟩
    have whole : PrintsWhole block (vtoyPrintImageLocation system format param diskname) := by
      rw [vtoyPrintImageLocation_of_location system format param diskname device obtained]
      exact (printsWhole_printTable_iff system format param diskname device accepted).mpr printable
    obtain ⟨printed, printing, success, lines⟩ := whole
    obtain ⟨runtime, shown, noLine⟩ : ∃ runtime,
        (if format = 1 then vtoyPrintOsParam param diskname else .ok []) = .ok runtime ∧
          dmLines (runtime ++ printed.out) = dmLines printed.out := by
      split_ifs with listing
      · obtain ⟨runtime, shown⟩ := vtoyPrintOsParam_isOk_iff.mpr (terminated listing)
        exact ⟨runtime, shown, dmLines_vtoyPrintOsParam shown⟩
      · exact ⟨[], rfl, rfl⟩
    have results := (printResults_eq_ok_iff asked).mpr
      ⟨runtime, printed, shown, printing, rfl, rfl⟩
    refine ⟨⟨0, runtime ++ printed.out, search.stderr ++ printed.stderr⟩, ?_, ?_, ?_⟩
    · rw [results]
      rfl
    · intro _
      refine ⟨block, device, stderr, obtained, accepted, ⟨printed, printing, success, lines⟩, ?_⟩
      rw [noLine, lines]
    · rintro ⟨location, _, _, missing, mismatched⟩
      rw [obtained] at missing
      cases missing
      exact absurd accepted (mismatched block rfl)

end Table

/-- With `-l` or `-L`, once the disk was found, the status tells whether the table was
produced exactly when a table with the GUID is there to be printed: `main` returns 0 in
any case. -/
theorem statusTells_iff (system : System) (chars : List Char) (options : Options)
    (param : OsParam) (search : DiskSearch)
    (prepared : prepare system chars = .ok (options, param))
    (asked : options.format = 1 ∨ options.format = 2) (printing : options.check = false)
    (searched : vtoyFindDisk system param [] 255 = .ok search) (found : search.rc = 0) :
    StatusTells system options.format param search.diskname (main system chars) ↔
      (options.format = 1 → 0 ∈ param.vtoyImgPath) ∧
        TableReady system param search.diskname := by
  rw [main_of_found prepared printing searched found]
  exact statusTells_return_iff asked

section Ntfs

/-- A system with the disk of that data, and no table of the image. -/
def ntfsSystem : System :=
  { System.bare with
    acpiTable := .readable (List.replicate sizeofAcpiHeader 0 ++ ntfsParam.bytes)
    sysBlock := some ["sda".toList]
    sysfs := fun path =>
      if path = "/sys/block/sda/size".toList then .readable ⟨"1
".toList, by decide⟩
      else .missing
    device := fun _ => .ok ⟨fun _ => 0, none⟩ }

theorem prepare_ntfs : prepare ntfsSystem ['L'] = .ok (⟨2, false⟩, ntfsParam) := by
  have loaded : loadOsParam ntfsSystem = (0, ntfsParam) := by decide +kernel
  rw [prepare, loaded]
  rfl

theorem vtoyFindDisk_ntfs :
    vtoyFindDisk ntfsSystem ntfsParam [] 255 = .ok ⟨0, "sda".toList, []⟩ := by
  decide +kernel

theorem imageLocation_ntfs :
    imageLocation ntfsSystem ntfsParam "sda".toList = .ok (none, dmdisk "sda".toList, []) := by
  have noPhymem : ventoyGetLocationByPhymem ntfsSystem ntfsParam = none :=
    if_pos (.inl (by decide +kernel))
  have noAcpi : ventoyGetLocationByAcpi ntfsSystem = none := by
    have loaded : vtoyOsParamFromAcpi ntfsSystem .zero = (0, ntfsParam) := by decide +kernel
    have empty : ntfsParam.vtoyImgLocationLen = 0 := by decide +kernel
    simp only [ventoyGetLocationByAcpi, loaded, empty, ne_eq, not_true_eq_false, if_false, if_true]
  have ntfs : ntfsParam.vtoyDiskPartType ≠ 0 := by decide +kernel
  simp only [imageLocation, firmwareLocation, noPhymem, noAcpi, if_neg ntfs]

theorem statusTells_iff_ntfs :
    StatusTells ntfsSystem 2 ntfsParam "sda".toList (main ntfsSystem ['L']) ↔
      ((2 : Nat) = 1 → 0 ∈ ntfsParam.vtoyImgPath) ∧
        TableReady ntfsSystem ntfsParam "sda".toList :=
  statusTells_iff ntfsSystem ['L'] ⟨2, false⟩ ntfsParam ⟨0, "sda".toList, []⟩ prepare_ntfs
    (.inr rfl) rfl vtoyFindDisk_ntfs rfl

/-- The program reports success without a table. -/
theorem not_statusTells_ntfs :
    prepare ntfsSystem ['L'] = .ok (⟨2, false⟩, ntfsParam) ∧
      vtoyFindDisk ntfsSystem ntfsParam [] 255 = .ok ⟨0, "sda".toList, []⟩ ∧
      main ntfsSystem ['L'] = .ok ⟨0, [], ["Failed to find image location"]⟩ ∧
      ¬ StatusTells ntfsSystem 2 ntfsParam "sda".toList (main ntfsSystem ['L']) := by
  have run := @main_of_found ntfsSystem ntfsParam ['L'] ⟨2, false⟩ ⟨0, "sda".toList, []⟩
    prepare_ntfs rfl vtoyFindDisk_ntfs rfl
  have printed : main ntfsSystem ['L'] = .ok ⟨0, [], ["Failed to find image location"]⟩ := by
    rw [run]
    simp only [printResults, vtoyPrintImageLocation, imageLocation_ntfs, ok_bind]
    rfl
  refine ⟨prepare_ntfs, vtoyFindDisk_ntfs, printed, ?_⟩
  rintro ⟨outcome, returned, -, missing⟩
  rw [printed] at returned
  cases returned
  have absent : TableMissing ntfsSystem ntfsParam "sda".toList :=
    ⟨none, _, _, imageLocation_ntfs, fun _ none_found => absurd none_found (Option.not_mem_none _)⟩
  exact (missing absent).1 rfl

end Ntfs

end Vtoydump.Linux
