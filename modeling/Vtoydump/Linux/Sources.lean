import Vtoydump.Exfat.Translation
import Vtoydump.Linux.Print

/-!
# One table from different sources

Firmware leaves a table with the sectors of the disk; the table built from the
file system has the sectors of the partition.  The printer subtracts the start
of the partition from both and appends its number to both device names, though
the fallback has already appended it.
-/

namespace Vtoydump.Linux

open CRun Exfat

def dmLine (location : VentoyImageLocation) (device : List Char)
    (partstart : UInt64) (region : VentoyImageDiskRegion) : DmLine where
  start := UInt64.ofNat region.imageStartSector.toNat *
    UInt64.ofNat location.imageSectorSize.toNat / UInt64.ofNat location.diskSectorSize.toNat
  count := UInt64.ofNat region.imageSectorCount.toNat *
    UInt64.ofNat location.imageSectorSize.toNat / UInt64.ofNat location.diskSectorSize.toNat
  device := device
  offset := region.diskStartSector - partstart

/-- The header that `lsexfat.c` writes, over some regions. -/
def exfatLocation (regions : List VentoyImageDiskRegion) : VentoyImageLocation :=
  ⟨ventoyGuid, 2048, 512, regions⟩

/-- A region of the partition, by its sector on the disk. -/
def onDisk (partstart : UInt64) (region : VentoyImageDiskRegion) :
    VentoyImageDiskRegion :=
  { region with diskStartSector := partstart + region.diskStartSector }

def partitionDevice (diskname : List Char) (part : UInt16) : List Char :=
  "/dev/".toList ++ diskname ++ partSuffix diskname part

theorem partitionDevice_def (diskname : List Char) (part : UInt16) :
    partitionDevice diskname part = "/dev/".toList ++ diskname ++ partSuffix diskname part := rfl

/-- Both runs print the same lines, and these name the partition and the sectors of
the regions in it. -/
def SourceIndependent (diskname : List Char) (part : UInt16)
    (regions : List VentoyImageDiskRegion) (memory files : Run PrintResult) : Prop :=
  ∃ fromMemory fromFiles, memory = .ok fromMemory ∧ files = .ok fromFiles ∧
    dmLines fromMemory.out = dmLines fromFiles.out ∧
    ∀ printed ∈ [fromMemory, fromFiles],
      (dmLines printed.out).map (fun line => (line.device, line.offset)) =
        regions.map fun region => (partitionDevice diskname part, region.diskStartSector)

section Encoded

variable {block : HeapBlock} {location : VentoyImageLocation} {device : List Char}
  {partstart : UInt64}

theorem printRegion_encodeLocation (guid : location.guid.length = 16)
    (sectors : location.diskSectorSize ≠ 0)
    (contents : encodeLocation location <+: block.written) {index : Nat}
    {region : VentoyImageDiskRegion} (found : location.regions[index]? = some region) :
    printRegion block device partstart index = .ok (dmLine location device partstart region) := by
  obtain ⟨imageSize, diskSize, -⟩ := readHeader_encodeLocation guid contents
  obtain ⟨count, start, diskStart⟩ := readRegion_encodeLocation guid contents found
  have divisor : UInt64.ofNat location.diskSectorSize.toNat ≠ 0 := by
    intro zero
    apply sectors
    have value := congrArg UInt64.toNat zero
    rw [UInt64.toNat_ofNat', Nat.mod_eq_of_lt (location.diskSectorSize.toNat_lt.trans (by decide))]
      at value
    exact UInt32.toNat_inj.mp value
  simp only [printRegion, start, count, imageSize, diskSize, diskStart, ok_bind,
    divide_of_ne_zero divisor, UInt64.ofNat_toNat]
  rfl

theorem printLoop_encodeLocation (guid : location.guid.length = 16)
    (sectors : location.diskSectorSize ≠ 0)
    (contents : encodeLocation location <+: block.written) {remaining index : Nat}
    (left : index + remaining = location.regions.length) :
    printLoop block device partstart remaining index =
      .ok ((location.regions.drop index).map (dmLine location device partstart)) := by
  induction remaining generalizing index with
  | zero =>
      rw [Nat.add_zero] at left
      rw [left, List.drop_length]
      rfl
  | succ remaining inductionHypothesis =>
      have inside : index < location.regions.length := by omega
      have here := @printRegion_encodeLocation block location device partstart guid sectors
        contents index _ (List.getElem?_eq_getElem inside)
      have rest := @inductionHypothesis (index + 1) (by omega)
      rw [printLoop, here, ok_bind, rest, List.drop_eq_getElem_cons inside]
      rfl

end Encoded

section Printed

variable {system : System} {format : Nat} {param : OsParam} {diskname device : List Char}
  {block : HeapBlock} {location : VentoyImageLocation} {partstart : UInt64}

theorem printTable_encodeLocation (guid : location.guid = ventoyGuid)
    (sectors : location.diskSectorSize ≠ 0) (small : location.regions.length < 2147483648)
    (contents : encodeLocation location <+: block.written)
    (started : partStart system diskname param.vtoyDiskPartId = .ok partstart) :
    ∃ result, printTable system format param diskname device block = .ok result ∧
      result.rc = 0 ∧ dmLines result.out = location.regions.map (dmLine location
        (device ++ partSuffix diskname param.vtoyDiskPartId) partstart) := by
  have length : location.guid.length = 16 := guid ▸ rfl
  have accepted : block.written.take 16 = ventoyGuid := by
    obtain ⟨-, bytes⟩ := HeapBlock.read_eq_ok_iff.mp (readGuid_encodeLocation length contents)
    exact bytes.trans guid
  obtain ⟨-, -, count⟩ := readHeader_encodeLocation length contents
  have loop := @printLoop_encodeLocation block location
    (device ++ partSuffix diskname param.vtoyDiskPartId) partstart length sectors contents
    location.regions.length 0 (Nat.zero_add _)
  have passes : passesOf (location.regions.length % 4294967296) = location.regions.length := by
    rw [Nat.mod_eq_of_lt (small.trans (by decide))]
    exact if_pos small
  refine ⟨⟨0, _, []⟩, ?_, rfl, dmLines_printed format _⟩
  rw [printTable_of_guid system format param diskname device accepted, started, ok_bind, count,
    ok_bind, passes, loop]
  rfl

theorem printTable_exfatLocation {regions : List VentoyImageDiskRegion}
    (small : regions.length < 2147483648)
    (contents : encodeLocation (exfatLocation regions) <+: block.written)
    (started : partStart system diskname param.vtoyDiskPartId = .ok partstart) :
    ∃ result, printTable system format param diskname device block = .ok result ∧
      dmLines result.out = regions.map (dmLine (exfatLocation regions)
        (device ++ partSuffix diskname param.vtoyDiskPartId) partstart) := by
  have sectors : (exfatLocation regions).diskSectorSize ≠ 0 := ne_of_beq_false rfl
  obtain ⟨result, printed, -, lines⟩ :=
    @printTable_encodeLocation system format param diskname device block (exfatLocation regions)
      partstart rfl sectors small contents started
  exact ⟨result, printed, lines⟩

end Printed

section Devices

variable (diskname : List Char) (part : UInt16)

theorem dmdisk_suffix_eq_iff :
    dmdisk diskname ++ partSuffix diskname part = partitionDevice diskname part ↔
      diskname.length ≤ 249 := by
  rw [partitionDevice_def, List.append_left_inj, dmdisk, snprintf, List.take_eq_self_iff,
    List.length_append]
  exact Nat.add_le_add_iff_left (n := 5) (m := diskname.length) (k := 249)

/-- `dmdisk` of the fallback: only the limit of the buffer can keep the number of the
partition from standing twice. -/
theorem dmdisk_fallback_suffix_eq_iff :
    dmdisk (diskname ++ decimal part.toNat) ++ partSuffix diskname part =
        partitionDevice diskname part ↔ diskname.length = 249 := by
  have number := decimal_length_pos part.toNat
  have prefixLength : "/dev/".toList.length = 5 := rfl
  rw [partitionDevice_def, List.append_left_inj, dmdisk, snprintf, ← List.append_assoc]
  constructor
  · intro same
    have lengths := congrArg List.length same
    rw [List.length_take] at lengths
    simp only [List.length_append, prefixLength] at lengths
    omega
  · intro full
    apply List.take_left'
    rw [List.length_append, prefixLength, full]

end Devices

section Lines

variable {diskname : List Char} {part : UInt16} {partstart : UInt64}
  {regions : List VentoyImageDiskRegion} {fromMemory fromFiles : PrintResult}

theorem sourceIndependent_lines_iff
    (memoryLines : dmLines fromMemory.out = (regions.map (onDisk partstart)).map
      (dmLine (exfatLocation (regions.map (onDisk partstart)))
        (dmdisk diskname ++ partSuffix diskname part) partstart))
    (filesLines : dmLines fromFiles.out = regions.map (dmLine (exfatLocation regions)
      (dmdisk (diskname ++ decimal part.toNat) ++ partSuffix diskname part) partstart)) :
    SourceIndependent diskname part regions (.ok fromMemory) (.ok fromFiles) ↔
      regions = [] ∨ diskname.length = 249 ∧ partstart = 0 := by
  constructor
  · rintro ⟨_, _, ⟨⟩, ⟨⟩, -, named⟩
    rcases regions with - | ⟨region, later⟩
    · exact .inl rfl
    · right
      have files := named fromFiles (by simp)
      rw [filesLines] at files
      obtain ⟨here, -⟩ := List.cons_eq_cons.mp files
      obtain ⟨device, offset⟩ := Prod.mk.inj here
      refine ⟨(dmdisk_fallback_suffix_eq_iff diskname part).mp device, ?_⟩
      have start : region.diskStartSector - partstart = region.diskStartSector := offset
      rw [UInt64.sub_eq_iff_eq_add] at start
      exact (UInt64.left_eq_add.mp start)
  · rintro (rfl | ⟨full, rfl⟩)
    · refine ⟨fromMemory, fromFiles, rfl, rfl, memoryLines.trans filesLines.symm, ?_⟩
      intro printed membership
      rcases List.mem_pair.mp membership with rfl | rfl
      · rw [memoryLines]
        rfl
      · rw [filesLines]
        rfl
    · have memoryDevice := (dmdisk_suffix_eq_iff diskname part).mpr full.le
      have filesDevice := (dmdisk_fallback_suffix_eq_iff diskname part).mpr full
      rw [memoryDevice] at memoryLines
      rw [filesDevice] at filesLines
      have unmoved : regions.map (onDisk 0) = regions := by
        apply List.map_id''
        intro region
        rw [onDisk, UInt64.zero_add]
      rw [unmoved] at memoryLines
      refine ⟨fromMemory, fromFiles, rfl, rfl, memoryLines.trans filesLines.symm, ?_⟩
      have named : (regions.map (dmLine (exfatLocation regions)
          (partitionDevice diskname part) 0)).map (fun line => (line.device, line.offset)) =
          regions.map fun region => (partitionDevice diskname part, region.diskStartSector) := by
        rw [List.map_map]
        apply List.map_congr_left
        intro region _
        exact congrArg _ (UInt64.sub_zero _)
      intro printed membership
      rcases List.mem_pair.mp membership with rfl | rfl
      · rw [memoryLines]
        exact named
      · rw [filesLines]
        exact named

end Lines

/-- The partition begins at the same sector in both systems.  One has the table of the
regions from firmware, by their sectors on the disk; the other has none from firmware
and finds the regions in the file system. -/
structure TwoSources (memory files : System) (param : OsParam) (diskname : List Char)
    (partstart : UInt64) (regions : List VentoyImageDiskRegion) : Prop where
  startMemory : partStart memory diskname param.vtoyDiskPartId = .ok partstart
  startFiles : partStart files diskname param.vtoyDiskPartId = .ok partstart
  fromMemory : ∃ delivered, firmwareLocation memory param = some delivered ∧
    encodeLocation (exfatLocation (regions.map (onDisk partstart))) <+: delivered.written
  noFirmware : firmwareLocation files param = none
  exfat : param.vtoyDiskPartType = 0
  fromFiles : ∃ filename built stderr, cString param.vtoyImgPath = .ok filename ∧
    ventoyGetLocationByLsexfat files diskname param.vtoyDiskPartId filename =
      .ok (some built, stderr) ∧
    built.written = encodeLocation (exfatLocation regions)

section Sources

variable {memory files : System} {param : OsParam} {diskname : List Char} {partstart : UInt64}
  {regions : List VentoyImageDiskRegion}

theorem TwoSources.length_lt
    (sources : TwoSources memory files param diskname partstart regions) :
    regions.length < 2147483648 := by
  obtain ⟨filename, built, stderr, path, fromFiles, relative⟩ := sources.fromFiles
  obtain ⟨others, small, contents⟩ := location_of_lsexfat fromFiles
  have lengths := congrArg List.length (relative.symm.trans contents)
  have sizes : sizeofRegion * regions.length = sizeofRegion * others.length := by
    rw [length_encodeLocation rfl, length_encodeLocation rfl] at lengths
    exact Nat.add_left_cancel lengths
  have same : regions.length = others.length := Nat.eq_of_mul_eq_mul_left (by decide) sizes
  exact same.trans_lt small

theorem TwoSources.print_iff (format : Nat)
    (sources : TwoSources memory files param diskname partstart regions) :
    SourceIndependent diskname param.vtoyDiskPartId regions
        (vtoyPrintImageLocation memory format param diskname)
        (vtoyPrintImageLocation files format param diskname) ↔
      regions = [] ∨ diskname.length = 249 ∧ partstart = 0 := by
  obtain ⟨delivered, fromMemory, absolute⟩ := sources.fromMemory
  obtain ⟨filename, built, stderr, path, fromFiles, relative⟩ := sources.fromFiles
  obtain ⟨printedMemory, memoryRun, memoryLines⟩ :=
    @printTable_exfatLocation memory format param diskname (dmdisk diskname) delivered
      partstart (regions.map (onDisk partstart))
      (by rw [List.length_map]; exact sources.length_lt) absolute sources.startMemory
  obtain ⟨printedFiles, filesRun, filesLines⟩ :=
    @printTable_exfatLocation files format param diskname
      (dmdisk (diskname ++ decimal param.vtoyDiskPartId.toNat)) built partstart regions
      sources.length_lt (relative ▸ List.prefix_rfl) sources.startFiles
  have fallback : vtoyPrintImageLocation files format param diskname = .ok printedFiles := by
    rw [vtoyPrintImageLocation, imageLocation, sources.noFirmware]
    simp only [if_pos sources.exfat, path, fromFiles, ok_bind, pure_eq_ok]
    exact filesRun
  rw [vtoyPrintImageLocation_firmware memory format param diskname fromMemory, memoryRun, fallback]
  exact sourceIndependent_lines_iff memoryLines filesLines

end Sources

/-- The printed table depends on its source, unless it has no line, or the name of the
disk leaves the buffer no room for a second number and the partition begins at 0. -/
theorem sourceIndependent_iff (memory files : System) (format : Nat) (param : OsParam)
    (diskname : List Char) (partstart : UInt64) (regions : List VentoyImageDiskRegion)
    (sources : TwoSources memory files param diskname partstart regions) :
    SourceIndependent diskname param.vtoyDiskPartId regions
        (vtoyPrintImageLocation memory format param diskname)
        (vtoyPrintImageLocation files format param diskname) ↔
      regions = [] ∨ diskname.length = 249 ∧ partstart = 0 :=
  sources.print_iff format

section Shuttle

def exfatSystem : System :=
  { System.bare with exfat := ⟨fun _ => .ok shuttleVolume, fun _ _ => .ok (shuttleFile 1)⟩ }

def diskTable : List UInt8 := encodeLocation (exfatLocation [⟨1, 0, 2176⟩])

theorem twoSources_shuttle :
    ∃ regions, regions.length = 1 ∧ TwoSources (memorySystem diskTable) exfatSystem
      (memoryParam diskTable.length) "sda".toList 2048 regions := by
  obtain ⟨final, -, regions, call⟩ := @exfatGetImageLocation_allocating .bits64 shuttleVolume
    (shuttleFile 1) (by decide) (by decide) (by decide)
  rw [if_pos validChain_shuttleFile] at call
  obtain ⟨delivered, obtained, contents⟩ :=
    @firmwareLocation_memory diskTable (by decide) (by decide)
  have table : ventoyGetLocationByLsexfat exfatSystem "sda".toList
      (memoryParam diskTable.length).vtoyDiskPartId [] =
        .ok (final.globals.gImageLocation.map tableBytes, []) := by
    change (exfatGetImageLocation (.allocating .bits64) shuttleVolume (shuttleFile 1) .fresh >>=
      _) = _
    rw [call, ok_bind]
    rfl
  refine ⟨fileRegions .bits64 shuttleVolume (shuttleFile 1), by decide, rfl, rfl,
    ⟨delivered, obtained, ?_⟩, rfl, by decide, [], _, [], by decide, table, ?_⟩
  · rw [contents]
    decide
  · rw [← regions]
    rfl

theorem sourceIndependent_iff_shuttle :
    ∃ regions, SourceIndependent "sda".toList (memoryParam diskTable.length).vtoyDiskPartId regions
        (vtoyPrintImageLocation (memorySystem diskTable) 2 (memoryParam diskTable.length)
          "sda".toList)
        (vtoyPrintImageLocation exfatSystem 2 (memoryParam diskTable.length) "sda".toList) ↔
      regions = [] ∨ "sda".toList.length = 249 ∧ (2048 : UInt64) = 0 := by
  obtain ⟨regions, -, sources⟩ := twoSources_shuttle
  exact ⟨regions, sourceIndependent_iff _ _ 2 _ _ _ _ sources⟩

theorem not_sourceIndependent_shuttle :
    ∃ regions, TwoSources (memorySystem diskTable) exfatSystem
        (memoryParam diskTable.length) "sda".toList 2048 regions ∧
      ¬ SourceIndependent "sda".toList (memoryParam diskTable.length).vtoyDiskPartId regions
        (vtoyPrintImageLocation (memorySystem diskTable) 2 (memoryParam diskTable.length)
          "sda".toList)
        (vtoyPrintImageLocation exfatSystem 2 (memoryParam diskTable.length) "sda".toList) := by
  obtain ⟨regions, one, sources⟩ := twoSources_shuttle
  refine ⟨regions, sources, ?_⟩
  rw [sources.print_iff 2]
  rintro (rfl | ⟨full, -⟩)
  · cases one
  · exact absurd full (by decide)

end Shuttle

end Vtoydump.Linux
