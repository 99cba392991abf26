import Vtoydump.Linux.Disk
import Vtoydump.Linux.Sources

/-!
# The name of the partition

The kernel names a partition by its disk and its number, with a `p` between them
behind a digit.  The program writes that name to mount the file system, to read
the start of the partition and into each line, and tells the `p` in its own ways.
-/

namespace Vtoydump.Linux

open CRun Exfat

def separated (flag : Bool) (number : List Char) : List Char :=
  (if flag then "p".toList else []) ++ number

def endsInDigit (diskname : List Char) : Bool := diskname.getLast?.any Char.isDigit

/-- The name that the kernel gives to a partition. -/
def partitionName (diskname : List Char) (part : UInt16) : List Char :=
  diskname ++ separated (endsInDigit diskname) (decimal part.toNat)

/-- The device that `ventoy_get_location_by_lsexfat` mounts. -/
def diskpart (diskname : List Char) (part : UInt16) : List Char :=
  snprintf 127 ("/dev/".toList ++ diskname ++ decimal part.toNat)

/-- The file that the start of the partition is read from. -/
def sysstart (diskname : List Char) (part : UInt16) : List Char :=
  snprintf 255 ("/sys/class/block/".toList ++ diskname ++ partSuffix diskname part ++
    "/start".toList)

/-- Each of the three places that a run gets to has the name of the partition. -/
structure NamesPartition (system : System) (format : Nat) (param : OsParam)
    (diskname : List Char) : Prop where
  mounted : firmwareLocation system param = none → param.vtoyDiskPartType = 0 →
    diskpart diskname param.vtoyDiskPartId =
      "/dev/".toList ++ partitionName diskname param.vtoyDiskPartId
  started : ∀ block device stderr,
    imageLocation system param diskname = .ok (some block, device, stderr) →
    block.written.take 16 = ventoyGuid →
      sysstart diskname param.vtoyDiskPartId = "/sys/class/block/".toList ++
        partitionName diskname param.vtoyDiskPartId ++ "/start".toList
  printed : ∀ result, vtoyPrintImageLocation system format param diskname = .ok result →
    ∀ line ∈ dmLines result.out,
      line.device = "/dev/".toList ++ partitionName diskname param.vtoyDiskPartId

/-- With a table of firmware the substring test has to match the rule of the kernel; the
fallback has no test, and any line of it has the number twice. -/
structure SameRule (system : System) (param : OsParam) (diskname : List Char) : Prop where
  firmware : ∀ block, firmwareLocation system param = some block →
    block.written.take 16 = ventoyGuid →
      partflag diskname = endsInDigit diskname ∧
        (partitionName diskname param.vtoyDiskPartId).length ≤ 231
  fallback : firmwareLocation system param = none → param.vtoyDiskPartType = 0 →
    endsInDigit diskname = false ∧
      (partitionName diskname param.vtoyDiskPartId).length ≤ 121 ∧
      ∀ filename block stderr, cString param.vtoyImgPath = .ok filename →
        ventoyGetLocationByLsexfat system diskname param.vtoyDiskPartId filename =
          .ok (some block, stderr) →
        partflag diskname = false ∧ regionCount block = 0

section Names

variable {diskname : List Char} {part : UInt16}

/-- No other device is mounted. -/
theorem ventoyGetLocationByLsexfat_congr {system other : System} {filename : List UInt8}
    (device : system.exfat.mount (diskpart diskname part) =
      other.exfat.mount (diskpart diskname part))
    (lookup : system.exfat.lookup = other.exfat.lookup) (process : system.process = other.process) :
    ventoyGetLocationByLsexfat system diskname part filename =
      ventoyGetLocationByLsexfat other diskname part filename := by
  unfold diskpart at device
  unfold ventoyGetLocationByLsexfat
  simp only [device, lookup, process]

/-- No other file of sysfs is read. -/
theorem partStart_congr {system other : System}
    (file : system.sysfs (sysstart diskname part) = other.sysfs (sysstart diskname part)) :
    partStart system diskname part = partStart other diskname part := by
  unfold sysstart at file
  unfold partStart
  rw [file]

theorem ne_p_of_mem_decimal {number : Nat} {digit : Char} (membership : digit ∈ decimal number) :
    digit ≠ 'p' := by
  have numeric := Nat.isDigit_of_mem_toDigits (by decide) (by decide) membership
  rintro rfl
  cases numeric

/-- A name in a buffer is the intended one when the `p` is right and the name fits. -/
theorem snprintf_separated_iff {size number : Nat} {front back : List Char} {flag right : Bool} :
    snprintf size (front ++ separated flag (decimal number) ++ back) =
        front ++ separated right (decimal number) ++ back ↔
      flag = right ∧ (front ++ separated right (decimal number) ++ back).length ≤ size - 1 := by
  by_cases same : flag = right
  · subst same
    rw [snprintf, List.take_eq_self_iff, eq_self, true_and]
  · refine iff_of_false ?_ fun both => same both.1
    intro equal
    have before : front ++ separated right (decimal number) ++ back <+:
        front ++ separated flag (decimal number) ++ back :=
      equal ▸ List.take_prefix _ _
    rw [List.append_assoc, List.append_assoc, List.prefix_append_right_inj] at before
    cases digits : decimal number with
    | nil => exact absurd (digits ▸ decimal_length_pos number) (by simp)
    | cons digit rest =>
        have differs : digit ≠ 'p' := ne_p_of_mem_decimal (digits ▸ List.mem_cons_self)
        rw [digits] at before
        -- one name begins with the digit here, the other one with `p`
        cases flag with
        | false =>
            cases right with
            | false => exact same rfl
            | true => exact differs (List.cons_prefix_cons.mp before).1.symm
        | true =>
            cases right with
            | false => exact differs (List.cons_prefix_cons.mp before).1
            | true => exact same rfl

theorem diskpart_eq_iff :
    diskpart diskname part = "/dev/".toList ++ partitionName diskname part ↔
      endsInDigit diskname = false ∧ (partitionName diskname part).length ≤ 121 := by
  have names := @snprintf_separated_iff 127 part.toNat ("/dev/".toList ++ diskname) [] false
    (endsInDigit diskname)
  rw [List.append_nil, List.append_nil, List.append_assoc _ diskname] at names
  rw [diskpart, partitionName]
  refine names.trans (and_congr eq_comm ?_)
  rw [List.append_assoc, List.length_append]
  have front : "/dev/".toList.length = 5 := rfl
  rw [front]
  omega

theorem sysstart_eq_iff :
    sysstart diskname part =
        "/sys/class/block/".toList ++ partitionName diskname part ++ "/start".toList ↔
      partflag diskname = endsInDigit diskname ∧ (partitionName diskname part).length ≤ 231 := by
  have names := @snprintf_separated_iff 255 part.toNat ("/sys/class/block/".toList ++ diskname)
    "/start".toList (partflag diskname) (endsInDigit diskname)
  rw [List.append_assoc _ diskname (separated (endsInDigit diskname) _)] at names
  refine names.trans (and_congr_right' ?_)
  rw [← partitionName, List.length_append, List.length_append]
  have front : "/sys/class/block/".toList.length = 17 := rfl
  have back : "/start".toList.length = 6 := rfl
  rw [front, back]
  omega

theorem partitionDevice_eq (same : partflag diskname = endsInDigit diskname) :
    partitionDevice diskname part = "/dev/".toList ++ partitionName diskname part := by
  rw [partitionDevice_def, partitionName, ← same, List.append_assoc]
  rfl

theorem length_le_length_partitionName :
    diskname.length ≤ (partitionName diskname part).length := by
  rw [partitionName, List.length_append]
  exact Nat.le_add_right _ _

end Names

section Lines

variable {system : System} {format : Nat} {param : OsParam} {diskname dmdisk : List Char}
  {block : HeapBlock}

theorem device_of_printLoop {device : List Char} {partstart : UInt64} {remaining index : Nat}
    {lines : List DmLine}
    (printed : printLoop block device partstart remaining index = .ok lines) :
    ∀ line ∈ lines, line.device = device := by
  induction remaining generalizing index lines with
  | zero =>
      cases printed
      intro line membership
      cases membership
  | succ remaining inductionHypothesis =>
      obtain ⟨first, here, rest⟩ := bind_eq_ok_iff.mp printed
      obtain ⟨others, there, result⟩ := bind_eq_ok_iff.mp rest
      cases result
      intro line membership
      rcases List.mem_cons.mp membership with rfl | later
      · unfold printRegion at here
        obtain ⟨start, -, here⟩ := bind_eq_ok_iff.mp here
        obtain ⟨count, -, here⟩ := bind_eq_ok_iff.mp here
        obtain ⟨imageSize, -, here⟩ := bind_eq_ok_iff.mp here
        obtain ⟨diskSize, -, here⟩ := bind_eq_ok_iff.mp here
        obtain ⟨diskStart, -, here⟩ := bind_eq_ok_iff.mp here
        obtain ⟨sector, -, here⟩ := bind_eq_ok_iff.mp here
        obtain ⟨length, -, here⟩ := bind_eq_ok_iff.mp here
        cases here
        rfl
      · exact inductionHypothesis there line later

/-- Lines are printed for a table with the GUID only, all with one device. -/
theorem device_of_printTable {result : PrintResult}
    (printed : printTable system format param diskname dmdisk block = .ok result) :
    ∀ line ∈ dmLines result.out, block.written.take 16 = ventoyGuid ∧
      line.device = dmdisk ++ partSuffix diskname param.vtoyDiskPartId := by
  intro line membership
  by_cases accepted : block.written.take 16 = ventoyGuid
  · rw [printTable_of_guid system format param diskname dmdisk accepted] at printed
    obtain ⟨partstart, -, printed⟩ := bind_eq_ok_iff.mp printed
    obtain ⟨count, -, printed⟩ := bind_eq_ok_iff.mp printed
    obtain ⟨lines, looped, returned⟩ := bind_eq_ok_iff.mp printed
    cases returned
    rw [dmLines_printed] at membership
    exact ⟨accepted, device_of_printLoop looped line membership⟩
  · exfalso
    obtain ⟨guid, read, printed⟩ := bind_eq_ok_iff.mp printed
    obtain ⟨-, rfl⟩ := HeapBlock.read_eq_ok_iff.mp read
    rw [List.drop_zero, if_pos accepted] at printed
    cases printed
    cases membership

end Lines

section Run

variable {system : System} {format : Nat} {param : OsParam} {diskname : List Char}

/-- A table of firmware. -/
theorem namesPartition_firmware_iff {block : HeapBlock}
    (obtained : firmwareLocation system param = some block) :
    NamesPartition system format param diskname ↔
      (block.written.take 16 = ventoyGuid → partflag diskname = endsInDigit diskname ∧
        (partitionName diskname param.vtoyDiskPartId).length ≤ 231) := by
  have located : imageLocation system param diskname = .ok (some block, dmdisk diskname, []) := by
    rw [imageLocation, obtained]
  constructor
  · intro named accepted
    exact sysstart_eq_iff.mp (named.started block _ _ located accepted)
  · intro right
    refine ⟨?_, ?_, ?_⟩
    · intro absent
      rw [obtained] at absent
      cases absent
    · intro other device stderr found accepted
      rw [located] at found
      cases found
      exact sysstart_eq_iff.mpr (right accepted)
    · intro result printed line membership
      rw [vtoyPrintImageLocation_firmware system format param diskname obtained] at printed
      obtain ⟨accepted, device⟩ := device_of_printTable printed line membership
      obtain ⟨same, short⟩ := right accepted
      have room : diskname.length ≤ 249 :=
        length_le_length_partitionName.trans (short.trans (by decide))
      rw [device, (dmdisk_suffix_eq_iff diskname param.vtoyDiskPartId).mpr room,
        partitionDevice_eq same]

/-- A table that the fallback builds carries the GUID and prints a line for each region. -/
theorem printed_of_lsexfat {filename : List UInt8} {block : HeapBlock} {stderr : List String}
    (device : List Char)
    (obtained : ventoyGetLocationByLsexfat system diskname param.vtoyDiskPartId filename =
      .ok (some block, stderr)) :
    block.written.take 16 = ventoyGuid ∧
      ∃ result, printTable system format param diskname device block = .ok result ∧
        (dmLines result.out).length = regionCount block := by
  obtain ⟨regions, small, contents⟩ := location_of_lsexfat obtained
  have written : encodeLocation ⟨ventoyGuid, 2048, 512, regions⟩ <+: block.written :=
    contents ▸ List.prefix_rfl
  obtain ⟨-, guid⟩ := HeapBlock.read_eq_ok_iff.mp (readGuid_encodeLocation rfl written)
  have printable := printable_of_encodeLocation rfl small (ne_of_beq_false rfl) written
  obtain ⟨result, printed, -, lines⟩ :=
    (printsWhole_printTable_iff system format param diskname device guid).mpr printable
  exact ⟨guid, result, printed, lines⟩

/-- Without a table of firmware, the one that is found is that of the file system. -/
theorem imageLocation_fallback_iff (absent : firmwareLocation system param = none)
    (exfat : param.vtoyDiskPartType = 0) {block : HeapBlock} {device : List Char}
    {stderr : List String} :
    imageLocation system param diskname = .ok (some block, device, stderr) ↔
      device = dmdisk (diskname ++ decimal param.vtoyDiskPartId.toNat) ∧
        ∃ filename, cString param.vtoyImgPath = .ok filename ∧
          ventoyGetLocationByLsexfat system diskname param.vtoyDiskPartId filename =
            .ok (some block, stderr) := by
  rw [imageLocation, absent]
  simp only [if_pos exfat]
  constructor
  · intro found
    obtain ⟨filename, path, found⟩ := bind_eq_ok_iff.mp found
    obtain ⟨⟨location, errors⟩, built, found⟩ := bind_eq_ok_iff.mp found
    cases found
    exact ⟨rfl, filename, path, built⟩
  · rintro ⟨rfl, filename, path, built⟩
    rw [path, ok_bind, built]
    rfl

/-- The lines of a table of the file system do not name the partition. -/
theorem regionCount_eq_zero_of_named (named : NamesPartition system format param diskname)
    (same : partflag diskname = endsInDigit diskname)
    (short : (partitionName diskname param.vtoyDiskPartId).length ≤ 121)
    {filename : List UInt8} {block : HeapBlock} {stderr : List String}
    (located : imageLocation system param diskname =
      .ok (some block, dmdisk (diskname ++ decimal param.vtoyDiskPartId.toNat), stderr))
    (built : ventoyGetLocationByLsexfat system diskname param.vtoyDiskPartId filename =
      .ok (some block, stderr)) :
    regionCount block = 0 := by
  obtain ⟨-, result, printed, lines⟩ := @printed_of_lsexfat system format param diskname
    filename block stderr (dmdisk (diskname ++ decimal param.vtoyDiskPartId.toNat)) built
  have run : vtoyPrintImageLocation system format param diskname = .ok result :=
    (vtoyPrintImageLocation_of_location system format param diskname _ located).trans printed
  rw [← lines, List.length_eq_zero_iff, List.eq_nil_iff_forall_not_mem]
  intro line membership
  have device := (device_of_printTable printed line membership).2
  rw [named.printed result run line membership, ← partitionDevice_eq same] at device
  have full := (dmdisk_fallback_suffix_eq_iff diskname param.vtoyDiskPartId).mp device.symm
  have longer := (@length_le_length_partitionName diskname param.vtoyDiskPartId).trans short
  rw [full] at longer
  exact absurd longer (by decide)

/-- A table without regions prints no line. -/
theorem dmLines_eq_nil_of_empty {filename : List UInt8} {block : HeapBlock} {device : List Char}
    {stderr : List String} {result : PrintResult}
    (built : ventoyGetLocationByLsexfat system diskname param.vtoyDiskPartId filename =
      .ok (some block, stderr))
    (empty : regionCount block = 0)
    (printed : printTable system format param diskname device block = .ok result) :
    dmLines result.out = [] := by
  obtain ⟨-, again, table, lines⟩ :=
    @printed_of_lsexfat system format param diskname filename block stderr device built
  obtain rfl : again = result := Except.ok.inj (table.symm.trans printed)
  exact List.length_eq_zero_iff.mp (lines.trans empty)

/-- The table of the file system. -/
theorem namesPartition_fallback_iff (absent : firmwareLocation system param = none)
    (exfat : param.vtoyDiskPartType = 0) :
    NamesPartition system format param diskname ↔
      endsInDigit diskname = false ∧
        (partitionName diskname param.vtoyDiskPartId).length ≤ 121 ∧
        ∀ filename block stderr, cString param.vtoyImgPath = .ok filename →
          ventoyGetLocationByLsexfat system diskname param.vtoyDiskPartId filename =
            .ok (some block, stderr) →
          partflag diskname = false ∧ regionCount block = 0 := by
  constructor
  · intro named
    obtain ⟨letter, short⟩ := diskpart_eq_iff.mp (named.mounted absent exfat)
    refine ⟨letter, short, ?_⟩
    intro filename block stderr path built
    have located := (imageLocation_fallback_iff absent exfat).mpr ⟨rfl, filename, path, built⟩
    have accepted := (@printed_of_lsexfat system format param diskname filename block stderr
      (dmdisk diskname) built).1
    have same := (sysstart_eq_iff.mp (named.started block _ _ located accepted)).1
    exact ⟨same.trans letter, regionCount_eq_zero_of_named named same short located built⟩
  · rintro ⟨letter, short, tables⟩
    refine ⟨fun _ _ => diskpart_eq_iff.mpr ⟨letter, short⟩, ?_, ?_⟩
    · intro block device stderr located _
      obtain ⟨-, filename, path, built⟩ := (imageLocation_fallback_iff absent exfat).mp located
      have plain := (tables filename block stderr path built).1
      exact sysstart_eq_iff.mpr ⟨plain.trans letter.symm, short.trans (by decide)⟩
    · intro result run line membership
      exfalso
      obtain ⟨⟨location, device, stderr⟩, located, printed⟩ := bind_eq_ok_iff.mp run
      cases location with
      | none =>
          cases printed
          cases membership
      | some block =>
          obtain ⟨-, filename, path, built⟩ := (imageLocation_fallback_iff absent exfat).mp located
          have empty := (tables filename block stderr path built).2
          rw [dmLines_eq_nil_of_empty built empty printed] at membership
          cases membership

/-- No table at all. -/
theorem namesPartition_none (absent : firmwareLocation system param = none)
    (other : param.vtoyDiskPartType ≠ 0) : NamesPartition system format param diskname := by
  have located : imageLocation system param diskname = .ok (none, dmdisk diskname, []) := by
    rw [imageLocation, absent]
    exact if_neg other
  refine ⟨fun _ exfat => absurd exfat other, ?_, ?_⟩
  · intro block device stderr found
    rw [located] at found
    cases found
  · intro result printed line membership
    rw [vtoyPrintImageLocation, located] at printed
    cases printed
    cases membership

end Run

/-- The places agree on the name of the partition exactly when the rule each of them
follows for the `p` is that of the kernel, the names fit, and no line is printed from the
table of the file system. -/
theorem namesPartition_iff (system : System) (format : Nat) (param : OsParam)
    (diskname : List Char) :
    NamesPartition system format param diskname ↔ SameRule system param diskname := by
  cases obtained : firmwareLocation system param with
  | some block =>
      rw [namesPartition_firmware_iff obtained]
      constructor
      · intro right
        refine ⟨?_, ?_⟩
        · intro other found
          rw [obtained] at found
          cases found
          exact right
        · intro absent
          rw [obtained] at absent
          cases absent
      · intro rule
        exact rule.firmware block obtained
  | none =>
      have noFirmware : ∀ block, firmwareLocation system param ≠ some block := by
        intro block found
        rw [obtained] at found
        cases found
      by_cases exfat : param.vtoyDiskPartType = 0
      · rw [namesPartition_fallback_iff obtained exfat]
        constructor
        · intro right
          exact ⟨fun block found => absurd found (noFirmware block), fun _ _ => right⟩
        · intro rule
          exact rule.fallback obtained exfat
      · apply iff_of_true (namesPartition_none obtained exfat)
        exact ⟨fun block found => absurd found (noFirmware block),
          fun _ again => absurd again exfat⟩

/-- The fallback mounts `/dev/nvme0n11` for the first partition of `nvme0n1`. -/
theorem not_namesPartition_nvme :
    vtoyIsPossibleBlkdev "nvme0n1".toList = true ∧
      ¬ NamesPartition System.bare 2 (memoryParam 0) "nvme0n1".toList := by
  refine ⟨by decide, ?_⟩
  intro named
  have mounted := named.mounted (by decide +kernel) (by decide +kernel)
  exact absurd (diskpart_eq_iff.mp mounted).1 (by decide)

end Vtoydump.Linux
