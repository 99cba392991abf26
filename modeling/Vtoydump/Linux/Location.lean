import Vtoydump.Basis.Text
import Vtoydump.Exfat.TableRun
import Vtoydump.ImageTable
import Vtoydump.Linux.Loaders

/-!
# The three sources of the image table

A table comes as a block with the bytes that a source delivered: a copy of
physical memory, the tail of the ACPI table, or the table that `lsexfat.c`
builds from the file system of the partition.
-/

namespace Vtoydump.Linux

open CRun Exfat

def ventoyGetLocationByPhymem (system : System) (param : OsParam) : Option HeapBlock :=
  if param.vtoyImgLocationAddr = 0 ∨ param.vtoyImgLocationLen = 0 then none
  else if !system.phymemMalloc then none
  else
    match system.devMem with
    | .locked _ => none
    | .opened mmap =>
        match mmap param.vtoyImgLocationAddr.toNat param.vtoyImgLocationLen.toNat with
        | .error _ => none
        | .ok memory => some
            { size := param.vtoyImgLocationLen.toNat
              written := bytesAt memory 0 param.vtoyImgLocationLen.toNat
              written_le := (length_bytesAt _ _ _).le }

/-- The parameters are those of the ACPI table itself. -/
def ventoyGetLocationByAcpi (system : System) : Option HeapBlock :=
  let (rc, acpiparam) := vtoyOsParamFromAcpi system .zero
  if rc ≠ 0 then none
  else if acpiparam.vtoyImgLocationLen = 0 then none
  else if !system.acpiMalloc then none
  else
    match system.acpiTable.opened with
    | none => none
    | some content => some
        { size := acpiparam.vtoyImgLocationLen.toNat
          written := (content.drop (sizeofAcpiHeader + sizeofOsParam)).take
            acpiparam.vtoyImgLocationLen.toNat
          written_le := List.length_take_le _ _ }

/-- The bytes of the block that a table was built in. -/
def tableBytes (table : TableBlock) : HeapBlock where
  size := max table.bytes (encodeLocation table.location).length
  written := encodeLocation table.location
  written_le := Nat.le_max_right _ _

def ventoyGetLocationByLsexfat (system : System) (diskname : List Char) (part : UInt16)
    (filename : List UInt8) : Run (Option HeapBlock × List String) :=
  let diskpart := snprintf 127 ("/dev/".toList ++ diskname ++ decimal part.toNat)
  match system.exfat.mount diskpart with
  | .error rc => .ok (none, ["Failed to mount exfat fs " ++ toString rc])
  | .ok volume =>
      match system.exfat.lookup volume filename with
      | .error rc => .ok (none, ["Failed to find " ++ String.ofList (shown filename) ++
          " in exfat fs " ++ toString rc])
      | .ok node => do
          let (rc, globals) ← exfatGetImageLocation system.process volume node .fresh
          if rc ≠ 0 then return (none, [])
          else return (globals.gImageLocation.map tableBytes, [])

/-- The sources that firmware filled. -/
def firmwareLocation (system : System) (param : OsParam) : Option HeapBlock :=
  match ventoyGetLocationByPhymem system param with
  | some location => some location
  | none => ventoyGetLocationByAcpi system

/-- `snprintf(dmdisk, sizeof(dmdisk) - 1, ...)` -/
def dmdisk (name : List Char) : List Char := snprintf 255 ("/dev/".toList ++ name)

/-- The first table found, the device that `dmdisk` holds then, and the errors. -/
def imageLocation (system : System) (param : OsParam) (diskname : List Char) :
    Run (Option HeapBlock × List Char × List String) :=
  match firmwareLocation system param with
  | some location => .ok (some location, dmdisk diskname, [])
  | none =>
      if param.vtoyDiskPartType = 0 then do
        let filename ← cString param.vtoyImgPath
        let (location, stderr) ← ventoyGetLocationByLsexfat system diskname
          param.vtoyDiskPartId filename
        return (location, dmdisk (diskname ++ decimal param.vtoyDiskPartId.toNat), stderr)
      else .ok (none, dmdisk diskname, [])

/-- A table of the file system is well formed: its header is the one the code writes,
and its regions are counted in an `int`. -/
theorem location_of_lsexfat {system : System} {diskname : List Char} {part : UInt16}
    {filename : List UInt8} {block : HeapBlock} {stderr : List String}
    (obtained : ventoyGetLocationByLsexfat system diskname part filename =
      .ok (some block, stderr)) :
    ∃ regions : List VentoyImageDiskRegion, regions.length < 2147483648 ∧
      block.written = encodeLocation ⟨ventoyGuid, 2048, 512, regions⟩ := by
  unfold ventoyGetLocationByLsexfat at obtained
  simp only at obtained
  cases mounted : system.exfat.mount
      (snprintf 127 ("/dev/".toList ++ diskname ++ decimal part.toNat)) with
  | error rc =>
      rw [mounted] at obtained
      cases obtained
  | ok volume =>
      simp only [mounted] at obtained
      cases looked : system.exfat.lookup volume filename with
      | error rc =>
          rw [looked] at obtained
          cases obtained
      | ok node =>
          simp only [looked] at obtained
          obtain ⟨⟨rc, globals⟩, returned, result⟩ := bind_eq_ok_iff.mp obtained
          split_ifs at result with failed
          · cases result
          · have built := built_of_exfatGetImageLocation returned
            simp only [pure_eq_ok, Except.ok.injEq, Prod.mk.injEq, Option.map_eq_some_iff] at result
            obtain ⟨⟨table, found, rfl⟩, -⟩ := result
            rcases built with absent | ⟨final, rfl⟩
            · rw [absent] at found
              cases found
            · cases found
              refine ⟨final.regions, ?_, rfl⟩
              apply (final.room.trans (capacity_mono final.bounded)).trans_lt
              cases system.process.sizeT <;> decide

section Memory

def memorySystem (bytes : List UInt8) : System :=
  { System.bare with devMem := .opened fun _ _ => .ok fun index => bytes.getD index 0 }

/-- The bytes of the runtime data in front of the place of the table: partition 1. -/
def partitionOne : List UInt8 := List.replicate 41 0 ++ leBytes 2 1 ++ List.replicate 394 0

theorem length_partitionOne : partitionOne.length = 437 := by
  simp only [partitionOne, List.length_append, List.length_replicate, length_leBytes]

/-- Runtime data that leads to a table of some length in physical memory. -/
def memoryParam (len : Nat) : OsParam :=
  .ofBytes (partitionOne ++ (leBytes 8 4096 ++ leBytes 4 len))

theorem vtoyImgLocationAddr_memoryParam (len : Nat) :
    (memoryParam len).vtoyImgLocationAddr = 4096 := by
  have field : (memoryParam len).field 437 8 = leBytes 8 4096 :=
    OsParam.field_ofBytes length_partitionOne rfl (by decide)
  rw [OsParam.vtoyImgLocationAddr, field]
  rfl

theorem vtoyImgLocationLen_memoryParam {len : Nat} (small : len < 4294967296) :
    (memoryParam len).vtoyImgLocationLen.toNat = len := by
  have field : (memoryParam len).field 445 4 = leBytes 4 len := by
    have whole := @OsParam.field_ofBytes (partitionOne ++ leBytes 8 4096)
      (leBytes 4 len) [] 445 4 (by rw [List.length_append, length_partitionOne]; rfl)
      (length_leBytes _ _) (by decide)
    rw [List.append_nil, List.append_assoc] at whole
    exact whole
  rw [OsParam.vtoyImgLocationLen, field, leValue_leBytes, UInt32.toNat_ofNat']
  omega

theorem firmwareLocation_memory {bytes : List UInt8} (inhabited : 0 < bytes.length)
    (small : bytes.length < 4294967296) :
    ∃ block, firmwareLocation (memorySystem bytes) (memoryParam bytes.length) = some block ∧
      block.written = bytes := by
  have addr := vtoyImgLocationAddr_memoryParam bytes.length
  have len := vtoyImgLocationLen_memoryParam small
  have given : ¬ ((memoryParam bytes.length).vtoyImgLocationAddr = 0 ∨
      (memoryParam bytes.length).vtoyImgLocationLen = 0) := by
    rintro (zero | zero)
    · rw [addr] at zero
      cases zero
    · rw [zero] at len
      exact inhabited.ne len
  have found : ventoyGetLocationByPhymem (memorySystem bytes) (memoryParam bytes.length) =
      some ⟨_, bytesAt (fun index => bytes.getD index 0) 0
        (memoryParam bytes.length).vtoyImgLocationLen.toNat, (length_bytesAt _ _ _).le⟩ := by
    rw [ventoyGetLocationByPhymem, if_neg given]
    rfl
  refine ⟨_, by rw [firmwareLocation, found], ?_⟩
  rw [len]
  exact bytesAt_getD bytes

end Memory

end Vtoydump.Linux
