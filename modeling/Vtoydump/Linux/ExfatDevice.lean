import Vtoydump.Exfat.Mount
import Vtoydump.Linux.PartitionName

/-!
# The file system behind the driver

The driver of a system answers for `exfat_mount` and `exfat_lookup`.  Over a device
it answers what these two compute, and then `ventoy_get_location_by_lsexfat` gives the
table of the file that a walk over the volume finds.
-/

namespace Vtoydump.Linux

open CRun Exfat

/-- A device that `exfat_open` opened, with what memory and stack hold when it is mounted. -/
structure ExfatDevice where
  dev : ExfatDev
  size : Nat
  memory : List UInt8
  next : UInt32 → UInt32
  timezone : Timezone

def ExfatDevice.mount (device : ExfatDevice) (sizeT : SizeT) :
    Run (Except Int (ExfatReader × ExfatTree)) :=
  exfatMount sizeT device.timezone device.dev device.size device.memory device.next

/-- The node that `exfat_lookup` leaves behind its pointer. -/
def lookupNode (ef : ExfatReader) (tree : ExfatTree) (filename : List UInt8) :
    Run (Except Int ExfatNode) := do
  let (found, looked) ← exfatLookup ef tree filename
  match found with
  | .error rc => return .error rc
  | .ok id =>
      match looked.nodes[id]? with
      | none => .error .outOfBounds
      | some node => return .ok node.entry.node

/-- `ventoy_get_location_by_lsexfat` from the device on. -/
def locationOnDevice (process : Process) (opened : Option ExfatDevice) (filename : List UInt8) :
    Run (Option HeapBlock × List String) :=
  match opened with
  | none => .ok (none, ["Failed to mount exfat fs " ++ toString (-eio)])
  | some device => do
      match ← device.mount process.sizeT with
      | .error rc => return (none, ["Failed to mount exfat fs " ++ toString rc])
      | .ok (ef, tree) => do
          match ← lookupNode ef tree filename with
          | .error rc => return (none, ["Failed to find " ++ String.ofList (shown filename) ++
              " in exfat fs " ++ toString rc])
          | .ok node => do
              let (rc, globals) ← exfatGetImageLocation process ef.volume node .fresh
              if rc ≠ 0 then return (none, [])
              else return (globals.gImageLocation.map tableBytes, [])

section Driver

variable {Value : Type} {sizeT : SizeT} {opened : List Char → Option ExfatDevice}
  {path : List Char} {filename : List UInt8}

/-- The answer of a run that returns; there is none of one that does not. -/
def answered (run : Run (Except Int Value)) : Except Int Value :=
  match run with
  | .error _ => .error (-eio)
  | .ok answer => answer

def mountAnswer (sizeT : SizeT) (opened : List Char → Option ExfatDevice) (path : List Char) :
    Except Int (ExfatReader × ExfatTree) :=
  match opened path with
  | none => .error (-eio)
  | some device => answered (device.mount sizeT)

/-- The driver over the devices, for files of the volume at a path. -/
def exfatDriver (sizeT : SizeT) (opened : List Char → Option ExfatDevice) (path : List Char) :
    ExfatDriver where
  mount other := (mountAnswer sizeT opened other).map fun mounted => mounted.1.volume
  lookup _ filename :=
    match mountAnswer sizeT opened path with
    | .error rc => .error rc
    | .ok (ef, tree) => answered (lookupNode ef tree filename)

theorem mount_exfatDriver_none (closed : opened path = none) :
    (exfatDriver sizeT opened path).mount path = .error (-eio) := by
  simp only [exfatDriver, mountAnswer, closed]
  rfl

theorem mount_exfatDriver {device : ExfatDevice}
    {answer : Except Int (ExfatReader × ExfatTree)} (stands : opened path = some device)
    (mounted : device.mount sizeT = .ok answer) :
    (exfatDriver sizeT opened path).mount path =
      answer.map fun mounted => mounted.1.volume := by
  simp only [exfatDriver, mountAnswer, stands, mounted, answered]

theorem lookup_exfatDriver {device : ExfatDevice} {ef : ExfatReader} {tree : ExfatTree}
    {answer : Except Int ExfatNode} (stands : opened path = some device)
    (mounted : device.mount sizeT = .ok (.ok (ef, tree)))
    (looked : lookupNode ef tree filename = .ok answer) (volume : Volume) :
    (exfatDriver sizeT opened path).lookup volume filename = answer := by
  simp only [exfatDriver, mountAnswer, stands, mounted, looked, answered]

end Driver

section Location

variable {system : System} {opened : List Char → Option ExfatDevice} {diskname : List Char}
  {part : UInt16} {filename : List UInt8}

/-- What the program obtains through the driver is what mounting the device and looking the
file up gives. -/
theorem ventoyGetLocationByLsexfat_exfatDriver {result : Option HeapBlock × List String}
    (driver : system.exfat =
      exfatDriver system.process.sizeT opened (diskpart diskname part))
    (returned : locationOnDevice system.process (opened (diskpart diskname part)) filename =
      .ok result) :
    ventoyGetLocationByLsexfat system diskname part filename = .ok result := by
  cases stands : opened (diskpart diskname part) with
  | none =>
      rw [stands] at returned
      have mount : system.exfat.mount (diskpart diskname part) = .error (-eio) := by
        rw [driver, mount_exfatDriver_none stands]
      unfold diskpart at mount
      simp only [ventoyGetLocationByLsexfat, mount]
      exact returned
  | some device =>
      rw [stands] at returned
      obtain ⟨answer, mounted, rest⟩ := bind_eq_ok_iff.mp returned
      have mount : system.exfat.mount (diskpart diskname part) =
          answer.map fun mounted => mounted.1.volume := by
        rw [driver, mount_exfatDriver stands mounted]
      unfold diskpart at mount
      simp only [ventoyGetLocationByLsexfat, mount]
      cases answer with
      | error rc => exact rest
      | ok reader =>
          obtain ⟨ef, tree⟩ := reader
          obtain ⟨found, looked, rest⟩ := bind_eq_ok_iff.mp rest
          have lookup : system.exfat.lookup ef.volume filename = found := by
            rw [driver, lookup_exfatDriver stands mounted looked]
          simp only [Except.map, lookup]
          cases found with
          | error rc => exact rest
          | ok node => exact rest

/-- The file that a path leads to is the one that a walk over the volume finds. -/
theorem lookupNode_eq {device : ExfatDevice} {sizeT : SizeT} {ef : ExfatReader}
    {tree : ExfatTree} {content : Nat → UInt8}
    (mounted : device.mount sizeT = .ok (.ok (ef, tree)))
    (readable : ClustersReadable ef.toExfatFs content) :
    ∃ upcase root, tree.tables.upcase = some upcase ∧ root.isDirectory = true ∧
      ∀ filename, match walkVolume ef content upcase root (pathNames filename) with
        | .error fault => lookupNode ef tree filename = .error fault
        | .ok (.error rc) => lookupNode ef tree filename = .ok (.error rc)
        | .ok (.ok file) => ∃ entry, Reread ef file entry ∧
            lookupNode ef tree filename = .ok (.ok entry.node) := by
  obtain ⟨sb, geometry, -, root⟩ := exfatMount_eq_ok_iff.mp mounted
  obtain rfl := reader_of_exfatMountRoot root
  obtain ⟨count, upcase, files, -, found, stands, -⟩ := represents_of_exfatMountRoot readable root
  refine ⟨upcase, rootNode (count * clusterSize geometry.toExfatSuperBlock) (rootdirStart sb),
    found, isDirectory_rootNode _ _, fun filename => ?_⟩
  have answers := exfatLookup_answers stands readable rfl filename
  rw [lookupNode]
  generalize walkVolume _ content upcase _ (pathNames filename) = spec at answers ⊢
  generalize exfatLookup _ tree filename = run at answers ⊢
  cases answers with
  | fault => rfl
  | missing => rfl
  | @found id file after more within kept at_ references =>
      have inside := kept.lt_length at_
      have listed := List.getElem?_eq_getElem inside
      refine ⟨_, kept.reread listed at_, ?_⟩
      simp only [ok_bind, listed]
      rfl

/-- The program gives the table of the file that a walk over the volume finds. -/
theorem ventoyGetLocationByLsexfat_walk {device : ExfatDevice} {ef : ExfatReader}
    {tree : ExfatTree} {content : Nat → UInt8}
    (driver : system.exfat =
      exfatDriver system.process.sizeT opened (diskpart diskname part))
    (stands : opened (diskpart diskname part) = some device)
    (mounted : device.mount system.process.sizeT = .ok (.ok (ef, tree)))
    (readable : ClustersReadable ef.toExfatFs content) :
    ∃ upcase root, tree.tables.upcase = some upcase ∧ root.isDirectory = true ∧
      ∀ filename file, walkVolume ef content upcase root (pathNames filename) = .ok (.ok file) →
        ∃ entry, Reread ef file entry ∧ ∀ rc globals,
          exfatGetImageLocation system.process ef.volume entry.node .fresh = .ok (rc, globals) →
          ventoyGetLocationByLsexfat system diskname part filename =
            .ok (if rc ≠ 0 then none else globals.gImageLocation.map tableBytes, []) := by
  obtain ⟨upcase, root, found, isDirectory, looks⟩ := lookupNode_eq mounted readable
  refine ⟨upcase, root, found, isDirectory, fun filename file walk => ?_⟩
  have looked := looks filename
  rw [walk] at looked
  obtain ⟨entry, reread, looked⟩ := looked
  refine ⟨entry, reread, fun rc globals returned => ?_⟩
  apply ventoyGetLocationByLsexfat_exfatDriver driver
  rw [stands, locationOnDevice, mounted, ok_bind]
  simp only [looked, ok_bind, returned]
  split_ifs <;> rfl

end Location

end Vtoydump.Linux
