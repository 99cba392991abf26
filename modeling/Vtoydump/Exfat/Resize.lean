import Mathlib.Data.List.Chain
import Vtoydump.Basis.Blocks
import Vtoydump.Exfat.Advance
import Vtoydump.Exfat.FreeClusters

/-!
# Growing and shrinking a file

`grow_file` and `shrink_file` take clusters from the bitmap and give them back, and link
them in the table of the volume; a file whose clusters lie one behind the other is not in
the table.  Any transfer of the device may fail, and the functions then leave what they
have written so far.
-/

namespace Vtoydump.Exfat

open CRun Blocks

def enospc : Int := 28

/-- What `struct exfat` keeps while files are written. -/
structure FatVolume where
  sb : Geometry
  fatSectorStart : UInt32
  sizeT : SizeT

/-- The transfers of the device that succeed, by size and offset. -/
structure Transfers where
  reads : Nat → Nat → Bool
  writes : Nat → Nat → Bool

/-- The bytes of the device, and the bitmap in memory. -/
structure ExfatDisk (width count : Nat) where
  content : Nat → UInt8
  cmap : ClusterMap width count

structure FileNode extends ExfatNode where
  attrib : UInt16
  references : Int
  isRoot : Bool
  isDirty : Bool
  mtime : Int

namespace FileNode

def rewind (node : FileNode) : FileNode :=
  { node with fptrIndex := 0, fptrCluster := node.startCluster, fptr_start := fun _ => rfl }

/-- An empty file gets its first cluster, and is contiguous. -/
def begin (node : FileNode) (cluster : UInt32) : FileNode :=
  { node with
    startCluster := cluster
    fptrCluster := cluster
    isContiguous := true
    fptr_start := fun _ => rfl }

def resize (node : FileNode) (size : UInt64) (now : Int) : FileNode :=
  { node with size := size, isDirty := true, mtime := now }

def vacate (node : FileNode) : FileNode :=
  { node with
    startCluster := exfatClusterFree
    isDirty := true
    fptrIndex := 0
    fptrCluster := exfatClusterFree
    fptr_start := fun _ => rfl }

end FileNode

namespace FatVolume

def clusterSize (ef : FatVolume) : Nat := Vtoydump.Exfat.clusterSize ef.sb.toExfatSuperBlock

theorem clusterSize_pos (ef : FatVolume) : 0 < ef.clusterSize :=
  Vtoydump.Exfat.clusterSize_pos _

def invalid (ef : FatVolume) (cluster : UInt32) : Bool :=
  clusterInvalid ef.sb.toExfatSuperBlock cluster

def fatOffset (ef : FatVolume) (cluster : UInt32) : Nat :=
  s2o ef.sb.toExfatSuperBlock ef.fatSectorStart.toNat + ef.sizeT.trunc (cluster.toNat * 4)

def entry (ef : FatVolume) (content : Nat → UInt8) (cluster : UInt32) : UInt32 :=
  UInt32.ofNat (leValue (bytesAt content (ef.fatOffset cluster) 4))

/-- The volume as `exfat_next_cluster` sees it now. -/
def volume (ef : FatVolume) (io : Transfers) (content : Nat → UInt8) : Volume where
  sb := ef.sb
  fat cluster :=
    if io.reads 4 (ef.fatOffset cluster) then some (ef.entry content cluster) else none

/-- The clusters of a volume, as many as its bitmap has bits. -/
abbrev Disk (ef : FatVolume) (width : Nat) := ExfatDisk width ef.sb.clusterCount.toNat

end FatVolume

section Code

variable {width count : Nat}

def exfatPwrite (io : Transfers) (disk : ExfatDisk width count) (bytes : List UInt8)
    (offset : Nat) : Bool × ExfatDisk width count :=
  if io.writes bytes.length offset then
    (true, { disk with content := put disk.content offset bytes })
  else (false, disk)

def setNextCluster (ef : FatVolume) (io : Transfers) (disk : ExfatDisk width count)
    (contiguous : Bool) (current next : UInt32) : Bool × ExfatDisk width count :=
  if contiguous then (true, disk)
  else exfatPwrite io disk (leBytes 4 next.toNat) (ef.fatOffset current)

def noncontiguousLoop (ef : FatVolume) (io : Transfers) :
    Nat → UInt32 → ExfatDisk width count → Bool × ExfatDisk width count
  | 0, _, disk => (true, disk)
  | left + 1, c, disk =>
      match setNextCluster ef io disk false c (c + 1) with
      | (false, disk) => (false, disk)
      | (true, disk) => noncontiguousLoop ef io left (c + 1) disk

def makeNoncontiguous (ef : FatVolume) (io : Transfers) (disk : ExfatDisk width count)
    (first last : UInt32) : Bool × ExfatDisk width count :=
  noncontiguousLoop ef io (last.toNat - first.toNat) first disk

/-- The loop of `shrink_file` that frees what remains. -/
def shrinkLoop (ef : FatVolume) (io : Transfers) (node : FileNode) :
    Nat → UInt32 → ExfatDisk width count → Run (Int × ExfatDisk width count)
  | 0, _, disk => .ok (0, disk)
  | difference + 1, previous, disk =>
      if ef.invalid previous then .ok (-eio, disk)
      else do
        let next ← exfatNextCluster (ef.volume io disk.content) node.toExfatNode previous
        match setNextCluster ef io disk node.isContiguous previous exfatClusterFree with
        | (false, disk) => return (-eio, disk)
        | (true, disk) => do
            let cmap ← freeCluster disk.cmap previous
            shrinkLoop ef io node difference next { disk with cmap := cmap }

def shrinkFile (ef : FatVolume) (io : Transfers) (disk : ExfatDisk width count)
    (node : FileNode) (current difference : UInt32) :
    Run (Int × ExfatDisk width count × FileNode) :=
  if difference = 0 then .error .abort
  else if node.startCluster = exfatClusterFree then .error .abort
  else if current < difference then .error .abort
  else if difference < current then do
    let (last, moved) ← exfatAdvanceCluster (ef.volume io disk.content) node.toExfatNode
      (current - difference - 1)
    let node := { node with toExfatNode := moved }
    if ef.invalid last then return (-eio, disk, node)
    let previous ← exfatNextCluster (ef.volume io disk.content) node.toExfatNode last
    match setNextCluster ef io disk node.isContiguous last exfatClusterEnd with
    | (false, disk) => return (-eio, disk, node)
    | (true, disk) => do
        let (rc, disk) ← shrinkLoop ef io node.rewind difference.toNat previous disk
        return (rc, disk, node.rewind)
  else do
    let (rc, disk) ← shrinkLoop ef io node.vacate difference.toNat node.startCluster disk
    return (rc, disk, node.vacate)

/-- A contiguous file whose next cluster lies elsewhere is put into the table. -/
def leaveContiguous (ef : FatVolume) (io : Transfers) (disk : ExfatDisk width count)
    (node : FileNode) (previous next : UInt32) : Bool × ExfatDisk width count × FileNode :=
  if next ≠ previous - 1 ∧ node.isContiguous = true then
    match makeNoncontiguous ef io disk node.startCluster previous with
    | (false, disk) => (false, disk, node)
    | (true, disk) => (true, disk, { node with isContiguous := false, isDirty := true })
  else (true, disk, node)

/-- The loop of `grow_file`, and the end of the chain behind it. -/
def growLoop (ef : FatVolume) (io : Transfers) (current : UInt32) :
    Nat → UInt32 → UInt32 → ExfatDisk width count → FileNode →
      Run (Int × ExfatDisk width count × FileNode)
  | 0, _, previous, disk, node =>
      match setNextCluster ef io disk node.isContiguous previous exfatClusterEnd with
      | (false, disk) => .ok (-eio, disk, node)
      | (true, disk) => .ok (0, disk, node)
  | left + 1, allocated, previous, disk, node =>
      match allocateCluster disk.cmap (previous + 1) with
      | (next, cmap) =>
          if ef.invalid next then
            if allocated = 0 then .ok (-enospc, { disk with cmap := cmap }, node)
            else do
              let (_, disk, node) ← shrinkFile ef io { disk with cmap := cmap } node
                (current + allocated) allocated
              return (-enospc, disk, node)
          else
            match leaveContiguous ef io { disk with cmap := cmap } node previous next with
            | (false, disk, node) => .ok (-eio, disk, node)
            | (true, disk, node) =>
                match setNextCluster ef io disk node.isContiguous previous next with
                | (false, disk) => .ok (-eio, disk, node)
                | (true, disk) => growLoop ef io current left (allocated + 1) next disk node

def growFile (ef : FatVolume) (io : Transfers) (disk : ExfatDisk width count)
    (node : FileNode) (current difference : UInt32) :
    Run (Int × ExfatDisk width count × FileNode) :=
  if difference = 0 then .error .abort
  else if node.startCluster ≠ exfatClusterFree then do
    let (previous, moved) ← exfatAdvanceCluster (ef.volume io disk.content) node.toExfatNode
      (current - 1)
    let node := { node with toExfatNode := moved }
    if ef.invalid previous then return (-eio, disk, node)
    growLoop ef io current difference.toNat 0 previous disk node
  else if node.fptrIndex ≠ 0 then .error .abort
  else
    match allocateCluster disk.cmap 0 with
    | (previous, cmap) =>
        if ef.invalid previous then .ok (-enospc, { disk with cmap := cmap }, node)
        else growLoop ef io current (difference.toNat - 1) 1 previous { disk with cmap := cmap }
          (node.begin previous)

end Code

end Vtoydump.Exfat
