import Vtoydump.Exfat.Entries
import Vtoydump.Exfat.Resized

/-!
# Changing the size of a file, and writing into it

`exfat_truncate` grows or shrinks the chain of a file and clears the bytes that are new;
`exfat_generic_pwrite` makes the file long enough and writes cluster by cluster.
-/

namespace Vtoydump.Exfat

open CRun Blocks

/-- Size in bytes to size in clusters (rounded upwards). -/
def bytes2clusters (sb : ExfatSuperBlock) (bytes : UInt64) : UInt32 :=
  ((bytes + UInt64.ofNat (clusterSize sb) - 1) / UInt64.ofNat (clusterSize sb)).toUInt32

section Code

variable {width count : Nat}

/-- `erase_raw`; `zero_cluster` has zeros for any part of a cluster. -/
def eraseRaw (io : Transfers) (disk : ExfatDisk width count) (size offset : Nat) :
    Bool × ExfatDisk width count :=
  exfatPwrite io disk (List.replicate size 0) offset

def eraseLoop (ef : FatVolume) (io : Transfers) (node : FileNode) (stop : Nat) :
    Nat → Nat → UInt32 → ExfatDisk width count → Run (Int × ExfatDisk width count)
  | 0, clusterBoundary, _, disk =>
      if clusterBoundary < stop then .error .diverges else .ok (0, disk)
  | fuel + 1, clusterBoundary, cluster, disk =>
      if clusterBoundary < stop then do
        let next ← exfatNextCluster (ef.volume io disk.content) node.toExfatNode cluster
        if ef.invalid next then .error .abort
        else do
          let offset ← exfatC2o ef.sb.toExfatSuperBlock next
          match eraseRaw io disk ef.clusterSize offset with
          | (false, disk) => return (-eio, disk)
          | (true, disk) =>
              eraseLoop ef io node stop fuel (clusterBoundary + ef.clusterSize) next disk
      else .ok (0, disk)

def eraseRange (ef : FatVolume) (io : Transfers) (disk : ExfatDisk width count)
    (node : FileNode) (first stop : Nat) : Run (Int × ExfatDisk width count × FileNode) :=
  if stop ≤ first then .ok (0, disk, node)
  else do
    let clusterBoundary := (first ||| (ef.clusterSize - 1)) + 1
    let (cluster, moved) ← exfatAdvanceCluster (ef.volume io disk.content) node.toExfatNode
      (UInt32.ofNat (first / ef.clusterSize))
    let node := { node with toExfatNode := moved }
    if ef.invalid cluster then return (-eio, disk, node)
    let offset ← exfatC2o ef.sb.toExfatSuperBlock cluster
    match eraseRaw io disk (min clusterBoundary stop - first)
        (offset + first % ef.clusterSize) with
    | (false, disk) => return (-eio, disk, node)
    | (true, disk) => do
        let (rc, disk) ← eraseLoop ef io node stop stop clusterBoundary cluster disk
        return (rc, disk, node)

/-- The part of `exfat_truncate` that changes the chain. -/
def resizeFile (ef : FatVolume) (io : Transfers) (disk : ExfatDisk width count)
    (node : FileNode) (c1 c2 : UInt32) : Run (Int × ExfatDisk width count × FileNode) :=
  if c1 < c2 then growFile ef io disk node c1 (c2 - c1)
  else if c2 < c1 then shrinkFile ef io disk node c1 (c1 - c2)
  else .ok (0, disk, node)

/-- The part of `exfat_truncate` that clears what is new. -/
def eraseNew (ef : FatVolume) (io : Transfers) (disk : ExfatDisk width count)
    (node : FileNode) (size : UInt64) (erase : Bool) :
    Run (Int × ExfatDisk width count × FileNode) :=
  if erase then eraseRange ef io disk node node.size.toNat size.toNat else .ok (0, disk, node)

/-- `exfat_truncate`; `now` is the time of `exfat_update_mtime`. -/
def exfatTruncate (ef : FatVolume) (io : Transfers) (now : Int)
    (disk : ExfatDisk width count) (node : FileNode) (size : UInt64) (erase : Bool) :
    Run (Int × ExfatDisk width count × FileNode) :=
  if node.references = 0 ∧ node.isRoot = false then .error .abort
  else if node.size = size then .ok (0, disk, node)
  else do
    let (rc, disk, node) ← resizeFile ef io disk node
      (bytes2clusters ef.sb.toExfatSuperBlock node.size)
      (bytes2clusters ef.sb.toExfatSuperBlock size)
    if rc ≠ 0 then return (rc, disk, node)
    let (rc, disk, node) ← eraseNew ef io disk node size erase
    if rc ≠ 0 then return (rc, disk, node)
    return (0, disk, node.resize size now)

/-- The loop of `exfat_generic_pwrite`, on the bytes that are left. -/
def genericPwriteLoop (ef : FatVolume) (io : Transfers) (node : FileNode) :
    Nat → UInt32 → Nat → List UInt8 → ExfatDisk width count → Run (Int × ExfatDisk width count)
  | 0, _, _, bytes, disk => if bytes = [] then .ok (0, disk) else .error .diverges
  | fuel + 1, cluster, loffset, bytes, disk =>
      if bytes = [] then .ok (0, disk)
      else if ef.invalid cluster then .ok (-eio, disk)
      else do
        let lsize := min (ef.clusterSize - loffset) bytes.length
        let offset ← exfatC2o ef.sb.toExfatSuperBlock cluster
        match exfatPwrite io disk (bytes.take lsize) (offset + loffset) with
        | (false, disk) => return (-eio, disk)
        | (true, disk) => do
            let next ← exfatNextCluster (ef.volume io disk.content) node.toExfatNode cluster
            genericPwriteLoop ef io node fuel next 0 (bytes.drop lsize) disk

def extendFile (ef : FatVolume) (io : Transfers) (now : Int) (disk : ExfatDisk width count)
    (node : FileNode) (size : Nat) (erase : Bool) :
    Run (Int × ExfatDisk width count × FileNode) :=
  if node.size.toNat < size then exfatTruncate ef io now disk node (UInt64.ofNat size) erase
  else .ok (0, disk, node)

/-- The part of `exfat_generic_pwrite` that writes, when the file is long enough. -/
def writeBytes (ef : FatVolume) (io : Transfers) (now : Int) (disk : ExfatDisk width count)
    (node : FileNode) (bytes : List UInt8) (offset : Nat) :
    Run (Int × ExfatDisk width count × FileNode) :=
  if bytes = [] then .ok (0, disk, node)
  else do
    let (cluster, moved) ← exfatAdvanceCluster (ef.volume io disk.content) node.toExfatNode
      (UInt32.ofNat (offset / ef.clusterSize))
    let node := { node with toExfatNode := moved }
    if ef.invalid cluster then return (-eio, disk, node)
    let (rc, disk) ← genericPwriteLoop ef io node bytes.length cluster (offset % ef.clusterSize)
      bytes disk
    if rc < 0 then return (rc, disk, node)
    if node.attrib &&& exfatAttribDir = 0 then
      return (bytes.length, disk, { node with mtime := now, isDirty := true })
    return (bytes.length, disk, node)

def exfatGenericPwrite (ef : FatVolume) (io : Transfers) (now : Int)
    (disk : ExfatDisk width count) (node : FileNode) (bytes : List UInt8) (offset : Nat) :
    Run (Int × ExfatDisk width count × FileNode) := do
  let (rc, disk, node) ← extendFile ef io now disk node offset true
  if rc ≠ 0 then return (rc, disk, node)
  let (rc, disk, node) ← extendFile ef io now disk node (offset + bytes.length) false
  if rc ≠ 0 then return (rc, disk, node)
  writeBytes ef io now disk node bytes offset

end Code

end Vtoydump.Exfat
