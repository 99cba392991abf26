import Mathlib.Data.Nat.ModEq
import Vtoydump.Basis.Fault

/-!
# Geometry and cluster chains of an exFAT volume

The part of `exfat_mount`, `check_node` and `cluster.c` that the walk over a
file depends on.  A `Geometry` is a super block that passed the checks of
`exfat_mount`, so the sizes below stay within the types the code gives them.
The FAT is an arbitrary function; `none` stands for a failed `exfat_pread`.
-/

namespace Vtoydump.Exfat

open CRun

/-- The fields of `struct exfat_super_block` that the geometry comes from. -/
structure ExfatSuperBlock where
  clusterSectorStart : UInt32
  clusterCount : UInt32
  sectorBits : UInt8
  spcBits : UInt8
  deriving DecidableEq, Repr

def sectorSize (sb : ExfatSuperBlock) : Nat := 1 <<< sb.sectorBits.toNat

def clusterSize (sb : ExfatSuperBlock) : Nat := sectorSize sb <<< sb.spcBits.toNat

/-- A super block as `exfat_mount` accepts it. -/
structure Geometry extends ExfatSuperBlock where
  sectorBits_ge : 9 ≤ sectorBits.toNat
  bits_le : sectorBits.toNat + spcBits.toNat ≤ 25

def eio : Int := 5

/-- The checks `exfat_mount` makes on the geometry, in its order. -/
def exfatMountGeometry (sb : ExfatSuperBlock) (deviceSize : Nat) : Except Int Geometry :=
  if small : sb.sectorBits.toNat < 9 then .error (-eio)
  else if big : 25 < sb.sectorBits.toNat + sb.spcBits.toNat then .error (-eio)
  else if deviceSize < sb.clusterCount.toNat * clusterSize sb then .error (-eio)
  else .ok ⟨sb, Nat.le_of_not_lt small, Nat.le_of_not_lt big⟩

theorem exfatMountGeometry_eq_ok (geometry : Geometry) {deviceSize : Nat}
    (room : geometry.clusterCount.toNat * clusterSize geometry.toExfatSuperBlock ≤ deviceSize) :
    exfatMountGeometry geometry.toExfatSuperBlock deviceSize = .ok geometry := by
  unfold exfatMountGeometry
  rw [dif_neg (Nat.not_lt.mpr geometry.sectorBits_ge), dif_neg (Nat.not_lt.mpr geometry.bits_le),
    if_neg (Nat.not_lt.mpr room)]

section Sizes

variable (geometry : Geometry)

theorem clusterSize_eq (sb : ExfatSuperBlock) :
    clusterSize sb = 2 ^ (sb.sectorBits.toNat + sb.spcBits.toNat) := by
  simp [clusterSize, sectorSize, Nat.shiftLeft_eq, Nat.pow_add]

theorem clusterSize_pos (sb : ExfatSuperBlock) : 0 < clusterSize sb := by
  rw [clusterSize_eq]
  exact Nat.two_pow_pos _

theorem clusterSize_le : clusterSize geometry.toExfatSuperBlock ≤ 33554432 := by
  rw [clusterSize_eq]
  exact Nat.pow_le_pow_right (by decide) geometry.bits_le

theorem dvd_sectorSize : 512 ∣ sectorSize geometry.toExfatSuperBlock := by
  rw [sectorSize, Nat.one_shiftLeft]
  exact Nat.pow_dvd_pow 2 geometry.sectorBits_ge

theorem heapSize_lt :
    geometry.clusterCount.toNat * clusterSize geometry.toExfatSuperBlock < 144115188075855872 := by
  have count := geometry.clusterCount.toNat_lt
  have bound := clusterSize_le geometry
  have product := Nat.mul_le_mul (Nat.le_of_lt_succ count) bound
  omega

end Sizes

def exfatFirstDataCluster : UInt32 := 2

/-- What `exfat_next_cluster` gives when the FAT cannot be read. -/
def exfatClusterBad : UInt32 := 0xfffffff7

def clusterInvalid (sb : ExfatSuperBlock) (cluster : UInt32) : Bool :=
  cluster < exfatFirstDataCluster || cluster - exfatFirstDataCluster ≥ sb.clusterCount

def s2o (sb : ExfatSuperBlock) (sector : Nat) : Nat := sector <<< sb.sectorBits.toNat

/-- Cluster to sector; `exfat_bug` on a cluster that holds no data. -/
def c2s (sb : ExfatSuperBlock) (cluster : UInt32) : Run Nat :=
  if cluster < exfatFirstDataCluster then .error .abort
  else .ok (sb.clusterSectorStart.toNat +
    (cluster - exfatFirstDataCluster).toNat <<< sb.spcBits.toNat)

def exfatC2o (sb : ExfatSuperBlock) (cluster : UInt32) : Run Nat := do
  let sector ← c2s sb cluster
  return s2o sb sector

def clusterOffset (sb : ExfatSuperBlock) (cluster : UInt32) : Nat :=
  s2o sb (sb.clusterSectorStart.toNat +
    (cluster - exfatFirstDataCluster).toNat <<< sb.spcBits.toNat)

theorem not_lt_of_clusterInvalid_eq_false {sb : ExfatSuperBlock} {cluster : UInt32}
    (valid : clusterInvalid sb cluster = false) : ¬ cluster < exfatFirstDataCluster := by
  simp only [clusterInvalid, Bool.or_eq_false_iff, decide_eq_false_iff_not] at valid
  exact valid.1

theorem exfatC2o_of_valid {sb : ExfatSuperBlock} {cluster : UInt32}
    (valid : clusterInvalid sb cluster = false) :
    exfatC2o sb cluster = .ok (clusterOffset sb cluster) := by
  simp [exfatC2o, c2s, clusterOffset, not_lt_of_clusterInvalid_eq_false valid]

theorem dvd_clusterOffset (geometry : Geometry) (cluster : UInt32) :
    512 ∣ clusterOffset geometry.toExfatSuperBlock cluster := by
  have whole := dvd_sectorSize geometry
  rw [sectorSize, Nat.one_shiftLeft] at whole
  rw [clusterOffset, s2o, Nat.shiftLeft_eq]
  exact whole.mul_left _

/-- Offsets fit in `off_t`: no shift of `exfat_c2o` overflows. -/
theorem clusterOffset_lt (geometry : Geometry) (cluster : UInt32) :
    clusterOffset geometry.toExfatSuperBlock cluster < 288230376151711744 := by
  have start := geometry.clusterSectorStart.toNat_lt
  have number := (cluster - exfatFirstDataCluster).toNat_lt
  have cluster_le := clusterSize_le geometry
  have sector_le : 2 ^ geometry.sectorBits.toNat ≤ clusterSize geometry.toExfatSuperBlock := by
    rw [clusterSize_eq]
    exact Nat.pow_le_pow_right (by decide) (Nat.le_add_right _ _)
  rw [clusterOffset, s2o, Nat.shiftLeft_eq, Nat.shiftLeft_eq, Nat.add_mul, Nat.mul_assoc,
    Nat.mul_comm (2 ^ geometry.spcBits.toNat), ← Nat.pow_add, ← clusterSize_eq]
  have first := Nat.mul_le_mul (Nat.le_of_lt_succ start) (sector_le.trans cluster_le)
  have second := Nat.mul_le_mul (Nat.le_of_lt_succ number) cluster_le
  omega

/-- The fields of `struct exfat_node` the walk reads.  The cached pointer of a
node that is at its beginning is the first cluster. -/
structure ExfatNode where
  startCluster : UInt32
  fptrIndex : UInt32
  fptrCluster : UInt32
  isContiguous : Bool
  size : UInt64
  fptr_start : fptrIndex = 0 → fptrCluster = startCluster

/-- A zeroed node after `init_node_meta2`. -/
def initNodeMeta2 (size : UInt64) (startCluster : UInt32) (contiguous : Bool) : ExfatNode where
  startCluster := startCluster
  fptrIndex := 0
  fptrCluster := startCluster
  isContiguous := contiguous
  size := size
  fptr_start _ := rfl

/-- What `check_node` compares the node with. -/
structure NodeMeta where
  checksum : UInt16
  actualChecksum : UInt16
  validSize : UInt64
  isDirectory : Bool

/-- `check_node`, on a volume mounted without repair. -/
def checkNode (sb : ExfatSuperBlock) (node : ExfatNode) (info : NodeMeta) : Bool :=
  info.actualChecksum == info.checksum &&
  info.validSize ≤ node.size &&
  !(node.size == 0 && node.startCluster != 0) &&
  !(0 < node.size && clusterInvalid sb node.startCluster) &&
  node.size.toNat ≤ sb.clusterCount.toNat * clusterSize sb &&
  !(node.size == 0 && node.isContiguous) &&
  !(info.isDirectory && node.size.toNat % clusterSize sb != 0)

theorem size_le_of_checkNode {sb : ExfatSuperBlock} {node : ExfatNode} {info : NodeMeta}
    (checked : checkNode sb node info = true) :
    node.size.toNat ≤ sb.clusterCount.toNat * clusterSize sb := by
  simp only [checkNode, Bool.and_eq_true, decide_eq_true_eq] at checked
  exact checked.1.1.2

structure Volume where
  sb : Geometry
  fat : UInt32 → Option UInt32

def nextCluster (volume : Volume) (node : ExfatNode) (cluster : UInt32) : UInt32 :=
  if node.isContiguous then cluster + 1 else (volume.fat cluster).getD exfatClusterBad

def exfatNextCluster (volume : Volume) (node : ExfatNode) (cluster : UInt32) : Run UInt32 :=
  if cluster < exfatFirstDataCluster then .error .abort
  else if node.isContiguous then .ok (cluster + 1)
  else
    match volume.fat cluster with
    | none => .ok exfatClusterBad
    | some next => .ok next

theorem exfatNextCluster_of_valid {volume : Volume} (node : ExfatNode) {cluster : UInt32}
    (valid : clusterInvalid volume.sb.toExfatSuperBlock cluster = false) :
    exfatNextCluster volume node cluster = .ok (nextCluster volume node cluster) := by
  unfold exfatNextCluster nextCluster
  rw [if_neg (not_lt_of_clusterInvalid_eq_false valid)]
  split_ifs
  · rfl
  · cases volume.fat cluster <;> rfl

def advanceLoop (volume : Volume) (node : ExfatNode) : Nat → UInt32 → Run UInt32
  | 0, cluster => .ok cluster
  | steps + 1, cluster => do
      let next ← exfatNextCluster volume node cluster
      if clusterInvalid volume.sb.toExfatSuperBlock next then .ok next
      else advanceLoop volume node steps next

def advanceStart (node : ExfatNode) (count : UInt32) : UInt32 × UInt32 :=
  if count < node.fptrIndex then (0, node.startCluster) else (node.fptrIndex, node.fptrCluster)

theorem advanceStart_zero (node : ExfatNode) : (advanceStart node 0).2 = node.startCluster := by
  unfold advanceStart
  split_ifs with moved
  · rfl
  · exact node.fptr_start (UInt32.le_antisymm (UInt32.not_lt.mp moved) UInt32.zero_le)

def exfatAdvanceCluster (volume : Volume) (node : ExfatNode) (count : UInt32) :
    Run (UInt32 × ExfatNode) :=
  match walked : advanceLoop volume node (count.toNat - (advanceStart node count).1.toNat)
      (advanceStart node count).2 with
  | .error fault => .error fault
  | .ok cluster => .ok (cluster,
      { node with
        fptrIndex := count
        fptrCluster := cluster
        fptr_start := by
          rintro rfl
          simp only [UInt32.toNat_zero, Nat.zero_sub, advanceLoop, Except.ok.injEq] at walked
          rw [← walked, advanceStart_zero] })

theorem exfatAdvanceCluster_zero (volume : Volume) (node : ExfatNode) :
    ∃ rewound, exfatAdvanceCluster volume node 0 = .ok (node.startCluster, rewound) := by
  unfold exfatAdvanceCluster
  split
  next fault walked =>
    simp [advanceLoop] at walked
  next cluster walked =>
    simp only [UInt32.toNat_zero, Nat.zero_sub, advanceLoop, Except.ok.injEq] at walked
    rw [advanceStart_zero] at walked
    subst cluster
    exact ⟨_, rfl⟩

/-- The clusters of a file, whether valid or not: `c_0 = start_cluster` and
`c_(k+1) = exfat_next_cluster(c_k)`. -/
def clusterAt (volume : Volume) (node : ExfatNode) : Nat → UInt32
  | 0 => node.startCluster
  | index + 1 => nextCluster volume node (clusterAt volume node index)

end Vtoydump.Exfat
