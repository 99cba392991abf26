import Vtoydump.Basis.Layout
import Vtoydump.Exfat.Cluster
import Vtoydump.Exfat.Growth

/-!
# The walk of `exfat_get_image_location`

The loop keeps a pending extent and hands it to `exfat_add_disk_region` when
the next cluster does not continue it.  The extents handed over are the
maximal runs of the clusters walked, in their order; all of them when the walk
is complete, all but the pending one when it stops at an invalid cluster.
-/

namespace Vtoydump.Exfat

open CRun Layout

/-- `node->size` as an `off_t`; a negative one ends the loop at once. -/
def leftSize (size : UInt64) : Nat :=
  if size.toNat < 9223372036854775808 then size.toNat else 0

/-- The loop of `exfat_get_image_location`, with the flush behind it. -/
def imageLocationLoop (process : Process) (volume : Volume) (node : ExfatNode)
    (left : Nat) (cluster : UInt32) (lastSize lastOffset : Nat) (globals : Globals) :
    Run (Int × Globals) :=
  if _more : 0 < left then
    if clusterInvalid volume.sb.toExfatSuperBlock cluster then .ok (-eio, globals)
    else do
      let curSize := min (clusterSize volume.sb.toExfatSuperBlock) left
      let curOffset ← exfatC2o volume.sb.toExfatSuperBlock cluster
      if lastOffset + lastSize = curOffset then
        let next ← exfatNextCluster volume node cluster
        imageLocationLoop process volume node
          (left - min (clusterSize volume.sb.toExfatSuperBlock) left) next
          (lastSize + curSize) lastOffset globals
      else
        let (_, flushed) ←
          exfatAddDiskRegion process globals (process.sizeT.trunc lastSize) lastOffset
        let next ← exfatNextCluster volume node cluster
        imageLocationLoop process volume node
          (left - min (clusterSize volume.sb.toExfatSuperBlock) left) next
          curSize curOffset flushed
  else do
    let (_, flushed) ←
      exfatAddDiskRegion process globals (process.sizeT.trunc lastSize) lastOffset
    return (0, flushed)
termination_by left
decreasing_by
  all_goals
    have positive := clusterSize_pos volume.sb.toExfatSuperBlock
    omega

def exfatGetImageLocation (process : Process) (volume : Volume) (node : ExfatNode)
    (globals : Globals) : Run (Int × Globals) := do
  let (_, allocated) ← reallocImageLocation process globals 1024
  let (cluster, _) ← exfatAdvanceCluster volume node 0
  if clusterInvalid volume.sb.toExfatSuperBlock cluster then
    return (-eio, allocated)
  imageLocationLoop process volume node (leftSize node.size) cluster 0 0 allocated

/-- Hand extents to `exfat_add_disk_region` one after another, as the loop does:
the result of a call is not looked at. -/
def addExtents (process : Process) : Globals → List Extent → Run Globals
  | globals, [] => .ok globals
  | globals, extent :: extents => do
      let (_, added) ←
        exfatAddDiskRegion process globals (process.sizeT.trunc extent.size) extent.offset
      addExtents process added extents

/-- `DIV_ROUND_UP(node->size, CLUSTER_SIZE)` -/
def fileClusters (volume : Volume) (node : ExfatNode) : Nat :=
  (node.size.toNat + clusterSize volume.sb.toExfatSuperBlock - 1) /
    clusterSize volume.sb.toExfatSuperBlock

def validAt (volume : Volume) (node : ExfatNode) (index : Nat) : Bool :=
  !clusterInvalid volume.sb.toExfatSuperBlock (clusterAt volume node index)

def ValidChain (volume : Volume) (node : ExfatNode) : Prop :=
  ∀ index < fileClusters volume node, validAt volume node index = true

instance (volume : Volume) (node : ExfatNode) : Decidable (ValidChain volume node) :=
  inferInstanceAs (Decidable (∀ index < _, _))

def clusterExtent (volume : Volume) (node : ExfatNode) (index : Nat) : Extent where
  offset := clusterOffset volume.sb.toExfatSuperBlock (clusterAt volume node index)
  size := min (clusterSize volume.sb.toExfatSuperBlock)
    (node.size.toNat - index * clusterSize volume.sb.toExfatSuperBlock)

/-- The clusters walked, up to the first invalid one. -/
def walkedClusters (volume : Volume) (node : ExfatNode) : List Extent :=
  ((List.range (fileClusters volume node)).takeWhile (validAt volume node)).map
    (clusterExtent volume node)

def handedOver (volume : Volume) (node : ExfatNode) : List Extent :=
  if ValidChain volume node then coalesce (walkedClusters volume node)
  else (coalesce (walkedClusters volume node)).dropLast

theorem lt_fileClusters_iff {volume : Volume} {node : ExfatNode} {index : Nat} :
    index < fileClusters volume node ↔
      index * clusterSize volume.sb.toExfatSuperBlock < node.size.toNat := by
  have positive := clusterSize_pos volume.sb.toExfatSuperBlock
  rw [fileClusters, Nat.lt_div_iff_mul_lt positive]
  omega

section Left

variable {volume : Volume} {node : ExfatNode} {index : Nat}

theorem left_pos (inside : index < fileClusters volume node) :
    0 < node.size.toNat - index * clusterSize volume.sb.toExfatSuperBlock := by
  have here := lt_fileClusters_iff.mp inside
  omega

theorem left_eq_zero (behind : fileClusters volume node ≤ index) :
    node.size.toNat - index * clusterSize volume.sb.toExfatSuperBlock = 0 := by
  have last := lt_fileClusters_iff.not.mp (Nat.not_lt_of_le behind)
  omega

theorem left_sub_min (volume : Volume) (node : ExfatNode) (index : Nat) :
    node.size.toNat - index * clusterSize volume.sb.toExfatSuperBlock -
        min (clusterSize volume.sb.toExfatSuperBlock)
          (node.size.toNat - index * clusterSize volume.sb.toExfatSuperBlock) =
      node.size.toNat - (index + 1) * clusterSize volume.sb.toExfatSuperBlock := by
  rw [Nat.succ_mul]
  omega

theorem validAt_eq_true_iff :
    validAt volume node index = true ↔
      clusterInvalid volume.sb.toExfatSuperBlock (clusterAt volume node index) = false := by
  rw [validAt, Bool.not_eq_true']

end Left

section Loop

variable (process : Process) (volume : Volume) (node : ExfatNode)

theorem imageLocationLoop_zero (cluster : UInt32) (lastSize lastOffset : Nat)
    (globals : Globals) :
    imageLocationLoop process volume node 0 cluster lastSize lastOffset globals = (do
      let flushed ← addExtents process globals [⟨lastOffset, lastSize⟩]
      return (0, flushed)) := by
  rw [imageLocationLoop, dif_neg (Nat.lt_irrefl 0)]
  simp only [addExtents]
  cases exfatAddDiskRegion process globals (process.sizeT.trunc lastSize) lastOffset <;> rfl

/-- From any state of the loop: the clusters to come, and the pending extent. -/
theorem imageLocationLoop_eq (index steps : Nat)
    (end_eq : index + steps = fileClusters volume node)
    (lastSize lastOffset : Nat) (globals : Globals) :
    imageLocationLoop process volume node
        (node.size.toNat - index * clusterSize volume.sb.toExfatSuperBlock)
        (clusterAt volume node index) lastSize lastOffset globals =
      let blocks := ((List.range' index steps).takeWhile (validAt volume node)).map
        (clusterExtent volume node)
      if ∀ later ∈ List.range' index steps, validAt volume node later = true then do
        let flushed ← addExtents process globals (coalesceFrom ⟨lastOffset, lastSize⟩ blocks)
        return (0, flushed)
      else do
        let flushed ←
          addExtents process globals (coalesceFrom ⟨lastOffset, lastSize⟩ blocks).dropLast
        return (-eio, flushed) := by
  induction steps generalizing index lastSize lastOffset globals with
  | zero =>
      have behind : fileClusters volume node ≤ index := end_eq.ge
      rw [left_eq_zero behind, imageLocationLoop_zero]
      simp [coalesceFrom]
  | succ steps inductionHypothesis =>
      have inside : index < fileClusters volume node := by omega
      rw [imageLocationLoop, dif_pos (left_pos inside), List.range'_succ]
      cases valid : validAt volume node index with
      | false =>
          have invalid : clusterInvalid volume.sb.toExfatSuperBlock
              (clusterAt volume node index) = true := by
            simpa [validAt] using valid
          simp [invalid, valid, coalesceFrom, addExtents]
      | true =>
          have usable := validAt_eq_true_iff.mp valid
          have tail := inductionHypothesis (index + 1) (by omega)
          simp only [usable, Bool.false_eq_true, if_false, exfatC2o_of_valid usable,
            exfatNextCluster_of_valid node usable, ok_bind, left_sub_min]
          rw [List.takeWhile_cons_of_pos valid, List.map_cons]
          simp only [List.forall_mem_cons, valid, true_and]
          by_cases meets : lastOffset + lastSize =
              clusterOffset volume.sb.toExfatSuperBlock (clusterAt volume node index)
          · have joins : Extent.Meets ⟨lastOffset, lastSize⟩ (clusterExtent volume node index) :=
              meets
            rw [if_pos meets, coalesceFrom_cons_of_meets joins]
            exact tail _ _ _
          · have apart : ¬ Extent.Meets ⟨lastOffset, lastSize⟩
                (clusterExtent volume node index) := meets
            rw [if_neg meets, coalesceFrom_cons_of_not_meets apart,
              List.dropLast_cons_of_ne_nil (coalesceFrom_ne_nil _ _)]
            simp only [addExtents]
            cases exfatAddDiskRegion process globals (process.sizeT.trunc lastSize) lastOffset with
            | error fault => simp
            | ok result => exact tail _ _ result.2

theorem addExtents_cons_zero (globals : Globals) (offset : Nat) (extents : List Extent) :
    addExtents process globals (⟨offset, 0⟩ :: extents) = addExtents process globals extents := by
  simp [addExtents, SizeT.trunc, exfatAddDiskRegion]

theorem addExtents_coalesceFrom_origin (globals : Globals) (blocks : List Extent) :
    addExtents process globals (coalesceFrom ⟨0, 0⟩ blocks) =
      addExtents process globals (coalesce blocks) := by
  cases blocks with
  | nil => exact addExtents_cons_zero process globals 0 []
  | cons block blocks =>
      rcases coalesceFrom_origin block blocks with absorbed | kept
      · rw [absorbed]
      · rw [kept, addExtents_cons_zero]

theorem addExtents_dropLast_coalesceFrom_origin (globals : Globals) (blocks : List Extent) :
    addExtents process globals (coalesceFrom ⟨0, 0⟩ blocks).dropLast =
      addExtents process globals (coalesce blocks).dropLast := by
  cases blocks with
  | nil => rfl
  | cons block blocks =>
      rcases coalesceFrom_origin block blocks with absorbed | kept
      · rw [absorbed]
      · rw [kept, List.dropLast_cons_of_ne_nil (coalesce_ne_nil _ _), addExtents_cons_zero]

end Loop

theorem exfatGetImageLocation_eq_of_lt (process : Process) {volume : Volume} {node : ExfatNode}
    (nonempty : 0 < node.size.toNat) (small : node.size.toNat < 9223372036854775808)
    (globals : Globals) :
    exfatGetImageLocation process volume node globals = (do
      let (_, allocated) ← reallocImageLocation process globals 1024
      let flushed ← addExtents process allocated (handedOver volume node)
      return (if ValidChain volume node then 0 else -eio, flushed)) := by
  have left : leftSize node.size = node.size.toNat := if_pos small
  obtain ⟨rewound, start⟩ := exfatAdvanceCluster_zero volume node
  have walk := imageLocationLoop_eq process volume node 0 (fileClusters volume node)
    (Nat.zero_add _) 0 0
  simp only [Nat.zero_mul, Nat.sub_zero, ← List.range_eq_range', List.mem_range] at walk
  unfold exfatGetImageLocation
  congr 1
  funext allocation
  rw [start, left]
  simp only [ok_bind]
  by_cases invalid : clusterInvalid volume.sb.toExfatSuperBlock node.startCluster = true
  · have first : 0 < fileClusters volume node :=
      lt_fileClusters_iff.mpr (by simpa using nonempty)
    have broken : ¬ ValidChain volume node := fun chain => by
      simpa [validAt, clusterAt, invalid] using chain 0 first
    have none_walked : walkedClusters volume node = [] := by
      obtain ⟨count, equality⟩ := Nat.exists_eq_succ_of_ne_zero (Nat.ne_of_gt first)
      rw [walkedClusters, equality, List.range_succ_eq_map,
        List.takeWhile_cons_of_neg (by simp [validAt, clusterAt, invalid]), List.map_nil]
    simp [invalid, handedOver, broken, none_walked, coalesce, addExtents]
  · rw [if_neg invalid]
    refine (walk allocation.2).trans ?_
    by_cases chain : ValidChain volume node
    · have all : ∀ later < fileClusters volume node, validAt volume node later = true := chain
      rw [if_pos all, addExtents_coalesceFrom_origin]
      simp only [handedOver, if_pos chain]
      rfl
    · have some_invalid : ¬ ∀ later < fileClusters volume node,
          validAt volume node later = true := chain
      rw [if_neg some_invalid, addExtents_dropLast_coalesceFrom_origin]
      simp only [handedOver, if_neg chain]
      rfl

/-- A file that fits the heap of its volume is small enough for `off_t`. -/
theorem exfatGetImageLocation_eq (process : Process) {volume : Volume} {node : ExfatNode}
    (nonempty : 0 < node.size.toNat)
    (fits : node.size.toNat ≤
      volume.sb.clusterCount.toNat * clusterSize volume.sb.toExfatSuperBlock)
    (globals : Globals) :
    exfatGetImageLocation process volume node globals = (do
      let (_, allocated) ← reallocImageLocation process globals 1024
      let flushed ← addExtents process allocated (handedOver volume node)
      return (if ValidChain volume node then 0 else -eio, flushed)) := by
  have heap := heapSize_lt volume.sb
  exact exfatGetImageLocation_eq_of_lt process nonempty (by omega) globals

end Vtoydump.Exfat
