import Mathlib.Data.List.Range
import Mathlib.Data.List.TakeWhile
import Vtoydump.Basis.Segment
import Vtoydump.Exfat.ImageLocation

/-!
# The runs of a file

What the clusters of a file with a valid chain, and the maximal runs they
form, have in common for every fragmentation: they begin at disk sectors, they
hold the file exactly, and only the last one may end within a cluster.
-/

namespace Vtoydump.Exfat

open Layout

/-- The maximal runs of byte-adjacent clusters of a file. -/
def fileRuns (volume : Volume) (node : ExfatNode) : List Extent :=
  coalesce (walkedClusters volume node)

section Clusters

variable {volume : Volume} {node : ExfatNode}

theorem walkedClusters_of_valid (chain : ValidChain volume node) :
    walkedClusters volume node =
      (List.range (fileClusters volume node)).map (clusterExtent volume node) := by
  rw [walkedClusters, List.takeWhile_eq_self_iff.mpr]
  intro index membership
  exact chain index (List.mem_range.mp membership)

theorem handedOver_of_valid (chain : ValidChain volume node) :
    handedOver volume node = fileRuns volume node := if_pos chain

theorem exists_of_mem_walkedClusters {extent : Extent}
    (membership : extent ∈ walkedClusters volume node) :
    ∃ index < fileClusters volume node, extent = clusterExtent volume node index := by
  obtain ⟨index, taken, rfl⟩ := List.mem_map.mp membership
  exact ⟨index, List.mem_range.mp ((List.takeWhile_prefix _).subset taken), rfl⟩

theorem clusterExtent_size_pos {index : Nat} (needed : index < fileClusters volume node) :
    0 < (clusterExtent volume node index).size :=
  Nat.lt_min.mpr ⟨clusterSize_pos volume.sb.toExfatSuperBlock, left_pos needed⟩

theorem clusterExtent_size_eq {index : Nat} (inner : index + 1 < fileClusters volume node) :
    (clusterExtent volume node index).size = clusterSize volume.sb.toExfatSuperBlock := by
  have here := lt_fileClusters_iff.mp inner
  rw [Nat.succ_mul] at here
  simp only [clusterExtent]
  omega

theorem total_clusterExtents (count : Nat) :
    total ((List.range count).map (clusterExtent volume node)) =
      min (count * clusterSize volume.sb.toExfatSuperBlock) node.size.toNat := by
  induction count with
  | zero => simp
  | succ count inductionHypothesis =>
      rw [List.range_succ, List.map_append, total_append, inductionHypothesis, Nat.succ_mul]
      simp only [List.map_cons, List.map_nil, total_cons, total_nil, clusterExtent]
      omega

theorem clusterSize_dvd_of_inner {extent : Extent}
    (inner : extent ∈ ((List.range (fileClusters volume node)).map
      (clusterExtent volume node)).dropLast) :
    clusterSize volume.sb.toExfatSuperBlock ∣ extent.size := by
  cases count : fileClusters volume node with
  | zero => simp [count] at inner
  | succ before =>
      rw [count, List.range_succ, List.map_append, List.map_cons, List.map_nil,
        List.dropLast_concat] at inner
      obtain ⟨index, inside, rfl⟩ := List.mem_map.mp inner
      have below := List.mem_range.mp inside
      rw [clusterExtent_size_eq (by omega)]

theorem size_le_fileClusters_mul :
    node.size.toNat ≤ fileClusters volume node * clusterSize volume.sb.toExfatSuperBlock :=
  Nat.le_of_not_lt fun less => Nat.lt_irrefl _ (lt_fileClusters_iff.mpr less)

theorem total_walkedClusters (chain : ValidChain volume node) :
    total (walkedClusters volume node) = node.size.toNat := by
  rw [walkedClusters_of_valid chain, total_clusterExtents,
    Nat.min_eq_right size_le_fileClusters_mul]

end Clusters

section Runs

variable {volume : Volume} {node : ExfatNode}

theorem forall_mem_fileRuns {property : Extent → Prop}
    (clusters : ∀ extent ∈ walkedClusters volume node, property extent)
    (joins : ∀ left right, property left → property right → left.Meets right →
      property (left.join right)) : ∀ run ∈ fileRuns volume node, property run := by
  unfold fileRuns
  cases walked : walkedClusters volume node with
  | nil => simp [coalesce]
  | cons extent extents =>
      rw [walked] at clusters
      exact forall_mem_coalesceFrom (clusters extent (by simp))
        (fun other membership => clusters other (by simp [membership])) joins

theorem fileRuns_size_pos {run : Extent} (membership : run ∈ fileRuns volume node) :
    0 < run.size := by
  refine @forall_mem_fileRuns volume node (fun run => 0 < run.size) ?_ ?_ run membership
  · intro extent walked
    obtain ⟨index, needed, rfl⟩ := exists_of_mem_walkedClusters walked
    exact clusterExtent_size_pos needed
  · intro left right positive _ _
    exact Nat.add_pos_left positive _

theorem dvd_fileRuns_offset {run : Extent} (membership : run ∈ fileRuns volume node) :
    512 ∣ run.offset := by
  refine @forall_mem_fileRuns volume node (fun run => 512 ∣ run.offset) ?_ ?_ run membership
  · intro extent walked
    obtain ⟨index, needed, rfl⟩ := exists_of_mem_walkedClusters walked
    exact dvd_clusterOffset volume.sb _
  · exact fun left right first _ _ => first

theorem fileRuns_offset_lt {run : Extent} (membership : run ∈ fileRuns volume node) :
    run.offset < 288230376151711744 := by
  refine @forall_mem_fileRuns volume node (fun run => run.offset < 288230376151711744) ?_ ?_ run
    membership
  · intro extent walked
    obtain ⟨index, needed, rfl⟩ := exists_of_mem_walkedClusters walked
    exact clusterOffset_lt volume.sb _
  · exact fun left right first _ _ => first

theorem isChain_fileRuns :
    (fileRuns volume node).IsChain fun left right => ¬ left.Meets right := by
  unfold fileRuns
  cases walkedClusters volume node with
  | nil => simp [coalesce]
  | cons extent extents => exact isChain_coalesceFrom extent extents

theorem total_fileRuns (chain : ValidChain volume node) :
    total (fileRuns volume node) = node.size.toNat := by
  rw [← total_walkedClusters chain, fileRuns]
  cases walkedClusters volume node with
  | nil => rfl
  | cons extent extents => rw [coalesce, total_coalesceFrom, total_cons]

theorem locate_fileRuns (position : Nat) :
    locate (fileRuns volume node) position = locate (walkedClusters volume node) position := by
  unfold fileRuns
  cases walkedClusters volume node with
  | nil => rfl
  | cons extent extents => exact locate_coalesceFrom extent extents position

theorem fileRuns_of_scattered (chain : ValidChain volume node)
    (scattered : ∀ index < fileClusters volume node - 1,
      ¬ (clusterExtent volume node index).Meets (clusterExtent volume node (index + 1))) :
    fileRuns volume node = walkedClusters volume node := by
  apply coalesce_of_isChain
  rw [walkedClusters_of_valid chain, List.isChain_map, List.isChain_range]
  exact scattered

theorem exists_run_of_cluster (chain : ValidChain volume node) {index : Nat}
    (needed : index < fileClusters volume node) :
    ∃ run ∈ fileRuns volume node, (clusterExtent volume node index).Within run := by
  have walked : clusterExtent volume node index ∈ walkedClusters volume node := by
    rw [walkedClusters_of_valid chain]
    exact List.mem_map.mpr ⟨index, List.mem_range.mpr needed, rfl⟩
  unfold fileRuns
  cases clusters : walkedClusters volume node with
  | nil => simp [clusters] at walked
  | cons extent extents =>
      rw [clusters] at walked
      exact exists_within_coalesceFrom walked

theorem clusterSize_dvd_of_mem_dropLast (chain : ValidChain volume node) {run : Extent}
    (membership : run ∈ (fileRuns volume node).dropLast) :
    clusterSize volume.sb.toExfatSuperBlock ∣ run.size := by
  have clusters : ∀ extent ∈ (walkedClusters volume node).dropLast,
      clusterSize volume.sb.toExfatSuperBlock ∣ extent.size := by
    rw [walkedClusters_of_valid chain]
    exact fun extent inner => clusterSize_dvd_of_inner inner
  unfold fileRuns at membership
  cases walked : walkedClusters volume node with
  | nil => simp [walked, coalesce] at membership
  | cons extent extents =>
      rw [walked] at membership clusters
      exact forall_mem_dropLast_coalesceFrom clusters
        (fun left right first second _ => Nat.dvd_add first second) run membership

/-- The place of a byte of the file: its cluster, and the offset within. -/
theorem locate_file (chain : ValidChain volume node) {position : Nat}
    (inside : position < node.size.toNat) :
    locate (fileRuns volume node) position =
      some (clusterOffset volume.sb.toExfatSuperBlock
          (clusterAt volume node (position / clusterSize volume.sb.toExfatSuperBlock)) +
        position % clusterSize volume.sb.toExfatSuperBlock) := by
  have positive := clusterSize_pos volume.sb.toExfatSuperBlock
  have split := Nat.div_add_mod' position (clusterSize volume.sb.toExfatSuperBlock)
  have within := Nat.mod_lt position positive
  have needed : position / clusterSize volume.sb.toExfatSuperBlock < fileClusters volume node :=
    lt_fileClusters_iff.mpr (by omega)
  have found : (walkedClusters volume node)[position / clusterSize volume.sb.toExfatSuperBlock]? =
      some (clusterExtent volume node (position / clusterSize volume.sb.toExfatSuperBlock)) := by
    rw [walkedClusters_of_valid chain, List.getElem?_map, List.getElem?_range needed]
    rfl
  have held : position % clusterSize volume.sb.toExfatSuperBlock <
      (clusterExtent volume node (position / clusterSize volume.sb.toExfatSuperBlock)).size := by
    simp only [clusterExtent]
    omega
  have before : total ((walkedClusters volume node).take
      (position / clusterSize volume.sb.toExfatSuperBlock)) =
        position / clusterSize volume.sb.toExfatSuperBlock *
          clusterSize volume.sb.toExfatSuperBlock := by
    rw [walkedClusters_of_valid chain, ← List.map_take, List.take_range,
      Nat.min_eq_left needed.le, total_clusterExtents]
    omega
  have place := locate_of_getElem? found held
  rw [before, split] at place
  rw [locate_fileRuns, place]
  rfl

end Runs

end Vtoydump.Exfat
