import Vtoydump.Basis.Chain
import Vtoydump.Exfat.Resize

/-!
# The clusters that a file holds

A file holds a list of clusters when its node and the table lead from each of them to the
next.  What is written elsewhere does not change what it holds.
-/

namespace Vtoydump.Exfat

open CRun Blocks Chain

/-- No number that is not a cluster's counts as one, `size_t` counts the bytes of the table,
and the table lies before the clusters. -/
structure FatVolume.Laid (ef : FatVolume) : Prop where
  few : ef.sb.clusterCount.toNat ≤ 0xfffffff5
  counted : 4 * (ef.sb.clusterCount.toNat + 2) ≤ ef.sizeT.modulus
  apart : s2o ef.sb.toExfatSuperBlock ef.fatSectorStart.toNat +
    4 * (ef.sb.clusterCount.toNat + 2) ≤
      s2o ef.sb.toExfatSuperBlock ef.sb.clusterSectorStart.toNat

structure Transfers.Reliable (io : Transfers) : Prop where
  reads : ∀ size offset, io.reads size offset = true
  writes : ∀ size offset, io.writes size offset = true

namespace FatVolume

def heapStart (ef : FatVolume) : Nat :=
  s2o ef.sb.toExfatSuperBlock ef.sb.clusterSectorStart.toNat

def offset (ef : FatVolume) (cluster : UInt32) : Nat :=
  clusterOffset ef.sb.toExfatSuperBlock cluster

def next (ef : FatVolume) (content : Nat → UInt8) (contiguous : Bool) (cluster : UInt32) :
    UInt32 := if contiguous then cluster + 1 else ef.entry content cluster

end FatVolume

section Entries

variable {ef : FatVolume} {content other : Nat → UInt8} {cluster current : UInt32}

theorem fatOffset_of_valid (laid : ef.Laid) (valid : ef.invalid cluster = false) :
    ef.fatOffset cluster =
      s2o ef.sb.toExfatSuperBlock ef.fatSectorStart.toNat + cluster.toNat * 4 := by
  obtain ⟨data, inside⟩ := valid_iff.mp valid
  have counted := laid.counted
  rw [FatVolume.fatOffset, SizeT.trunc_of_lt (by omega)]

theorem fatOffset_before (laid : ef.Laid) (valid : ef.invalid cluster = false) :
    ef.fatOffset cluster + 4 ≤ ef.heapStart := by
  obtain ⟨data, inside⟩ := valid_iff.mp valid
  have apart := laid.apart
  rw [fatOffset_of_valid laid valid, FatVolume.heapStart]
  omega

theorem heapStart_le_offset (cluster : UInt32) : ef.heapStart ≤ ef.offset cluster := by
  rw [FatVolume.heapStart, FatVolume.offset, clusterOffset, s2o, s2o, Nat.shiftLeft_eq,
    Nat.shiftLeft_eq]
  exact Nat.mul_le_mul_right _ (Nat.le_add_right _ _)

theorem entry_put_same (next : UInt32) :
    ef.entry (put content (ef.fatOffset current) (leBytes 4 next.toNat)) current = next := by
  have read := bytesAt_put_same content (ef.fatOffset current) (leBytes 4 next.toNat)
  rw [length_leBytes] at read
  have small : next.toNat < 256 ^ 4 := next.toNat_lt
  rw [FatVolume.entry, read, leValue_leBytes, Nat.mod_eq_of_lt small]
  exact UInt32.ofNat_toNat

theorem entry_put_apart (laid : ef.Laid) (valid : ef.invalid cluster = false)
    (validToo : ef.invalid current = false) (apart : cluster ≠ current) (next : UInt32) :
    ef.entry (put content (ef.fatOffset current) (leBytes 4 next.toNat)) cluster =
      ef.entry content cluster := by
  have different : cluster.toNat ≠ current.toNat := fun same => apart (UInt32.toNat_inj.mp same)
  rw [FatVolume.entry, FatVolume.entry, bytesAt_put_apart]
  rw [length_leBytes, fatOffset_of_valid laid valid, fatOffset_of_valid laid validToo]
  omega

theorem entry_of_heap (laid : ef.Laid) (valid : ef.invalid cluster = false)
    (same : ∀ position < ef.heapStart, other position = content position) :
    ef.entry other cluster = ef.entry content cluster := by
  have before := fatOffset_before laid valid
  rw [FatVolume.entry, FatVolume.entry, bytesAt_congr]
  intro index below
  exact same _ (by omega)

theorem nextCluster_volume (io : Transfers) (content : Nat → UInt8) (node : ExfatNode)
    (cluster : UInt32) :
    nextCluster (ef.volume io content) node cluster = ef.next content node.isContiguous cluster ∨
      nextCluster (ef.volume io content) node cluster = exfatClusterBad ∧ ¬ io.Reliable := by
  rw [nextCluster, FatVolume.next]
  split_ifs
  · exact Or.inl rfl
  · simp only [FatVolume.volume]
    split_ifs with read
    · exact Or.inl rfl
    · exact Or.inr ⟨rfl, fun reliable => read (reliable.reads _ _)⟩

end Entries

variable {width : Nat} {ef : FatVolume} {io : Transfers} {disk after final : ef.Disk width}

/-- What changes: the entries and bits of some clusters, no bytes of any cluster. -/
structure Touches (ef : FatVolume) (own : UInt32 → Prop) (disk after : ef.Disk width) :
    Prop where
  entry : ∀ cluster, ef.invalid cluster = false → ¬ own cluster →
    ef.entry after.content cluster = ef.entry disk.content cluster
  used : ∀ cluster, ef.invalid cluster = false → ¬ own cluster →
    (after.cmap.used cluster = true ↔ disk.cmap.used cluster = true)
  heap : ∀ position, ef.heapStart ≤ position → after.content position = disk.content position

/-- What a change leaves alone: chains, bits and bytes of all clusters but some. -/
structure Spares (ef : FatVolume) (own : UInt32 → Prop) (disk after : ef.Disk width) :
    Prop where
  entry : ∀ cluster, ef.invalid cluster = false → ¬ own cluster →
    ef.entry after.content cluster = ef.entry disk.content cluster
  used : ∀ cluster, ef.invalid cluster = false → ¬ own cluster →
    (after.cmap.used cluster = true ↔ disk.cmap.used cluster = true)
  bytes : ∀ cluster, ef.invalid cluster = false → ¬ own cluster → ∀ inner < ef.clusterSize,
    after.content (ef.offset cluster + inner) = disk.content (ef.offset cluster + inner)

section Touching

variable {own more : UInt32 → Prop}

theorem Touches.refl (own : UInt32 → Prop) (disk : ef.Disk width) : Touches ef own disk disk :=
  ⟨fun _ _ _ => rfl, fun _ _ _ => Iff.rfl, fun _ _ => rfl⟩

theorem Touches.trans (first : Touches ef own disk after) (second : Touches ef own after final) :
    Touches ef own disk final where
  entry cluster valid apart := (second.entry cluster valid apart).trans
    (first.entry cluster valid apart)
  used cluster valid apart := (second.used cluster valid apart).trans
    (first.used cluster valid apart)
  heap position behind := (second.heap position behind).trans (first.heap position behind)

theorem Touches.mono (touches : Touches ef own disk after)
    (weaker : ∀ cluster, own cluster → more cluster) : Touches ef more disk after where
  entry cluster valid apart := touches.entry cluster valid (mt (weaker cluster) apart)
  used cluster valid apart := touches.used cluster valid (mt (weaker cluster) apart)
  heap := touches.heap

theorem Spares.refl (own : UInt32 → Prop) (disk : ef.Disk width) : Spares ef own disk disk :=
  ⟨fun _ _ _ => rfl, fun _ _ _ => Iff.rfl, fun _ _ _ _ _ => rfl⟩

theorem Spares.trans (first : Spares ef own disk after) (second : Spares ef own after final) :
    Spares ef own disk final where
  entry cluster valid apart := (second.entry cluster valid apart).trans
    (first.entry cluster valid apart)
  used cluster valid apart := (second.used cluster valid apart).trans
    (first.used cluster valid apart)
  bytes cluster valid apart inner below := (second.bytes cluster valid apart inner below).trans
    (first.bytes cluster valid apart inner below)

theorem Spares.mono (spares : Spares ef own disk after)
    (weaker : ∀ cluster, ef.invalid cluster = false → own cluster → more cluster) :
    Spares ef more disk after where
  entry cluster valid apart := spares.entry cluster valid (mt (weaker cluster valid) apart)
  used cluster valid apart := spares.used cluster valid (mt (weaker cluster valid) apart)
  bytes cluster valid apart := spares.bytes cluster valid (mt (weaker cluster valid) apart)

theorem Touches.bytes (touches : Touches ef own disk after) (cluster : UInt32) (inner : Nat) :
    after.content (ef.offset cluster + inner) = disk.content (ef.offset cluster + inner) :=
  touches.heap _ ((heapStart_le_offset cluster).trans (Nat.le_add_right _ _))

theorem Touches.spares (touches : Touches ef own disk after) : Spares ef own disk after where
  entry := touches.entry
  used := touches.used
  bytes cluster _ _ inner _ := touches.bytes cluster inner

end Touching

/-- The clusters of a file, in their order; the cached pointer is one of them. -/
structure Holds (ef : FatVolume) (disk : ef.Disk width) (node : ExfatNode)
    (clusters : List UInt32) : Prop where
  valid : ∀ cluster ∈ clusters, ef.invalid cluster = false
  used : ∀ cluster ∈ clusters, disk.cmap.used cluster = true
  nodup : clusters.Nodup
  start : node.startCluster = clusters.headD exfatClusterFree
  linked : Linked (ef.next disk.content node.isContiguous) clusters
  pointer : node.fptrIndex = 0 ∨ clusters[node.fptrIndex.toNat]? = some node.fptrCluster

/-- The last cluster of a file that is in the table is marked as the end. -/
def Ended (ef : FatVolume) (disk : ef.Disk width) (node : ExfatNode) (clusters : List UInt32) :
    Prop :=
  node.isContiguous = false →
    ∀ last ∈ clusters.getLast?, ef.entry disk.content last = exfatClusterEnd

section Holding

variable {node other : ExfatNode} {clusters : List UInt32} {own : UInt32 → Prop}

theorem next_congr {contiguous : Bool} {cluster : UInt32}
    (same : ef.entry after.content cluster = ef.entry disk.content cluster) :
    ef.next after.content contiguous cluster = ef.next disk.content contiguous cluster := by
  rw [FatVolume.next, FatVolume.next, same]

theorem Holds.spared (holds : Holds ef disk node clusters) (spares : Spares ef own disk after)
    (apart : ∀ cluster ∈ clusters, ¬ own cluster) : Holds ef after node clusters where
  valid := holds.valid
  used cluster membership := (spares.used cluster (holds.valid cluster membership)
    (apart cluster membership)).mpr (holds.used cluster membership)
  nodup := holds.nodup
  start := holds.start
  linked := holds.linked.congr_all fun cluster membership => next_congr
    (spares.entry cluster (holds.valid cluster membership) (apart cluster membership))
  pointer := holds.pointer

theorem Ended.nil (disk : ef.Disk width) (node : ExfatNode) : Ended ef disk node [] := by
  intro _ last isLast
  cases isLast

theorem Ended.of_entry (ended : Ended ef disk node clusters)
    (contiguous : other.isContiguous = node.isContiguous)
    (same : ∀ cluster ∈ clusters,
      ef.entry after.content cluster = ef.entry disk.content cluster) :
    Ended ef after other clusters := by
  intro chained last isLast
  rw [same last (List.mem_of_getLast? isLast)]
  exact ended (contiguous.symm.trans chained) last isLast

theorem Holds.getElem?_zero (holds : Holds ef disk node clusters) (held : 0 < clusters.length) :
    clusters[0]? = some node.startCluster := by
  rw [holds.start]
  cases clusters with
  | nil => exact absurd held (Nat.lt_irrefl 0)
  | cons first rest => rfl

theorem Holds.advanceStart (holds : Holds ef disk node clusters) (held : 0 < clusters.length)
    (count : UInt32) :
    clusters[(advanceStart node count).1.toNat]? = some (advanceStart node count).2 := by
  unfold Exfat.advanceStart
  split_ifs with passed
  · exact holds.getElem?_zero held
  · rcases holds.pointer with first | inside
    · rw [first, node.fptr_start first]
      exact holds.getElem?_zero held
    · exact inside

/-- The walk over the clusters of a file ends at the one asked for, if no read fails. -/
theorem Holds.advanceLoop (io : Transfers) (laid : ef.Laid) (holds : Holds ef disk node clusters)
    {index : Nat} (steps : Nat) {cluster : UInt32} (here : clusters[index]? = some cluster)
    (inside : index + steps < clusters.length) :
    ∃ last, advanceLoop (ef.volume io disk.content) node steps cluster = .ok last ∧
      (clusters[index + steps]? = some last ∨ ef.invalid last = true ∧ ¬ io.Reliable) := by
  induction steps generalizing index cluster with
  | zero => exact ⟨cluster, rfl, Or.inl here⟩
  | succ steps inductionHypothesis =>
      have valid := holds.valid cluster (List.mem_of_getElem? here)
      have behind := List.getElem?_eq_getElem (by omega : index + 1 < clusters.length)
      have follows := holds.linked.follower here behind
      have next := @exfatNextCluster_of_valid (ef.volume io disk.content) node cluster valid
      rw [Exfat.advanceLoop, next, ok_bind]
      rcases nextCluster_volume io disk.content node cluster with followed | ⟨bad, unreliable⟩
      · rw [followed, follows, if_neg]
        · have shifted : index + (steps + 1) = index + 1 + steps := by omega
          rw [shifted] at inside ⊢
          exact inductionHypothesis behind inside
        · exact Bool.eq_false_iff.mp (holds.valid _ (List.getElem_mem _))
      · have stops := @invalid_bad ef.sb.toExfatSuperBlock laid.few
        rw [bad, if_pos (by exact stops)]
        exact ⟨_, rfl, Or.inr ⟨stops, unreliable⟩⟩

theorem exfatAdvanceCluster_holds (io : Transfers) (laid : ef.Laid)
    (holds : Holds ef disk node clusters) {count : UInt32}
    (inside : count.toNat < clusters.length) :
    ∃ cluster moved, exfatAdvanceCluster (ef.volume io disk.content) node count =
        .ok (cluster, moved) ∧ SameFile node moved ∧
      (clusters[count.toNat]? = some cluster ∧ Holds ef disk moved clusters ∨
        ef.invalid cluster = true ∧ ¬ io.Reliable) := by
  have ordered := advanceStart_le node count
  have begins := holds.advanceStart (by omega) count
  obtain ⟨cluster, walked, answer⟩ := holds.advanceLoop io laid
    (count.toNat - (advanceStart node count).1.toNat) begins (by omega)
  obtain ⟨moved, advanced⟩ := exfatAdvanceCluster_of_loop walked
  obtain ⟨same, index, pointer, _⟩ := exfatAdvanceCluster_eq_ok advanced
  rw [Nat.add_sub_of_le ordered] at answer
  refine ⟨cluster, moved, advanced, same, answer.imp_left fun found => ⟨found, ?_⟩⟩
  exact {
    valid := holds.valid
    used := holds.used
    nodup := holds.nodup
    start := same.startCluster.trans holds.start
    linked := by
      rw [same.isContiguous]
      exact holds.linked
    pointer := by
      rw [index, pointer]
      exact Or.inr found }

end Holding

end Vtoydump.Exfat
