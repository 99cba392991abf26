import Vtoydump.Basis.Content
import Vtoydump.Exfat.Contents

/-!
# What changes of size and writes do to the bytes of a file

A file that is cut or made longer keeps the bytes that are inside both sizes.  A call that
fails for lack of space leaves the file as it was.
-/

namespace Vtoydump.Exfat

open CRun Blocks Chain

variable {width : Nat} {ef : FatVolume} {io : Transfers} {disk after final : ef.Disk width}

namespace FatVolume

def needed (ef : FatVolume) (bytes : Nat) : Nat := (bytes + ef.clusterSize - 1) / ef.clusterSize

/-- The largest size whose clusters `uint32_t` counts. -/
def largest (ef : FatVolume) : Nat := 0xffffffff * ef.clusterSize

end FatVolume

section Needed

theorem le_needed (ef : FatVolume) (bytes : Nat) : bytes ≤ ef.needed bytes * ef.clusterSize := by
  have positive := ef.clusterSize_pos
  have parts := Nat.div_add_mod (bytes + ef.clusterSize - 1) ef.clusterSize
  have inner := Nat.mod_lt (bytes + ef.clusterSize - 1) positive
  rw [Nat.mul_comm] at parts
  rw [FatVolume.needed]
  omega

theorem needed_mono (ef : FatVolume) {first second : Nat} (ordered : first ≤ second) :
    ef.needed first ≤ ef.needed second := Nat.div_le_div_right (by omega)

theorem needed_le {ef : FatVolume} {bytes length : Nat} (fits : bytes ≤ length * ef.clusterSize) :
    ef.needed bytes ≤ length := by
  have positive := ef.clusterSize_pos
  rw [FatVolume.needed, ← Nat.lt_succ_iff, Nat.div_lt_iff_lt_mul positive, Nat.succ_mul]
  omega

theorem bytes2clusters_eq {bytes : UInt64} (fits : bytes.toNat ≤ ef.largest) :
    (bytes2clusters ef.sb.toExfatSuperBlock bytes).toNat = ef.needed bytes.toNat := by
  have small : ef.clusterSize ≤ 33554432 := clusterSize_le ef.sb
  have positive := ef.clusterSize_pos
  have bound := Nat.mul_le_mul_left 0xffffffff small
  rw [FatVolume.largest] at fits
  have few := needed_le fits
  have size : (UInt64.ofNat ef.clusterSize).toNat = ef.clusterSize :=
    Nat.mod_eq_of_lt (by omega)
  have sum : (bytes + UInt64.ofNat ef.clusterSize).toNat = bytes.toNat + ef.clusterSize := by
    rw [UInt64.toNat_add, size, Nat.mod_eq_of_lt (by omega)]
  have one : (1 : UInt64).toNat = 1 := rfl
  have less : (bytes + UInt64.ofNat ef.clusterSize - 1).toNat =
      bytes.toNat + ef.clusterSize - 1 := by
    rw [UInt64.toNat_sub_of_le _ _ (by rw [UInt64.le_iff_toNat_le, sum, one]; omega), sum, one]
  have quotient : ((bytes + UInt64.ofNat ef.clusterSize - 1) /
      UInt64.ofNat ef.clusterSize).toNat = ef.needed bytes.toNat := by
    rw [UInt64.toNat_div, less, size, FatVolume.needed]
  have whole : bytes2clusters ef.sb.toExfatSuperBlock bytes =
      ((bytes + UInt64.ofNat ef.clusterSize - 1) / UInt64.ofNat ef.clusterSize).toUInt32 := rfl
  rw [whole, UInt64.toNat_toUInt32, quotient, Nat.mod_eq_of_lt (by omega)]

end Needed

/-- A file holds the clusters that its size needs, and its chain ends there. -/
structure Stores (ef : FatVolume) (disk : ef.Disk width) (node : FileNode)
    (clusters : List UInt32) : Prop where
  holds : Holds ef disk node.toExfatNode clusters
  sized : clusters.length = ef.needed node.size.toNat
  ended : Ended ef disk node.toExfatNode clusters

structure Contains (ef : FatVolume) (disk : ef.Disk width) (node : FileNode)
    (clusters : List UInt32) (bytes : List UInt8) : Prop where
  stores : Stores ef disk node clusters
  bytes : bytesAt (ef.byte disk.content clusters) 0 node.size.toNat = bytes

/-- One chain takes the place of another in the bitmap. -/
structure Replaces (ef : FatVolume) (disk after : ef.Disk width) (clusters chain : List UInt32) :
    Prop where
  owned : ∀ cluster ∈ chain, Owned disk clusters cluster
  used : ∀ cluster, ef.invalid cluster = false → (after.cmap.used cluster = true ↔
    cluster ∈ chain ∨ cluster ∉ clusters ∧ disk.cmap.used cluster = true)
  counted : exfatCountFreeClusters after.cmap.chunk + chain.length =
    exfatCountFreeClusters disk.cmap.chunk + clusters.length

section Chains

variable {clusters chain new : List UInt32} {node : FileNode}

theorem Stores.size_le (stores : Stores ef disk node clusters) :
    node.size.toNat ≤ clusters.length * ef.clusterSize := by
  rw [stores.sized]
  exact le_needed ef _

theorem Stores.spared {own : UInt32 → Prop} (stores : Stores ef disk node clusters)
    (spares : Spares ef own disk after) (apart : ∀ cluster ∈ clusters, ¬ own cluster) :
    Stores ef after node clusters where
  holds := stores.holds.spared spares apart
  sized := stores.sized
  ended := stores.ended.of_entry rfl fun cluster membership => spares.entry cluster
    (stores.holds.valid cluster membership) (apart cluster membership)

theorem Stores.size_le_largest (laid : ef.Laid) (stores : Stores ef disk node clusters) :
    node.size.toNat ≤ ef.largest := by
  have short := stores.holds.length_le
  have few := laid.few
  exact stores.size_le.trans (Nat.mul_le_mul_right _ (by omega))

theorem Replaces.refl {node : ExfatNode} (holds : Holds ef disk node clusters) :
    Replaces ef disk disk clusters clusters where
  owned _ membership := Or.inl membership
  used cluster _ := by
    constructor
    · intro inUse
      by_cases membership : cluster ∈ clusters
      · exact Or.inl membership
      · exact Or.inr ⟨membership, inUse⟩
    · rintro (membership | ⟨_, inUse⟩)
      · exact holds.used cluster membership
      · exact inUse
  counted := rfl

theorem Replaces.of_grows {node : ExfatNode} (holds : Holds ef disk node clusters)
    (grows : Grows ef disk after new) : Replaces ef disk after clusters (clusters ++ new) where
  owned cluster membership :=
    (List.mem_append.mp membership).imp_right (grows.fresh cluster)
  used cluster valid := by
    rw [grows.used cluster valid, List.mem_append]
    constructor
    · rintro (added | inUse)
      · exact Or.inl (Or.inr added)
      · by_cases membership : cluster ∈ clusters
        · exact Or.inl (Or.inl membership)
        · exact Or.inr ⟨membership, inUse⟩
    · rintro ((membership | added) | ⟨_, inUse⟩)
      · exact Or.inr (holds.used cluster membership)
      · exact Or.inl added
      · exact Or.inr inUse
  counted := by
    have counted := grows.counted
    rw [List.length_append]
    omega

theorem Replaces.of_frees {node : ExfatNode} {length : Nat} (holds : Holds ef disk node clusters)
    (frees : Frees ef disk after (clusters.drop length)) :
    Replaces ef disk after clusters (clusters.take length) where
  owned _ membership := Or.inl (List.mem_of_mem_take membership)
  used cluster valid := by
    have apart := List.disjoint_take_drop holds.nodup (Nat.le_refl length)
    have parts : cluster ∈ clusters ↔ cluster ∈ clusters.take length ∨
        cluster ∈ clusters.drop length := by
      rw [← List.mem_append, List.take_append_drop]
    rw [frees.used cluster valid]
    constructor
    · rintro ⟨kept, inUse⟩
      by_cases front : cluster ∈ clusters.take length
      · exact Or.inl front
      · exact Or.inr ⟨fun membership => (parts.mp membership).elim front kept, inUse⟩
    · rintro (front | ⟨outside, inUse⟩)
      · exact ⟨fun back => apart front back, holds.used cluster (List.mem_of_mem_take front)⟩
      · exact ⟨fun back => outside (parts.mpr (Or.inr back)), inUse⟩
  counted := by
    have counted := frees.counted
    rw [List.length_drop] at counted
    rw [List.length_take]
    omega

theorem Replaces.of_cmap (replaces : Replaces ef disk after clusters chain)
    (cmap : final.cmap = after.cmap) : Replaces ef disk final clusters chain where
  owned := replaces.owned
  used := by
    rw [cmap]
    exact replaces.used
  counted := by
    rw [cmap]
    exact replaces.counted

theorem Replaces.trans {last : List UInt32} (first : Replaces ef disk after clusters chain)
    (second : Replaces ef after final chain last)
    (valid : ∀ cluster ∈ last, ef.invalid cluster = false) :
    Replaces ef disk final clusters last where
  owned cluster membership := by
    rcases second.owned cluster membership with held | free
    · exact first.owned cluster held
    · by_contra foreign
      rw [Owned, not_or] at foreign
      have inUse := (first.used cluster (valid cluster membership)).mpr
        (Or.inr ⟨foreign.1, eq_true_of_ne_false foreign.2⟩)
      rw [free] at inUse
      cases inUse
  used cluster validToo := by
    rw [second.used cluster validToo, first.used cluster validToo]
    constructor
    · rintro (membership | ⟨outside, inside | ⟨foreign, inUse⟩⟩)
      · exact Or.inl membership
      · exact absurd inside outside
      · exact Or.inr ⟨foreign, inUse⟩
    · rintro (membership | ⟨foreign, inUse⟩)
      · exact Or.inl membership
      · refine Or.inr ⟨fun held => ?_, Or.inr ⟨foreign, inUse⟩⟩
        rcases first.owned cluster held with own | free
        · exact foreign own
        · rw [free] at inUse
          cases inUse
  counted := by
    have one := first.counted
    have two := second.counted
    omega

theorem byte_of_same {content : Nat → UInt8} {position : Nat}
    (same : chain[position / ef.clusterSize]? = clusters[position / ef.clusterSize]?) :
    ef.byte content chain position = ef.byte content clusters position := by
  rw [FatVolume.byte, FatVolume.byte, fileByte, fileByte, FatVolume.place, FatVolume.place,
    List.getD_eq_getElem?_getD, List.getD_eq_getElem?_getD, same]

end Chains

structure ResizeResult (ef : FatVolume) (io : Transfers) (disk after : ef.Disk width)
    (node resized : FileNode) (clusters : List UInt32) (c1 c2 : UInt32) (rc : Int) : Prop where
  info : SameInfo node resized
  touches : Touches ef (Owned disk clusters) disk after
  done : rc = 0 → ∃ chain, chain.length = c2.toNat ∧ Holds ef after resized.toExfatNode chain ∧
    Ended ef after resized.toExfatNode chain ∧ Replaces ef disk after clusters chain ∧
    ∀ index < min c1.toNat c2.toNat, chain[index]? = clusters[index]?
  settled : rc = 0 → c1.toNat ≤ c2.toNat → TakesBelow ef after resized.toExfatNode c2 →
    c1 = c2 ∧ TakesBelow ef disk node.toExfatNode c1
  outcome : rc = 0 ∨
    rc = -enospc ∧ exfatCountFreeClusters disk.cmap.chunk + clusters.length < c2.toNat ∧
      Holds ef after resized.toExfatNode clusters ∧
      Ended ef after resized.toExfatNode clusters ∧ Grows ef disk after [] ∨
    rc < 0 ∧ ¬ io.Reliable

section Resize

variable {clusters : List UInt32} {node : FileNode} {c1 c2 : UInt32}

theorem resizeFile_longer (io : Transfers) (laid : ef.Laid)
    (holds : Holds ef disk node.toExfatNode clusters)
    (ended : Ended ef disk node.toExfatNode clusters) (length : clusters.length = c1.toNat)
    (grow : c1.toNat < c2.toNat) (apart : ¬ TakesBelow ef disk node.toExfatNode c1) :
    ∃ rc after resized, growFile ef io disk node c1 (c2 - c1) = .ok (rc, after, resized) ∧
      ResizeResult ef io disk after node resized clusters c1 c2 rc := by
  have difference : (c2 - c1).toNat = c2.toNat - c1.toNat :=
    UInt32.toNat_sub_of_le _ _ (UInt32.le_iff_toNat_le.mpr (Nat.le_of_lt grow))
  have bound := c2.toNat_lt
  obtain ⟨rc, after, grown, done, result⟩ := growFile_eq io laid holds length
    (by omega : 0 < (c2 - c1).toNat) (by omega) apart
  refine ⟨rc, after, grown, done, result.info, result.touches, fun zero => ?_,
    fun zero _ below => absurd below.2.2 (result.settled zero below.1), ?_⟩
  · obtain ⟨new, amount, held, grows, endedToo⟩ := result.done zero
    refine ⟨clusters ++ new, ?_, held, endedToo, .of_grows holds grows, fun index below => ?_⟩
    · rw [List.length_append]
      omega
    · exact List.getElem?_append_left (by omega)
  · refine result.outcome.imp_right fun failed => failed.imp_left ?_
    rintro ⟨code, short, held, same, kept⟩
    exact ⟨code, by omega, held, kept ended, same⟩

theorem resizeFile_shorter (io : Transfers) (laid : ef.Laid)
    (holds : Holds ef disk node.toExfatNode clusters) (length : clusters.length = c1.toNat)
    (shrink : c2.toNat < c1.toNat) :
    ∃ rc after resized, shrinkFile ef io disk node c1 (c1 - c2) = .ok (rc, after, resized) ∧
      ResizeResult ef io disk after node resized clusters c1 c2 rc := by
  have difference : (c1 - c2).toNat = c1.toNat - c2.toNat :=
    UInt32.toNat_sub_of_le _ _ (UInt32.le_iff_toNat_le.mpr (Nat.le_of_lt shrink))
  have left : c1.toNat - (c1 - c2).toNat = c2.toNat := by omega
  obtain ⟨rc, after, shrunk, done, result⟩ := shrinkFile_eq io laid holds length
    (by omega : 0 < (c1 - c2).toNat) (by omega)
  rw [left] at result
  refine ⟨rc, after, shrunk, done, result.info,
    result.touches.mono fun _ membership => Or.inl membership, fun zero => ?_,
    fun _ ordered => by omega, result.outcome.imp_right fun failed => Or.inr ?_⟩
  · obtain ⟨held, frees, ended⟩ := result.done zero
    refine ⟨clusters.take c2.toNat, ?_, held, ended, .of_frees holds frees, fun index below => ?_⟩
    · rw [List.length_take]
      omega
    · rw [List.getElem?_take, if_pos (by omega)]
  · rw [failed.1]
    exact ⟨by decide, failed.2⟩

/-- The chain of a file after a change of its length. -/
theorem resizeFile_eq (io : Transfers) (c2 : UInt32) (laid : ef.Laid)
    (holds : Holds ef disk node.toExfatNode clusters)
    (ended : Ended ef disk node.toExfatNode clusters) (length : clusters.length = c1.toNat)
    (apart : c1.toNat < c2.toNat → ¬ TakesBelow ef disk node.toExfatNode c1) :
    ∃ rc after resized, resizeFile ef io disk node c1 c2 = .ok (rc, after, resized) ∧
      ResizeResult ef io disk after node resized clusters c1 c2 rc := by
  rw [resizeFile]
  split_ifs with grow shrink
  · rw [UInt32.lt_iff_toNat_lt] at grow
    exact resizeFile_longer io laid holds ended length grow (apart grow)
  · exact resizeFile_shorter io laid holds length (UInt32.lt_iff_toNat_lt.mp shrink)
  · rw [UInt32.lt_iff_toNat_lt] at grow shrink
    obtain rfl : c1 = c2 := UInt32.toNat_inj.mp (by omega)
    exact ⟨0, disk, node, rfl, .refl node, .refl _ _,
      fun _ => ⟨clusters, length, holds, ended, .refl holds, fun _ _ => rfl⟩,
      fun _ _ below => ⟨rfl, below⟩, Or.inl rfl⟩

end Resize

section EraseNew

variable {clusters : List UInt32} {node : FileNode} {size : UInt64}

/-- The bytes before the old size are kept; what is new is zero, if it is asked for. -/
theorem eraseNew_eq (io : Transfers) (laid : ef.Laid) (holds : Holds ef disk node.toExfatNode clusters)
    (inside : size.toNat ≤ clusters.length * ef.clusterSize) (erase : Bool) :
    (∃ rc after moved, eraseNew ef io disk node size erase = .ok (rc, after, moved) ∧
      SameInfo node moved ∧ Fills ef clusters disk after ∧
      (rc = 0 → Holds ef after moved.toExfatNode clusters ∧
        SameFile node.toExfatNode moved.toExfatNode ∧
        ∀ position < clusters.length * ef.clusterSize,
          (position < node.size.toNat →
            ef.byte after.content clusters position = ef.byte disk.content clusters position) ∧
          (erase = true → node.size.toNat ≤ position → position < size.toNat →
            ef.byte after.content clusters position = 0)) ∧
      (rc = 0 ∨ rc < 0 ∧ ¬ io.Reliable)) ∨
    eraseNew ef io disk node size erase = .error .abort ∧ ¬ io.Reliable := by
  cases erase with
  | false =>
      refine Or.inl ⟨0, disk, node, rfl, .refl node, .refl _ _, fun _ =>
        ⟨holds, .refl _, fun position _ => ⟨fun _ => rfl, fun erase => ?_⟩⟩, Or.inl rfl⟩
      exact absurd erase Bool.false_ne_true
  | true =>
      refine (eraseRange_eq io node.size.toNat laid holds inside).imp_left ?_
      rintro ⟨rc, after, moved, erased, info, fills, done, outcome⟩
      refine ⟨rc, after, moved, erased, info, fills, fun zero => ?_, outcome.imp_right ?_⟩
      · obtain ⟨held, same, bytes⟩ := done zero
        exact ⟨held, same, fun position below => ⟨(bytes position below).1,
          fun _ => (bytes position below).2⟩⟩
      · rintro ⟨code, unreliable⟩
        rw [code]
        exact ⟨by decide, unreliable⟩

end EraseNew

/-- What no change of a file changes in its node. -/
structure SameKind (node other : FileNode) : Prop where
  attrib : other.attrib = node.attrib
  references : other.references = node.references
  isRoot : other.isRoot = node.isRoot

theorem SameKind.trans {first second third : FileNode} (left : SameKind first second)
    (right : SameKind second third) : SameKind first third :=
  ⟨right.attrib.trans left.attrib, right.references.trans left.references,
    right.isRoot.trans left.isRoot⟩

theorem SameInfo.sameKind {node other : FileNode} (info : SameInfo node other) :
    SameKind node other := ⟨info.attrib, info.references, info.isRoot⟩

def Referenced (node : FileNode) : Prop := node.references = 0 → node.isRoot = true

theorem Referenced.of_sameKind {node other : FileNode} (referenced : Referenced node)
    (same : SameKind node other) : Referenced other := by
  intro none
  rw [same.references] at none
  rw [same.isRoot]
  exact referenced none

structure TruncateResult (ef : FatVolume) (io : Transfers) (disk after : ef.Disk width)
    (node resized : FileNode) (clusters : List UInt32) (bytes : List UInt8) (size : UInt64)
    (erase : Bool) (rc : Int) : Prop where
  kind : SameKind node resized
  spares : Spares ef (Owned disk clusters) disk after
  done : rc = 0 → ∃ chain fill, Contains ef after resized chain (bytes.take size.toNat ++ fill) ∧
    Replaces ef disk after clusters chain ∧ resized.size = size ∧
    (erase = true → fill = List.replicate (size.toNat - bytes.length) 0)
  settled : rc = 0 → node.size ≤ size →
    TakesBelow ef after resized.toExfatNode (bytes2clusters ef.sb.toExfatSuperBlock size) →
      ef.needed node.size.toNat = ef.needed size.toNat ∧
        TakesBelow ef disk node.toExfatNode (bytes2clusters ef.sb.toExfatSuperBlock node.size)
  outcome : rc = 0 ∨
    rc = -enospc ∧ exfatCountFreeClusters disk.cmap.chunk + clusters.length <
        ef.needed size.toNat ∧ Contains ef after resized clusters bytes ∧
      Replaces ef disk after clusters clusters ∨
    rc < 0 ∧ ¬ io.Reliable

section Truncate

variable {clusters chain : List UInt32} {node resized : FileNode} {bytes : List UInt8}
  {size : UInt64} {own : UInt32 → Prop}

theorem Contains.length (contains : Contains ef disk node clusters bytes) :
    bytes.length = node.size.toNat := by
  rw [← contains.bytes, length_bytesAt]

/-- A file whose chain got another length has the bytes that both chains hold. -/
theorem byte_resized {old new : Nat} (touches : Touches ef own disk after)
    (length : chain.length = ef.needed new)
    (same : ∀ index < min (ef.needed old) (ef.needed new), chain[index]? = clusters[index]?)
    {position : Nat} (inOld : position < old) (inNew : position < new) :
    ef.byte after.content chain position = ef.byte disk.content clusters position := by
  have positive := ef.clusterSize_pos
  have indexOld : position / ef.clusterSize < ef.needed old :=
    (Nat.div_lt_iff_lt_mul positive).mpr (Nat.lt_of_lt_of_le inOld (le_needed ef old))
  have indexNew : position / ef.clusterSize < ef.needed new :=
    (Nat.div_lt_iff_lt_mul positive).mpr (Nat.lt_of_lt_of_le inNew (le_needed ef new))
  have inside : position < chain.length * ef.clusterSize := by
    rw [length]
    exact Nat.lt_of_lt_of_le inNew (le_needed ef new)
  exact (byte_congr (fun cluster _ inner _ => touches.bytes cluster inner) inside).trans
    (byte_of_same (same _ (by omega)))

theorem Contains.of_stores (contains : Contains ef disk node clusters bytes)
    (stores : Stores ef after resized clusters) (size : resized.size = node.size)
    (same : ∀ cluster ∈ clusters, ∀ inner < ef.clusterSize,
      after.content (ef.offset cluster + inner) = disk.content (ef.offset cluster + inner)) :
    Contains ef after resized clusters bytes where
  stores := stores
  bytes := by
    rw [size, ← contains.bytes]
    apply bytesAt_congr
    intro position inside
    rw [Nat.zero_add]
    exact byte_congr same (Nat.lt_of_lt_of_le inside contains.stores.size_le)

theorem Contains.of_touches (contains : Contains ef disk node clusters bytes)
    (touches : Touches ef own disk after) (holds : Holds ef after resized.toExfatNode clusters)
    (ended : Ended ef after resized.toExfatNode clusters) (size : resized.size = node.size) :
    Contains ef after resized clusters bytes :=
  contains.of_stores ⟨holds, by rw [size]; exact contains.stores.sized, ended⟩ size
    fun cluster _ inner _ => touches.bytes cluster inner

theorem Contains.spared (contains : Contains ef disk node clusters bytes)
    (spares : Spares ef own disk after) (apart : ∀ cluster ∈ clusters, ¬ own cluster) :
    Contains ef after node clusters bytes :=
  contains.of_stores (contains.stores.spared spares apart) rfl fun cluster membership =>
    spares.bytes cluster (contains.stores.holds.valid cluster membership)
      (apart cluster membership)

theorem TakesBelow.of_same {node other : ExfatNode} {current : UInt32}
    (below : TakesBelow ef after other current) (start : other.startCluster = node.startCluster)
    (contiguous : other.isContiguous = node.isContiguous) (cmap : after.cmap = disk.cmap) :
    TakesBelow ef disk node current := by
  obtain ⟨inPlace, one, only⟩ := below
  rw [start, OnlyFree, cmap] at only
  exact ⟨contiguous.symm.trans inPlace, one, only⟩

theorem TruncateResult.same (contains : Contains ef disk node clusters bytes)
    (same : node.size = size) {erase : Bool} :
    TruncateResult ef io disk disk node node clusters bytes size erase 0 where
  kind := ⟨rfl, rfl, rfl⟩
  spares := .refl _ _
  done := by
    have length := contains.length
    refine fun _ => ⟨clusters, [], ?_, .refl contains.stores.holds, same, fun _ => ?_⟩
    · rw [List.append_nil, List.take_of_length_le (by rw [length, same])]
      exact contains
    · rw [length, same, Nat.sub_self, List.replicate_zero]
  settled := fun _ _ below => by
    rw [← same] at below ⊢
    exact ⟨rfl, below⟩
  outcome := Or.inl rfl

/-- The bytes inside both sizes are in a file whose chain was resized, and then written to
behind its old end only. -/
theorem Contains.truncated (contains : Contains ef disk node clusters bytes)
    {final : ef.Disk width} {moved : FileNode} (now : Int)
    (touches : Touches ef own disk after)
    (length : chain.length = ef.needed size.toNat)
    (shared : ∀ index < min (ef.needed node.size.toNat) (ef.needed size.toNat),
      chain[index]? = clusters[index]?)
    (holds : Holds ef final moved.toExfatNode chain)
    (ended : Ended ef final moved.toExfatNode chain)
    (kept : ∀ position < chain.length * ef.clusterSize, position < node.size.toNat →
      ef.byte final.content chain position = ef.byte after.content chain position) :
    Contains ef final (moved.resize size now) chain (bytes.take size.toNat ++
      bytesAt (ef.byte final.content chain) node.size.toNat (size.toNat - node.size.toNat)) := by
  refine ⟨⟨⟨holds.valid, holds.used, holds.nodup, holds.start, holds.linked, holds.pointer⟩,
    length, ended⟩, ?_⟩
  have inside : size.toNat ≤ chain.length * ef.clusterSize := by
    rw [length]
    exact le_needed ef size.toNat
  rw [← contains.bytes]
  apply bytesAt_resized
  intro position inOld inNew
  exact (kept position (Nat.lt_of_lt_of_le inNew inside) inOld).trans
    (byte_resized touches length shared inOld inNew)

theorem truncate_resized (io : Transfers) (size : UInt64) (now : Int) (erase : Bool)
    (laid : ef.Laid) (contains : Contains ef disk node clusters bytes)
    (fits : size.toNat ≤ ef.largest) {rc : Int}
    (result : ResizeResult ef io disk after node resized clusters
      (bytes2clusters ef.sb.toExfatSuperBlock node.size)
      (bytes2clusters ef.sb.toExfatSuperBlock size) rc) (done : rc = 0) :
    (∃ code final moved, eraseNew ef io after resized size erase = .ok (code, final, moved) ∧
      (code = 0 → TruncateResult ef io disk final node (moved.resize size now) clusters bytes
        size erase 0) ∧
      (code ≠ 0 → TruncateResult ef io disk final node moved clusters bytes size erase code)) ∨
    eraseNew ef io after resized size erase = .error .abort ∧ ¬ io.Reliable := by
  have length := contains.length
  have c1 := bytes2clusters_eq (contains.stores.size_le_largest laid)
  have c2 := bytes2clusters_eq fits
  obtain ⟨chain, chainLength, held, ended, replaces, shared⟩ := result.done done
  rw [c1, c2] at shared
  rw [c2] at chainLength
  have inside : size.toNat ≤ chain.length * ef.clusterSize := by
    rw [chainLength]
    exact le_needed ef size.toNat
  refine (eraseNew_eq io laid held inside erase).imp_left ?_
  rintro ⟨code, final, moved, erased, info, fills, complete, outcome⟩
  have spares : Spares ef (Owned disk clusters) disk final :=
    result.touches.spares.trans ((fills.spares laid held.valid).mono fun cluster _ =>
      replaces.owned cluster)
  have kind := result.info.sameKind.trans info.sameKind
  refine ⟨code, final, moved, erased, fun zero => ?_, fun failed => ?_⟩
  · obtain ⟨movedHolds, sameFile, bytesKept⟩ := complete zero
    have stillEnded : Ended ef final moved.toExfatNode chain := ended.of_entry
      sameFile.isContiguous fun cluster membership => fills.entry laid (held.valid cluster membership)
    refine ⟨⟨kind.attrib, kind.references, kind.isRoot⟩, spares, fun _ => ⟨chain, _,
      contains.truncated now result.touches chainLength shared movedHolds stillEnded
        fun position below inOld => (bytesKept position below).1 ?_,
      replaces.of_cmap fills.cmap, rfl, fun erase => ?_⟩, fun _ ordered below => ?_, Or.inl rfl⟩
    · rw [result.info.size]
      exact inOld
    · rw [length]
      apply bytesAt_zeros
      intro index below
      refine (bytesKept _ (by omega)).2 erase ?_ (by omega)
      rw [result.info.size]
      exact Nat.le_add_right _ _
    · obtain ⟨same, before⟩ := result.settled done (by
          rw [c1, c2]
          exact needed_mono ef (UInt64.le_iff_toNat_le.mp ordered))
        (below.of_same sameFile.startCluster sameFile.isContiguous fills.cmap)
      exact ⟨by rw [← c1, ← c2, same], before⟩
  · exact ⟨kind, spares, fun zero => absurd zero failed, fun zero => absurd zero failed,
      Or.inr (Or.inr (outcome.resolve_left failed))⟩

/-- `exfat_truncate` gives a file its new size and keeps the bytes inside both sizes, or
leaves the file as it is when the volume is full; no other file is changed, whichever
transfers fail. -/
theorem exfatTruncate_eq (io : Transfers) (size : UInt64) (now : Int) (erase : Bool)
    (laid : ef.Laid) (contains : Contains ef disk node clusters bytes)
    (referenced : Referenced node) (fits : size.toNat ≤ ef.largest)
    (apart : ef.needed node.size.toNat < ef.needed size.toNat →
      ¬ TakesBelow ef disk node.toExfatNode
        (bytes2clusters ef.sb.toExfatSuperBlock node.size)) :
    (∃ rc after resized, exfatTruncate ef io now disk node size erase =
        .ok (rc, after, resized) ∧
      TruncateResult ef io disk after node resized clusters bytes size erase rc) ∨
    exfatTruncate ef io now disk node size erase = .error .abort ∧ ¬ io.Reliable := by
  have stores := contains.stores
  have c1 := bytes2clusters_eq (stores.size_le_largest laid)
  have c2 := bytes2clusters_eq fits
  rw [exfatTruncate, if_neg (by rintro ⟨none, notRoot⟩; simp [referenced none] at notRoot)]
  by_cases same : node.size = size
  · rw [if_pos same]
    exact Or.inl ⟨0, disk, node, rfl, .same contains same⟩
  · obtain ⟨rc, after, resized, changed, result⟩ :=
      resizeFile_eq io (bytes2clusters ef.sb.toExfatSuperBlock size) laid stores.holds stores.ended
        (stores.sized.trans c1.symm) (by rw [c1, c2]; exact apart)
    rw [if_neg same, changed, ok_bind]
    dsimp only
    by_cases failed : rc = 0
    · rw [if_neg (not_not.mpr failed)]
      rcases truncate_resized io size now erase laid contains fits result failed with
        ⟨code, final, moved, erased, done, stopped⟩ | ⟨aborted, unreliable⟩
      · rw [erased, ok_bind]
        dsimp only
        by_cases failedToo : code = 0
        · rw [if_neg (not_not.mpr failedToo)]
          exact Or.inl ⟨0, final, _, rfl, done failedToo⟩
        · rw [if_pos failedToo]
          exact Or.inl ⟨code, final, moved, rfl, stopped failedToo⟩
      · rw [aborted]
        exact Or.inr ⟨rfl, unreliable⟩
    · rw [if_pos failed]
      refine Or.inl ⟨rc, after, resized, rfl, result.info.sameKind, result.touches.spares,
        fun zero => absurd zero failed, fun zero => absurd zero failed, ?_⟩
      refine Or.inr ((result.outcome.resolve_left failed).imp_left ?_)
      rintro ⟨code, short, held, ended, grows⟩
      refine ⟨code, ?_, contains.of_touches result.touches held ended result.info.size, ?_⟩
      · rw [← c2]
        exact short
      · have replaces := Replaces.of_grows stores.holds grows
        rw [List.append_nil] at replaces
        exact replaces

end Truncate

end Vtoydump.Exfat
