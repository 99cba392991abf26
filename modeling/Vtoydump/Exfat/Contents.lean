import Vtoydump.Basis.Packing
import Vtoydump.Exfat.Pread
import Vtoydump.Exfat.Truncate

/-!
# The bytes of a file in its clusters

Clusters do not overlap, and the table lies before them: a write into a cluster of one
file changes the bytes of that file alone, and no chain.
-/

namespace Vtoydump.Exfat

open CRun Blocks Chain

variable {width : Nat} {ef : FatVolume} {io : Transfers} {disk after final : ef.Disk width}

namespace FatVolume

def place (ef : FatVolume) (clusters : List UInt32) (index : Nat) : Nat :=
  ef.offset (clusters.getD index 0)

def byte (ef : FatVolume) (content : Nat → UInt8) (clusters : List UInt32) : Nat → UInt8 :=
  fileByte content (ef.place clusters) ef.clusterSize

end FatVolume

section Places

variable {cluster other : UInt32} {clusters : List UInt32}

theorem offset_of_valid (valid : ef.invalid cluster = false) :
    ef.offset cluster = ef.heapStart + (cluster.toNat - 2) * ef.clusterSize := by
  have data := (valid_iff.mp valid).1
  rw [FatVolume.offset, clusterOffset, toNat_sub_first data, FatVolume.heapStart,
    FatVolume.clusterSize, clusterSize_eq, s2o, s2o, Nat.shiftLeft_eq, Nat.shiftLeft_eq,
    Nat.shiftLeft_eq, Nat.add_mul, Nat.pow_add, Nat.mul_assoc,
    Nat.mul_comm (2 ^ ef.sb.spcBits.toNat)]

theorem offset_apart (valid : ef.invalid cluster = false) (validToo : ef.invalid other = false)
    (different : cluster ≠ other) :
    ef.offset cluster + ef.clusterSize ≤ ef.offset other ∨
      ef.offset other + ef.clusterSize ≤ ef.offset cluster := by
  have data := (valid_iff.mp valid).1
  have dataToo := (valid_iff.mp validToo).1
  rw [offset_of_valid valid, offset_of_valid validToo]
  have numbers : cluster.toNat ≠ other.toNat := fun same => different (UInt32.toNat_inj.mp same)
  rcases Nat.lt_or_gt_of_ne numbers with less | more
  · left
    have step := Nat.mul_le_mul_right ef.clusterSize
      (by omega : cluster.toNat - 2 + 1 ≤ other.toNat - 2)
    rw [Nat.succ_mul] at step
    omega
  · right
    have step := Nat.mul_le_mul_right ef.clusterSize
      (by omega : other.toNat - 2 + 1 ≤ cluster.toNat - 2)
    rw [Nat.succ_mul] at step
    omega

theorem place_of_getElem? {index : Nat} (here : clusters[index]? = some cluster) :
    ef.place clusters index = ef.offset cluster := by
  rw [FatVolume.place, List.getD_eq_getElem?_getD, here, Option.getD_some]

theorem place_apart (valid : ∀ cluster ∈ clusters, ef.invalid cluster = false)
    (nodup : clusters.Nodup) : Apart (ef.place clusters) ef.clusterSize clusters.length := by
  intro first inFirst second inSecond different
  have here := List.getElem?_eq_getElem inFirst
  have there := List.getElem?_eq_getElem inSecond
  rw [place_of_getElem? here, place_of_getElem? there]
  refine offset_apart (valid _ (List.getElem_mem _)) (valid _ (List.getElem_mem _)) ?_
  exact fun same => different ((List.Nodup.getElem_inj_iff nodup).mp same)

end Places

structure Fills (ef : FatVolume) (clusters : List UInt32) (disk after : ef.Disk width) :
    Prop where
  cmap : after.cmap = disk.cmap
  content : ∀ position, (∀ cluster ∈ clusters, position < ef.offset cluster ∨
    ef.offset cluster + ef.clusterSize ≤ position) →
      after.content position = disk.content position

section Sparing

variable {own more : UInt32 → Prop} {clusters : List UInt32} {node : ExfatNode}

theorem Fills.refl (clusters : List UInt32) (disk : ef.Disk width) :
    Fills ef clusters disk disk := ⟨rfl, fun _ _ => rfl⟩

theorem Fills.trans (first : Fills ef clusters disk after)
    (second : Fills ef clusters after final) : Fills ef clusters disk final where
  cmap := second.cmap.trans first.cmap
  content position outside := (second.content position outside).trans
    (first.content position outside)

theorem Fills.entry (laid : ef.Laid) (fills : Fills ef clusters disk after) {cluster : UInt32}
    (validToo : ef.invalid cluster = false) :
    ef.entry after.content cluster = ef.entry disk.content cluster := by
  apply entry_of_heap laid validToo
  intro position before
  apply fills.content
  intro own membership
  exact Or.inl (Nat.lt_of_lt_of_le before (heapStart_le_offset own))

theorem Fills.spares (laid : ef.Laid) (valid : ∀ cluster ∈ clusters, ef.invalid cluster = false)
    (fills : Fills ef clusters disk after) : Spares ef (· ∈ clusters) disk after where
  entry _ validToo _ := fills.entry laid validToo
  used _ _ _ := by rw [fills.cmap]
  bytes cluster validToo apart inner below := by
    apply fills.content
    intro own membership
    have away := offset_apart validToo (valid own membership) fun same =>
      apart (same ▸ membership)
    omega

theorem Holds.filled (laid : ef.Laid) {filled : List UInt32} (holds : Holds ef disk node clusters)
    (fills : Fills ef filled disk after) :
    Holds ef after node clusters where
  valid := holds.valid
  used cluster membership := by
    rw [fills.cmap]
    exact holds.used cluster membership
  nodup := holds.nodup
  start := holds.start
  linked := holds.linked.congr_all fun cluster membership => next_congr
    (fills.entry laid (holds.valid cluster membership))
  pointer := holds.pointer

theorem getElem?_div {position : Nat} (inside : position < clusters.length * ef.clusterSize) :
    ∃ cluster, clusters[position / ef.clusterSize]? = some cluster := by
  have below := (Nat.div_lt_iff_lt_mul ef.clusterSize_pos).mpr inside
  exact ⟨_, List.getElem?_eq_getElem below⟩

theorem byte_congr {content other : Nat → UInt8}
    (same : ∀ cluster ∈ clusters, ∀ inner < ef.clusterSize,
      other (ef.offset cluster + inner) = content (ef.offset cluster + inner))
    {position : Nat} (inside : position < clusters.length * ef.clusterSize) :
    ef.byte other clusters position = ef.byte content clusters position := by
  obtain ⟨cluster, here⟩ := getElem?_div inside
  rw [FatVolume.byte, FatVolume.byte, fileByte, fileByte, place_of_getElem? here]
  exact same cluster (List.mem_of_getElem? here) _ (Nat.mod_lt _ ef.clusterSize_pos)

end Sparing

section Write

variable {clusters : List UInt32} {node : FileNode} {cluster : UInt32} {bytes : List UInt8}
  {position : Nat}

theorem exfatPwrite_piece (io : Transfers) (disk : ef.Disk width) (bytes : List UInt8)
    (valid : ∀ cluster ∈ clusters, ef.invalid cluster = false)
    (nodup : clusters.Nodup) (here : clusters[position / ef.clusterSize]? = some cluster)
    (within : position % ef.clusterSize + bytes.length ≤ ef.clusterSize) :
    ∃ written after, exfatPwrite io disk bytes (ef.offset cluster + position % ef.clusterSize) =
        (written, after) ∧ Fills ef clusters disk after ∧
      (written = true → ∀ other < clusters.length * ef.clusterSize,
        ef.byte after.content clusters other =
          put (ef.byte disk.content clusters) position bytes other) ∧
      (written = true ∨ ¬ io.Reliable) := by
  unfold exfatPwrite
  split_ifs with allowed
  · refine ⟨true, _, rfl, ⟨rfl, fun outside away => ?_⟩, fun _ other inside => ?_, Or.inl rfl⟩
    · have apart := away cluster (List.mem_of_getElem? here)
      exact put_apart (by omega)
    · have start := (List.getElem?_eq_some_iff.mp here).1
      have below := (Nat.div_lt_iff_lt_mul ef.clusterSize_pos).mpr inside
      have written : fileByte (put disk.content (ef.place clusters (position / ef.clusterSize) +
          position % ef.clusterSize) bytes) (ef.place clusters) ef.clusterSize other =
          put (fileByte disk.content (ef.place clusters) ef.clusterSize) position bytes other :=
        fileByte_put (place_apart valid nodup) within start below ef.clusterSize_pos
      rw [place_of_getElem? here] at written
      exact written
  · exact ⟨false, disk, rfl, .refl _ _, fun written => absurd written Bool.false_ne_true,
      Or.inr fun reliable => allowed (reliable.writes _ _)⟩

/-- The next cluster of a file, or an invalid number for a read that fails. -/
theorem Holds.next {node : ExfatNode} (io : Transfers) (laid : ef.Laid)
    (holds : Holds ef disk node clusters) {index : Nat} (here : clusters[index]? = some cluster) :
    ∃ next, exfatNextCluster (ef.volume io disk.content) node cluster = .ok next ∧
      (index + 1 < clusters.length →
        clusters[index + 1]? = some next ∨ ef.invalid next = true ∧ ¬ io.Reliable) :=
  ⟨_, exfatNextCluster_of_valid node (holds.valid cluster (List.mem_of_getElem? here)),
    holds.chained.nextCluster io laid here⟩

/-- Behind a piece that is not the last one, the file goes on in its next cluster. -/
theorem next_piece {next : UInt32} {left : Nat}
    (rest : 0 < left - piece ef.clusterSize position left)
    (inside : position + left ≤ clusters.length * ef.clusterSize)
    (answer : position / ef.clusterSize + 1 < clusters.length →
      clusters[position / ef.clusterSize + 1]? = some next ∨
        ef.invalid next = true ∧ ¬ io.Reliable) :
    clusters[(position + piece ef.clusterSize position left) / ef.clusterSize]? = some next ∨
      ef.invalid next = true ∧ ¬ io.Reliable := by
  have taken := piece_le ef.clusterSize position left
  have ends : (position + piece ef.clusterSize position left) / ef.clusterSize <
      clusters.length := by
    rw [Nat.div_lt_iff_lt_mul ef.clusterSize_pos]
    omega
  rw [(next_block ef.clusterSize_pos rest).1] at ends ⊢
  exact answer ends

theorem genericPwriteLoop_done (fuel loffset : Nat) (disk : ef.Disk width) :
    genericPwriteLoop ef io node fuel cluster loffset [] disk = .ok (0, disk) := by
  cases fuel <;> rfl

theorem genericPwriteLoop_eq (io : Transfers) (node : FileNode) (laid : ef.Laid) {fuel : Nat}
    (holds : Holds ef disk node.toExfatNode clusters) (enough : bytes.length ≤ fuel)
    (inside : position + bytes.length ≤ clusters.length * ef.clusterSize)
    (here : bytes ≠ [] → clusters[position / ef.clusterSize]? = some cluster ∨
      ef.invalid cluster = true ∧ ¬ io.Reliable) :
    ∃ rc after, genericPwriteLoop ef io node fuel cluster (position % ef.clusterSize) bytes disk =
        .ok (rc, after) ∧ Fills ef clusters disk after ∧
      (rc = 0 → ∀ other < clusters.length * ef.clusterSize,
        ef.byte after.content clusters other =
          put (ef.byte disk.content clusters) position bytes other) ∧
      (rc = 0 ∨ rc = -eio ∧ ¬ io.Reliable) := by
  induction fuel generalizing position bytes disk cluster with
  | zero =>
      obtain rfl := List.eq_nil_of_length_eq_zero (Nat.le_zero.mp enough)
      exact ⟨0, disk, rfl, .refl _ _, fun _ other _ => by rw [put_nil], Or.inl rfl⟩
  | succ fuel inductionHypothesis =>
      by_cases none : bytes = []
      · subst none
        exact ⟨0, disk, rfl, .refl _ _, fun _ other _ => by rw [put_nil], Or.inl rfl⟩
      have more := List.length_pos_of_ne_nil none
      rw [genericPwriteLoop, if_neg none]
      rcases here none with found | ⟨broken, unreliable⟩
      · have valid := holds.valid cluster (List.mem_of_getElem? found)
        have taken := piece_le ef.clusterSize position bytes.length
        have moved := piece_pos ef.clusterSize_pos position more
        have within := piece_within ef.clusterSize_pos position bytes.length
        have size : min (ef.clusterSize - position % ef.clusterSize) bytes.length =
            piece ef.clusterSize position bytes.length := rfl
        have length : (bytes.take (piece ef.clusterSize position bytes.length)).length =
            piece ef.clusterSize position bytes.length := by
          rw [List.length_take, Nat.min_eq_left taken]
        have target : exfatC2o ef.sb.toExfatSuperBlock cluster = .ok (ef.offset cluster) :=
          exfatC2o_of_valid valid
        obtain ⟨written, marked, wrote, fills, placed, done⟩ := exfatPwrite_piece io disk
          (bytes.take (piece ef.clusterSize position bytes.length)) holds.valid holds.nodup found
          (by rw [length]; exact within)
        rw [if_neg (by rw [valid]; exact Bool.false_ne_true), size, target, ok_bind, wrote]
        cases written with
        | false =>
            exact ⟨-eio, marked, rfl, fills, fun zero => absurd zero (by decide),
              Or.inr ⟨rfl, done.resolve_left Bool.false_ne_true⟩⟩
        | true =>
            have kept := holds.filled laid fills
            obtain ⟨next, follows, answer⟩ := kept.next io laid found
            dsimp only
            rw [follows, ok_bind]
            by_cases last : bytes.drop (piece ef.clusterSize position bytes.length) = []
            · have whole := List.take_append_drop (piece ef.clusterSize position bytes.length) bytes
              rw [last, List.append_nil] at whole
              rw [last, genericPwriteLoop_done]
              rw [whole] at placed
              exact ⟨0, marked, rfl, fills, fun _ => placed rfl, Or.inl rfl⟩
            · have rest : 0 < bytes.length - piece ef.clusterSize position bytes.length := by
                rw [← List.length_drop]
                exact List.length_pos_of_ne_nil last
              obtain ⟨rc, after, looped, further, complete, outcome⟩ := inductionHypothesis kept
                (by rw [List.length_drop]; omega :
                  (bytes.drop (piece ef.clusterSize position bytes.length)).length ≤ fuel)
                (by rw [List.length_drop]; omega) fun _ => next_piece rest inside answer
              rw [(next_block ef.clusterSize_pos rest).2] at looped
              refine ⟨rc, after, looped, fills.trans further, fun zero other below => ?_, outcome⟩
              rw [complete zero other below, put_congr (placed rfl other below)]
              have append := put_append (ef.byte disk.content clusters) position
                (bytes.take (piece ef.clusterSize position bytes.length))
                (bytes.drop (piece ef.clusterSize position bytes.length))
              rw [length, List.take_append_drop] at append
              rw [append]
      · rw [if_pos broken]
        exact ⟨-eio, disk, rfl, .refl _ _, fun zero => absurd zero (by decide),
          Or.inr ⟨rfl, unreliable⟩⟩

end Write

/-- The bytes of a file from one position to another are zero, those before it are the same. -/
def Erased (ef : FatVolume) (clusters : List UInt32) (first stop : Nat)
    (disk after : ef.Disk width) : Prop :=
  ∀ position < clusters.length * ef.clusterSize,
    (position < first →
      ef.byte after.content clusters position = ef.byte disk.content clusters position) ∧
    (first ≤ position → position < stop → ef.byte after.content clusters position = 0)

section Erase

variable {clusters : List UInt32} {node : FileNode} {cluster : UInt32} {first middle stop : Nat}

theorem Erased.refl (clusters : List UInt32) (disk : ef.Disk width) (empty : stop ≤ first) :
    Erased ef clusters first stop disk disk :=
  fun _ _ => ⟨fun _ => rfl, fun lower upper => by omega⟩

theorem Erased.trans (front : Erased ef clusters first middle disk after)
    (back : Erased ef clusters middle stop after final) (ordered : first ≤ middle) :
    Erased ef clusters first stop disk final := by
  intro position inside
  obtain ⟨same, zero⟩ := front position inside
  obtain ⟨sameToo, zeroToo⟩ := back position inside
  refine ⟨fun before => (sameToo (by omega)).trans (same before), fun lower upper => ?_⟩
  rcases Nat.lt_or_ge position middle with early | late
  · exact (sameToo early).trans (zero lower early)
  · exact zeroToo late upper

theorem eraseRaw_piece (io : Transfers) (disk : ef.Disk width)
    (valid : ∀ cluster ∈ clusters, ef.invalid cluster = false)
    (nodup : clusters.Nodup) {position size : Nat}
    (here : clusters[position / ef.clusterSize]? = some cluster)
    (within : position % ef.clusterSize + size ≤ ef.clusterSize) :
    ∃ written after, eraseRaw io disk size (ef.offset cluster + position % ef.clusterSize) =
        (written, after) ∧ Fills ef clusters disk after ∧
      (written = true → Erased ef clusters position (position + size) disk after) ∧
      (written = true ∨ ¬ io.Reliable) := by
  obtain ⟨written, after, wrote, fills, placed, done⟩ := exfatPwrite_piece io disk
    (List.replicate size 0) valid nodup here (by rw [List.length_replicate]; exact within)
  refine ⟨written, after, wrote, fills, fun all other inside => ⟨fun before => ?_, ?_⟩, done⟩
  · rw [placed all other inside, put_apart (Or.inl before)]
  · intro lower upper
    obtain ⟨index, rfl⟩ := Nat.exists_eq_add_of_le lower
    have below : index < size := by omega
    rw [placed all _ inside, put_inside (by rw [List.length_replicate]; exact below),
      List.getD_eq_getElem?_getD, List.getElem?_replicate, if_pos below, Option.getD_some]

/-- The loop erases whole clusters, up to the one that the last byte lies in. -/
theorem eraseLoop_eq (io : Transfers) (node : FileNode) (laid : ef.Laid) {fuel index : Nat}
    (holds : Holds ef disk node.toExfatNode clusters)
    (here : clusters[index]? = some cluster)
    (enough : stop ≤ (index + 1) * ef.clusterSize + fuel)
    (inside : stop ≤ clusters.length * ef.clusterSize) :
    (∃ rc after, eraseLoop ef io node stop fuel ((index + 1) * ef.clusterSize) cluster disk =
        .ok (rc, after) ∧ Fills ef clusters disk after ∧
      (rc = 0 → Erased ef clusters ((index + 1) * ef.clusterSize) stop disk after) ∧
      (rc = 0 ∨ rc = -eio ∧ ¬ io.Reliable)) ∨
    eraseLoop ef io node stop fuel ((index + 1) * ef.clusterSize) cluster disk =
      .error .abort ∧ ¬ io.Reliable := by
  induction fuel generalizing index disk cluster with
  | zero =>
      have ends : ¬ (index + 1) * ef.clusterSize < stop := by omega
      rw [eraseLoop, if_neg ends]
      exact Or.inl ⟨0, disk, rfl, .refl _ _, fun _ => .refl _ _ (by omega), Or.inl rfl⟩
  | succ fuel inductionHypothesis =>
      rw [eraseLoop]
      split_ifs with more
      · have block : index + 1 < clusters.length :=
          Nat.lt_of_mul_lt_mul_right (Nat.lt_of_lt_of_le more inside)
        obtain ⟨next, follows, answer⟩ := holds.next io laid here
        rw [follows, ok_bind]
        rcases answer block with found | ⟨broken, unreliable⟩
        · have valid := holds.valid next (List.mem_of_getElem? found)
          have target : exfatC2o ef.sb.toExfatSuperBlock next = .ok (ef.offset next) :=
            exfatC2o_of_valid valid
          have whole : (index + 1) * ef.clusterSize / ef.clusterSize = index + 1 :=
            Nat.mul_div_cancel _ ef.clusterSize_pos
          have inner : (index + 1) * ef.clusterSize % ef.clusterSize = 0 := Nat.mul_mod_left _ _
          obtain ⟨written, marked, wrote, fills, erased, done⟩ := eraseRaw_piece io disk
            holds.valid holds.nodup (by rw [whole]; exact found :
              clusters[(index + 1) * ef.clusterSize / ef.clusterSize]? = some next)
            (by rw [inner, Nat.zero_add])
          rw [inner, Nat.add_zero] at wrote
          rw [if_neg (by rw [valid]; exact Bool.false_ne_true), target, ok_bind, wrote]
          have grown : (index + 1) * ef.clusterSize + ef.clusterSize =
              (index + 1 + 1) * ef.clusterSize := (Nat.succ_mul _ _).symm
          have positive := ef.clusterSize_pos
          cases written with
          | false =>
              exact Or.inl ⟨-eio, marked, rfl, fills, fun zero => absurd zero (by decide),
                Or.inr ⟨rfl, done.resolve_left Bool.false_ne_true⟩⟩
          | true =>
              dsimp only
              rw [grown]
              rcases inductionHypothesis (holds.filled laid fills) found
                (by omega) with
                ⟨rc, after, looped, further, rest, outcome⟩ | failed
              · refine Or.inl ⟨rc, after, looped, fills.trans further, fun zero => ?_, outcome⟩
                have front := erased rfl
                rw [grown] at front
                exact front.trans (rest zero) (by omega)
              · exact Or.inr failed
        · rw [if_pos broken]
          exact Or.inr ⟨rfl, unreliable⟩
      · exact Or.inl ⟨0, disk, rfl, .refl _ _, fun _ => .refl _ _ (by omega), Or.inl rfl⟩

/-- The end of the cluster that a position lies in. -/
theorem cluster_boundary (ef : FatVolume) (first : Nat) :
    (first ||| (ef.clusterSize - 1)) + 1 = (first / ef.clusterSize + 1) * ef.clusterSize := by
  have power : ef.clusterSize = 2 ^ (ef.sb.sectorBits.toNat + ef.sb.spcBits.toNat) :=
    clusterSize_eq _
  have positive := ef.clusterSize_pos
  rw [power, or_mask, ← power, Nat.succ_mul]
  omega

theorem Holds.length_le {node : ExfatNode} (holds : Holds ef disk node clusters) :
    clusters.length ≤ ef.sb.clusterCount.toNat := by
  have nodup : (clusters.map fun cluster => (cluster - exfatFirstDataCluster).toNat).Nodup := by
    refine List.Nodup.map_on ?_ holds.nodup
    intro cluster membership other membershipToo same
    exact eq_of_sub_first (holds.valid cluster membership) (holds.valid other membershipToo) same
  have within : (clusters.map fun cluster => (cluster - exfatFirstDataCluster).toNat) ⊆
      List.range ef.sb.clusterCount.toNat := by
    intro index membership
    obtain ⟨cluster, held, rfl⟩ := List.mem_map.mp membership
    exact List.mem_range.mpr (sub_first_lt (holds.valid cluster held))
  have short := (nodup.subperm within).length_le
  rw [List.length_map, List.length_range] at short
  exact short

theorem Holds.toNat_index {node : ExfatNode} (holds : Holds ef disk node clusters)
    (inside : first < clusters.length * ef.clusterSize) :
    (UInt32.ofNat (first / ef.clusterSize)).toNat = first / ef.clusterSize ∧
      first / ef.clusterSize < clusters.length := by
  have below := (Nat.div_lt_iff_lt_mul ef.clusterSize_pos).mpr inside
  have short := holds.length_le
  have count := ef.sb.clusterCount.toNat_lt
  exact ⟨Nat.mod_eq_of_lt (by omega), below⟩

theorem eraseRange_eq (io : Transfers) (first : Nat) (laid : ef.Laid)
    (holds : Holds ef disk node.toExfatNode clusters)
    (inside : stop ≤ clusters.length * ef.clusterSize) :
    (∃ rc after moved, eraseRange ef io disk node first stop = .ok (rc, after, moved) ∧
      SameInfo node moved ∧ Fills ef clusters disk after ∧
      (rc = 0 → Holds ef after moved.toExfatNode clusters ∧
        SameFile node.toExfatNode moved.toExfatNode ∧ Erased ef clusters first stop disk after) ∧
      (rc = 0 ∨ rc = -eio ∧ ¬ io.Reliable)) ∨
    eraseRange ef io disk node first stop = .error .abort ∧ ¬ io.Reliable := by
  rw [eraseRange]
  split_ifs with empty
  · exact Or.inl ⟨0, disk, node, rfl, ⟨rfl, rfl, rfl, rfl, rfl⟩, .refl _ _,
      fun _ => ⟨holds, .refl _, .refl _ _ empty⟩, Or.inl rfl⟩
  · obtain ⟨number, index⟩ := holds.toNat_index (by omega : first < clusters.length * _)
    obtain ⟨cluster, moved, advanced, same, answer⟩ := exfatAdvanceCluster_holds io laid holds
      (by rw [number]; exact index :
        (UInt32.ofNat (first / ef.clusterSize)).toNat < clusters.length)
    have info := SameInfo.of_sameFile same
    dsimp only
    rw [cluster_boundary, advanced, ok_bind]
    rcases answer with ⟨found, movedHolds⟩ | ⟨broken, unreliable⟩
    · rw [number] at found
      have valid := holds.valid cluster (List.mem_of_getElem? found)
      have target : exfatC2o ef.sb.toExfatSuperBlock cluster = .ok (ef.offset cluster) :=
        exfatC2o_of_valid valid
      have parts := Nat.div_add_mod first ef.clusterSize
      have boundary : (first / ef.clusterSize + 1) * ef.clusterSize =
          ef.clusterSize * (first / ef.clusterSize) + ef.clusterSize := by
        rw [Nat.succ_mul, Nat.mul_comm]
      have inner := Nat.mod_lt first ef.clusterSize_pos
      have within : first % ef.clusterSize +
          (min ((first / ef.clusterSize + 1) * ef.clusterSize) stop - first) ≤
            ef.clusterSize := by omega
      obtain ⟨written, marked, wrote, fills, erased, done⟩ :=
        eraseRaw_piece io disk holds.valid holds.nodup found within
      dsimp only
      rw [if_neg (by rw [valid]; exact Bool.false_ne_true), target, ok_bind, wrote]
      cases written with
      | false =>
          exact Or.inl ⟨-eio, marked, _, rfl, info, fills, fun zero => absurd zero (by decide),
            Or.inr ⟨rfl, done.resolve_left Bool.false_ne_true⟩⟩
      | true =>
          have kept := movedHolds.filled laid fills
          have front := erased rfl
          rcases eraseLoop_eq io { node with toExfatNode := moved } laid kept found
            (Nat.le_add_left stop _) inside with
            ⟨rc, after, looped, further, rest, outcome⟩ | ⟨failed, unreliable⟩
          · refine Or.inl ⟨rc, after, { node with toExfatNode := moved }, ?_, info,
              fills.trans further, fun zero => ⟨kept.filled laid further,
                same, ?_⟩, outcome⟩
            · dsimp only
              rw [looped]
              rfl
            · rcases Nat.le_total ((first / ef.clusterSize + 1) * ef.clusterSize) stop with
                beyond | within
              · rw [Nat.min_eq_left beyond, Nat.add_sub_of_le (by omega)] at front
                exact front.trans (rest zero) (by omega)
              · rw [Nat.min_eq_right within, Nat.add_sub_of_le (by omega)] at front
                intro position below
                obtain ⟨sameFront, zeroFront⟩ := front position below
                obtain ⟨sameRest, _⟩ := rest zero position below
                exact ⟨fun before => (sameRest (by omega)).trans (sameFront before),
                  fun lower upper => (sameRest (by omega)).trans (zeroFront lower upper)⟩
          · refine Or.inr ⟨?_, unreliable⟩
            dsimp only
            rw [failed]
            rfl
    · dsimp only
      rw [if_pos broken]
      exact Or.inl ⟨-eio, disk, _, rfl, info, .refl _ _, fun zero => absurd zero (by decide),
        Or.inr ⟨rfl, unreliable⟩⟩

end Erase

/-- The device and the table as a reader sees them. -/
def FatVolume.reader (ef : FatVolume) (io : Transfers) (content : Nat → UInt8) : ExfatFs where
  dev := {
    pread := fun size offset =>
      if io.reads size offset then some (bytesAt content offset size) else none
    pread_length := by
      intro size offset bytes read
      split_ifs at read
      cases read
      exact (length_bytesAt _ _ _).le }
  volume := ef.volume io content

section Read

variable {clusters : List UInt32} {node : ExfatNode} {cluster : UInt32} {position left : Nat}
  {buffer : List UInt8}

theorem genericPreadLoop_holds (io : Transfers) (buffer : List UInt8) (laid : ef.Laid)
    {fuel : Nat} (holds : Holds ef disk node clusters) (enough : left ≤ fuel)
    (inside : position + left ≤ clusters.length * ef.clusterSize) (room : left ≤ buffer.length)
    (here : left ≠ 0 → clusters[position / ef.clusterSize]? = some cluster ∨
      ef.invalid cluster = true ∧ ¬ io.Reliable) :
    ∃ rc filled, genericPreadLoop (ef.reader io disk.content) node fuel cluster
        (position % ef.clusterSize) left buffer = .ok (rc, filled) ∧
      (rc = 0 → filled = bytesAt (ef.byte disk.content clusters) position left ++
        buffer.drop left) ∧
      (rc = 0 ∨ rc = -eio ∧ ¬ io.Reliable) := by
  induction fuel generalizing position left buffer cluster with
  | zero =>
      obtain rfl := Nat.le_zero.mp enough
      exact ⟨0, buffer, genericPreadLoop_done _ _ _ _, fun _ => by simp [bytesAt], Or.inl rfl⟩
  | succ fuel inductionHypothesis =>
      rcases Nat.eq_zero_or_pos left with rfl | more
      · exact ⟨0, buffer, genericPreadLoop_done _ _ _ _, fun _ => by simp [bytesAt], Or.inl rfl⟩
      rcases here (by omega) with found | ⟨broken, unreliable⟩
      · have valid : clusterInvalid (ef.reader io disk.content).sb cluster = false :=
          holds.valid cluster (List.mem_of_getElem? found)
        have taken := piece_le ef.clusterSize position left
        have moved := piece_pos ef.clusterSize_pos position more
        have within := piece_within ef.clusterSize_pos position left
        by_cases allowed : io.reads (piece ef.clusterSize position left)
            (ef.offset cluster + position % ef.clusterSize) = true
        · have read : (ef.reader io disk.content).dev.pread (piece ef.clusterSize position left)
              (ef.offset cluster + position % ef.clusterSize) =
              some (bytesAt (ef.byte disk.content clusters) position
                (piece ef.clusterSize position left)) := by
            rw [FatVolume.byte, bytesAt_fileByte within, place_of_getElem? found]
            exact if_pos allowed
          have round := genericPreadLoop_read node fuel more room valid read
            (length_bytesAt _ _ _)
          have size : (ef.reader io disk.content).clusterSize = ef.clusterSize := rfl
          rw [size] at round
          rw [round]
          by_cases last : left - piece ef.clusterSize position left = 0
          · have whole : piece ef.clusterSize position left = left := by omega
            rw [last, genericPreadLoop_done, whole]
            exact ⟨0, _, rfl, fun _ => rfl, Or.inl rfl⟩
          · have rest := Nat.pos_of_ne_zero last
            obtain ⟨rc, filled, looped, complete, outcome⟩ := inductionHypothesis
              (buffer.drop (piece ef.clusterSize position left))
              (by omega : left - piece ef.clusterSize position left ≤ fuel)
              (by omega) (by rw [List.length_drop]; omega)
              fun _ => next_piece rest inside (holds.chained.nextCluster io laid found)
            rw [(next_block ef.clusterSize_pos rest).2] at looped
            have loopedToo : genericPreadLoop (ef.reader io disk.content) node fuel
                (nextCluster (ef.reader io disk.content).volume node cluster) 0
                (left - piece ef.clusterSize position left)
                (buffer.drop (piece ef.clusterSize position left)) = .ok (rc, filled) := looped
            rw [loopedToo]
            refine ⟨rc, _, rfl, fun zero => ?_, outcome⟩
            rw [complete zero, List.drop_drop, Nat.add_sub_of_le taken, ← List.append_assoc,
              ← Blocks.bytesAt_append, Nat.add_sub_of_le taken]
        · have unread : (ef.reader io disk.content).dev.pread
              (piece ef.clusterSize position left)
              (ef.offset cluster + position % ef.clusterSize) = none := if_neg allowed
          exact ⟨-eio, buffer, genericPreadLoop_unread node fuel more valid unread,
            fun zero => absurd zero (by decide),
            Or.inr ⟨rfl, fun reliable => allowed (reliable.reads _ _)⟩⟩
      · rw [genericPreadLoop, if_neg (by omega), if_pos (by exact broken)]
        exact ⟨-eio, buffer, rfl, fun zero => absurd zero (by decide),
          Or.inr ⟨rfl, unreliable⟩⟩

/-- A read gives the bytes of the file, whatever pointer its node has. -/
theorem exfatGenericPread_holds (io : Transfers) (buffer : List UInt8) (offset : Nat)
    (laid : ef.Laid) {size : Nat}
    (holds : Holds ef disk node clusters)
    (held : node.size.toNat ≤ clusters.length * ef.clusterSize) (room : size ≤ buffer.length) :
    ∃ rc filled moved, exfatGenericPread (ef.reader io disk.content) node buffer size offset =
        .ok (rc, filled, moved) ∧ SameFile node moved ∧
      (Holds ef disk moved clusters ∧ rc = ((min size (node.size.toNat - offset) : Nat) : Int) ∧
        filled = bytesAt (ef.byte disk.content clusters) offset
          (min size (node.size.toNat - offset)) ++
          buffer.drop (min size (node.size.toNat - offset)) ∨
        rc = -eio ∧ ¬ io.Reliable) := by
  by_cases nothing : min size (node.size.toNat - offset) = 0
  · refine ⟨0, buffer, node, exfatGenericPread_nothing nothing, .refl node,
      Or.inl ⟨holds, ?_, ?_⟩⟩
    · rw [nothing]
      rfl
    · rw [nothing]
      simp [bytesAt]
  · obtain ⟨number, index⟩ := holds.toNat_index (by omega : offset < clusters.length * _)
    obtain ⟨cluster, moved, advanced, same, answer⟩ := exfatAdvanceCluster_holds io laid holds
      (by rw [number]; exact index :
        (UInt32.ofNat (offset / ef.clusterSize)).toNat < clusters.length)
    have advancedToo : exfatAdvanceCluster (ef.reader io disk.content).volume node
        (UInt32.ofNat (offset / (ef.reader io disk.content).clusterSize)) =
          .ok (cluster, moved) := advanced
    rw [exfatGenericPread, if_neg (by omega), if_neg (by omega), advancedToo, ok_bind]
    dsimp only
    rcases answer with ⟨found, movedHolds⟩ | ⟨broken, unreliable⟩
    · rw [number] at found
      have valid : clusterInvalid (ef.reader io disk.content).sb cluster = false :=
        holds.valid cluster (List.mem_of_getElem? found)
      obtain ⟨rc, filled, looped, complete, outcome⟩ := genericPreadLoop_holds io buffer laid
        movedHolds (Nat.le_refl (min size (node.size.toNat - offset))) (by omega) (by omega)
        (fun _ => Or.inl found)
      have loopedToo : genericPreadLoop (ef.reader io disk.content) moved
          (min size (node.size.toNat - offset)) cluster
          (offset % (ef.reader io disk.content).clusterSize)
          (min size (node.size.toNat - offset)) buffer = .ok (rc, filled) := looped
      rw [if_neg (by rw [valid]; exact Bool.false_ne_true), loopedToo, ok_bind]
      refine ⟨_, filled, moved, rfl, same, ?_⟩
      rcases outcome with zero | ⟨code, unreliable⟩
      · refine Or.inl ⟨movedHolds, ?_, complete zero⟩
        rw [zero]
        rfl
      · refine Or.inr ⟨?_, unreliable⟩
        rw [code]
        rfl
    · rw [if_pos (by exact broken)]
      exact ⟨-eio, buffer, moved, rfl, same, Or.inr ⟨rfl, unreliable⟩⟩

end Read

end Vtoydump.Exfat
