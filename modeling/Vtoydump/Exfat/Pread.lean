import Vtoydump.Basis.Blocks
import Vtoydump.Exfat.Advance

/-!
# Reading a file through its clusters

`exfat_generic_pread` on a volume that is mounted read-only, so that no access
time changes.  A device answers a read with at most the bytes asked for; what
it does not return stays in the buffer as it was.
-/

namespace Vtoydump.Exfat

open CRun Blocks

/-- An opened device: `none` is a `pread` that fails. -/
structure ExfatDev where
  pread : Nat → Nat → Option (List UInt8)
  pread_length : ∀ {size offset : Nat} {bytes : List UInt8},
    pread size offset = some bytes → bytes.length ≤ size

structure ExfatFs where
  dev : ExfatDev
  volume : Volume

namespace ExfatFs

def sb (ef : ExfatFs) : ExfatSuperBlock := ef.volume.sb.toExfatSuperBlock

def clusterSize (ef : ExfatFs) : Nat := Vtoydump.Exfat.clusterSize ef.sb

theorem clusterSize_pos (ef : ExfatFs) : 0 < ef.clusterSize := Vtoydump.Exfat.clusterSize_pos ef.sb

end ExfatFs

/-- `exfat_pread` into the front of a buffer. -/
def exfatPread (dev : ExfatDev) (buffer : List UInt8) (size offset : Nat) :
    Run (Option (List UInt8)) :=
  match dev.pread size offset with
  | none => .ok none
  | some bytes =>
      if buffer.length < bytes.length then .error .outOfBounds
      else .ok (some (bytes ++ buffer.drop bytes.length))

/-- The loop of `exfat_generic_pread`: what it returns, zero when it runs to its end,
and the buffer from `bufp` on. -/
def genericPreadLoop (ef : ExfatFs) (node : ExfatNode) :
    Nat → UInt32 → Nat → Nat → List UInt8 → Run (Int × List UInt8)
  | 0, _, _, remainder, buffer => if remainder = 0 then .ok (0, buffer) else .error .diverges
  | fuel + 1, cluster, loffset, remainder, buffer =>
      if remainder = 0 then .ok (0, buffer)
      else if clusterInvalid ef.sb cluster then .ok (-eio, buffer)
      else do
        let lsize := min (ef.clusterSize - loffset) remainder
        let offset ← exfatC2o ef.sb cluster
        match ← exfatPread ef.dev buffer lsize (offset + loffset) with
        | none => return (-eio, buffer)
        | some filled => do
            let next ← exfatNextCluster ef.volume node cluster
            let (rc, rest) ←
              genericPreadLoop ef node fuel next 0 (remainder - lsize) (filled.drop lsize)
            return (rc, filled.take lsize ++ rest)

/-- The value returned, the buffer and the node with its cached pointer.  Every round
of the loop takes at least a byte, so `remainder` rounds are enough. -/
def exfatGenericPread (ef : ExfatFs) (node : ExfatNode) (buffer : List UInt8)
    (size offset : Nat) : Run (Int × List UInt8 × ExfatNode) :=
  if node.size.toNat ≤ offset then .ok (0, buffer, node)
  else if size = 0 then .ok (0, buffer, node)
  else do
    let (cluster, moved) ←
      exfatAdvanceCluster ef.volume node (UInt32.ofNat (offset / ef.clusterSize))
    if clusterInvalid ef.sb cluster then return (-eio, buffer, moved)
    let remainder := min size (node.size.toNat - offset)
    let (rc, filled) ←
      genericPreadLoop ef moved remainder cluster (offset % ef.clusterSize) remainder buffer
    return (if rc < 0 then rc else remainder, filled, moved)

/-- Every cluster that holds data can be read, and holds this content. -/
def ClustersReadable (ef : ExfatFs) (content : Nat → UInt8) : Prop :=
  ∀ cluster, clusterInvalid ef.sb cluster = false → ∀ inner size,
    inner + size ≤ ef.clusterSize →
      ef.dev.pread size (clusterOffset ef.sb cluster + inner) =
        some (bytesAt content (clusterOffset ef.sb cluster + inner) size)

def fileContent (ef : ExfatFs) (content : Nat → UInt8) (node : ExfatNode) : Nat → UInt8 :=
  fileByte content (fun index => clusterOffset ef.sb (clusterAt ef.volume node index))
    ef.clusterSize

def clustersFor (ef : ExfatFs) (length : Nat) : Nat :=
  (length + ef.clusterSize - 1) / ef.clusterSize

/-- The bytes of a file before its first invalid cluster, of those up to a position. -/
def reachedBytes (ef : ExfatFs) (node : ExfatNode) (length : Nat) : Nat :=
  Cursor.leading (fun index => clusterInvalid ef.sb (clusterAt ef.volume node index))
    (clustersFor ef length) * ef.clusterSize

/-- How many bytes of a range lie in the file. -/
def wantedBytes (node : ExfatNode) (size offset : Nat) : Nat :=
  min size (node.size.toNat - offset)

/-- How many of them lie before the first invalid cluster. -/
def deliveredBytes (ef : ExfatFs) (node : ExfatNode) (size offset : Nat) : Nat :=
  min (wantedBytes node size offset)
    (reachedBytes ef node (offset + wantedBytes node size offset) - offset)

section Loop

variable {ef : ExfatFs} {content : Nat → UInt8} {node : ExfatNode}

theorem lt_clustersFor_iff {length index : Nat} :
    index < clustersFor ef length ↔ index * ef.clusterSize < length := by
  have positive := ef.clusterSize_pos
  rw [clustersFor, Nat.lt_div_iff_mul_lt positive]
  omega

theorem SameFile.fileContent {other : ExfatNode} (same : SameFile node other) :
    fileContent ef content other = fileContent ef content node := by
  unfold Exfat.fileContent
  simp only [same.clusterAt]

theorem SameFile.reachedBytes {other : ExfatNode} (same : SameFile node other) (length : Nat) :
    reachedBytes ef other length = reachedBytes ef node length := by
  simp only [Exfat.reachedBytes, same.clusterAt]

theorem intactTo_iff_le_reachedBytes {length : Nat} :
    IntactTo ef.volume node (clustersFor ef length) ↔ length ≤ reachedBytes ef node length := by
  have valid := @Cursor.le_leading_iff
    (fun index => clusterInvalid ef.sb (clusterAt ef.volume node index)) _ _
    (Nat.le_refl (clustersFor ef length))
  rw [reachedBytes, ← Nat.not_lt, ← lt_clustersFor_iff, Nat.not_lt, valid]
  rfl

theorem IntactTo.le_reachedBytes {index length : Nat} (intact : IntactTo ef.volume node index)
    (needed : index ≤ clustersFor ef length) :
    index * ef.clusterSize ≤ reachedBytes ef node length :=
  Nat.mul_le_mul_right _ ((Cursor.le_leading_iff needed).mpr intact)

theorem reachedBytes_le {index length : Nat}
    (invalid : clusterInvalid ef.sb (clusterAt ef.volume node index) = true)
    (needed : index < clustersFor ef length) :
    reachedBytes ef node length ≤ index * ef.clusterSize := by
  apply Nat.mul_le_mul_right
  rw [← Nat.not_lt]
  intro beyond
  have valid := (Cursor.le_leading_iff (Nat.succ_le_of_lt needed)).mp beyond index
    (Nat.lt_succ_self _)
  rw [invalid] at valid
  cases valid

theorem genericPreadLoop_done (fuel : Nat) (cluster : UInt32) (loffset : Nat)
    (buffer : List UInt8) :
    genericPreadLoop ef node fuel cluster loffset 0 buffer = .ok (0, buffer) := by
  cases fuel <;> simp [genericPreadLoop]

theorem genericPreadLoop_read (node : ExfatNode) (fuel : Nat) {position left : Nat}
    {cluster : UInt32} {buffer bytes : List UInt8} (more : 0 < left) (room : left ≤ buffer.length)
    (valid : clusterInvalid ef.sb cluster = false)
    (read : ef.dev.pread (piece ef.clusterSize position left)
      (clusterOffset ef.sb cluster + position % ef.clusterSize) = some bytes)
    (whole : bytes.length = piece ef.clusterSize position left) :
    genericPreadLoop ef node (fuel + 1) cluster (position % ef.clusterSize) left buffer =
      (genericPreadLoop ef node fuel (nextCluster ef.volume node cluster) 0
          (left - piece ef.clusterSize position left)
          (buffer.drop (piece ef.clusterSize position left))).map fun result =>
        (result.1, bytes ++ result.2) := by
  have taken := piece_le ef.clusterSize position left
  have size : min (ef.clusterSize - position % ef.clusterSize) left =
      piece ef.clusterSize position left := rfl
  have filled : exfatPread ef.dev buffer (piece ef.clusterSize position left)
      (clusterOffset ef.sb cluster + position % ef.clusterSize) =
      .ok (some (bytes ++ buffer.drop (piece ef.clusterSize position left))) := by
    rw [exfatPread, read]
    dsimp only
    rw [whole, if_neg (by omega)]
  rw [genericPreadLoop, if_neg (by omega), if_neg (by simp [valid]), size,
    exfatC2o_of_valid valid, ok_bind, filled, ok_bind]
  simp only [exfatNextCluster_of_valid node valid, ok_bind]
  rw [List.drop_left' whole, List.take_left' whole]
  rfl

theorem genericPreadLoop_unread (node : ExfatNode) (fuel : Nat) {position left : Nat}
    {cluster : UInt32} {buffer : List UInt8} (more : 0 < left) (valid : clusterInvalid ef.sb cluster = false)
    (unread : ef.dev.pread (piece ef.clusterSize position left)
      (clusterOffset ef.sb cluster + position % ef.clusterSize) = none) :
    genericPreadLoop ef node (fuel + 1) cluster (position % ef.clusterSize) left buffer =
      .ok (-eio, buffer) := by
  have size : min (ef.clusterSize - position % ef.clusterSize) left =
      piece ef.clusterSize position left := rfl
  rw [genericPreadLoop, if_neg (by omega), if_neg (by simp [valid]), size,
    exfatC2o_of_valid valid, ok_bind, exfatPread, unread]
  rfl

/-- The loop puts into the buffer what lies before the first invalid cluster. -/
theorem genericPreadLoop_eq (readable : ClustersReadable ef content) {fuel left : Nat}
    (position : Nat) (buffer : List UInt8) (enough : left ≤ fuel) (room : left ≤ buffer.length)
    (intact : IntactTo ef.volume node (position / ef.clusterSize)) :
    genericPreadLoop ef node fuel (clusterAt ef.volume node (position / ef.clusterSize))
        (position % ef.clusterSize) left buffer =
      .ok (if left ≤ reachedBytes ef node (position + left) - position then 0 else -eio,
        bytesAt (fileContent ef content node) position
          (min left (reachedBytes ef node (position + left) - position)) ++
        buffer.drop (min left (reachedBytes ef node (position + left) - position))) := by
  induction fuel generalizing position left buffer with
  | zero =>
      obtain rfl : left = 0 := Nat.le_zero.mp enough
      simp [genericPreadLoop, bytesAt]
  | succ fuel inductionHypothesis =>
      rcases Nat.eq_zero_or_pos left with rfl | more
      · simp [genericPreadLoop, bytesAt]
      have lower := Nat.div_mul_le_self position ef.clusterSize
      have needed : position / ef.clusterSize < clustersFor ef (position + left) := by
        rw [lt_clustersFor_iff]
        omega
      cases valid : clusterInvalid ef.sb
          (clusterAt ef.volume node (position / ef.clusterSize)) with
      | true =>
          have stopped := reachedBytes_le valid needed
          have nothing : reachedBytes ef node (position + left) - position = 0 := by omega
          rw [genericPreadLoop, if_neg (by omega), if_pos valid, nothing, if_neg (by omega)]
          simp [bytesAt]
      | false =>
          have further : IntactTo ef.volume node (position / ef.clusterSize + 1) := by
            intro before below
            rcases Nat.lt_succ_iff_lt_or_eq.mp below with earlier | rfl
            · exact intact before earlier
            · exact valid
          have taken := piece_le ef.clusterSize position left
          have within := piece_within ef.clusterSize_pos position left
          have moved := piece_pos ef.clusterSize_pos position more
          have reached : position + piece ef.clusterSize position left ≤
              reachedBytes ef node (position + left) := by
            have covered := further.le_reachedBytes needed
            have parts := Nat.div_add_mod position ef.clusterSize
            rw [Nat.add_mul, Nat.one_mul, Nat.mul_comm] at covered
            omega
          have read : ef.dev.pread (piece ef.clusterSize position left)
              (clusterOffset ef.sb (clusterAt ef.volume node (position / ef.clusterSize)) +
                position % ef.clusterSize) =
              some (bytesAt (fileContent ef content node) position
                (piece ef.clusterSize position left)) := by
            rw [readable _ valid _ _ within, fileContent, bytesAt_fileByte within]
          rw [genericPreadLoop_read node fuel more room valid read (length_bytesAt _ _ _)]
          rcases Nat.eq_zero_or_pos (left - piece ef.clusterSize position left) with last | rest
          · -- the last piece: the range ends in this cluster
            have whole : piece ef.clusterSize position left = left := by omega
            rw [whole] at reached
            rw [last, genericPreadLoop_done, whole, if_pos (by omega), Nat.min_eq_left (by omega)]
            rfl
          · obtain ⟨block, inner⟩ := next_block ef.clusterSize_pos rest
            have tail := inductionHypothesis (position + piece ef.clusterSize position left)
              (buffer.drop (piece ef.clusterSize position left))
              (by omega : left - piece ef.clusterSize position left ≤ fuel)
              (by rw [List.length_drop]; omega) (by rw [block]; exact further)
            rw [block, inner, Nat.add_assoc, Nat.add_sub_of_le taken] at tail
            have split : min left (reachedBytes ef node (position + left) - position) =
                piece ef.clusterSize position left +
                  min (left - piece ef.clusterSize position left)
                    (reachedBytes ef node (position + left) -
                      (position + piece ef.clusterSize position left)) := by omega
            have same : (left - piece ef.clusterSize position left ≤
                  reachedBytes ef node (position + left) -
                    (position + piece ef.clusterSize position left)) ↔
                (left ≤ reachedBytes ef node (position + left) - position) := by omega
            rw [clusterAt] at tail
            rw [tail, split, bytesAt_append, ← List.drop_drop]
            simp only [same, Except.map, List.append_assoc]

end Loop

section Read

variable {ef : ExfatFs} {content : Nat → UInt8} {node before : ExfatNode}

/-- A read moves the cached pointer by a request of `exfat_advance_cluster` at most. -/
theorem Requested.pread {buffer filled : List UInt8} {size offset : Nat} {rc : Int}
    {after : ExfatNode} (requested : Requested ef.volume node before)
    (done : exfatGenericPread ef before buffer size offset = .ok (rc, filled, after)) :
    Requested ef.volume node after := by
  unfold exfatGenericPread at done
  split_ifs at done
  · cases done
    exact requested
  · cases done
    exact requested
  · rw [bind_eq_ok_iff] at done
    rcases done with ⟨⟨cluster, moved⟩, advanced, rest⟩
    dsimp only at rest
    split_ifs at rest
    · cases rest
      exact requested.advance advanced
    · rw [bind_eq_ok_iff] at rest
      rcases rest with ⟨result, looped, rest⟩
      cases rest
      exact requested.advance advanced

theorem toNat_ofNat_div {offset : Nat} (inside : offset < node.size.toNat)
    (heap : node.size.toNat ≤ ef.sb.clusterCount.toNat * ef.clusterSize) :
    (UInt32.ofNat (offset / ef.clusterSize)).toNat = offset / ef.clusterSize := by
  have count := ef.sb.clusterCount.toNat_lt
  have below : offset / ef.clusterSize < ef.sb.clusterCount.toNat := by
    rw [Nat.div_lt_iff_lt_mul ef.clusterSize_pos]
    omega
  exact Nat.mod_eq_of_lt (below.trans count)

theorem exfatGenericPread_nothing {buffer : List UInt8} {size offset : Nat}
    (nothing : min size (node.size.toNat - offset) = 0) :
    exfatGenericPread ef node buffer size offset = .ok (0, buffer, node) := by
  unfold exfatGenericPread
  split_ifs with behind empty
  · rfl
  · rfl
  · omega

theorem exfatGenericPread_some {buffer : List UInt8} {size offset : Nat}
    (fresh : node.fptrIndex = 0) (requested : Requested ef.volume node before)
    (heap : node.size.toNat ≤ ef.sb.clusterCount.toNat * ef.clusterSize)
    (readable : ClustersReadable ef content) (room : size ≤ buffer.length)
    (intact : IntactTo ef.volume node (offset / ef.clusterSize))
    (some : wantedBytes node size offset ≠ 0) :
    ∃ after, exfatGenericPread ef before buffer size offset =
      .ok (if deliveredBytes ef node size offset = wantedBytes node size offset then
          (wantedBytes node size offset : Int) else -eio,
        bytesAt (fileContent ef content node) offset (deliveredBytes ef node size offset) ++
          buffer.drop (deliveredBytes ef node size offset), after) := by
  have same := requested.sameFile
  have inside : offset < node.size.toNat := by
    unfold wantedBytes at some
    omega
  have index : (UInt32.ofNat (offset / ef.clusterSize)).toNat = offset / ef.clusterSize :=
    toNat_ofNat_div inside heap
  obtain ⟨moved, advanced⟩ := exfatAdvanceCluster_of_intact (requested.tracked fresh)
    (by rw [index]; exact same.intactTo.mpr intact)
  rw [same.clusterAt] at advanced
  have sameMoved := same.trans (exfatAdvanceCluster_eq_ok advanced).1
  rw [index] at advanced
  have wanted : wantedBytes node size offset ≤ size := Nat.min_le_left _ _
  have positive : 0 < size := by omega
  refine ⟨moved, ?_⟩
  rw [exfatGenericPread, same.size, if_neg (Nat.not_le_of_lt inside), if_neg (by omega), advanced,
    ok_bind]
  dsimp only
  by_cases invalid :
      clusterInvalid ef.sb (clusterAt ef.volume node (offset / ef.clusterSize)) = true
  · -- the first cluster of the range is invalid, so nothing of it is delivered
    have needed : offset / ef.clusterSize <
        clustersFor ef (offset + wantedBytes node size offset) := by
      rw [lt_clustersFor_iff]
      have lower := Nat.div_mul_le_self offset ef.clusterSize
      omega
    have stopped := reachedBytes_le invalid needed
    have lower := Nat.div_mul_le_self offset ef.clusterSize
    have nothing : deliveredBytes ef node size offset = 0 := by
      unfold deliveredBytes
      omega
    rw [if_pos invalid, nothing, if_neg (by omega)]
    simp [bytesAt, pure, Except.pure]
  · have looped := genericPreadLoop_eq readable offset buffer
      (Nat.le_refl (wantedBytes node size offset)) (wanted.trans room)
      (sameMoved.intactTo.mpr intact)
    rw [sameMoved.clusterAt, sameMoved.fileContent, sameMoved.reachedBytes] at looped
    have complete : wantedBytes node size offset ≤
          reachedBytes ef node (offset + wantedBytes node size offset) - offset ↔
        deliveredBytes ef node size offset = wantedBytes node size offset := by
      unfold deliveredBytes
      omega
    simp only [complete] at looped
    have count : min size (node.size.toNat - offset) = wantedBytes node size offset := rfl
    rw [if_neg invalid, count, looped, ok_bind]
    by_cases all : deliveredBytes ef node size offset = wantedBytes node size offset
    · rw [if_pos all, if_pos all]
      rfl
    · rw [if_neg all, if_neg all]
      rfl

/-- After any requests and reads, a read delivers the bytes of the range that lie before
the first invalid cluster, and says whether these are all. -/
theorem exfatGenericPread_eq {buffer : List UInt8} {size offset : Nat}
    (fresh : node.fptrIndex = 0) (requested : Requested ef.volume node before)
    (heap : node.size.toNat ≤ ef.sb.clusterCount.toNat * ef.clusterSize)
    (readable : ClustersReadable ef content) (room : size ≤ buffer.length)
    (intact : IntactTo ef.volume node (offset / ef.clusterSize)) :
    ∃ after, exfatGenericPread ef before buffer size offset =
        .ok (if deliveredBytes ef node size offset = wantedBytes node size offset then
            (wantedBytes node size offset : Int) else -eio,
          bytesAt (fileContent ef content node) offset (deliveredBytes ef node size offset) ++
            buffer.drop (deliveredBytes ef node size offset), after) ∧
      Requested ef.volume node after ∧
      (deliveredBytes ef node size offset = wantedBytes node size offset ↔
        wantedBytes node size offset = 0 ∨
          IntactTo ef.volume node (clustersFor ef (offset + wantedBytes node size offset))) := by
  have complete : deliveredBytes ef node size offset = wantedBytes node size offset ↔
      wantedBytes node size offset = 0 ∨
        IntactTo ef.volume node (clustersFor ef (offset + wantedBytes node size offset)) := by
    rw [intactTo_iff_le_reachedBytes, deliveredBytes]
    omega
  by_cases nothing : wantedBytes node size offset = 0
  · have delivered : deliveredBytes ef node size offset = 0 := by
      rw [deliveredBytes, nothing, Nat.zero_min]
    have done := @exfatGenericPread_nothing ef before buffer size offset
      (by rw [requested.sameFile.size]; exact nothing)
    refine ⟨before, ?_, requested, complete⟩
    rw [done, delivered, nothing]
    rfl
  · obtain ⟨after, done⟩ := exfatGenericPread_some fresh requested heap readable room intact nothing
    exact ⟨after, done, requested.pread done, complete⟩

theorem exfatGenericPread_of_intact {buffer : List UInt8} {size offset : Nat}
    (fresh : node.fptrIndex = 0) (requested : Requested ef.volume node before)
    (heap : node.size.toNat ≤ ef.sb.clusterCount.toNat * ef.clusterSize)
    (readable : ClustersReadable ef content) (room : size ≤ buffer.length)
    (all : IntactTo ef.volume node
      (clustersFor ef (offset + wantedBytes node size offset))) :
    ∃ after, exfatGenericPread ef before buffer size offset =
      .ok (wantedBytes node size offset,
        bytesAt (fileContent ef content node) offset (wantedBytes node size offset) ++
          buffer.drop (wantedBytes node size offset), after) := by
  by_cases nothing : wantedBytes node size offset = 0
  · refine ⟨before, ?_⟩
    rw [exfatGenericPread_nothing (by rw [requested.sameFile.size]; exact nothing), nothing]
    rfl
  · have intact : IntactTo ef.volume node (offset / ef.clusterSize) := by
      apply all.mono
      apply Nat.div_le_div_right
      have positive := ef.clusterSize_pos
      omega
    have complete : deliveredBytes ef node size offset = wantedBytes node size offset := by
      rw [intactTo_iff_le_reachedBytes] at all
      rw [deliveredBytes]
      omega
    obtain ⟨after, done⟩ := exfatGenericPread_some fresh requested heap readable room intact nothing
    rw [complete, if_pos rfl] at done
    exact ⟨after, done⟩

end Read

section Device

def wholeDevice (content : Nat → UInt8) : ExfatDev where
  pread size offset := some (bytesAt content offset size)
  pread_length := by
    intro size offset bytes read
    cases read
    exact (length_bytesAt _ _ _).le

theorem clustersReadable_wholeDevice (volume : Volume) (content : Nat → UInt8) :
    ClustersReadable ⟨wholeDevice content, volume⟩ content := fun _ _ _ _ _ => rfl

/-- After a request that failed, a read across the border of the two clusters and past
the end of the chain. -/
theorem exfatGenericPread_across :
    ∃ after, exfatGenericPread ⟨wholeDevice UInt8.ofNat, brokenVolume⟩ afterFailure
        (List.replicate 601 9) 600 510 =
        .ok (-eio, bytesAt (fileContent ⟨wholeDevice UInt8.ofNat, brokenVolume⟩ UInt8.ofNat
          brokenNode) 510 514 ++ (List.replicate 601 9).drop 514, after) ∧
      Requested brokenVolume brokenNode after := by
  have wanted : wantedBytes brokenNode 600 510 = 600 := by decide
  have delivered : deliveredBytes ⟨wholeDevice UInt8.ofNat, brokenVolume⟩ brokenNode 600 510 =
      514 := by decide
  obtain ⟨after, read, requested, -⟩ := @exfatGenericPread_eq
    ⟨wholeDevice UInt8.ofNat, brokenVolume⟩ UInt8.ofNat brokenNode afterFailure
    (List.replicate 601 9) 600 510 rfl (.advance .fresh brokenNode_fails) (by decide)
    (clustersReadable_wholeDevice _ _) (by rw [List.length_replicate]; omega) (by decide)
  rw [delivered, wanted, if_neg (by decide)] at read
  exact ⟨after, read, requested⟩

end Device

end Vtoydump.Exfat
