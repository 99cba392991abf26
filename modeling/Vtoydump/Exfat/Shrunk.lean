import Vtoydump.Exfat.Holding

/-!
# What shrinking a file leaves

A file that shrinks holds the clusters that are left, the last of them marked as the end, and
the others are free.  Nothing else is touched, whichever transfers fail.
-/

namespace Vtoydump.Exfat

open CRun Blocks Chain

variable {width : Nat} {ef : FatVolume} {io : Transfers} {disk after final : ef.Disk width}

section Steps

variable {current cluster : UInt32}

theorem setNextCluster_eq (io : Transfers) (disk : ef.Disk width) (laid : ef.Laid)
    (valid : ef.invalid current = false) (contiguous : Bool) (next : UInt32) :
    ∃ written after, setNextCluster ef io disk contiguous current next = (written, after) ∧
      Touches ef (· = current) disk after ∧ after.cmap = disk.cmap ∧
      (written = true → contiguous = false → ef.entry after.content current = next) ∧
      (written = true ∨ ¬ io.Reliable) := by
  unfold setNextCluster exfatPwrite
  split_ifs with inPlace allowed
  · refine ⟨true, disk, rfl, .refl _ _, rfl, fun _ linked => ?_, Or.inl rfl⟩
    rw [linked] at inPlace
    cases inPlace
  · refine ⟨true, _, rfl, ⟨?_, fun _ _ _ => Iff.rfl, ?_⟩, rfl, fun _ _ => entry_put_same next,
      Or.inl rfl⟩
    · intro cluster validToo apart
      exact entry_put_apart laid validToo valid apart next
    · intro position behind
      have before := fatOffset_before laid valid
      apply put_apart
      rw [length_leBytes]
      omega
  · exact ⟨false, disk, rfl, .refl _ _, rfl, fun written => absurd written Bool.false_ne_true,
      Or.inr fun reliable => allowed (reliable.writes _ _)⟩

theorem Touches.of_mem {clusters : List UInt32} (touches : Touches ef (· = cluster) disk after)
    (membership : cluster ∈ clusters) : Touches ef (· ∈ clusters) disk after :=
  touches.mono fun _ same => same ▸ membership

end Steps

/-- The clusters that are given back are free, all others are as before. -/
structure Frees (ef : FatVolume) (disk after : ef.Disk width) (doomed : List UInt32) : Prop where
  used : ∀ cluster, ef.invalid cluster = false →
    (after.cmap.used cluster = true ↔ cluster ∉ doomed ∧ disk.cmap.used cluster = true)
  counted : exfatCountFreeClusters after.cmap.chunk =
    exfatCountFreeClusters disk.cmap.chunk + doomed.length

theorem Frees.nil (disk : ef.Disk width) : Frees ef disk disk [] := by
  refine ⟨fun cluster _ => ?_, rfl⟩
  simp

theorem Frees.cons {first : UInt32} {rest : List UInt32} (one : Frees ef disk after [first])
    (frees : Frees ef after final rest) : Frees ef disk final (first :: rest) where
  used cluster valid := by
    have outside : cluster ∉ first :: rest ↔ cluster ≠ first ∧ cluster ∉ rest := by
      rw [List.mem_cons, not_or]
    rw [frees.used cluster valid, one.used cluster valid, List.mem_singleton, outside]
    tauto
  counted := by
    rw [frees.counted, one.counted]
    exact (Nat.add_assoc _ _ _).trans (congrArg _ (Nat.add_comm _ _))

theorem Frees.of_cmap {doomed : List UInt32} (frees : Frees ef after final doomed)
    (cmap : after.cmap = disk.cmap) : Frees ef disk final doomed where
  used cluster valid := by
    rw [← cmap]
    exact frees.used cluster valid
  counted := by
    rw [← cmap]
    exact frees.counted

/-- What growing and shrinking leave of a node as it was. -/
structure SameInfo (node other : FileNode) : Prop where
  size : other.size = node.size
  attrib : other.attrib = node.attrib
  references : other.references = node.references
  isRoot : other.isRoot = node.isRoot
  mtime : other.mtime = node.mtime

theorem SameInfo.refl (node : FileNode) : SameInfo node node := ⟨rfl, rfl, rfl, rfl, rfl⟩

theorem SameInfo.trans {first second third : FileNode} (left : SameInfo first second)
    (right : SameInfo second third) : SameInfo first third :=
  ⟨right.size.trans left.size, right.attrib.trans left.attrib,
    right.references.trans left.references, right.isRoot.trans left.isRoot,
    right.mtime.trans left.mtime⟩

theorem SameInfo.of_sameFile {node : FileNode} {moved : ExfatNode}
    (same : SameFile node.toExfatNode moved) :
    SameInfo node { node with toExfatNode := moved } := ⟨same.size, rfl, rfl, rfl, rfl⟩

structure Chained (ef : FatVolume) (disk : ef.Disk width) (contiguous : Bool)
    (clusters : List UInt32) : Prop where
  valid : ∀ cluster ∈ clusters, ef.invalid cluster = false
  used : ∀ cluster ∈ clusters, disk.cmap.used cluster = true
  nodup : clusters.Nodup
  linked : Linked (ef.next disk.content contiguous) clusters

section Chains

variable {node : ExfatNode} {clusters rest : List UInt32} {cluster first : UInt32}
  {contiguous : Bool} {own : UInt32 → Prop}

theorem Holds.chained (holds : Holds ef disk node clusters) :
    Chained ef disk node.isContiguous clusters :=
  ⟨holds.valid, holds.used, holds.nodup, holds.linked⟩

theorem Chained.drop (chained : Chained ef disk contiguous clusters) (count : Nat) :
    Chained ef disk contiguous (clusters.drop count) where
  valid cluster behind := chained.valid cluster (List.mem_of_mem_drop behind)
  used cluster behind := chained.used cluster (List.mem_of_mem_drop behind)
  nodup := chained.nodup.sublist (List.drop_sublist _ _)
  linked := chained.linked.drop count

theorem Chained.spared (chained : Chained ef disk contiguous clusters)
    (spares : Spares ef own disk after) (apart : ∀ cluster ∈ clusters, ¬ own cluster) :
    Chained ef after contiguous clusters where
  valid := chained.valid
  used cluster membership := (spares.used cluster (chained.valid cluster membership)
    (apart cluster membership)).mpr (chained.used cluster membership)
  nodup := chained.nodup
  linked := chained.linked.congr_all fun cluster membership => next_congr
    (spares.entry cluster (chained.valid cluster membership) (apart cluster membership))

/-- `exfat_next_cluster` leads to the next cluster, or a read of the table fails. -/
theorem Chained.nextCluster (io : Transfers) (laid : ef.Laid)
    (chained : Chained ef disk node.isContiguous clusters) {index : Nat}
    (here : clusters[index]? = some cluster) (more : index + 1 < clusters.length) :
    clusters[index + 1]? = some (nextCluster (ef.volume io disk.content) node cluster) ∨
      ef.invalid (nextCluster (ef.volume io disk.content) node cluster) = true ∧
        ¬ io.Reliable := by
  have behind := List.getElem?_eq_getElem more
  rcases nextCluster_volume io disk.content node cluster with followed | ⟨bad, unreliable⟩
  · left
    rw [followed, chained.linked.follower here behind]
    exact behind
  · right
    rw [bad]
    exact ⟨invalid_bad laid.few, unreliable⟩

end Chains

section Shrink

variable {node : FileNode} {clusters doomed : List UInt32} {first previous last : UInt32}
  {current difference : UInt32}

theorem release_eq (io : Transfers) (laid : ef.Laid) (valid : ef.invalid first = false)
    (used : disk.cmap.used first = true) (contiguous : Bool) :
    (∃ marked freed,
      setNextCluster ef io disk contiguous first exfatClusterFree = (true, marked) ∧
      freeCluster marked.cmap first = .ok freed ∧
      Touches ef (· = first) disk ({ marked with cmap := freed } : ef.Disk width) ∧
      Frees ef disk ({ marked with cmap := freed } : ef.Disk width) [first]) ∨
    ∃ marked, setNextCluster ef io disk contiguous first exfatClusterFree = (false, marked) ∧
      Touches ef (· = first) disk marked ∧ ¬ io.Reliable := by
  obtain ⟨written, marked, set, touches, cmap, _, done⟩ :=
    setNextCluster_eq io disk laid valid contiguous exfatClusterFree
  cases written with
  | false => exact Or.inr ⟨marked, set, touches, done.resolve_left Bool.false_ne_true⟩
  | true =>
      obtain ⟨freed, released, free, counted⟩ := freeCluster_of_valid valid marked.cmap
      refine Or.inl ⟨marked, freed, set, released, touches.trans ⟨fun _ _ _ => rfl,
        fun cluster validToo apart => ?_, fun _ _ => rfl⟩, fun cluster validToo => ?_, ?_⟩
      · exact (free cluster validToo).trans (and_iff_right apart)
      · rw [free cluster validToo, cmap, List.mem_singleton]
      · rw [counted (by rw [cmap]; exact used), cmap]
        rfl

theorem shrinkLoop_eq (io : Transfers) (node : FileNode) (previous : UInt32) (laid : ef.Laid)
    (chained : Chained ef disk node.isContiguous doomed)
    (begins : doomed ≠ [] →
      doomed.head? = some previous ∨ ef.invalid previous = true ∧ ¬ io.Reliable) :
    ∃ rc after, shrinkLoop ef io node doomed.length previous disk = .ok (rc, after) ∧
      Touches ef (· ∈ doomed) disk after ∧ (rc = 0 → Frees ef disk after doomed) ∧
      (rc = 0 ∨ rc = -eio ∧ ¬ io.Reliable) := by
  induction doomed generalizing previous disk with
  | nil => exact ⟨0, disk, rfl, .refl _ _, fun _ => .nil disk, Or.inl rfl⟩
  | cons first rest inductionHypothesis =>
      rw [List.length_cons, shrinkLoop]
      rcases begins (List.cons_ne_nil _ _) with here | ⟨broken, unreliable⟩
      · obtain rfl : first = previous := Option.some.inj here
        have valid := chained.valid first List.mem_cons_self
        have notInRest := (List.nodup_cons.mp chained.nodup).1
        rw [if_neg (by rw [valid]; exact Bool.false_ne_true),
          exfatNextCluster_of_valid node.toExfatNode (by exact valid), ok_bind]
        rcases release_eq io laid valid (chained.used first List.mem_cons_self)
          node.isContiguous with ⟨marked, freed, set, released, touches, one⟩ |
            ⟨marked, set, touches, unreliable⟩
        · have left : Chained ef ({ marked with cmap := freed } : ef.Disk width)
              node.isContiguous rest :=
            (chained.drop 1).spared touches.spares fun cluster membership same =>
              notInRest (same ▸ membership)
          obtain ⟨rc, after, looped, further, frees, outcome⟩ :=
            inductionHypothesis (nextCluster (ef.volume io disk.content) node.toExfatNode first)
              left (fun more => by
                have next := chained.nextCluster io laid (List.getElem?_cons_zero ..)
                  (Nat.succ_lt_succ (List.length_pos_of_ne_nil more))
                rw [List.getElem?_cons_succ, ← List.head?_eq_getElem?] at next
                exact next)
          refine ⟨rc, after, ?_, (touches.of_mem List.mem_cons_self).trans
            (further.mono fun _ => List.mem_cons_of_mem _), fun zero => one.cons (frees zero),
            outcome⟩
          rw [set]
          dsimp only
          rw [released, ok_bind]
          exact looped
        · rw [set]
          exact ⟨-eio, marked, rfl, touches.of_mem List.mem_cons_self,
            fun zero => absurd zero (by decide), Or.inr ⟨rfl, unreliable⟩⟩
      · rw [if_pos broken]
        exact ⟨-eio, disk, rfl, .refl _ _, fun zero => absurd zero (by decide),
          Or.inr ⟨rfl, unreliable⟩⟩

theorem Holds.cropped {length : Nat} (holds : Holds ef disk node.toExfatNode clusters)
    (isLast : (clusters.take length).getLast? = some last)
    (touches : Touches ef (fun cluster => cluster = last ∨ cluster ∈ clusters.drop length)
      disk after)
    (used : ∀ cluster ∈ clusters.take length, after.cmap.used cluster = true) :
    Holds ef after node.rewind.toExfatNode (clusters.take length) := by
  have apart := List.disjoint_take_drop holds.nodup (Nat.le_refl length)
  have some : clusters.take length ≠ [] := by
    intro none
    rw [none] at isLast
    cases isLast
  exact {
    valid := fun cluster membership => holds.valid cluster (List.mem_of_mem_take membership)
    used := used
    nodup := holds.nodup.sublist (List.take_sublist _ _)
    start := by
      refine holds.start.trans ?_
      cases clusters with
      | nil => simp at some
      | cons first rest =>
          cases length with
          | zero => simp at some
          | succ length => rfl
    linked := (holds.linked.take length).congr fun cluster membership => by
      have before := (List.dropLast_sublist _).mem membership
      apply next_congr
      apply touches.entry cluster (holds.valid cluster (List.mem_of_mem_take before))
      rintro (same | behind)
      · exact ne_of_mem_dropLast (holds.nodup.sublist (List.take_sublist _ _)) isLast membership
          same
      · exact apart before behind
    pointer := Or.inl rfl }

/-- What a call that leaves a file so many clusters leaves. -/
structure ShrinkResult (ef : FatVolume) (io : Transfers) (disk after : ef.Disk width)
    (node shrunk : FileNode) (clusters : List UInt32) (length : Nat) (rc : Int) : Prop where
  info : SameInfo node shrunk
  touches : Touches ef (· ∈ clusters) disk after
  done : rc = 0 → Holds ef after shrunk.toExfatNode (clusters.take length) ∧
    Frees ef disk after (clusters.drop length) ∧
    Ended ef after shrunk.toExfatNode (clusters.take length)
  outcome : rc = 0 ∨ rc = -eio ∧ ¬ io.Reliable

theorem ShrinkResult.failed {length : Nat} {shrunk : FileNode} (info : SameInfo node shrunk)
    (touches : Touches ef (· ∈ clusters) disk after) (unreliable : ¬ io.Reliable) :
    ShrinkResult ef io disk after node shrunk clusters length (-eio) :=
  ⟨info, touches, fun zero => absurd zero (by decide), Or.inr ⟨rfl, unreliable⟩⟩

theorem ShrinkResult.of_info {length : Nat} {rc : Int} {moved shrunk : FileNode}
    (result : ShrinkResult ef io disk after moved shrunk clusters length rc)
    (info : SameInfo node moved) : ShrinkResult ef io disk after node shrunk clusters length rc :=
  ⟨info.trans result.info, result.touches, result.done, result.outcome⟩

/-- The chain is cut behind one of its clusters, and what follows is freed. -/
theorem crop_eq (io : Transfers) (laid : ef.Laid)
    (holds : Holds ef disk node.toExfatNode clusters) {length : Nat}
    (found : clusters[length - 1]? = some last) (inhabited : 0 < length)
    (shorter : length < clusters.length) :
    ∃ written marked,
      setNextCluster ef io disk node.isContiguous last exfatClusterEnd = (written, marked) ∧
      (written = false →
        ShrinkResult ef io disk marked node node clusters length (-eio)) ∧
      (written = true → ∃ rc after, shrinkLoop ef io node.rewind (clusters.length - length)
          (nextCluster (ef.volume io disk.content) node.toExfatNode last) marked =
            .ok (rc, after) ∧
        ShrinkResult ef io disk after node node.rewind clusters length rc) := by
  have valid := holds.valid last (List.mem_of_getElem? found)
  have isLast : (clusters.take length).getLast? = some last := by
    rw [List.getLast?_eq_getElem?, List.length_take, Nat.min_eq_left (by omega),
      List.getElem?_take, if_pos (by omega), found]
  have kept : last ∈ clusters.take length := List.mem_of_getLast? isLast
  have apart := List.disjoint_take_drop holds.nodup (Nat.le_refl length)
  obtain ⟨written, marked, set, touches, cmap, entry, done⟩ :=
    setNextCluster_eq io disk laid valid node.isContiguous exfatClusterEnd
  have marks := touches.of_mem (List.mem_of_getElem? found)
  refine ⟨written, marked, set, fun unwritten => ?_, fun all => ?_⟩
  · exact .failed (.refl node) marks (done.resolve_left (by rw [unwritten]; decide))
  · have doomed : Chained ef marked node.isContiguous (clusters.drop length) :=
      (holds.chained.drop length).spared touches.spares fun cluster behind same =>
        apart kept (same ▸ behind)
    obtain ⟨rc, after, looped, further, frees, outcome⟩ := shrinkLoop_eq io node.rewind
      (nextCluster (ef.volume io disk.content) node.toExfatNode last) laid doomed (fun _ => by
        have next := holds.chained.nextCluster io laid found (by omega)
        rw [Nat.sub_add_cancel inhabited] at next
        rw [List.head?_drop]
        exact next)
    rw [List.length_drop] at looped
    refine ⟨rc, after, looped, ⟨rfl, rfl, rfl, rfl, rfl⟩, marks.trans
      (further.mono fun _ => List.mem_of_mem_drop), fun zero => ⟨?_, ?_, ?_⟩, outcome⟩
    · refine holds.cropped isLast ((touches.mono fun _ => Or.inl).trans
        (further.mono fun _ => Or.inr)) fun cluster front => ?_
      have inside := List.mem_of_mem_take front
      refine ((frees zero).used cluster (holds.valid cluster inside)).mpr ⟨apart front, ?_⟩
      rw [cmap]
      exact holds.used cluster inside
    · exact (frees zero).of_cmap cmap
    · intro chained other isLastToo
      obtain rfl : last = other := Option.some.inj (isLast.symm.trans isLastToo)
      rw [further.entry last valid (apart kept), entry all chained]

/-- A file that shrinks to nothing: all its clusters are freed. -/
theorem vacate_eq (io : Transfers) (laid : ef.Laid)
    (holds : Holds ef disk node.toExfatNode clusters) :
    ∃ rc after, shrinkLoop ef io node.vacate clusters.length node.startCluster disk =
        .ok (rc, after) ∧
      ShrinkResult ef io disk after node node.vacate clusters 0 rc := by
  obtain ⟨rc, after, looped, touches, frees, outcome⟩ := shrinkLoop_eq io node.vacate
    node.startCluster laid holds.chained (fun some => Or.inl (by
      rw [List.head?_eq_getElem?, holds.getElem?_zero (List.length_pos_of_ne_nil some)]))
  refine ⟨rc, after, looped, ⟨rfl, rfl, rfl, rfl, rfl⟩, touches, fun zero => ⟨?_, ?_, ?_⟩,
    outcome⟩
  · refine ⟨?_, ?_, List.nodup_nil, rfl, linked_nil, Or.inl rfl⟩
    · intro cluster membership
      cases membership
    · intro cluster membership
      cases membership
  · rw [List.drop_zero]
    exact frees zero
  · exact .nil after _

theorem Holds.startCluster_ne_free (holds : Holds ef disk node.toExfatNode clusters)
    (held : 0 < clusters.length) : node.startCluster ≠ exfatClusterFree := by
  have first := holds.getElem?_zero held
  have data := (valid_iff.mp (holds.valid _ (List.mem_of_getElem? first))).1
  intro none
  rw [none] at data
  exact absurd data (by decide)

/-- A file that shrinks: the clusters at its end are free, if no transfer fails. -/
theorem shrinkFile_eq (io : Transfers) (laid : ef.Laid)
    (holds : Holds ef disk node.toExfatNode clusters)
    (length : clusters.length = current.toNat) (more : 0 < difference.toNat)
    (within : difference.toNat ≤ current.toNat) :
    ∃ rc after shrunk, shrinkFile ef io disk node current difference = .ok (rc, after, shrunk) ∧
      ShrinkResult ef io disk after node shrunk clusters (current.toNat - difference.toNat) rc := by
  have nonzero : difference ≠ 0 := by
    rintro rfl
    exact Nat.lt_irrefl 0 more
  have ordered : ¬ current < difference := by
    rw [UInt32.lt_iff_toNat_lt]
    omega
  rw [shrinkFile, if_neg nonzero, if_neg (holds.startCluster_ne_free (by omega)), if_neg ordered]
  split_ifs with crop
  · rw [UInt32.lt_iff_toNat_lt] at crop
    have index : (current - difference - 1).toNat = current.toNat - difference.toNat - 1 := by
      have under : (current - difference).toNat = current.toNat - difference.toNat :=
        UInt32.toNat_sub_of_le _ _ (UInt32.not_lt.mp ordered)
      have one : (1 : UInt32) ≤ current - difference := by
        rw [UInt32.le_iff_toNat_le, under]
        exact Nat.sub_pos_of_lt crop
      rw [UInt32.toNat_sub_of_le _ _ one, under]
      rfl
    obtain ⟨last, moved, advanced, same, answer⟩ := exfatAdvanceCluster_holds io laid holds
      (by omega : (current - difference - 1).toNat < clusters.length)
    have info := SameInfo.of_sameFile same
    rw [advanced, ok_bind]
    dsimp only
    rcases answer with ⟨found, movedHolds⟩ | ⟨broken, unreliable⟩
    · have valid := holds.valid last (List.mem_of_getElem? found)
      rw [index] at found
      obtain ⟨written, marked, set, failed, cropped⟩ := crop_eq io laid
        (show Holds ef disk ({ node with toExfatNode := moved } : FileNode).toExfatNode clusters
          from movedHolds) found (by omega) (by omega)
      rw [if_neg (by rw [valid]; exact Bool.false_ne_true),
        exfatNextCluster_of_valid moved (by exact valid), ok_bind, set]
      cases written with
      | false => exact ⟨-eio, marked, _, rfl, (failed rfl).of_info info⟩
      | true =>
          obtain ⟨rc, after, looped, result⟩ := cropped rfl
          have amount : clusters.length - (current.toNat - difference.toNat) =
              difference.toNat := by omega
          rw [amount] at looped
          dsimp only
          rw [looped]
          exact ⟨rc, after, _, rfl, result.of_info info⟩
    · rw [if_pos broken]
      exact ⟨-eio, disk, _, rfl, .failed info (.refl _ _) unreliable⟩
  · rw [UInt32.lt_iff_toNat_lt] at crop
    have all : difference.toNat = clusters.length := by omega
    have none : current.toNat - difference.toNat = 0 := by omega
    obtain ⟨rc, after, looped, result⟩ := vacate_eq io laid holds
    rw [all, looped, ← all, none]
    exact ⟨rc, after, node.vacate, rfl, result⟩

end Shrink

end Vtoydump.Exfat
