import Vtoydump.Exfat.Shrunk

/-!
# What growing a file leaves

A file that grows holds clusters that were free behind its own, and the last of them is marked
as the end; with too few free clusters it is left as it was.  Nothing else is touched,
whichever transfers fail.
-/

namespace Vtoydump.Exfat

open CRun Blocks Chain

variable {width : Nat} {ef : FatVolume} {io : Transfers} {disk after final : ef.Disk width}

theorem Taken.touches {cluster : UInt32} {cmap : ClusterMap width ef.sb.clusterCount.toNat}
    (taken : Taken ef.sb.toExfatSuperBlock disk.cmap cmap cluster) :
    Touches ef (· = cluster) disk { disk with cmap := cmap } where
  entry _ _ _ := rfl
  used other valid apart := (taken.used other valid).trans (or_iff_right apart)
  heap _ _ := rfl

section Link

variable {node : FileNode} {clusters rest : List UInt32} {first previous next : UInt32}

/-- What the last cluster of a file names does not matter. -/
theorem Holds.lastChanged {node : ExfatNode} (holds : Holds ef disk node clusters)
    (isLast : clusters.getLast? = some previous)
    (touches : Touches ef (· = previous) disk after) (cmap : after.cmap = disk.cmap) :
    Holds ef after node clusters where
  valid := holds.valid
  used cluster membership := by
    rw [cmap]
    exact holds.used cluster membership
  nodup := holds.nodup
  start := holds.start
  linked := holds.linked.congr fun cluster membership => next_congr (touches.entry cluster
    (holds.valid cluster ((List.dropLast_sublist _).mem membership))
    (ne_of_mem_dropLast holds.nodup isLast membership))
  pointer := holds.pointer

theorem Holds.extended {node : ExfatNode} (holds : Holds ef disk node clusters)
    (isLast : clusters.getLast? = some previous) (chained : node.isContiguous = false)
    (touches : Touches ef (· = previous) disk after) (cmap : after.cmap = disk.cmap)
    (entry : ef.entry after.content previous = next) (valid : ef.invalid next = false)
    (used : disk.cmap.used next = true) (apart : next ∉ clusters) :
    Holds ef after node (clusters ++ [next]) := by
  have kept := holds.lastChanged isLast touches cmap
  refine ⟨?_, ?_, ?_, ?_, ?_, ?_⟩
  · intro cluster membership
    rcases List.mem_append.mp membership with old | new
    · exact holds.valid cluster old
    · rw [List.mem_singleton.mp new]
      exact valid
  · intro cluster membership
    rcases List.mem_append.mp membership with old | new
    · exact kept.used cluster old
    · rw [List.mem_singleton.mp new, cmap]
      exact used
  · refine holds.nodup.append (List.nodup_singleton next) ?_
    intro cluster old new
    exact apart (List.mem_singleton.mp new ▸ old)
  · refine holds.start.trans ?_
    cases clusters with
    | nil => cases isLast
    | cons first rest => rfl
  · apply kept.linked.concat
    intro before isBefore
    rw [isLast] at isBefore
    cases isBefore
    rw [FatVolume.next, chained]
    exact entry
  · exact holds.pointer.imp_right fun inside =>
      (List.getElem?_append_left (List.getElem?_eq_some_iff.mp inside).1).trans inside

theorem toNat_add_one (laid : ef.Laid) (valid : ef.invalid first = false) :
    (first + 1).toNat = first.toNat + 1 := by
  have inside := (valid_iff.mp valid).2
  have few := laid.few
  rw [UInt32.toNat_add, UInt32.toNat_one, Nat.mod_eq_of_lt (by omega)]

theorem toNat_last (laid : ef.Laid)
    (valid : ∀ cluster ∈ first :: rest, ef.invalid cluster = false)
    (linked : Linked (· + 1) (first :: rest)) (isLast : (first :: rest).getLast? = some previous) :
    previous.toNat = first.toNat + rest.length := by
  induction rest generalizing first with
  | nil =>
      cases isLast
      rfl
  | cons second rest inductionHypothesis =>
      have follows := linked.follower (List.getElem?_cons_zero ..) (List.getElem?_cons_succ ..)
      rw [List.getLast?_cons_cons] at isLast
      rw [inductionHypothesis (fun cluster membership => valid cluster
        (List.mem_cons_of_mem _ membership)) linked.tail isLast, ← follows,
        toNat_add_one laid (valid first List.mem_cons_self), List.length_cons]
      omega

theorem noncontiguousLoop_eq (io : Transfers) (disk : ef.Disk width) (laid : ef.Laid)
    (valid : ∀ cluster ∈ first :: rest, ef.invalid cluster = false)
    (nodup : (first :: rest).Nodup) (linked : Linked (· + 1) (first :: rest)) :
    ∃ written after, noncontiguousLoop ef io rest.length first disk = (written, after) ∧
      Touches ef (· ∈ first :: rest) disk after ∧ after.cmap = disk.cmap ∧
      (written = true → Linked (ef.entry after.content) (first :: rest)) ∧
      (written = true ∨ ¬ io.Reliable) := by
  induction rest generalizing first disk with
  | nil => exact ⟨true, disk, rfl, .refl _ _, rfl, fun _ => linked_singleton first, Or.inl rfl⟩
  | cons second rest inductionHypothesis =>
      have follows := linked.follower (List.getElem?_cons_zero ..) (List.getElem?_cons_succ ..)
      have notBehind := (List.nodup_cons.mp nodup).1
      obtain ⟨written, marked, set, touches, cmap, entry, done⟩ :=
        setNextCluster_eq io disk laid (valid first List.mem_cons_self) false (first + 1)
      have marks : Touches ef (· ∈ first :: second :: rest) disk marked :=
        touches.of_mem List.mem_cons_self
      rw [List.length_cons, noncontiguousLoop, set]
      cases written with
      | false =>
          exact ⟨false, marked, rfl, marks, cmap, fun written => absurd written
            Bool.false_ne_true, Or.inr (done.resolve_left Bool.false_ne_true)⟩
      | true =>
          obtain ⟨all, after, looped, further, same, chained, outcome⟩ :=
            inductionHypothesis marked (fun cluster membership => valid cluster
              (List.mem_cons_of_mem _ membership)) (List.nodup_cons.mp nodup).2 linked.tail
          refine ⟨all, after, ?_, marks.trans (further.mono fun cluster membership =>
            List.mem_cons_of_mem _ membership), same.trans cmap, fun written => ?_, outcome⟩
          · rw [follows]
            exact looped
          · refine List.isChain_cons_cons.mpr ⟨?_, chained written⟩
            rw [further.entry first (valid first List.mem_cons_self) notBehind, entry rfl rfl]
            exact follows

/-- A file that is contiguous is put into the table, unless the next cluster is the one
before its last. -/
theorem leaveContiguous_eq (io : Transfers) (laid : ef.Laid) (holds : Holds ef disk node.toExfatNode clusters)
    (isLast : clusters.getLast? = some previous)
    (apart : node.isContiguous = true → next ≠ previous - 1) :
    ∃ written after chained,
      leaveContiguous ef io disk node previous next = (written, after, chained) ∧
      SameInfo node chained ∧ Touches ef (· ∈ clusters) disk after ∧ after.cmap = disk.cmap ∧
      (written = true → chained.isContiguous = false ∧
        Holds ef after chained.toExfatNode clusters) ∧
      (written = true ∨ ¬ io.Reliable) := by
  rw [leaveContiguous]
  split_ifs with both
  · have contiguous := both.2
    have start := holds.start
    have linked := holds.linked
    rw [contiguous] at linked
    cases clusters with
    | nil => cases isLast
    | cons first rest =>
        obtain rfl : node.startCluster = first := start
        have last := toNat_last laid holds.valid linked isLast
        obtain ⟨written, after, looped, touches, cmap, chained, outcome⟩ :=
          noncontiguousLoop_eq io disk laid holds.valid holds.nodup linked
        rw [makeNoncontiguous, last, Nat.add_sub_cancel_left, looped]
        cases written with
        | false =>
            exact ⟨false, after, node, rfl, ⟨rfl, rfl, rfl, rfl, rfl⟩, touches, cmap,
              fun written => absurd written Bool.false_ne_true,
              Or.inr (outcome.resolve_left Bool.false_ne_true)⟩
        | true =>
            refine ⟨true, after, _, rfl, ⟨rfl, rfl, rfl, rfl, rfl⟩, touches, cmap,
              fun _ => ⟨rfl, holds.valid, ?_, holds.nodup, rfl, chained rfl, holds.pointer⟩,
              Or.inl rfl⟩
            intro cluster membership
            rw [cmap]
            exact holds.used cluster membership
  · refine ⟨true, disk, node, rfl, ⟨rfl, rfl, rfl, rfl, rfl⟩, .refl _ _, rfl,
      fun _ => ⟨?_, holds⟩, Or.inl rfl⟩
    by_contra contiguous
    have contiguous := eq_true_of_ne_false contiguous
    exact both ⟨apart contiguous, contiguous⟩

end Link

/-- The clusters that a file may change: its own, and those that are free. -/
def Owned (origin : ef.Disk width) (clusters : List UInt32) (cluster : UInt32) : Prop :=
  cluster ∈ clusters ∨ origin.cmap.used cluster = false

/-- The volume has one free cluster, and it is this one. -/
def OnlyFree (ef : FatVolume) (disk : ef.Disk width) (cluster : UInt32) : Prop :=
  ef.invalid cluster = false ∧ ∀ other, ef.invalid other = false →
    (disk.cmap.used other = false ↔ other = cluster)

/-- Clusters that were free are in use now, all others are as before. -/
structure Grows (ef : FatVolume) (origin after : ef.Disk width) (added : List UInt32) :
    Prop where
  fresh : ∀ cluster ∈ added, origin.cmap.used cluster = false
  used : ∀ cluster, ef.invalid cluster = false →
    (after.cmap.used cluster = true ↔ cluster ∈ added ∨ origin.cmap.used cluster = true)
  counted : exfatCountFreeClusters after.cmap.chunk + added.length =
    exfatCountFreeClusters origin.cmap.chunk

section Grow

variable {origin : ef.Disk width} {node : FileNode} {clusters added : List UInt32}
  {current previous allocated difference next : UInt32}

theorem Grows.refl (origin : ef.Disk width) : Grows ef origin origin [] where
  fresh _ membership := by cases membership
  used cluster _ := by simp
  counted := rfl

theorem Grows.take {cmap : ClusterMap width ef.sb.clusterCount.toNat}
    (grows : Grows ef origin disk added)
    (taken : Taken ef.sb.toExfatSuperBlock disk.cmap cmap next)
    (same : after.cmap = cmap) : Grows ef origin after (added ++ [next]) where
  fresh cluster membership := by
    rcases List.mem_append.mp membership with old | new
    · exact grows.fresh cluster old
    · rw [List.mem_singleton.mp new]
      by_contra inUse
      have before := (grows.used next taken.valid).mpr (Or.inr (eq_true_of_ne_false inUse))
      rw [taken.free] at before
      cases before
  used cluster valid := by
    rw [same, taken.used cluster valid, grows.used cluster valid, List.mem_append,
      List.mem_singleton]
    tauto
  counted := by
    have one := taken.counted
    have before := grows.counted
    rw [same, List.length_append, List.length_singleton]
    omega

theorem Grows.of_cmap (grows : Grows ef origin disk added) (cmap : after.cmap = disk.cmap) :
    Grows ef origin after added where
  fresh := grows.fresh
  used := by
    rw [cmap]
    exact grows.used
  counted := by
    rw [cmap]
    exact grows.counted

theorem Grows.undo (grows : Grows ef origin disk added) (frees : Frees ef disk after added) :
    Grows ef origin after [] where
  fresh _ membership := by cases membership
  used cluster valid := by
    rw [frees.used cluster valid, grows.used cluster valid]
    constructor
    · rintro ⟨kept, new | old⟩
      · exact absurd new kept
      · exact Or.inr old
    · rintro (none | old)
      · cases none
      · refine ⟨fun new => ?_, Or.inr old⟩
        rw [grows.fresh cluster new] at old
        cases old
  counted := by
    have before := grows.counted
    rw [frees.counted, List.length_nil]
    omega

theorem Grows.free_of_ne_used (grows : Grows ef origin disk added)
    (valid : ef.invalid next = false) (free : disk.cmap.used next = false) :
    origin.cmap.used next = false := by
  by_contra inUse
  have before := (grows.used next valid).mpr (Or.inr (eq_true_of_ne_false inUse))
  rw [free] at before
  cases before

structure GrowResult (ef : FatVolume) (io : Transfers) (origin after : ef.Disk width)
    (node grown : FileNode) (clusters : List UInt32) (amount : Nat) (rc : Int) : Prop where
  info : SameInfo node grown
  touches : Touches ef (Owned origin clusters) origin after
  done : rc = 0 → ∃ new, new.length = amount ∧ Holds ef after grown.toExfatNode (clusters ++ new) ∧
    Grows ef origin after new ∧ Ended ef after grown.toExfatNode (clusters ++ new)
  settled : rc = 0 → grown.isContiguous = true → ¬ OnlyFree ef after (grown.startCluster - 1)
  outcome : rc = 0 ∨
    rc = -enospc ∧ exfatCountFreeClusters origin.cmap.chunk < amount ∧
      Holds ef after grown.toExfatNode clusters ∧ Grows ef origin after [] ∧
      (Ended ef origin node.toExfatNode clusters → Ended ef after grown.toExfatNode clusters) ∨
    rc < 0 ∧ ¬ io.Reliable

/-- A file in the loop of `grow_file`, after some clusters were added to it. -/
structure Growing (ef : FatVolume) (origin disk : ef.Disk width) (original node : FileNode)
    (clusters added : List UInt32) (previous : UInt32) : Prop where
  info : SameInfo original node
  touches : Touches ef (Owned origin clusters) origin disk
  holds : Holds ef disk node.toExfatNode (clusters ++ added)
  isLast : (clusters ++ added).getLast? = some previous
  grows : Grows ef origin disk added
  ended : added = [] → Ended ef origin original.toExfatNode clusters →
    Ended ef disk node.toExfatNode clusters

variable {original grown : FileNode} {amount left : Nat}

theorem GrowResult.failed {rc : Int} (info : SameInfo node grown)
    (touches : Touches ef (Owned origin clusters) origin after) (negative : rc < 0)
    (unreliable : ¬ io.Reliable) :
    GrowResult ef io origin after node grown clusters amount rc :=
  ⟨info, touches, fun zero => by omega, fun zero => by omega, Or.inr (Or.inr ⟨negative, unreliable⟩)⟩

theorem GrowResult.full (info : SameInfo node grown)
    (touches : Touches ef (Owned origin clusters) origin after)
    (few : exfatCountFreeClusters origin.cmap.chunk < amount)
    (holds : Holds ef after grown.toExfatNode clusters) (grows : Grows ef origin after [])
    (ended : Ended ef origin node.toExfatNode clusters →
      Ended ef after grown.toExfatNode clusters) :
    GrowResult ef io origin after node grown clusters amount (-enospc) :=
  ⟨info, touches, fun zero => absurd zero (by decide), fun zero => absurd zero (by decide),
    Or.inr (Or.inl ⟨rfl, few, holds, grows, ended⟩)⟩

section Loop

variable (growing : Growing ef origin disk original node clusters added previous)

include growing

theorem Growing.owned : ∀ cluster ∈ clusters ++ added, Owned origin clusters cluster :=
  fun cluster membership =>
    (List.mem_append.mp membership).imp_right (growing.grows.fresh cluster)

theorem Growing.mem_last : previous ∈ clusters ++ added := List.mem_of_getLast? growing.isLast

/-- Behind the last cluster that was added the end is marked. -/
theorem Growing.done (io : Transfers) (laid : ef.Laid)
    (settled : node.isContiguous = true → ¬ OnlyFree ef disk (node.startCluster - 1)) :
    ∃ rc after grown, growLoop ef io current 0 allocated previous disk node =
        .ok (rc, after, grown) ∧
      GrowResult ef io origin after original grown clusters added.length rc := by
  obtain ⟨written, marked, set, marks, cmap, entry, done⟩ := setNextCluster_eq io disk laid
    (growing.holds.valid previous growing.mem_last) node.isContiguous exfatClusterEnd
  have touches := growing.touches.trans ((marks.of_mem growing.mem_last).mono growing.owned)
  rw [growLoop, set]
  cases written with
  | false =>
      exact ⟨-eio, marked, node, rfl,
        .failed growing.info touches (by decide) (done.resolve_left Bool.false_ne_true)⟩
  | true =>
      have held := growing.holds.lastChanged growing.isLast marks cmap
      refine ⟨0, marked, node, rfl, growing.info, touches, fun _ => ⟨added, rfl, held,
        growing.grows.of_cmap cmap, fun chained last isLast => ?_⟩, fun _ contiguous => ?_,
        Or.inl rfl⟩
      · obtain rfl : previous = last := Option.some.inj (growing.isLast.symm.trans isLast)
        exact entry rfl chained
      · rw [OnlyFree, cmap]
        exact settled contiguous

/-- With no free cluster left, the clusters that were added are given back. -/
theorem Growing.full (io : Transfers) (laid : ef.Laid)
    (allocation : allocateCluster disk.cmap (previous + 1) = (exfatClusterEnd, disk.cmap))
    (none : exfatCountFreeClusters disk.cmap.chunk = 0)
    (length : clusters.length = current.toNat) (lengthAdded : added.length = allocated.toNat)
    (fits : clusters.length + added.length < 4294967296) :
    ∃ rc after grown, growLoop ef io current (left + 1) allocated previous disk node =
        .ok (rc, after, grown) ∧
      GrowResult ef io origin after original grown clusters (added.length + (left + 1)) rc := by
  have counted := growing.grows.counted
  rw [growLoop, allocation]
  dsimp only
  rw [if_pos (by exact invalid_end laid.few)]
  split_ifs with first
  · obtain rfl : added = [] := by
      apply List.eq_nil_of_length_eq_zero
      rw [lengthAdded, first]
      rfl
    have holds := growing.holds
    rw [List.append_nil] at holds
    exact ⟨-enospc, disk, node, rfl, .full growing.info growing.touches (by omega) holds
      growing.grows (growing.ended rfl)⟩
  · have some : 0 < allocated.toNat := by
      apply Nat.pos_of_ne_zero
      intro zero
      exact first (UInt32.toNat_inj.mp zero)
    have sum : (current + allocated).toNat = current.toNat + allocated.toNat := by
      rw [UInt32.toNat_add, Nat.mod_eq_of_lt (by omega)]
    have counts : (current + allocated).toNat - allocated.toNat = clusters.length := by omega
    obtain ⟨rc, after, shrunk, shrinks, result⟩ := shrinkFile_eq io laid growing.holds
      (by rw [List.length_append]; omega : _ = (current + allocated).toNat) some (by omega)
    have touches := growing.touches.trans (result.touches.mono growing.owned)
    rw [counts] at result
    have freed := result.done
    rw [List.take_left, List.drop_left] at freed
    refine ⟨-enospc, after, shrunk, by rw [shrinks]; rfl, ?_⟩
    rcases result.outcome with zero | ⟨_, unreliable⟩
    · obtain ⟨kept, frees, ended⟩ := freed zero
      exact .full (growing.info.trans result.info) touches (by omega) kept
        (growing.grows.undo frees) fun _ => ended
    · exact .failed (growing.info.trans result.info) touches (by decide) unreliable

/-- A free cluster is linked behind the last one, or a transfer fails on the way. -/
theorem Growing.link {cmap : ClusterMap width ef.sb.clusterCount.toNat} (io : Transfers)
    (laid : ef.Laid) (allocation : allocateCluster disk.cmap (previous + 1) = (next, cmap))
    (taken : Taken ef.sb.toExfatSuperBlock disk.cmap cmap next)
    (apart : node.isContiguous = true → next ≠ previous - 1) :
    (∃ after grown, growLoop ef io current (left + 1) allocated previous disk node =
        .ok (-eio, after, grown) ∧
      GrowResult ef io origin after original grown clusters amount (-eio)) ∨
    ∃ final moved, growLoop ef io current (left + 1) allocated previous disk node =
        growLoop ef io current left (allocated + 1) next final moved ∧
      moved.isContiguous = false ∧
      Growing ef origin final original moved clusters (added ++ [next]) next := by
  have free := growing.grows.free_of_ne_used taken.valid taken.free
  have notHeld : next ∉ clusters ++ added := by
    intro membership
    have inUse := growing.holds.used next membership
    rw [taken.free] at inUse
    cases inUse
  have taking := taken.touches.mono fun cluster same =>
    (Or.inr (same ▸ free) : Owned origin clusters cluster)
  obtain ⟨all, chained, moved, leaves, info, marks, kept, linked, outcome⟩ :=
    leaveContiguous_eq io laid (growing.holds.spared taken.touches.spares
      fun cluster membership same => notHeld (same ▸ membership)) growing.isLast apart
  have touches := (growing.touches.trans taking).trans (marks.mono growing.owned)
  have infoMoved := growing.info.trans info
  have valid : ef.invalid next = false := taken.valid
  rw [growLoop, allocation]
  dsimp only
  rw [if_neg (by rw [valid]; exact Bool.false_ne_true), leaves]
  cases all with
  | false =>
      exact Or.inl ⟨chained, moved, rfl,
        .failed infoMoved touches (by decide) (outcome.resolve_left Bool.false_ne_true)⟩
  | true =>
      obtain ⟨notContiguous, held⟩ := linked rfl
      obtain ⟨written, final, set, sets, same, entry, done⟩ := setNextCluster_eq io chained laid
        (growing.holds.valid previous growing.mem_last) moved.isContiguous next
      have touchesToo := touches.trans ((sets.of_mem growing.mem_last).mono growing.owned)
      dsimp only
      rw [set]
      cases written with
      | false =>
          exact Or.inl ⟨final, moved, rfl,
            .failed infoMoved touchesToo (by decide) (done.resolve_left Bool.false_ne_true)⟩
      | true =>
          have used : chained.cmap.used next = true := by
            rw [kept]
            exact (taken.used next taken.valid).mpr (Or.inl rfl)
          have longer := held.extended growing.isLast notContiguous sets same
            (entry rfl notContiguous) taken.valid used notHeld
          rw [List.append_assoc] at longer
          exact Or.inr ⟨final, moved, rfl, notContiguous, {
            info := infoMoved
            touches := touchesToo
            holds := longer
            isLast := by rw [← List.append_assoc, List.getLast?_concat]
            grows := growing.grows.take taken (same.trans kept)
            ended := by simp }⟩

end Loop

theorem growLoop_eq (io : Transfers) (left : Nat) (laid : ef.Laid)
    (growing : Growing ef origin disk original node clusters added previous)
    (length : clusters.length = current.toNat) (lengthAdded : added.length = allocated.toNat)
    (fits : clusters.length + added.length + left < 4294967296)
    (apart : node.isContiguous = true → left ≠ 0 →
      (allocateCluster disk.cmap (previous + 1)).1 ≠ previous - 1)
    (settled : left = 0 → node.isContiguous = true →
      ¬ OnlyFree ef disk (node.startCluster - 1)) :
    ∃ rc after grown, growLoop ef io current left allocated previous disk node =
        .ok (rc, after, grown) ∧
      GrowResult ef io origin after original grown clusters (added.length + left) rc := by
  induction left generalizing disk node added previous allocated with
  | zero => exact growing.done io laid (settled rfl)
  | succ left inductionHypothesis =>
      rcases allocateCluster_taken laid.few disk.cmap (previous + 1) with
        ⟨next, cmap, allocation, taken, _⟩ | ⟨allocation, none⟩
      · rw [allocation] at apart
        rcases growing.link io laid allocation taken fun contiguous =>
          apart contiguous (Nat.succ_ne_zero left) with
          ⟨after, grown, failed, result⟩ | ⟨final, moved, looped, chained, growingToo⟩
        · exact ⟨-eio, after, grown, failed, result⟩
        · have number : (allocated + 1).toNat = allocated.toNat + 1 := by
            rw [UInt32.toNat_add, UInt32.toNat_one, Nat.mod_eq_of_lt (by omega)]
          have one : (added ++ [next]).length = added.length + 1 := by
            rw [List.length_append, List.length_singleton]
          have notContiguous : ¬ moved.isContiguous = true := by
            rw [chained]
            exact Bool.false_ne_true
          have rest := inductionHypothesis growingToo (by omega : _ = (allocated + 1).toNat)
            (by omega) (fun contiguous => absurd contiguous notContiguous)
            (fun _ contiguous => absurd contiguous notContiguous)
          rw [one, Nat.add_right_comm, Nat.add_assoc] at rest
          rw [looped]
          exact rest
      · exact growing.full io laid allocation none length lengthAdded (by omega)

end Grow

/-- A file of one cluster, marked contiguous, and the only free cluster is the one before
it: `grow_file` compares with the wrong neighbour here. -/
def TakesBelow (ef : FatVolume) (disk : ef.Disk width) (node : ExfatNode) (current : UInt32) :
    Prop :=
  node.isContiguous = true ∧ current = 1 ∧ OnlyFree ef disk (node.startCluster - 1)

section File

variable {node : FileNode} {clusters : List UInt32} {current difference cluster next : UInt32}

theorem toNat_pred (valid : ef.invalid cluster = false) :
    (cluster - 1).toNat = cluster.toNat - 1 := by
  have data := (valid_iff.mp valid).1
  apply UInt32.toNat_sub_of_le
  rw [UInt32.le_iff_toNat_le, UInt32.toNat_one]
  omega

/-- The next free cluster is the one before a cluster in use only when all others are in
use as well. -/
theorem onlyFree_of_allocated (laid : ef.Laid) (valid : ef.invalid cluster = false)
    (used : disk.cmap.used cluster = true)
    (below : (allocateCluster disk.cmap (cluster + 1)).1 = cluster - 1) :
    OnlyFree ef disk (cluster - 1) := by
  obtain ⟨data, inside⟩ := valid_iff.mp valid
  have pred := toNat_pred valid
  rcases allocateCluster_taken laid.few disk.cmap (cluster + 1) with
    ⟨next, cmap, allocation, taken, isNext⟩ | ⟨allocation, _⟩
  · rw [allocation] at below
    obtain rfl : next = cluster - 1 := below
    refine ⟨taken.valid, fun other validOther => ⟨fun free => ?_, fun same => ?_⟩⟩
    · by_contra apart
      have different : other.toNat ≠ (cluster - 1).toNat := fun same =>
        apart (UInt32.toNat_inj.mp same)
      have notSelf : other ≠ cluster := by
        rintro rfl
        rw [used] at free
        cases free
      have differentToo : other.toNat ≠ cluster.toNat := fun same =>
        notSelf (UInt32.toNat_inj.mp same)
      obtain ⟨dataOther, insideOther⟩ := valid_iff.mp validOther
      obtain ⟨dataBelow, _⟩ := valid_iff.mp taken.valid
      obtain ⟨_, _, all⟩ := isNext
      have begins : hintIndex ef.sb.clusterCount.toNat (cluster + 1) =
          if ef.sb.clusterCount.toNat ≤ cluster.toNat - 1 then 0 else cluster.toNat - 1 := by
        have number := toNat_add_one laid valid
        rw [hintIndex, toNat_sub_first (by omega), number]
        rfl
      have set : disk.cmap.chunk.isSet (other - exfatFirstDataCluster).toNat = true := by
        rw [begins, toNat_sub_first (by omega : 2 ≤ (cluster - 1).toNat)] at all
        rw [toNat_sub_first dataOther]
        split_ifs at all
        · exact all _ (Nat.zero_le _) (by omega)
        · omega
        · omega
        · exact all _ (by omega) (by omega)
      rw [ClusterMap.used, set] at free
      cases free
    · rw [same]
      exact taken.free
  · rw [allocation] at below
    have number := congrArg UInt32.toNat below
    rw [pred] at number
    dsimp only at number
    have last : exfatClusterEnd.toNat = 0xffffffff := rfl
    have few := laid.few
    omega

/-- Clusters of a file that are numbered one after the other: the one before the last is in
use when there are two. -/
theorem used_before_last (holds : Holds ef disk node.toExfatNode clusters)
    (contiguous : node.isContiguous = true) {previous : UInt32} {index : Nat}
    (isLast : clusters[index + 1]? = some previous) : disk.cmap.used (previous - 1) = true := by
  have inside := (List.getElem?_eq_some_iff.mp isLast).1
  have here := List.getElem?_eq_getElem (by omega : index < clusters.length)
  have membership := List.getElem_mem (by omega : index < clusters.length)
  have linked := holds.linked
  rw [contiguous] at linked
  have follows := linked.follower here isLast
  have before : previous - 1 = clusters[index] := by
    rw [← follows]
    exact UInt32.add_sub_cancel _ _
  rw [before]
  exact holds.used _ membership

/-- The first free cluster of a volume has no free cluster before it. -/
theorem not_below_first {cmap : ClusterMap width ef.sb.clusterCount.toNat} (laid : ef.Laid)
    (taken : Taken ef.sb.toExfatSuperBlock disk.cmap cmap cluster)
    (isNext : NextFree disk.cmap.chunk (hintIndex ef.sb.clusterCount.toNat 0)
      (cluster - exfatFirstDataCluster).toNat) :
    ¬ OnlyFree ef ({ disk with cmap := cmap } : ef.Disk width) (cluster - 1) := by
  rintro ⟨validBelow, only⟩
  have free := (only _ validBelow).mpr rfl
  obtain ⟨data, _⟩ := valid_iff.mp taken.valid
  obtain ⟨dataBelow, _⟩ := valid_iff.mp validBelow
  have pred := toNat_pred taken.valid
  have begins : hintIndex ef.sb.clusterCount.toNat 0 = 0 := by
    have far : (0 - exfatFirstDataCluster : UInt32).toNat = 0xfffffffe := rfl
    have few := laid.few
    rw [hintIndex, far, if_pos (by omega)]
  obtain ⟨inside, _, all⟩ := isNext
  rw [begins, if_pos (Nat.zero_le _)] at all
  have set := all (cluster - 1 - exfatFirstDataCluster).toNat (Nat.zero_le _) (by
    rw [toNat_sub_first dataBelow, toNat_sub_first data]
    omega)
  have used : cmap.used (cluster - 1) = true := (taken.used _ validBelow).mpr (Or.inr set)
  rw [used] at free
  cases free

theorem growFile_begin (io : Transfers) (laid : ef.Laid)
    (holds : Holds ef disk node.toExfatNode []) (none : current.toNat = 0)
    (more : 0 < difference.toNat) :
    ∃ rc after grown, growFile ef io disk node current difference = .ok (rc, after, grown) ∧
      GrowResult ef io disk after node grown [] difference.toNat rc := by
  have bound := difference.toNat_lt
  have nonzero : difference ≠ 0 := by
    rintro rfl
    exact Nat.lt_irrefl 0 more
  have start : node.startCluster = exfatClusterFree := holds.start
  have first : node.fptrIndex = 0 := holds.pointer.resolve_right (by simp)
  rw [growFile, if_neg nonzero, if_neg (not_not.mpr start), if_neg (not_not.mpr first)]
  rcases allocateCluster_taken laid.few disk.cmap 0 with
    ⟨cluster, cmap, allocation, taken, isNext⟩ | ⟨allocation, full⟩
  · have valid : ef.invalid cluster = false := taken.valid
    have used : cmap.used cluster = true := (taken.used cluster valid).mpr (Or.inl rfl)
    have notBelow := not_below_first laid taken isNext
    have growing : Growing ef disk ({ disk with cmap := cmap } : ef.Disk width) node
        (node.begin cluster) [] [cluster] cluster := {
      info := ⟨rfl, rfl, rfl, rfl, rfl⟩
      touches := taken.touches.mono fun other same => by
        rw [same]
        exact Or.inr taken.free
      holds := by
        refine ⟨?_, ?_, List.nodup_singleton _, rfl, linked_singleton _, Or.inl first⟩
        · intro other membership
          rw [List.mem_singleton.mp membership]
          exact valid
        · intro other membership
          rw [List.mem_singleton.mp membership]
          exact used
      isLast := rfl
      grows := (Grows.refl disk).take taken rfl
      ended := by simp }
    rw [allocation]
    dsimp only
    rw [if_neg (by rw [valid]; exact Bool.false_ne_true)]
    have result := growLoop_eq io (difference.toNat - 1) laid growing none.symm
      (by rfl : _ = (1 : UInt32).toNat) (by simp only [List.length_nil, List.length_singleton]; omega)
      (fun _ _ below => notBelow (onlyFree_of_allocated laid valid used below))
      (fun _ _ => notBelow)
    have amount : [cluster].length + (difference.toNat - 1) = difference.toNat := by
      rw [List.length_singleton]
      omega
    rw [amount] at result
    exact result
  · rw [allocation]
    dsimp only
    rw [if_pos (by exact invalid_end laid.few)]
    exact ⟨-enospc, disk, node, rfl, .full (.refl node) (.refl _ _) (by rw [full]; exact more)
      holds (.refl disk) id⟩

/-- The cluster before the last one of a file is not the next one that is free, but for a
single cluster with no other free one. -/
theorem allocateCluster_ne_below (laid : ef.Laid) (holds : Holds ef disk node.toExfatNode clusters)
    (contiguous : node.isContiguous = true) (length : clusters.length = current.toNat)
    {previous : UInt32} (found : clusters[current.toNat - 1]? = some previous)
    (apart : ¬ TakesBelow ef disk node.toExfatNode current) :
    (allocateCluster disk.cmap (previous + 1)).1 ≠ previous - 1 := by
  intro below
  have membership := List.mem_of_getElem? found
  have inside := (List.getElem?_eq_some_iff.mp found).1
  have only := onlyFree_of_allocated laid (holds.valid previous membership)
    (holds.used previous membership) below
  rcases Nat.eq_or_lt_of_le (Nat.succ_le_of_lt (Nat.zero_lt_of_lt inside)) with one | several
  · have single : previous = node.startCluster := by
      rw [← length, ← one, Nat.sub_self, holds.getElem?_zero (by omega)] at found
      exact (Option.some.inj found).symm
    refine apart ⟨contiguous, UInt32.toNat_inj.mp (length.symm.trans one.symm), ?_⟩
    rw [← single]
    exact only
  · have second : clusters[current.toNat - 2 + 1]? = some previous := by
      rw [← found]
      congr 1
      omega
    have inUse := used_before_last holds contiguous second
    rw [(only.2 _ only.1).mpr rfl] at inUse
    cases inUse

theorem growFile_append (io : Transfers) (laid : ef.Laid)
    (holds : Holds ef disk node.toExfatNode clusters) (length : clusters.length = current.toNat)
    (held : 0 < clusters.length) (more : 0 < difference.toNat)
    (fits : current.toNat + difference.toNat < 4294967296)
    (apart : ¬ TakesBelow ef disk node.toExfatNode current) :
    ∃ rc after grown, growFile ef io disk node current difference = .ok (rc, after, grown) ∧
      GrowResult ef io disk after node grown clusters difference.toNat rc := by
  have nonzero : difference ≠ 0 := by
    rintro rfl
    exact Nat.lt_irrefl 0 more
  have index : (current - 1).toNat = current.toNat - 1 := by
    apply UInt32.toNat_sub_of_le
    rw [UInt32.le_iff_toNat_le, UInt32.toNat_one]
    omega
  obtain ⟨previous, moved, advanced, same, answer⟩ := exfatAdvanceCluster_holds io laid holds
    (by omega : (current - 1).toNat < clusters.length)
  have info := SameInfo.of_sameFile same
  rw [growFile, if_neg nonzero, if_pos (holds.startCluster_ne_free held), advanced, ok_bind]
  dsimp only
  rcases answer with ⟨found, movedHolds⟩ | ⟨broken, unreliable⟩
  · have valid := holds.valid previous (List.mem_of_getElem? found)
    rw [index] at found
    have growing : Growing ef disk disk node { node with toExfatNode := moved } clusters []
        previous := {
      info := info
      touches := .refl _ _
      holds := by
        rw [List.append_nil]
        exact movedHolds
      isLast := by
        rw [List.append_nil, List.getLast?_eq_getElem?, length]
        exact found
      grows := .refl disk
      ended := fun _ ended => ended.of_entry same.isContiguous fun _ _ => rfl }
    have result := growLoop_eq io difference.toNat laid growing length
      (by rfl : _ = (0 : UInt32).toNat) (by rw [List.length_nil]; omega)
      (fun contiguous _ => allocateCluster_ne_below laid holds
        (same.isContiguous.symm.trans contiguous) length found apart)
      (fun none => absurd none (Nat.pos_iff_ne_zero.mp more))
    rw [List.length_nil, Nat.zero_add] at result
    rw [if_neg (by rw [valid]; exact Bool.false_ne_true)]
    exact result
  · rw [if_pos broken]
    exact ⟨-eio, disk, _, rfl, .failed info (.refl _ _) (by decide) unreliable⟩

/-- A file grows by clusters that were free, or stays as it is when there are not enough;
whatever fails, no cluster of another file is touched. -/
theorem growFile_eq (io : Transfers) (laid : ef.Laid)
    (holds : Holds ef disk node.toExfatNode clusters)
    (length : clusters.length = current.toNat) (more : 0 < difference.toNat)
    (fits : current.toNat + difference.toNat < 4294967296)
    (apart : ¬ TakesBelow ef disk node.toExfatNode current) :
    ∃ rc after grown, growFile ef io disk node current difference = .ok (rc, after, grown) ∧
      GrowResult ef io disk after node grown clusters difference.toNat rc := by
  rcases Nat.eq_zero_or_pos clusters.length with none | held
  · obtain rfl := List.eq_nil_of_length_eq_zero none
    exact growFile_begin io laid holds length.symm more
  · exact growFile_append io laid holds length held more fits apart

end File

section Below

variable {node : FileNode} {cluster current difference : UInt32}

def blankVolume : FatVolume := ⟨⟨⟨16, 4, 9, 0⟩, by decide, by decide⟩, 12, .bits64⟩

def blankDisk : blankVolume.Disk 8 := ⟨fun _ => 0, ⟨⟨[0], by decide⟩, false⟩⟩

def emptyNode : FileNode := ⟨⟨0, 0, 0, false, 0, fun _ => rfl⟩, 0, 1, false, false, 0⟩

def workingDevice : Transfers := ⟨fun _ _ => true, fun _ _ => true⟩

theorem reliable_workingDevice : workingDevice.Reliable := ⟨fun _ _ => rfl, fun _ _ => rfl⟩

theorem laid_blankVolume : blankVolume.Laid := ⟨by decide, by decide, by decide⟩

theorem used_blankDisk (cluster : UInt32) : blankDisk.cmap.used cluster = false := by
  have zero : ∀ block, blankDisk.cmap.chunk.word block = BitVec.ofNat 8 0 := by
    intro block
    cases block <;> rfl
  rw [ClusterMap.used, Bitmap.isSet, Bitmap.get, zero, BitVec.zero_and]
  rfl

theorem holds_emptyNode : Holds blankVolume blankDisk emptyNode.toExfatNode [] := by
  refine ⟨?_, ?_, List.nodup_nil, rfl, linked_nil, Or.inl rfl⟩
  · intro cluster membership
    cases membership
  · intro cluster membership
    cases membership

end Below

end Vtoydump.Exfat
