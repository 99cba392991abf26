import Vtoydump.Basis.Cursor
import Vtoydump.Exfat.Cluster

/-!
# The cached pointer of a node

`exfat_advance_cluster` walks from the cluster it returned last, or from the
first one when the request lies before it.  The loop stops at an invalid
cluster, but the index of the request is recorded, so a request that failed
leaves a pointer that names another cluster than its index says.  No request
that the chain can satisfy ever starts from such a pointer.
-/

namespace Vtoydump.Exfat

open CRun

section Chain

variable {volume : Volume} {node : ExfatNode}

theorem clusterAt_eq_iterate (volume : Volume) (node : ExfatNode) (index : Nat) :
    clusterAt volume node index = (nextCluster volume node)^[index] node.startCluster := by
  induction index with
  | zero => rfl
  | succ index inductionHypothesis =>
      rw [clusterAt, inductionHypothesis, Function.iterate_succ_apply']

/-- The clusters of a file before an index are valid. -/
def IntactTo (volume : Volume) (node : ExfatNode) (index : Nat) : Prop :=
  ∀ before < index, clusterInvalid volume.sb.toExfatSuperBlock (clusterAt volume node before) =
    false

instance (volume : Volume) (node : ExfatNode) (index : Nat) :
    Decidable (IntactTo volume node index) := inferInstanceAs (Decidable (∀ before < index, _))

theorem intactTo_iff {index : Nat} :
    IntactTo volume node index ↔
      Cursor.Intact (nextCluster volume node) (clusterInvalid volume.sb.toExfatSuperBlock)
        node.startCluster index := by
  simp only [IntactTo, Cursor.Intact, clusterAt_eq_iterate]

theorem IntactTo.mono {low high : Nat} (intact : IntactTo volume node high)
    (ordered : low ≤ high) : IntactTo volume node low :=
  fun before below => intact before (Nat.lt_of_lt_of_le below ordered)

/-- Two nodes of one file: they differ in the cached pointer at most. -/
structure SameFile (node other : ExfatNode) : Prop where
  startCluster : other.startCluster = node.startCluster
  isContiguous : other.isContiguous = node.isContiguous
  size : other.size = node.size

theorem SameFile.refl (node : ExfatNode) : SameFile node node := ⟨rfl, rfl, rfl⟩

theorem SameFile.trans {first second third : ExfatNode} (left : SameFile first second)
    (right : SameFile second third) : SameFile first third :=
  ⟨right.startCluster.trans left.startCluster, right.isContiguous.trans left.isContiguous,
    right.size.trans left.size⟩

theorem SameFile.nextCluster {other : ExfatNode} (same : SameFile node other) :
    nextCluster volume other = nextCluster volume node := by
  funext cluster
  rw [Exfat.nextCluster, Exfat.nextCluster, same.isContiguous]

theorem SameFile.clusterAt {other : ExfatNode} (same : SameFile node other) (index : Nat) :
    clusterAt volume other index = clusterAt volume node index := by
  rw [clusterAt_eq_iterate, clusterAt_eq_iterate, same.nextCluster, same.startCluster]

theorem SameFile.intactTo {other : ExfatNode} (same : SameFile node other) {index : Nat} :
    IntactTo volume other index ↔ IntactTo volume node index := by
  simp only [IntactTo, same.clusterAt]

end Chain

section Loop

variable {volume : Volume} {node : ExfatNode}

theorem advanceLoop_eq_walk {steps : Nat} {cluster last : UInt32}
    (done : advanceLoop volume node steps cluster = .ok last) :
    last = Cursor.walk (nextCluster volume node) (clusterInvalid volume.sb.toExfatSuperBlock)
      steps cluster := by
  induction steps generalizing cluster with
  | zero =>
      simp only [advanceLoop, Except.ok.injEq] at done
      exact done.symm
  | succ steps inductionHypothesis =>
      rw [advanceLoop, bind_eq_ok_iff] at done
      rcases done with ⟨next, stepped, rest⟩
      have here : next = nextCluster volume node cluster := by
        unfold exfatNextCluster at stepped
        unfold nextCluster
        split_ifs at stepped ⊢ with small
        · exact (Except.ok.inj stepped).symm
        · cases entry : volume.fat cluster with
          | none => rw [entry] at stepped; exact (Except.ok.inj stepped).symm
          | some value => rw [entry] at stepped; exact (Except.ok.inj stepped).symm
      subst here
      rw [Cursor.walk]
      split_ifs at rest ⊢ with stopped
      · exact (Except.ok.inj rest).symm
      · exact inductionHypothesis rest

/-- From a cluster that holds data the loop never reaches `exfat_bug`. -/
theorem advanceLoop_of_valid {cluster : UInt32}
    (valid : clusterInvalid volume.sb.toExfatSuperBlock cluster = false) (steps : Nat) :
    ∃ last, advanceLoop volume node steps cluster = .ok last := by
  induction steps generalizing cluster with
  | zero => exact ⟨cluster, rfl⟩
  | succ steps inductionHypothesis =>
      rw [advanceLoop, exfatNextCluster_of_valid node valid, ok_bind]
      split_ifs with stopped
      · exact ⟨_, rfl⟩
      · exact inductionHypothesis (Bool.eq_false_iff.mpr stopped)

end Loop

/-- The cached pointer is the cluster at its index, unless the chain breaks before. -/
def Tracked (volume : Volume) (node : ExfatNode) : Prop :=
  Cursor.Tracks (nextCluster volume node) (clusterInvalid volume.sb.toExfatSuperBlock)
    node.startCluster node.fptrIndex.toNat node.fptrCluster

section Advance

variable {volume : Volume} {node moved : ExfatNode} {count cluster : UInt32}

theorem tracked_of_start (fresh : node.fptrIndex = 0) : Tracked volume node := by
  unfold Tracked
  rw [node.fptr_start fresh, fresh]
  exact Cursor.tracks_start

theorem tracks_advanceStart (tracked : Tracked volume node) (count : UInt32) :
    Cursor.Tracks (nextCluster volume node) (clusterInvalid volume.sb.toExfatSuperBlock)
      node.startCluster (advanceStart node count).1.toNat (advanceStart node count).2 := by
  unfold advanceStart
  split_ifs with passed
  · exact Cursor.tracks_start
  · exact tracked

theorem advanceStart_le (node : ExfatNode) (count : UInt32) :
    (advanceStart node count).1.toNat ≤ count.toNat := by
  unfold advanceStart
  split_ifs with passed
  · exact Nat.zero_le _
  · exact UInt32.le_iff_toNat_le.mp (UInt32.not_lt.mp passed)

theorem exfatAdvanceCluster_eq_ok (done : exfatAdvanceCluster volume node count =
    .ok (cluster, moved)) :
    SameFile node moved ∧ moved.fptrIndex = count ∧ moved.fptrCluster = cluster ∧
      advanceLoop volume node (count.toNat - (advanceStart node count).1.toNat)
        (advanceStart node count).2 = .ok cluster := by
  unfold exfatAdvanceCluster at done
  split at done
  · cases done
  next last walked =>
    cases done
    exact ⟨⟨rfl, rfl, rfl⟩, rfl, rfl, walked⟩

/-- Every call that returns keeps the invariant, whether its cluster is valid or not. -/
theorem Tracked.advance (tracked : Tracked volume node)
    (done : exfatAdvanceCluster volume node count = .ok (cluster, moved)) :
    Tracked volume moved := by
  obtain ⟨same, index, pointer, walked⟩ := exfatAdvanceCluster_eq_ok done
  have kept := (tracks_advanceStart tracked count).walk
    (count.toNat - (advanceStart node count).1.toNat)
  rw [← advanceLoop_eq_walk walked,
    Nat.add_sub_of_le (advanceStart_le node count)] at kept
  unfold Tracked
  rw [same.nextCluster, same.startCluster, index, pointer]
  exact kept

theorem exfatAdvanceCluster_of_loop (walked : advanceLoop volume node
    (count.toNat - (advanceStart node count).1.toNat) (advanceStart node count).2 =
      .ok cluster) :
    ∃ moved, exfatAdvanceCluster volume node count = .ok (cluster, moved) := by
  unfold exfatAdvanceCluster
  split
  next fault faulted =>
    rw [walked] at faulted
    cases faulted
  next other walkedAgain =>
    rw [walked] at walkedAgain
    cases walkedAgain
    exact ⟨_, rfl⟩

/-- Whatever the pointer is, a request the chain reaches is answered by its cluster. -/
theorem exfatAdvanceCluster_of_intact (tracked : Tracked volume node)
    (intact : IntactTo volume node count.toNat) :
    ∃ moved, exfatAdvanceCluster volume node count =
      .ok (clusterAt volume node count.toNat, moved) := by
  have begins := tracks_advanceStart tracked count
  have ordered := advanceStart_le node count
  have returns : ∃ last, advanceLoop volume node
      (count.toNat - (advanceStart node count).1.toNat) (advanceStart node count).2 =
        .ok last := by
    rcases Nat.eq_or_lt_of_le ordered with same | before
    · rw [same, Nat.sub_self]
      exact ⟨_, rfl⟩
    · apply advanceLoop_of_valid
      rw [begins (intactTo_iff.mp (intact.mono ordered)), ← clusterAt_eq_iterate]
      exact intact _ before
  obtain ⟨last, walked⟩ := returns
  have ends := begins.walk (count.toNat - (advanceStart node count).1.toNat)
  rw [← advanceLoop_eq_walk walked, Nat.add_sub_of_le ordered] at ends
  have answer : last = clusterAt volume node count.toNat := by
    rw [ends (intactTo_iff.mp intact), clusterAt_eq_iterate]
  subst answer
  exact exfatAdvanceCluster_of_loop walked

end Advance

/-- The nodes that requests make of a node, in any order and number. -/
inductive Requested (volume : Volume) (node : ExfatNode) : ExfatNode → Prop where
  | fresh : Requested volume node node
  | advance {before after : ExfatNode} {count cluster : UInt32} :
      Requested volume node before →
      exfatAdvanceCluster volume before count = .ok (cluster, after) →
      Requested volume node after

section Requests

variable {volume : Volume} {node before : ExfatNode}

theorem Requested.tracked (requested : Requested volume node before)
    (fresh : node.fptrIndex = 0) : Tracked volume before := by
  induction requested with
  | fresh => exact tracked_of_start fresh
  | advance _ done inductionHypothesis => exact inductionHypothesis.advance done

theorem Requested.sameFile (requested : Requested volume node before) :
    SameFile node before := by
  induction requested with
  | fresh => exact .refl node
  | advance _ done inductionHypothesis =>
      exact inductionHypothesis.trans (exfatAdvanceCluster_eq_ok done).1

/-- After any requests, failed ones included, a request the chain reaches gives the
cluster that a walk from the beginning of the file ends at. -/
theorem exfatAdvanceCluster_after_requests {count : UInt32} (fresh : node.fptrIndex = 0)
    (requested : Requested volume node before)
    (intact : IntactTo volume node count.toNat) :
    ∃ after, exfatAdvanceCluster volume before count =
      .ok (clusterAt volume node count.toNat, after) := by
  have same := requested.sameFile
  rcases exfatAdvanceCluster_of_intact (requested.tracked fresh) (same.intactTo.mpr intact) with
    ⟨after, answered⟩
  rw [same.clusterAt] at answered
  exact ⟨after, answered⟩

end Requests

section Broken

/-- A file of two clusters; a third one is asked for first. -/
def brokenVolume : Volume where
  sb := ⟨⟨0, 4, 9, 0⟩, by decide, by decide⟩
  fat cluster := if cluster = 2 then some 3 else some 0xffffffff

def brokenNode : ExfatNode := initNodeMeta2 1536 2 false

def afterFailure : ExfatNode where
  startCluster := 2
  fptrIndex := 5
  fptrCluster := 0xffffffff
  isContiguous := false
  size := 1536
  fptr_start empty := absurd empty (by decide)

theorem brokenNode_fails :
    exfatAdvanceCluster brokenVolume brokenNode 5 = .ok (0xffffffff, afterFailure) := by
  rfl

theorem exfatAdvanceCluster_after_failure :
    ∃ after, exfatAdvanceCluster brokenVolume afterFailure 1 =
      .ok (clusterAt brokenVolume brokenNode 1, after) :=
  exfatAdvanceCluster_after_requests rfl (.advance .fresh brokenNode_fails) (by decide)

end Broken

end Vtoydump.Exfat
