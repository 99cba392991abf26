import Vtoydump.Basis.Bitmap
import Vtoydump.Exfat.Cluster

/-!
# The bitmap of clusters

A cluster is free when its bit is clear.  The next one is taken behind a hint, and from
the beginning when nothing is free there; a word without a clear bit is passed at once.
-/

namespace Vtoydump.Exfat

open CRun

def exfatClusterFree : UInt32 := 0

def exfatClusterEnd : UInt32 := 0xffffffff

variable {width size : Nat}

def findBit (bitmap : Bitmap width size) : Nat → Nat → Option Nat
  | 0, _ => none
  | count + 1, index =>
      if bitmap.get index = BitVec.ofNat width 0 then some index
      else findBit bitmap count (index + 1)

def findWord (bitmap : Bitmap width size) (start stop : Nat) : Nat → Nat → Option Nat
  | 0, _ => none
  | count + 1, block =>
      if bitmap.word block = BitVec.allOnes width then
        findWord bitmap start stop count (block + 1)
      else
        let startBitindex := max (block * width) start
        let endBitindex := min ((block + 1) * width) stop
        match findBit bitmap (endBitindex - startBitindex) startBitindex with
        | some index => some index
        | none => findWord bitmap start stop count (block + 1)

def findBitAndSet (bitmap : Bitmap width size) (start stop : Nat) :
    UInt32 × Bitmap width size :=
  match findWord bitmap start stop ((stop + width - 1) / width - start / width)
      (start / width) with
  | some index => (UInt32.ofNat (index + 2), bitmap.set index)
  | none => (exfatClusterEnd, bitmap)

/-- Where `allocate_cluster` begins to look. -/
def hintIndex (size : Nat) (hint : UInt32) : Nat :=
  if size ≤ (hint - exfatFirstDataCluster).toNat then 0 else (hint - exfatFirstDataCluster).toNat

/-- The bitmap in memory, and whether it differs from the one on the device. -/
structure ClusterMap (width size : Nat) where
  chunk : Bitmap width size
  dirty : Bool

def allocateCluster (cmap : ClusterMap width size) (hint : UInt32) :
    UInt32 × ClusterMap width size :=
  let (cluster, chunk) := findBitAndSet cmap.chunk (hintIndex size hint) size
  if cluster = exfatClusterEnd then
    let (cluster, chunk) := findBitAndSet cmap.chunk 0 (hintIndex size hint)
    if cluster = exfatClusterEnd then (exfatClusterEnd, ⟨chunk, cmap.dirty⟩)
    else (cluster, ⟨chunk, true⟩)
  else (cluster, ⟨chunk, true⟩)

def freeCluster (cmap : ClusterMap width size) (cluster : UInt32) :
    Run (ClusterMap width size) :=
  if size ≤ (cluster - exfatFirstDataCluster).toNat then .error .abort
  else .ok ⟨cmap.chunk.clear (cluster - exfatFirstDataCluster).toNat, true⟩

def countFreeLoop (bitmap : Bitmap width size) : Nat → Nat
  | 0 => 0
  | index + 1 =>
      countFreeLoop bitmap index + if bitmap.get index = BitVec.ofNat width 0 then 1 else 0

def exfatCountFreeClusters (bitmap : Bitmap width size) : Nat := countFreeLoop bitmap size

section Search

variable {bitmap : Bitmap width size} {start stop : Nat}

theorem get_eq_zero_iff (index : Nat) :
    bitmap.get index = BitVec.ofNat width 0 ↔ bitmap.isSet index = false := by
  rw [Bitmap.isSet, bne_eq_false_iff_eq]

theorem findBit_firstClear (count index : Nat) :
    bitmap.FirstClear index (index + count) (findBit bitmap count index) := by
  induction count generalizing index with
  | zero => exact Bitmap.firstClear_empty (Nat.le_refl _)
  | succ count inductionHypothesis =>
      rw [findBit]
      split_ifs with clear
      · refine ⟨Nat.le_refl _, by omega, (get_eq_zero_iff index).mp clear, ?_⟩
        intro other lower upper
        omega
      · have here : bitmap.FirstClear index (index + 1) none := by
          intro other lower upper
          obtain rfl : other = index := by omega
          exact eq_true_of_ne_false (mt (get_eq_zero_iff other).mpr clear)
        have rest := inductionHypothesis (index + 1)
        rw [Nat.add_right_comm] at rest
        exact here.append rest (Nat.le_succ _) fun _ _ behind _ => behind

theorem findBit_firstClear_block (block : Nat) :
    bitmap.FirstClear (max (block * width) start) (min ((block + 1) * width) stop)
      (findBit bitmap (min ((block + 1) * width) stop - max (block * width) start)
        (max (block * width) start)) := by
  have found := @findBit_firstClear _ _ bitmap
    (min ((block + 1) * width) stop - max (block * width) start) (max (block * width) start)
  rcases Nat.le_total (max (block * width) start) (min ((block + 1) * width) stop) with
    ordered | empty
  · rw [Nat.add_sub_of_le ordered] at found
    exact found
  · rw [Nat.sub_eq_zero_of_le empty]
    exact Bitmap.firstClear_empty empty

/-- The search by words finds what a search bit by bit finds. -/
theorem findWord_firstClear (positive : 0 < width) (count block : Nat) :
    bitmap.FirstClear (max (block * width) start) (min ((block + count) * width) stop)
      (findWord bitmap start stop count block) := by
  induction count generalizing block with
  | zero =>
      apply Bitmap.firstClear_empty
      rw [Nat.add_zero]
      omega
  | succ count inductionHypothesis =>
      have rest := inductionHypothesis (block + 1)
      have shifted : block + 1 + count = block + (count + 1) := by omega
      have grown : (block + 1) * width = block * width + width := Nat.succ_mul _ _
      have further : (block + 1) * width ≤ (block + (count + 1)) * width :=
        Nat.mul_le_mul_right _ (by omega)
      rw [shifted] at rest
      have continued (none : bitmap.FirstClear (max (block * width) start)
          (min ((block + 1) * width) stop) none) :
          bitmap.FirstClear (max (block * width) start)
            (min ((block + (count + 1)) * width) stop)
            (findWord bitmap start stop count (block + 1)) :=
        none.append rest (by omega) fun index lower behind upper => by omega
      rw [findWord]
      split_ifs with full
      · apply continued
        intro index lower upper
        apply Bitmap.isSet_of_full full positive
        exact Nat.div_eq_of_lt_le (by omega) (by omega)
      · have word := @findBit_firstClear_block _ _ bitmap start stop block
        dsimp only
        cases found : findBit bitmap (min ((block + 1) * width) stop - max (block * width) start)
            (max (block * width) start) with
        | some index =>
            rw [found] at word
            exact word.extend (by omega)
        | none =>
            rw [found] at word
            exact continued word

/-- What `find_bit_and_set` finds, whatever the words. -/
theorem findBitAndSet_eq (bitmap : Bitmap width size) {start stop : Nat} (within : stop ≤ size) :
    ∃ found, bitmap.FirstClear start stop found ∧ findBitAndSet bitmap start stop =
      match found with
      | some index => (UInt32.ofNat (index + 2), bitmap.set index)
      | none => (exfatClusterEnd, bitmap) := by
  refine ⟨_, ?_, rfl⟩
  rcases Nat.eq_zero_or_pos width with rfl | positive
  · have room := bitmap.room
    have none : stop = 0 := by omega
    subst none
    rw [Nat.add_zero, Nat.zero_sub]
    exact Bitmap.firstClear_empty (Nat.zero_le _)
  · have found := @findWord_firstClear _ _ bitmap start stop positive
      ((stop + width - 1) / width - start / width) (start / width)
    have lower := Nat.div_mul_le_self start width
    have upper : stop ≤ (start / width + ((stop + width - 1) / width - start / width)) * width := by
      have whole : stop ≤ (stop + width - 1) / width * width := by
        have parts := Nat.div_add_mod (stop + width - 1) width
        have inner := Nat.mod_lt (stop + width - 1) positive
        rw [Nat.mul_comm] at parts
        omega
      exact whole.trans (Nat.mul_le_mul_right _ (by omega))
    rw [Nat.max_eq_right lower, Nat.min_eq_right upper] at found
    exact found

end Search

/-- The first free cluster behind a beginning, around the end of the volume. -/
def NextFree (bitmap : Bitmap width size) (begins index : Nat) : Prop :=
  index < size ∧ bitmap.isSet index = false ∧
    if begins ≤ index then ∀ other, begins ≤ other → other < index → bitmap.isSet other = true
    else ∀ other < size, other < index ∨ begins ≤ other → bitmap.isSet other = true

section Allocate

theorem hintIndex_le (size : Nat) (hint : UInt32) : hintIndex size hint ≤ size := by
  unfold hintIndex
  split_ifs with behind
  · exact Nat.zero_le _
  · omega

theorem ofNat_ne_exfatClusterEnd (few : size ≤ 0xfffffff5) {index : Nat} (inside : index < size) :
    UInt32.ofNat (index + 2) ≠ exfatClusterEnd := by
  intro same
  have number := congrArg UInt32.toNat same
  rw [UInt32.toNat_ofNat', Nat.mod_eq_of_lt (by omega)] at number
  have last : exfatClusterEnd.toNat = 0xffffffff := rfl
  omega

/-- An allocation takes the next free cluster, and fails when there is none. -/
theorem allocateCluster_eq (few : size ≤ 0xfffffff5) (cmap : ClusterMap width size)
    (hint : UInt32) :
    (∃ index, NextFree cmap.chunk (hintIndex size hint) index ∧
      allocateCluster cmap hint =
        (UInt32.ofNat (index + 2), ⟨cmap.chunk.set index, true⟩)) ∨
    cmap.chunk.clearBits = ∅ ∧ allocateCluster cmap hint = (exfatClusterEnd, cmap) := by
  have ordered := hintIndex_le size hint
  obtain ⟨behind, isBehind, first⟩ := @findBitAndSet_eq _ _ cmap.chunk (hintIndex size hint) size
    (Nat.le_refl _)
  rw [allocateCluster, first]
  cases behind with
  | some index =>
      obtain ⟨lower, inside, clear, before⟩ := isBehind
      refine Or.inl ⟨index, ⟨inside, clear, ?_⟩, ?_⟩
      · rw [if_pos lower]
        exact before
      · exact if_neg (ofNat_ne_exfatClusterEnd few inside)
  | none =>
      obtain ⟨around, isAround, second⟩ := @findBitAndSet_eq _ _ cmap.chunk 0
        (hintIndex size hint) ordered
      rw [second]
      cases around with
      | some index =>
          obtain ⟨_, upper, clear, before⟩ := isAround
          have inside := Nat.lt_of_lt_of_le upper ordered
          refine Or.inl ⟨index, ⟨inside, clear, ?_⟩, ?_⟩
          · rw [if_neg (Nat.not_le_of_lt upper)]
            rintro other inside (early | late)
            · exact before other (Nat.zero_le _) early
            · exact isBehind other late inside
          · exact if_neg (ofNat_ne_exfatClusterEnd few inside)
      | none =>
          refine Or.inr ⟨?_, rfl⟩
          apply Finset.eq_empty_of_forall_notMem
          intro index free
          obtain ⟨inside, clear⟩ := Bitmap.mem_clearBits.mp free
          have taken : cmap.chunk.isSet index = true := by
            rcases Nat.lt_or_ge index (hintIndex size hint) with early | late
            · exact isAround index (Nat.zero_le _) early
            · exact isBehind index late inside
          rw [taken] at clear
          cases clear

theorem exfatCountFreeClusters_eq (bitmap : Bitmap width size) :
    exfatCountFreeClusters bitmap = bitmap.clearBits.card := by
  have counted : ∀ count, countFreeLoop bitmap count =
      ((Finset.range count).filter fun index => bitmap.isSet index = false).card := by
    intro count
    induction count with
    | zero => rfl
    | succ count inductionHypothesis =>
        rw [countFreeLoop, inductionHypothesis, Finset.range_add_one, Finset.filter_insert]
        by_cases clear : bitmap.isSet count = false
        · rw [if_pos clear, if_pos ((get_eq_zero_iff count).mpr clear),
            Finset.card_insert_of_notMem (by simp)]
        · rw [if_neg clear, if_neg (mt (get_eq_zero_iff count).mp clear)]
          rfl
  exact counted size

end Allocate

def ClusterMap.used (cmap : ClusterMap width size) (cluster : UInt32) : Bool :=
  cmap.chunk.isSet (cluster - exfatFirstDataCluster).toNat

section Clusters

variable {sb : ExfatSuperBlock} {cluster other : UInt32}

theorem toNat_sub_first (data : 2 ≤ cluster.toNat) :
    (cluster - exfatFirstDataCluster).toNat = cluster.toNat - 2 :=
  UInt32.toNat_sub_of_le _ _ (UInt32.le_iff_toNat_le.mpr data)

theorem valid_iff :
    clusterInvalid sb cluster = false ↔
      2 ≤ cluster.toNat ∧ cluster.toNat - 2 < sb.clusterCount.toNat := by
  rw [clusterInvalid, Bool.or_eq_false_iff, decide_eq_false_iff_not, decide_eq_false_iff_not,
    UInt32.not_lt, UInt32.le_iff_toNat_le, ge_iff_le, UInt32.not_le, UInt32.lt_iff_toNat_lt]
  constructor
  · rintro ⟨data, inside⟩
    rw [toNat_sub_first data] at inside
    exact ⟨data, inside⟩
  · rintro ⟨data, inside⟩
    refine ⟨data, ?_⟩
    rw [toNat_sub_first data]
    exact inside

theorem valid_ofNat (few : sb.clusterCount.toNat ≤ 0xfffffff5) {index : Nat}
    (inside : index < sb.clusterCount.toNat) :
    clusterInvalid sb (UInt32.ofNat (index + 2)) = false ∧
      (UInt32.ofNat (index + 2) - exfatFirstDataCluster).toNat = index := by
  have number : (UInt32.ofNat (index + 2)).toNat = index + 2 := by
    rw [UInt32.toNat_ofNat', Nat.mod_eq_of_lt (by omega)]
  refine ⟨valid_iff.mpr (by omega), ?_⟩
  rw [toNat_sub_first (by omega), number, Nat.add_sub_cancel]

theorem eq_of_sub_first (valid : clusterInvalid sb cluster = false)
    (validToo : clusterInvalid sb other = false)
    (same : (cluster - exfatFirstDataCluster).toNat = (other - exfatFirstDataCluster).toNat) :
    cluster = other := by
  obtain ⟨data, _⟩ := valid_iff.mp valid
  obtain ⟨dataToo, _⟩ := valid_iff.mp validToo
  rw [toNat_sub_first data, toNat_sub_first dataToo] at same
  exact UInt32.toNat_inj.mp (by omega)

theorem sub_first_lt (valid : clusterInvalid sb cluster = false) :
    (cluster - exfatFirstDataCluster).toNat < sb.clusterCount.toNat := by
  obtain ⟨data, inside⟩ := valid_iff.mp valid
  rw [toNat_sub_first data]
  exact inside

theorem invalid_end (few : sb.clusterCount.toNat ≤ 0xfffffff5) :
    clusterInvalid sb exfatClusterEnd = true := by
  rw [← Bool.not_eq_false, valid_iff]
  have last : exfatClusterEnd.toNat = 0xffffffff := rfl
  omega

theorem invalid_bad (few : sb.clusterCount.toNat ≤ 0xfffffff5) :
    clusterInvalid sb exfatClusterBad = true := by
  rw [← Bool.not_eq_false, valid_iff]
  have bad : exfatClusterBad.toNat = 0xfffffff7 := rfl
  omega

structure Taken (sb : ExfatSuperBlock) (cmap after : ClusterMap width size) (cluster : UInt32) :
    Prop where
  valid : clusterInvalid sb cluster = false
  free : cmap.used cluster = false
  used : ∀ other, clusterInvalid sb other = false →
    (after.used other = true ↔ other = cluster ∨ cmap.used other = true)
  counted : exfatCountFreeClusters after.chunk + 1 = exfatCountFreeClusters cmap.chunk

theorem allocateCluster_taken (few : sb.clusterCount.toNat ≤ 0xfffffff5)
    (cmap : ClusterMap width sb.clusterCount.toNat) (hint : UInt32) :
    (∃ cluster after, allocateCluster cmap hint = (cluster, after) ∧
      Taken sb cmap after cluster ∧
      NextFree cmap.chunk (hintIndex sb.clusterCount.toNat hint)
        (cluster - exfatFirstDataCluster).toNat) ∨
    allocateCluster cmap hint = (exfatClusterEnd, cmap) ∧
      exfatCountFreeClusters cmap.chunk = 0 := by
  rcases allocateCluster_eq few cmap hint with ⟨index, isNext, allocated⟩ | ⟨none, allocated⟩
  · have inside := isNext.1
    have clear := isNext.2.1
    obtain ⟨valid, number⟩ := valid_ofNat few inside
    refine Or.inl ⟨_, _, allocated, ⟨valid, ?_, ?_, ?_⟩, ?_⟩
    · rw [ClusterMap.used, number]
      exact clear
    · intro other validOther
      rw [ClusterMap.used, ClusterMap.used, Bitmap.isSet_set _ inside, Bool.or_eq_true,
        decide_eq_true_eq]
      refine or_congr_left ⟨fun same => ?_, fun same => ?_⟩
      · exact eq_of_sub_first validOther valid (same.trans number.symm)
      · rw [same, number]
    · have free : index ∈ cmap.chunk.clearBits := Bitmap.mem_clearBits.mpr ⟨inside, clear⟩
      rw [exfatCountFreeClusters_eq, exfatCountFreeClusters_eq, Bitmap.clearBits_set _ inside]
      exact Finset.card_erase_add_one free
    · rw [number]
      exact isNext
  · refine Or.inr ⟨allocated, ?_⟩
    rw [exfatCountFreeClusters_eq, none]
    rfl

theorem freeCluster_of_valid (valid : clusterInvalid sb cluster = false)
    (cmap : ClusterMap width sb.clusterCount.toNat) :
    ∃ after, freeCluster cmap cluster = .ok after ∧
      (∀ other, clusterInvalid sb other = false →
        (after.used other = true ↔ other ≠ cluster ∧ cmap.used other = true)) ∧
      (cmap.used cluster = true →
        exfatCountFreeClusters after.chunk = exfatCountFreeClusters cmap.chunk + 1) := by
  have inside := sub_first_lt valid
  refine ⟨_, if_neg (Nat.not_le_of_lt inside), fun other validOther => ?_, fun inUse => ?_⟩
  · rw [ClusterMap.used, ClusterMap.used, Bitmap.isSet_clear _ inside, Bool.and_eq_true,
      decide_eq_true_eq]
    refine and_congr_left fun _ => not_congr ⟨fun same => ?_, fun same => ?_⟩
    · exact eq_of_sub_first validOther valid same
    · rw [same]
  · rw [exfatCountFreeClusters_eq, exfatCountFreeClusters_eq, Bitmap.clearBits_clear _ inside]
    apply Finset.card_insert_of_notMem
    intro free
    have clear := (Bitmap.mem_clearBits.mp free).2
    rw [← ClusterMap.used, inUse] at clear
    cases clear

end Clusters

end Vtoydump.Exfat
