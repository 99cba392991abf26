import Vtoydump.Basis.Bitmap
import Vtoydump.Exfat.Mount

/-!
# Room for new entries in a directory

`find_slot` marks the entries of the files that a directory is known to hold, and looks for a
run of others.  The root directory has entries without files, so a run there is read before
it is taken; a run at the end that is too short is not.
-/

namespace Vtoydump.Exfat

open CRun

def einval : Int := 22

structure Child where
  entryOffset : Nat
  continuations : UInt8

namespace Child

def Covers (child : Child) (position : Nat) : Prop :=
  child.entryOffset / 32 ≤ position ∧
    position < child.entryOffset / 32 + (1 + child.continuations.toNat)

instance (child : Child) (position : Nat) : Decidable (child.Covers position) :=
  inferInstanceAs (Decidable (_ ∧ _))

end Child

/-- What `find_slot` ends with: a place, an error of a read, or the place and size that it
extends the directory for. -/
inductive Slot where
  | found (offset : Nat)
  | failed
  | extend (offset size : Nat)

section Code

variable {width count : Nat}

/-- The bits of some entries, one after the other. -/
def markEntries (dmap : Bitmap width count) (first : Nat) : Nat → Bitmap width count
  | 0 => dmap
  | entries + 1 => (markEntries dmap first entries).set (first + entries)

def markChild (dmap : Bitmap width count) (child : Child) : Bitmap width count :=
  markEntries dmap (child.entryOffset / 32) (1 + child.continuations.toNat)

/-- The bitmap of the entries of all children; `calloc` gives words of zeros. -/
def directoryMap (width count : Nat) (positive : 0 < width) (children : List Child) :
    Bitmap width count :=
  children.foldl markChild ⟨List.replicate count (BitVec.ofNat width 0), by
    rw [List.length_replicate]
    exact Nat.le_mul_of_pos_right _ positive⟩

def checkSlot (ef : ExfatReader) (isRoot : Bool) (dir : NodeEntry) (offset n : Nat) :
    Run (Int × NodeEntry) :=
  if isRoot then do
    let (rc, entries, dir) ← readEntries ef dir n offset
    if rc ≠ 0 then return (rc, dir)
    if entries.any fun entry => entry.type &&& exfatEntryValid ≠ 0 then return (-einval, dir)
    return (0, dir)
  else .ok (0, dir)

def slotLoop (ef : ExfatReader) (isRoot : Bool) (dmap : Bitmap width count) (n : Nat)
    (start contiguous : Nat) (dir : NodeEntry) : Run (Slot × NodeEntry) :=
  if _inside : start + contiguous < count then
    if dmap.isSet (start + contiguous) = false then
      if contiguous + 1 = n then do
        let (rc, dir) ← checkSlot ef isRoot dir (32 * start) n
        if rc = 0 then return (.found (32 * start), dir)
        else if rc = -eio then return (.failed, dir)
        else if rc = -einval then slotLoop ef isRoot dmap n (start + 1) 0 dir
        else slotLoop ef isRoot dmap n start (contiguous + 1) dir
      else slotLoop ef isRoot dmap n start (contiguous + 1) dir
    else slotLoop ef isRoot dmap n (start + contiguous + 1) 0 dir
  else
    let offset := if contiguous = 0 then dir.node.size.toNat else 32 * start
    let wanted := dir.node.size.toNat + 32 * (n - contiguous)
    .ok (.extend offset ((wanted + ef.clusterSize - 1) / ef.clusterSize * ef.clusterSize), dir)
termination_by (count - start, count - (start + contiguous))

def findSlot (ef : ExfatReader) (isRoot isCached : Bool) (positive : 0 < width)
    (children : List Child) (dir : NodeEntry) (n : Nat) : Run (Slot × NodeEntry) :=
  if isCached then
    slotLoop ef isRoot (directoryMap width (dir.node.size.toNat / 32) positive children) n 0 0 dir
  else .error .abort

end Code

/-- The entry at this position is marked valid in the root directory, whose entries may have
no file. -/
def Occupied (ef : ExfatReader) (content : Nat → UInt8) (isRoot : Bool) (dir : NodeEntry)
    (position : Nat) : Prop :=
  isRoot = true ∧
    (entryAt (fileContent ef.toExfatFs content dir.node) (32 * position)).type &&&
      exfatEntryValid ≠ 0

/-- No entry of a run belongs to a file or is occupied. -/
def RoomAt (taken occupied : Nat → Prop) (n start : Nat) : Prop :=
  ∀ position, start ≤ position → position < start + n → ¬ taken position ∧ ¬ occupied position

/-- Where an unmarked end of `count` entries begins that is too short for the slot. -/
def Tail (taken : Nat → Prop) (count n : Nat) : Set Nat :=
  {start | start ≤ count ∧ count < start + n ∧
    ∀ position, start ≤ position → position < count → ¬ taken position}

/-- What `find_slot` may give for `count` entries: the first run with room, or, with none, the
longest such end together with the least size that the slot fits into. -/
def SlotFits (taken occupied : Nat → Prop) (count n clusterSize : Nat) : Slot → Prop
  | .found offset => ∃ start, offset = 32 * start ∧ start + n ≤ count ∧
      RoomAt taken occupied n start ∧ ∀ earlier, earlier < start → ¬ RoomAt taken occupied n earlier
  | .failed => False
  | .extend offset size => ∃ start, offset = 32 * start ∧ IsLeast (Tail taken count n) start ∧
      (∀ earlier, earlier + n ≤ count → ¬ RoomAt taken occupied n earlier) ∧
      IsLeast {size | clusterSize ∣ size ∧ 32 * (start + n) ≤ size} size

def Slot.Spares (occupied : Nat → Prop) (count n : Nat) : Slot → Prop
  | .found offset | .extend offset _ => ∀ position, offset / 32 ≤ position →
      position < offset / 32 + n → position < count → ¬ occupied position
  | .failed => True

section Marks

variable {width count : Nat}

theorem isSet_markEntries (dmap : Bitmap width count) (first entries : Nat)
    (inside : first + entries ≤ count) (position : Nat) :
    (markEntries dmap first entries).isSet position = true ↔
      first ≤ position ∧ position < first + entries ∨ dmap.isSet position = true := by
  induction entries with
  | zero =>
      rw [markEntries, or_iff_right (by omega)]
  | succ entries inductionHypothesis =>
      rw [markEntries, Bitmap.isSet_set _ (by omega), Bool.or_eq_true, decide_eq_true_eq,
        inductionHypothesis (by omega), ← or_assoc]
      apply or_congr_left
      omega

theorem isSet_foldl_markChild (children : List Child) (dmap : Bitmap width count)
    (inside : ∀ child ∈ children,
      child.entryOffset / 32 + (1 + child.continuations.toNat) ≤ count) (position : Nat) :
    (children.foldl markChild dmap).isSet position = true ↔
      (∃ child ∈ children, child.Covers position) ∨ dmap.isSet position = true := by
  induction children generalizing dmap with
  | nil => simp
  | cons child children inductionHypothesis =>
      rw [List.forall_mem_cons] at inside
      rw [List.foldl_cons, inductionHypothesis _ inside.2, markChild,
        isSet_markEntries _ _ _ inside.1, List.exists_mem_cons_iff, ← or_assoc,
        @or_comm (∃ child ∈ children, child.Covers position)]
      rfl

theorem isSet_directoryMap (positive : 0 < width) (children : List Child)
    (inside : ∀ child ∈ children,
      child.entryOffset / 32 + (1 + child.continuations.toNat) ≤ count) (position : Nat) :
    (directoryMap width count positive children).isSet position = true ↔
      ∃ child ∈ children, child.Covers position := by
  rw [directoryMap, isSet_foldl_markChild children _ inside]
  apply or_iff_left
  have zero : (List.replicate count (BitVec.ofNat width 0)).getD (position / width)
      (BitVec.ofNat width 0) = BitVec.ofNat width 0 := by
    rw [List.getD_eq_getElem?_getD, List.getElem?_replicate]
    split <;> rfl
  rw [Bitmap.isSet_eq, Bitmap.word, zero, BitVec.getLsbD_zero]
  exact Bool.false_ne_true

end Marks

section Searching

/-- Where the search is: behind `contiguous` unmarked entries from `start` on, with every
earlier place given up. -/
structure Searching (taken occupied : Nat → Prop) (count n start contiguous : Nat) : Prop where
  short : contiguous < n
  reached : start + contiguous ≤ count
  unmarked : ∀ position, start ≤ position → position < start + contiguous → ¬ taken position
  passed : ∀ earlier, earlier < start → ¬ RoomAt taken occupied n earlier
  /-- The end of the directory is too short from `start` on only. -/
  edge : ∀ earlier, earlier < start → earlier + n ≤ count ∨
    ∃ position, earlier ≤ position ∧ position < start ∧ taken position

namespace Searching

variable {taken occupied : Nat → Prop} {count n start contiguous : Nat}

theorem begin (some : 0 < n) : Searching taken occupied count n 0 0 where
  short := some
  reached := Nat.zero_le _
  unmarked := fun _ _ upper => absurd upper (Nat.not_lt_zero _)
  passed := fun _ upper => absurd upper (Nat.not_lt_zero _)
  edge := fun _ upper => absurd upper (Nat.not_lt_zero _)

theorem unmarked_succ (searching : Searching taken occupied count n start contiguous)
    (free : ¬ taken (start + contiguous)) {position : Nat} (lower : start ≤ position)
    (upper : position < start + (contiguous + 1)) : ¬ taken position := by
  rcases Nat.lt_or_ge position (start + contiguous) with known | new
  · exact searching.unmarked position lower known
  · obtain rfl : position = start + contiguous := by omega
    exact free

theorem longer (searching : Searching taken occupied count n start contiguous)
    (inside : start + contiguous < count) (free : ¬ taken (start + contiguous))
    (more : contiguous + 1 ≠ n) :
    Searching taken occupied count n start (contiguous + 1) where
  short := Nat.lt_of_le_of_ne searching.short more
  reached := inside
  unmarked := fun _ lower upper => searching.unmarked_succ free lower upper
  passed := searching.passed
  edge := searching.edge

theorem marked (searching : Searching taken occupied count n start contiguous)
    (inside : start + contiguous < count) (set : taken (start + contiguous)) :
    Searching taken occupied count n (start + contiguous + 1) 0 where
  short := Nat.zero_lt_of_lt searching.short
  reached := inside
  unmarked := fun _ lower upper => absurd upper (Nat.not_lt.mpr lower)
  passed := by
    intro earlier upper room
    have short := searching.short
    rcases Nat.lt_or_ge earlier start with known | new
    · exact searching.passed earlier known room
    · exact (room (start + contiguous) (Nat.le_of_lt_succ upper) (by omega)).1 set
  edge := fun earlier upper => Or.inr
    ⟨start + contiguous, Nat.le_of_lt_succ upper, Nat.lt_succ_self _, set⟩

theorem roomAt (searching : Searching taken occupied count n start contiguous)
    (last : contiguous + 1 = n) (free : ¬ taken (start + contiguous))
    (unoccupied : ∀ position, start ≤ position → position < start + n → ¬ occupied position) :
    RoomAt taken occupied n start := by
  subst last
  exact fun position lower upper =>
    ⟨searching.unmarked_succ free lower upper, unoccupied position lower upper⟩

/-- An occupied run is given up for the one that begins behind its first entry. -/
theorem rejected (searching : Searching taken occupied count n start contiguous)
    (inside : start + contiguous < count) (last : contiguous + 1 = n) {position : Nat}
    (lower : start ≤ position) (upper : position < start + n)
    (valid : occupied position) :
    Searching taken occupied count n (start + 1) 0 where
  short := Nat.zero_lt_of_lt searching.short
  reached := by omega
  unmarked := fun _ lower upper => absurd upper (Nat.not_lt.mpr lower)
  passed := by
    intro earlier before room
    rcases Nat.lt_or_ge earlier start with known | new
    · exact searching.passed earlier known room
    · obtain rfl : earlier = start := Nat.le_antisymm (Nat.le_of_lt_succ before) new
      exact (room position lower upper).2 valid
  edge := by
    intro earlier before
    rcases Nat.lt_or_ge earlier start with known | new
    · exact (searching.edge earlier known).imp_right fun ⟨position, lower, upper, set⟩ =>
        ⟨position, lower, Nat.lt_succ_of_lt upper, set⟩
    · exact Or.inl (by omega)

theorem exhausted (searching : Searching taken occupied count n start contiguous)
    (outside : ¬ start + contiguous < count) :
    IsLeast (Tail taken count n) start ∧
      ∀ earlier, earlier + n ≤ count → ¬ RoomAt taken occupied n earlier := by
  have short := searching.short
  have reached := searching.reached
  refine ⟨⟨⟨by omega, by omega, fun position lower upper =>
    searching.unmarked position lower (by omega)⟩, ?_⟩, fun earlier fits =>
      searching.passed earlier (by omega)⟩
  rintro earlier ⟨_, tooShort, unmarked⟩
  by_contra before
  rcases searching.edge earlier (Nat.lt_of_not_le before) with fits | ⟨position, lower, upper, set⟩
  · omega
  · exact unmarked position lower (by omega) set

end Searching

end Searching

section Search

variable {ef : ExfatReader} {content : Nat → UInt8} {dir before : NodeEntry} {isRoot : Bool}

/-- The answer of `check_slot` says whether the run is occupied. -/
theorem checkSlot_eq (directory : Directory ef dir)
    (readable : ClustersReadable ef.toExfatFs content) (reread : Reread ef dir before)
    (whole : readableEntries ef.toExfatFs dir.node = dir.node.size.toNat / 32)
    {n start : Nat} (some : 0 < n) (inside : start + n ≤ dir.node.size.toNat / 32) :
    ∃ rc after, checkSlot ef isRoot before (32 * start) n = .ok (rc, after) ∧
      Reread ef dir after ∧
      (rc = 0 ∧ (∀ position, start ≤ position → position < start + n →
          ¬ Occupied ef content isRoot dir position) ∨
        rc = -einval ∧ ∃ position, start ≤ position ∧ position < start + n ∧
          Occupied ef content isRoot dir position) := by
  cases isRoot with
  | false => exact ⟨0, before, rfl, reread, Or.inl ⟨rfl, fun _ _ _ occupied => by
      cases occupied.1⟩⟩
  | true =>
      obtain ⟨rc, entries, after, read, kept, cases⟩ :=
        readEntries_eq directory readable reread some (show start ≤ _ by omega)
      rw [if_pos (by omega)] at cases
      obtain ⟨rfl, rfl⟩ := cases
      rw [checkSlot, if_pos rfl, read]
      simp only [ok_bind, ne_eq, not_true_eq_false, if_false]
      split_ifs with found
      · refine ⟨_, after, rfl, kept, Or.inr ⟨rfl, ?_⟩⟩
        simp only [List.any_map, List.any_eq_true, List.mem_range, Function.comp_apply,
          decide_eq_true_eq] at found
        obtain ⟨index, below, valid⟩ := found
        exact ⟨start + index, Nat.le_add_right _ _, by omega, rfl, valid⟩
      · refine ⟨_, after, rfl, kept, Or.inl ⟨rfl, fun position lower upper occupied => found ?_⟩⟩
        simp only [List.any_map, List.any_eq_true, List.mem_range, Function.comp_apply,
          decide_eq_true_eq]
        refine ⟨position - start, by omega, ?_⟩
        rw [Nat.add_sub_cancel' lower]
        exact occupied.2

/-- The least whole number of clusters that has room for some bytes. -/
theorem isLeast_roundUp {wanted clusterSize : Nat} (positive : 0 < clusterSize) :
    IsLeast {size | clusterSize ∣ size ∧ wanted ≤ size}
      ((wanted + clusterSize - 1) / clusterSize * clusterSize) := by
  constructor
  · refine ⟨Nat.dvd_mul_left _ _, ?_⟩
    have remainder := Nat.mod_lt (wanted + clusterSize - 1) positive
    have parts := Nat.div_add_mod' (wanted + clusterSize - 1) clusterSize
    omega
  · rintro size ⟨⟨clusters, rfl⟩, fits⟩
    rw [Nat.mul_comm clusterSize clusters]
    apply Nat.mul_le_mul_right
    rw [← Nat.lt_succ_iff, Nat.div_lt_iff_lt_mul positive, Nat.succ_mul, Nat.mul_comm]
    omega

theorem slotLoop_eq (directory : Directory ef dir)
    (readable : ClustersReadable ef.toExfatFs content)
    (whole : readableEntries ef.toExfatFs dir.node = dir.node.size.toNat / 32)
    {width n : Nat} (dmap : Bitmap width (dir.node.size.toNat / 32))
    {start contiguous : Nat} (reread : Reread ef dir before)
    (searching : Searching (fun position => dmap.isSet position = true)
      (Occupied ef content isRoot dir) (dir.node.size.toNat / 32) n start contiguous) :
    ∃ slot after, slotLoop ef isRoot dmap n start contiguous before = .ok (slot, after) ∧
      Reread ef dir after ∧
      SlotFits (fun position => dmap.isSet position = true) (Occupied ef content isRoot dir)
        (dir.node.size.toNat / 32) n ef.clusterSize slot := by
  induction start, contiguous, before using slotLoop.induct dmap n with
  | case1 start contiguous before inside clear last next _ =>
      have free := ne_true_of_eq_false clear
      obtain ⟨rc, moved, checked, kept, answer⟩ := @checkSlot_eq ef content dir before isRoot
        directory readable reread whole n start (by omega) (by omega)
      rw [slotLoop, dif_pos inside, if_pos clear, if_pos last, checked, ok_bind]
      dsimp only
      rcases answer with ⟨rfl, unoccupied⟩ | ⟨rfl, position, lower, upper, occupied⟩
      · rw [if_pos rfl]
        exact ⟨_, moved, rfl, kept, start, rfl, by omega,
          searching.roomAt last free unoccupied, searching.passed⟩
      · rw [if_neg (by decide), if_neg (by decide), if_pos rfl]
        exact next moved kept (searching.rejected inside last lower upper occupied)
  | case2 start contiguous before inside clear more inductionHypothesis =>
      rw [slotLoop, dif_pos inside, if_pos clear, if_neg more]
      exact inductionHypothesis reread
        (searching.longer inside (ne_true_of_eq_false clear) more)
  | case3 start contiguous before inside set inductionHypothesis =>
      rw [slotLoop, dif_pos inside, if_neg set]
      exact inductionHypothesis reread (searching.marked inside (eq_true_of_ne_false set))
  | case4 start contiguous before outside =>
      have reached := searching.reached
      have short := searching.short
      have size := directory.size_eq
      have same : before.node.size = dir.node.size := reread.requested.sameFile.size
      have wanted : dir.node.size.toNat + 32 * (n - contiguous) = 32 * (start + n) := by omega
      obtain ⟨least, full⟩ := searching.exhausted outside
      rw [slotLoop, dif_neg outside, same, wanted]
      refine ⟨_, before, rfl, reread, start, ?_, least, full, isLeast_roundUp ef.clusterSize_pos⟩
      split_ifs <;> omega

theorem SlotFits.spares_iff {taken occupied : Nat → Prop} {count n clusterSize : Nat} {slot : Slot}
    (fits : SlotFits taken occupied count n clusterSize slot) :
    slot.Spares occupied count n ↔ (∃ start, start + n ≤ count ∧ RoomAt taken occupied n start) ∨
      ∀ start, IsLeast (Tail taken count n) start →
        ∀ position, start ≤ position → position < count → ¬ occupied position := by
  cases slot with
  | found offset =>
      obtain ⟨start, rfl, inside, room, _⟩ := fits
      refine iff_of_true (fun position lower upper _ => ?_) (Or.inl ⟨start, inside, room⟩)
      rw [Nat.mul_div_cancel_left start (by decide)] at lower upper
      exact (room position lower upper).2
  | failed => exact fits.elim
  | extend offset size =>
      obtain ⟨start, rfl, least, full, _⟩ := fits
      have short := least.1.2.1
      have none : ¬ ∃ start, start + n ≤ count ∧ RoomAt taken occupied n start :=
        fun ⟨start, inside, room⟩ => full start inside room
      rw [or_iff_right none, Slot.Spares, Nat.mul_div_cancel_left start (by decide)]
      constructor
      · intro spares other first position lower upper
        obtain rfl := Nat.le_antisymm (first.2 least.1) (least.2 first.1)
        exact spares position lower (by omega) upper
      · exact fun clear position lower _ upper => clear start least position lower upper

theorem findSlot_eq (directory : Directory ef dir)
    (readable : ClustersReadable ef.toExfatFs content) (reread : Reread ef dir before)
    (whole : readableEntries ef.toExfatFs dir.node = dir.node.size.toNat / 32)
    {width n : Nat} (positive : 0 < width) (some : 0 < n) {children : List Child}
    (inside : ∀ child ∈ children,
      child.entryOffset / 32 + (1 + child.continuations.toNat) ≤ dir.node.size.toNat / 32) :
    ∃ slot after, findSlot ef isRoot true positive children before n = .ok (slot, after) ∧
      Reread ef dir after ∧
      SlotFits (fun position => ∃ child ∈ children, child.Covers position)
        (Occupied ef content isRoot dir) (dir.node.size.toNat / 32) n ef.clusterSize slot := by
  have same : before.node.size = dir.node.size := reread.requested.sameFile.size
  have marks := isSet_directoryMap positive children inside
  rw [findSlot, if_pos rfl, same]
  simp only [← marks]
  exact slotLoop_eq directory readable whole _ reread (.begin some)

/-- The slot that `find_slot` gives, and when it leaves the entries alone that the root directory
holds without files: a run of entries is read before it is taken, but the end of a directory
that has to grow is not. -/
theorem findSlot_spares_iff (directory : Directory ef dir)
    (readable : ClustersReadable ef.toExfatFs content) (reread : Reread ef dir before)
    (whole : readableEntries ef.toExfatFs dir.node = dir.node.size.toNat / 32)
    {width n : Nat} (positive : 0 < width) (some : 0 < n) {children : List Child}
    (inside : ∀ child ∈ children,
      child.entryOffset / 32 + (1 + child.continuations.toNat) ≤ dir.node.size.toNat / 32) :
    ∃ slot after, findSlot ef isRoot true positive children before n = .ok (slot, after) ∧
      Reread ef dir after ∧
      SlotFits (fun position => ∃ child ∈ children, child.Covers position)
        (Occupied ef content isRoot dir) (dir.node.size.toNat / 32) n ef.clusterSize slot ∧
      (slot.Spares (Occupied ef content isRoot dir) (dir.node.size.toNat / 32) n ↔
        (∃ start, start + n ≤ dir.node.size.toNat / 32 ∧
          RoomAt (fun position => ∃ child ∈ children, child.Covers position)
            (Occupied ef content isRoot dir) n start) ∨
        ∀ start, IsLeast (Tail (fun position => ∃ child ∈ children, child.Covers position)
            (dir.node.size.toNat / 32) n) start →
          ∀ position, start ≤ position → position < dir.node.size.toNat / 32 →
            ¬ Occupied ef content isRoot dir position) := by
  obtain ⟨slot, after, answer, kept, fits⟩ :=
    findSlot_eq directory readable reread whole positive some inside
  exact ⟨slot, after, answer, kept, fits, fits.spares_iff⟩

end Search

section Small

/-- The small volume without its file. -/
def filelessVolume (offset : Nat) : UInt8 :=
  if offset < 13 * 512 + 64 then smallVolume offset else 0

def filelessReader : ExfatReader :=
  ⟨⟨wholeDevice filelessVolume, ⟨smallGeometry, fatEntry .bits64 (wholeDevice filelessVolume)
    (bytesAt filelessVolume 0 512) id⟩⟩, .bits64, greenwich⟩

def filelessRoot : NodeEntry := rootNode 512 2

theorem directory_filelessRoot : Directory filelessReader filelessRoot :=
  ⟨by decide +kernel, rfl, by decide +kernel, by decide +kernel⟩

/-- A root directory of one sector without files: all of its sixteen entries look free to a file
that needs seventeen, and the entry of the map of clusters is overwritten. -/
theorem findSlot_spares_iff_filelessRoot :
    ∃ slot after, findSlot filelessReader true true (show 0 < 8 by decide) [] filelessRoot 17 =
        .ok (slot, after) ∧
      ¬ slot.Spares (Occupied filelessReader filelessVolume true filelessRoot) 16 17 := by
  have whole : readableEntries filelessReader.toExfatFs filelessRoot.node =
      filelessRoot.node.size.toNat / 32 := by decide +kernel
  have count : filelessRoot.node.size.toNat / 32 = 16 := by decide +kernel
  have occupied : Occupied filelessReader filelessVolume true filelessRoot 0 :=
    ⟨rfl, by decide +kernel⟩
  obtain ⟨slot, after, answer, _, _, spares⟩ := @findSlot_spares_iff filelessReader filelessVolume
    filelessRoot filelessRoot true directory_filelessRoot
    (clustersReadable_wholeDevice _ _) (Reread.refl _ _) whole 8 17 (by decide) (by decide) []
    (fun _ member => absurd member List.not_mem_nil)
  rw [count] at spares
  refine ⟨slot, after, answer, fun spared => ?_⟩
  rcases spares.mp spared with ⟨start, inside, _⟩ | clear
  · omega
  · refine clear 0 ⟨⟨Nat.zero_le _, by decide, ?_⟩, fun _ _ => Nat.zero_le _⟩ 0
      (Nat.zero_le _) (by decide) occupied
    rintro _ _ _ ⟨_, member, _⟩
    exact absurd member List.not_mem_nil

end Small

end Vtoydump.Exfat
