import Vtoydump.Windows.Mount

/-!
# The letter that Windows chose

Without a letter of its own to ask for, `vtoy_mount_iso_by_api` looks for the
first letter that differs between two samples of the drives.  Between them the
letter of the image appears, and other letters come and go in any order: the
letter that is reported is a new one exactly when no letter that went stands in
front of all that came.
-/

namespace Vtoydump.Windows

open CRun

/-- What `GetLogicalDrives` gives: one bit for each letter. -/
structure DriveSet where
  bits : UInt32
  bits_lt : bits.toNat < 2 ^ 26
  deriving DecidableEq

namespace DriveSet

def letters (drives : DriveSet) : Set Nat := bitSet drives.bits

instance (drives : DriveSet) : DecidablePred (· ∈ drives.letters) :=
  inferInstanceAs (DecidablePred (· ∈ bitSet drives.bits))

theorem lt_of_mem_letters {drives : DriveSet} {letter : Nat}
    (membership : letter ∈ drives.letters) : letter < 26 :=
  lt_of_mem_bitSet drives.bits_lt membership

/-- A letter appears. -/
def add (drives : DriveSet) (letter : Fin 26) : DriveSet where
  bits := drives.bits ||| bitMask letter
  bits_lt := by
    rw [UInt32.toNat_or]
    apply Nat.or_lt_two_pow drives.bits_lt
    rw [toNat_bitMask (letter.isLt.trans (by decide))]
    exact Nat.pow_lt_pow_right (by decide) letter.isLt

/-- A letter disappears. -/
def remove (drives : DriveSet) (letter : Fin 26) : DriveSet where
  bits := drives.bits &&& ~~~bitMask letter
  bits_lt := by
    rw [UInt32.toNat_and]
    exact Nat.lt_of_le_of_lt Nat.and_le_left drives.bits_lt

@[simp] theorem letters_add (drives : DriveSet) (letter : Fin 26) :
    (drives.add letter).letters = insert letter.val drives.letters :=
  bitSet_or_bitMask (letter.isLt.trans (by decide))

@[simp] theorem letters_remove (drives : DriveSet) (letter : Fin 26) :
    (drives.remove letter).letters = drives.letters \ {letter.val} :=
  bitSet_and_not_bitMask (letter.isLt.trans (by decide))

end DriveSet

/-- What happens to the drives behind the first sample. -/
inductive DriveEvent where
  /-- The letter of the attached image appears. -/
  | mounted
  | appears (letter : Fin 26)
  | disappears (letter : Fin 26)
  deriving DecidableEq

def DriveEvent.apply (own : Fin 26) (drives : DriveSet) : DriveEvent → DriveSet
  | .mounted => drives.add own
  | .appears letter => drives.add letter
  | .disappears letter => drives.remove letter

/-- The samples that the wait loop takes, with what happens in front of each. -/
def samples (own : Fin 26) : DriveSet → List (List DriveEvent) → List DriveSet
  | _, [] => []
  | drives, events :: later =>
      let sampled := events.foldl (DriveEvent.apply own) drives
      sampled :: samples own sampled later

/-- The wait loop: it ends with the first sample that differs. -/
def waitForChange (drives0 : DriveSet) : List DriveSet → Option DriveSet
  | [] => none
  | drives1 :: later => if drives1 = drives0 then waitForChange drives0 later else some drives1

/-- The drives before the image is attached, the letter that it gets, and what happens
up to each sample behind that. -/
structure DriveHistory where
  before : DriveSet
  own : Fin 26
  events : List (List DriveEvent)

/-- The sample that ends the wait, if one does. -/
def DriveHistory.after (history : DriveHistory) : Option DriveSet :=
  waitForChange history.before (samples history.own history.before history.events)

/-- The system with these drives. -/
def System.during (system : System) (history : DriveHistory) : System :=
  { system with
    logicalDrives := history.before.bits
    virtualDisk := { system.virtualDisk with drivesAfter := history.after.map DriveSet.bits } }

theorem openDisk_during (system : System) (history : DriveHistory) (filePath : List Char) :
    (system.during history).virtualDisk.openDisk (widePath (system.during history) filePath) =
      system.virtualDisk.openDisk (widePath system filePath) := rfl

@[simp] theorem attach_during (system : System) (history : DriveHistory) :
    (system.during history).virtualDisk.attach = system.virtualDisk.attach := rfl

@[simp] theorem drivesAfter_during (system : System) (history : DriveHistory) :
    (system.during history).virtualDisk.drivesAfter = history.after.map DriveSet.bits := rfl

@[simp] theorem logicalDrives_during (system : System) (history : DriveHistory) :
    (system.during history).logicalDrives = history.before.bits := rfl

/-- A letter that is reported is in the second sample, and not in the first. -/
def ReportsAppeared (history : DriveHistory) (run : Run Outcome) : Prop :=
  ∀ outcome, run = .ok outcome → outcome.status = 0 →
    ∃ drives1 letter filePath, history.after = some drives1 ∧
      outcome.out = [mountedLine (driveLetter letter) filePath] ∧
      letter ∈ drives1.letters ∧ letter ∉ history.before.letters

/-- The image is opened, and attached with a letter that Windows chooses. -/
def Attaches (system : System) (param : OsParam) (diskname : List Char) : Prop :=
  ∃ filePath, isoPath 512 param diskname = .ok filePath ∧
    system.virtualDisk.openDisk (widePath system filePath) = 0 ∧
    system.virtualDisk.attach false = 0

/-- In front of each letter that is gone a letter has come. -/
def Preceded (before after : DriveSet) : Prop :=
  ∀ gone ∈ before.letters \ after.letters, ∃ came ∈ after.letters \ before.letters, came < gone

section Letter

/-- Of a word with a lowest bit the loop gives the letter of that bit. -/
theorem changedLetter_eq {left index first : Nat} {changed : UInt32}
    (least : IsLeast (bitSet changed) first) (inside : first < left) :
    changedLetter left changed index = driveLetter (index + first) := by
  induction left generalizing changed index first with
  | zero => cases inside
  | succ left inductionHypothesis =>
      have lowest : changed &&& 1 = 0 ↔ 0 ∉ bitSet changed :=
        @and_bitMask_eq_zero_iff changed 0 (by decide)
      rw [changedLetter]
      split_ifs with shifted
      · have skipped := lowest.mp shifted
        cases first with
        | zero => exact absurd least.1 skipped
        | succ first =>
            have behind : IsLeast (bitSet (changed >>> 1)) first := by
              refine ⟨mem_bitSet_shiftRight.mpr least.1, ?_⟩
              intro other membership
              exact Nat.le_of_succ_le_succ (least.2 (mem_bitSet_shiftRight.mp membership))
            rw [inductionHypothesis behind (Nat.lt_of_succ_lt_succ inside),
              Nat.succ_add_eq_add_succ]
      · have first_zero : first ≤ 0 := least.2 (not_not.mp (lowest.not.mp shifted))
        rw [Nat.le_zero.mp first_zero]
        rfl

theorem driveLetter_injOn {first second : Nat} (inside : first < 26) (also : second < 26)
    (same : driveLetter first = driveLetter second) : first = second := by
  have codes := congrArg Char.toNat same
  rw [toNat_driveLetter inside, toNat_driveLetter also] at codes
  exact Nat.add_left_cancel codes

end Letter

section Wait

variable {drives0 drives1 : DriveSet} {history : DriveHistory}

/-- The sample that ends the wait differs from the first one. -/
theorem waitForChange_eq_some {sampled : List DriveSet}
    (ended : waitForChange drives0 sampled = some drives1) :
    drives1 ∈ sampled ∧ drives1 ≠ drives0 := by
  induction sampled with
  | nil => cases ended
  | cons drives later inductionHypothesis =>
      rw [waitForChange] at ended
      split_ifs at ended with unchanged
      · obtain ⟨membership, changed⟩ := inductionHypothesis ended
        exact ⟨List.mem_cons_of_mem _ membership, changed⟩
      · cases ended
        exact ⟨List.mem_cons_self, unchanged⟩

theorem DriveHistory.after_eq_some (ended : history.after = some drives1) :
    drives1 ∈ samples history.own history.before history.events ∧ drives1 ≠ history.before :=
  waitForChange_eq_some ended

/-- The letter that is reported is the first in which the samples differ. -/
theorem attachAutomatic_during {system : System} (attached : system.virtualDisk.attach false = 0)
    (ended : history.after = some drives1) (filePath : List Char) :
    ∃ first, IsLeast (symmDiff history.before.letters drives1.letters) first ∧
      attachAutomatic (system.during history) filePath =
        .ok ⟨0, [.automatic], [mountedLine (driveLetter first) filePath], []⟩ := by
  have changed : drives1.bits ≠ history.before.bits := by
    intro same
    exact (DriveHistory.after_eq_some ended).2 ((DriveSet.mk.injEq _ _ _ _).mpr same)
  have nonzero : history.before.bits ^^^ drives1.bits ≠ 0 := by
    intro zero
    exact changed (UInt32.xor_eq_zero_iff.mp zero).symm
  obtain ⟨first, least⟩ := exists_isLeast_bitSet nonzero
  have letter := @changedLetter_eq 32 0 first _ least (lt_of_mem_bitSet_word least.1)
  rw [Nat.zero_add] at letter
  refine ⟨first, bitSet_xor _ _ ▸ least, ?_⟩
  rw [attachAutomatic, attach_during, drivesAfter_during, logicalDrives_during, ended,
    if_neg (not_not.mpr attached), Option.map_some]
  simp only
  rw [if_neg changed, letter]

theorem attachAutomatic_waits {system : System} (attached : system.virtualDisk.attach false = 0)
    (waits : history.after = none) (filePath : List Char) :
    attachAutomatic (system.during history) filePath = .error .diverges := by
  rw [attachAutomatic, attach_during, drivesAfter_during, waits, if_neg (not_not.mpr attached),
    Option.map_none]

end Wait

section Additions

variable {own : Fin 26} {drives : DriveSet} {event : DriveEvent}

/-- No letter goes. -/
def DriveEvent.Adds (event : DriveEvent) : Prop := ∀ letter, event ≠ .disappears letter

theorem letters_subset_apply (adds : event.Adds) :
    drives.letters ⊆ (event.apply own drives).letters := by
  cases event with
  | mounted =>
      rw [DriveEvent.apply, DriveSet.letters_add]
      exact Set.subset_insert _ _
  | appears letter =>
      rw [DriveEvent.apply, DriveSet.letters_add]
      exact Set.subset_insert _ _
  | disappears letter => exact absurd rfl (adds letter)

theorem letters_subset_foldl {events : List DriveEvent} (adds : ∀ event ∈ events, event.Adds) :
    drives.letters ⊆ (events.foldl (DriveEvent.apply own) drives).letters := by
  induction events generalizing drives with
  | nil => exact Set.Subset.rfl
  | cons event events inductionHypothesis =>
      obtain ⟨here, later⟩ := List.forall_mem_cons.mp adds
      exact (letters_subset_apply here).trans (inductionHypothesis later)

theorem letters_subset_of_mem_samples {history : List (List DriveEvent)} {sampled : DriveSet}
    (adds : ∀ events ∈ history, ∀ event ∈ events, event.Adds)
    (membership : sampled ∈ samples own drives history) : drives.letters ⊆ sampled.letters := by
  induction history generalizing drives with
  | nil => cases membership
  | cons events history inductionHypothesis =>
      obtain ⟨here, later⟩ := List.forall_mem_cons.mp adds
      have first := @letters_subset_foldl own drives events here
      rcases List.mem_cons.mp membership with rfl | behind
      · exact first
      · exact first.trans (inductionHypothesis later behind)

/-- While letters only come, nothing has to be preceded. -/
theorem preceded_of_adds {history : DriveHistory} {drives1 : DriveSet}
    (adds : ∀ events ∈ history.events, ∀ event ∈ events, event.Adds)
    (ended : history.after = some drives1) : Preceded history.before drives1 := by
  have kept := letters_subset_of_mem_samples adds (DriveHistory.after_eq_some ended).1
  rintro gone ⟨there, absent⟩
  exact absurd (kept there) absent

end Additions

section Report

variable {system : System} {param : OsParam} {diskname : List Char} {history : DriveHistory}
  {drives1 : DriveSet}

theorem exists_reported (attaches : Attaches system param diskname)
    (ended : history.after = some drives1) :
    ∃ first filePath, IsLeast (symmDiff history.before.letters drives1.letters) first ∧
      vtoyMountIsoByApi (system.during history) param diskname '\x00' =
        .ok ⟨0, [.automatic], [mountedLine (driveLetter first) filePath], []⟩ := by
  obtain ⟨filePath, path, opened, attached⟩ := attaches
  obtain ⟨first, least, reported⟩ := attachAutomatic_during attached ended filePath
  refine ⟨first, filePath, least, ?_⟩
  have openedToo := (openDisk_during system history filePath).trans opened
  rw [vtoyMountIsoByApi_of_opened path openedToo, if_neg (not_not.mpr rfl), reported]

/-- What a run that reports a letter has done. -/
theorem attaches_of_reported {outcome : Outcome}
    (returned : vtoyMountIsoByApi (system.during history) param diskname '\x00' = .ok outcome)
    (success : outcome.status = 0) :
    Attaches system param diskname ∧ ∃ drives1, history.after = some drives1 := by
  obtain ⟨filePath, path, -⟩ := bind_eq_ok_iff.mp returned
  by_cases opened : system.virtualDisk.openDisk (widePath system filePath) = 0
  · have openedToo := (openDisk_during system history filePath).trans opened
    rw [vtoyMountIsoByApi_of_opened path openedToo, if_neg (not_not.mpr rfl)] at returned
    by_cases attached : system.virtualDisk.attach false = 0
    · refine ⟨⟨filePath, path, opened, attached⟩, ?_⟩
      cases ended : history.after with
      | none =>
          rw [attachAutomatic_waits attached ended] at returned
          cases returned
      | some drives1 => exact ⟨drives1, rfl⟩
    · rw [attachAutomatic, attach_during, if_pos attached] at returned
      cases returned
      cases success
  · obtain ⟨message, failed⟩ :=
      @exists_failed_of_refused (system.during history) _ _ '\x00' _ path opened
    cases failed.symm.trans returned
    cases success

theorem preceded_of_reports (attaches : Attaches system param diskname)
    (ended : history.after = some drives1)
    (reports : ReportsAppeared history
      (vtoyMountIsoByApi (system.during history) param diskname '\x00')) :
    Preceded history.before drives1 := by
  obtain ⟨first, filePath, least, returned⟩ := exists_reported attaches ended
  obtain ⟨_, letter, _, endedToo, out, came, new⟩ := reports _ returned rfl
  cases ended.symm.trans endedToo
  have same : driveLetter first = driveLetter letter :=
    Option.some.inj (congrArg List.head? (List.cons.inj out).1)
  have inside : first < 26 := by
    rcases least.1 with gone | new
    · exact DriveSet.lt_of_mem_letters gone.1
    · exact DriveSet.lt_of_mem_letters new.1
  obtain rfl : first = letter :=
    driveLetter_injOn inside (DriveSet.lt_of_mem_letters came) same
  exact (mem_sdiff_iff_of_isLeast least).mp ⟨came, new⟩

theorem reports_of_preceded
    (preceded : Attaches system param diskname →
      ∀ drives1, history.after = some drives1 → Preceded history.before drives1) :
    ReportsAppeared history
      (vtoyMountIsoByApi (system.during history) param diskname '\x00') := by
  intro outcome returned success
  obtain ⟨attaches, drives1, ended⟩ := attaches_of_reported returned success
  obtain ⟨first, filePath, least, reported⟩ := exists_reported attaches ended
  cases reported.symm.trans returned
  have appeared := (mem_sdiff_iff_of_isLeast least).mpr (preceded attaches drives1 ended)
  exact ⟨drives1, first, filePath, ended, rfl, appeared⟩

end Report

/-- The letter that is reported has appeared exactly when each letter that is gone at the
second sample has one in front of it that came; so it is in every history in which letters
only come. -/
theorem reportsAppeared_iff (system : System) (param : OsParam) (diskname : List Char)
    (history : DriveHistory) :
    (ReportsAppeared history
        (vtoyMountIsoByApi (system.during history) param diskname '\x00') ↔
      (Attaches system param diskname →
        ∀ drives1, history.after = some drives1 → Preceded history.before drives1)) ∧
      ((∀ events ∈ history.events, ∀ event ∈ events, event.Adds) →
        ReportsAppeared history
          (vtoyMountIsoByApi (system.during history) param diskname '\x00')) := by
  refine ⟨⟨?_, reports_of_preceded⟩, ?_⟩
  · intro reports attaches drives1 ended
    exact preceded_of_reports attaches ended reports
  · intro adds
    apply reports_of_preceded
    intro _ drives1 ended
    exact preceded_of_adds adds ended

section Gone

/-- A system that attaches every image. -/
def attachingSystem : System :=
  { System.bare with
    virtualDisk := ⟨fun _ => 0, fun _ => 0, .error 2, fun _ _ _ => false, none⟩ }

/-- Of the letters `C` and `E`, `E` goes while the image gets `F`. -/
def goneHistory : DriveHistory := ⟨⟨20, by decide⟩, 5, [[], [.disappears 4, .mounted]]⟩

/-- The letter `E` is reported, which was there before and is gone. -/
theorem not_reportsAppeared_gone :
    goneHistory.after = some ⟨36, by decide⟩ ∧
      vtoyMountIsoByApi (attachingSystem.during goneHistory) ntfsParam "C:\\".toList '\x00' =
        .ok ⟨0, [.automatic], ["E: C:\\a".toList], []⟩ ∧
      ¬ ReportsAppeared goneHistory (vtoyMountIsoByApi (attachingSystem.during goneHistory)
        ntfsParam "C:\\".toList '\x00') := by
  have ended : goneHistory.after = some ⟨36, by decide⟩ := by decide +kernel
  have attaches : Attaches attachingSystem ntfsParam "C:\\".toList :=
    ⟨"C:\\a".toList, by decide +kernel, rfl, rfl⟩
  refine ⟨ended, by decide +kernel, ?_⟩
  intro reports
  have preceded := preceded_of_reports attaches ended reports
  have gone : 4 ∈ goneHistory.before.letters \ DriveSet.letters ⟨36, by decide⟩ :=
    ⟨by decide, by decide⟩
  have known : ∀ came < 4, came ∈ DriveSet.letters ⟨36, by decide⟩ →
      came ∈ goneHistory.before.letters := by decide
  obtain ⟨came, new, earlier⟩ := preceded 4 gone
  exact new.2 (known came earlier new.1)

end Gone

end Vtoydump.Windows
