import Vtoydump.Linux.Loaders
import Vtoydump.Windows.Scanners

/-!
# The reads of the scans

The scans of the loaders bound the place where a check begins, not the bytes
that it reads.  Here each read faults unless the source supplied its bytes; a
scan without a fault finds what the loader finds, in a block inside the source.
-/

namespace Vtoydump

open CRun

namespace Source

/-- Read bytes that the source supplied. -/
def read (source : Source) (offset width : Nat) : Run (List UInt8) :=
  if offset + width ≤ source.size then .ok (bytesAt source.memory offset width)
  else .error .outOfBounds

/-- `vtoy_check_os_param` compares 16 bytes, and sums all 512 behind a GUID only. -/
def check (source : Source) (offset : Nat) : Run Int := do
  let guid ← source.read offset 16
  if guid ≠ ventoyGuid then return 1
  else
    let buf ← source.read offset sizeofOsParam
    if byteSum buf ≠ 0 then return 1 else return 0

/-- The `memcpy` into `param`. -/
def copy (source : Source) (offset : Nat) : Run OsParam := do
  let _ ← source.read offset sizeofOsParam
  return paramAt source.memory offset

/-- The loop of `firstAccepted`, read by read. -/
def firstReads (source : Source) (step : Nat) : Nat → Nat → Run (Option OsParam)
  | 0, _ => .ok none
  | count + 1, offset => do
      let rc ← source.check offset
      if rc = 0 then
        let param ← source.copy offset
        return some param
      else firstReads source step count (offset + step)

/-- The loop of `lastAccepted`, read by read. -/
def lastReads (source : Source) : Nat → Nat → Option OsParam → Run (Option OsParam)
  | 0, _, found => .ok found
  | count + 1, offset, found => do
      let rc ← source.check offset
      if rc = 0 then
        let param ← source.copy offset
        lastReads source count (offset + 1) (some param)
      else lastReads source count (offset + 1) found

/-- The bytes that a check at this place reads. -/
def CheckInside (source : Source) (offset : Nat) : Prop :=
  offset + 16 ≤ source.size ∧
    (bytesAt source.memory offset 16 = ventoyGuid → offset + sizeofOsParam ≤ source.size)

/-- The places that a scan looks at until it accepts one. -/
def Scans (source : Source) (step count offset place : Nat) : Prop :=
  Reaches (fun other => (paramAt source.memory other).Valid) (List.range' offset count step) place

/-- The scan of a window of physical memory may reach its end, unless a GUID lies there. -/
def WindowEnds (source : Source) : Prop :=
  (∃ block, 16 ∣ block ∧ block + sizeofOsParam ≤ source.size ∧
      (paramAt source.memory block).Valid) ∨
    ∀ place, 16 ∣ place → place < source.size → source.size < place + sizeofOsParam →
      bytesAt source.memory place 16 ≠ ventoyGuid

/-- The scan of a table has to end at a block inside it. -/
def TableEnds (source : Source) : Prop :=
  source.size = 0 ∨ ∃ block, block + sizeofOsParam ≤ source.size ∧
    (paramAt source.memory block).Valid

section Check

variable {source : Source} {offset : Nat}

theorem check_eq_ok_iff {rc : Int} :
    source.check offset = .ok rc ↔
      source.CheckInside offset ∧ rc = vtoyCheckOsParam (paramAt source.memory offset) := by
  unfold check read CheckInside vtoyCheckOsParam
  rw [take_paramAt, bytes_paramAt]
  by_cases compared : offset + 16 ≤ source.size
  · by_cases guid : bytesAt source.memory offset 16 = ventoyGuid
    · by_cases summed : offset + sizeofOsParam ≤ source.size
      · by_cases sum : byteSum (bytesAt source.memory offset sizeofOsParam) = 0
        · simp [compared, guid, summed, sum, eq_comm]
        · simp [compared, guid, summed, sum, @eq_comm _ (1 : Int)]
      · simp [compared, guid, summed]
    · simp [compared, guid, eq_comm]
  · simp [compared]

theorem inside_of_valid (inside : source.CheckInside offset)
    (valid : (paramAt source.memory offset).Valid) :
    offset + sizeofOsParam ≤ source.size := by
  exact inside.2 (guid_of_valid valid)

theorem copy_of_inside (inside : offset + sizeofOsParam ≤ source.size) :
    source.copy offset = .ok (paramAt source.memory offset) := by
  rw [copy, read, if_pos inside]
  rfl

end Check

section Loops

variable {source : Source} {step count offset : Nat} {found : Option OsParam}

theorem firstReads_eq_ok_iff :
    source.firstReads step count offset = .ok found ↔
      (∀ place, source.Scans step count offset place → source.CheckInside place) ∧
        found = firstAccepted source.memory step count offset := by
  unfold Scans
  induction count generalizing offset with
  | zero =>
      rw [firstReads, firstAccepted, List.range'_zero]
      simp [not_reaches_nil, eq_comm]
  | succ count inductionHypothesis =>
      rw [firstReads, firstAccepted, List.range'_succ, bind_eq_ok_iff]
      simp only [check_eq_ok_iff, reaches_cons_iff, forall_eq_or_imp]
      by_cases inside : source.CheckInside offset
      · by_cases accepted : vtoyCheckOsParam (paramAt source.memory offset) = 0
        · have valid := vtoyCheckOsParam_eq_zero_iff.mp accepted
          have copied := copy_of_inside (inside_of_valid inside valid)
          simp [inside, accepted, valid, copied, eq_comm]
        · have invalid := vtoyCheckOsParam_eq_zero_iff.not.mp accepted
          simp [inside, accepted, invalid, inductionHypothesis]
      · simp [inside]

theorem lastReads_eq_ok_iff {earlier : Option OsParam} :
    source.lastReads count offset earlier = .ok found ↔
      (∀ place ∈ List.range' offset count 1, source.CheckInside place) ∧
        found = Windows.lastAccepted source.memory count offset earlier := by
  induction count generalizing offset earlier with
  | zero =>
      rw [lastReads, Windows.lastAccepted, List.range'_zero]
      simp [eq_comm]
  | succ count inductionHypothesis =>
      rw [lastReads, Windows.lastAccepted, List.range'_succ, bind_eq_ok_iff, List.forall_mem_cons]
      simp only [check_eq_ok_iff]
      by_cases inside : source.CheckInside offset
      · by_cases accepted : vtoyCheckOsParam (paramAt source.memory offset) = 0
        · have valid := vtoyCheckOsParam_eq_zero_iff.mp accepted
          have copied := copy_of_inside (inside_of_valid inside valid)
          simp [inside, accepted, copied, inductionHypothesis]
        · simp [inside, accepted, inductionHypothesis]
      · simp [inside]

/-- A scan that looks inside the source only finds a block inside it. -/
theorem block_of_firstAccepted {param : OsParam}
    (inside : ∀ place, source.Scans step count offset place → source.CheckInside place)
    (accepted : firstAccepted source.memory step count offset = some param) :
    ∃ place, place + sizeofOsParam ≤ source.size ∧ param = paramAt source.memory place := by
  obtain ⟨place, reached, valid, same⟩ := reaches_of_firstAccepted accepted
  exact ⟨place, inside_of_valid (inside place reached) valid, same⟩

end Loops

section Conditions

variable {source : Source} {step count offset : Nat}

/-- A block inside the source ends the scan in front of the last 512 bytes. -/
theorem checkInside_of_block {place block : Nat} (positive : 0 < step)
    (reached : source.Scans step count offset place)
    (scanned : block ∈ List.range' offset count step)
    (inside : block + sizeofOsParam ≤ source.size)
    (valid : (paramAt source.memory block).Valid) : source.CheckInside place := by
  have before : place ≤ block :=
    reached.le (List.pairwise_lt_range' step positive) scanned valid
  have room : place + sizeofOsParam ≤ source.size :=
    Nat.le_trans (Nat.add_le_add_right before _) inside
  refine ⟨Nat.le_trans (Nat.add_le_add_left (by decide) place) room, ?_⟩
  intro _
  exact room

/-- The first block that is accepted lies inside, if a block is accepted at all. -/
theorem exists_block_of_valid
    (inside : ∀ place, source.Scans step count offset place → source.CheckInside place)
    {place : Nat} (scanned : place ∈ List.range' offset count step)
    (valid : (paramAt source.memory place).Valid) :
    ∃ block ∈ List.range' offset count step, block + sizeofOsParam ≤ source.size ∧
      (paramAt source.memory block).Valid := by
  obtain ⟨block, reached, accepted⟩ : ∃ block, source.Scans step count offset block ∧
      (paramAt source.memory block).Valid := exists_reaches_of_mem scanned valid
  exact ⟨block, reached.mem, inside_of_valid (inside block reached) accepted, accepted⟩

/-- The scan of a file checks its last byte, too. -/
theorem fileScan_inside_iff :
    (∀ place ∈ List.range' 0 source.size 1, source.CheckInside place) ↔ source.size = 0 := by
  constructor
  · intro inside
    by_contra nonempty
    have last : source.size - 1 ∈ List.range' 0 source.size 1 :=
      List.mem_range'_1.mpr ⟨Nat.zero_le _, by omega⟩
    have compared := (inside _ last).1
    omega
  · intro empty place scanned
    rw [empty] at scanned
    cases scanned

theorem tableScan_inside_iff :
    (∀ place, source.Scans 1 source.size 0 place → source.CheckInside place) ↔
      source.TableEnds := by
  constructor
  · intro inside
    by_cases empty : source.size = 0
    · exact .inl empty
    · right
      have last : source.size - 1 ∈ List.range' 0 source.size 1 :=
        List.mem_range'_1.mpr ⟨Nat.zero_le _, by omega⟩
      by_contra none_inside
      have refused : ∀ place ∈ List.range' 0 source.size 1,
          ¬ (paramAt source.memory place).Valid := by
        intro place scanned valid
        obtain ⟨block, -, room, accepted⟩ := exists_block_of_valid inside scanned valid
        exact none_inside ⟨block, room, accepted⟩
      have compared := (inside _ (reaches_of_forall_not refused last)).1
      omega
  · rintro (empty | ⟨block, room, valid⟩) place reached
    · have scanned := reached.mem
      rw [empty] at scanned
      cases scanned
    · have scanned : block ∈ List.range' 0 source.size 1 :=
        List.mem_range'_1.mpr ⟨Nat.zero_le _, by unfold sizeofOsParam at room; omega⟩
      exact checkInside_of_block Nat.one_pos reached scanned room valid

theorem mem_window_iff {place : Nat} :
    place ∈ List.range' 0 (count / 16) 16 ↔ 16 ∣ place ∧ place / 16 < count / 16 := by
  rw [List.mem_range']
  constructor
  · rintro ⟨index, inside, rfl⟩
    rw [Nat.zero_add]
    refine ⟨Nat.dvd_mul_right 16 index, ?_⟩
    rw [Nat.mul_div_cancel_left index (by decide)]
    exact inside
  · rintro ⟨multiple, inside⟩
    refine ⟨place / 16, inside, ?_⟩
    rw [Nat.zero_add, Nat.mul_div_cancel' multiple]

theorem windowScan_inside_iff (whole : 16 ∣ source.size) :
    (∀ place, source.Scans 16 (source.size / 16) 0 place → source.CheckInside place) ↔
      source.WindowEnds := by
  constructor
  · intro inside
    by_cases found : ∃ place ∈ List.range' 0 (source.size / 16) 16,
        (paramAt source.memory place).Valid
    · obtain ⟨place, scanned, valid⟩ := found
      obtain ⟨block, among, room, accepted⟩ := exists_block_of_valid inside scanned valid
      exact .inl ⟨block, (mem_window_iff.mp among).1, room, accepted⟩
    · right
      intro place multiple before behind guid
      have scanned : place ∈ List.range' 0 (source.size / 16) 16 :=
        mem_window_iff.mpr ⟨multiple, Nat.div_lt_div_of_lt_of_dvd whole before⟩
      have refused : ∀ other ∈ List.range' 0 (source.size / 16) 16,
          ¬ (paramAt source.memory other).Valid :=
        fun other among valid => found ⟨other, among, valid⟩
      have room := (inside place (reaches_of_forall_not refused scanned)).2 guid
      exact absurd behind (Nat.not_lt_of_le room)
  · rintro (⟨block, multiple, room, valid⟩ | clear) place reached
    · have before : block < source.size := by
        unfold sizeofOsParam at room
        omega
      have scanned : block ∈ List.range' 0 (source.size / 16) 16 :=
        mem_window_iff.mpr ⟨multiple, Nat.div_lt_div_of_lt_of_dvd whole before⟩
      exact checkInside_of_block (by decide) reached scanned room valid
    · obtain ⟨multiple, before⟩ := mem_window_iff.mp reached.mem
      constructor
      · omega
      · intro guid
        by_contra behind
        exact clear place multiple (by omega) (Nat.lt_of_not_le behind) guid

end Conditions

end Source

/-- A loader with `loadFound`, read by read. -/
def loadReads (scanned : Except Int Source) (search : Source → Run (Option OsParam))
    (param : OsParam) : Run (Int × OsParam) :=
  match scanned with
  | .error rc => .ok (rc, param)
  | .ok source => do
      match ← search source with
      | none => return (1, param)
      | some found => return (0, found)

/-- Every read of the scan stays inside what the source supplied, and so does the block
that a loader reports. -/
def StaysInside (scanned : Except Int Source) (reads : Run (Int × OsParam))
    (returned : Int × OsParam) : Prop :=
  reads = .ok returned ∧
    (returned.1 = 0 → ∃ source place, scanned = .ok source ∧
      place + sizeofOsParam ≤ source.size ∧ returned.2 = paramAt source.memory place)

theorem staysInside_iff_of_scan {scanned : Except Int Source}
    {search : Source → Option OsParam} {checked : Source → Run (Option OsParam)}
    {Fits : Source → Prop} (param : OsParam)
    (failed : ∀ rc, scanned = .error rc → rc ≠ 0)
    (reads : ∀ source found, checked source = .ok found ↔ Fits source ∧ found = search source)
    (block : ∀ source found, Fits source → search source = some found →
      ∃ place, place + sizeofOsParam ≤ source.size ∧ found = paramAt source.memory place) :
    StaysInside scanned (loadReads scanned checked param) (loadFound scanned search param) ↔
      ∀ source, scanned = .ok source → Fits source := by
  unfold StaysInside loadReads loadFound
  cases scanned with
  | error rc =>
      have nonzero := failed rc rfl
      constructor
      · rintro - source ⟨⟩
      · intro _
        exact ⟨rfl, fun success => absurd success nonzero⟩
  | ok source =>
      constructor
      · rintro ⟨run, -⟩ same ⟨⟩
        obtain ⟨found, returned, -⟩ := bind_eq_ok_iff.mp run
        exact ((reads source found).mp returned).1
      · intro fits
        have inside := fits source rfl
        have returned := (reads source (search source)).mpr ⟨inside, rfl⟩
        simp only [returned, ok_bind]
        cases found : search source with
        | none => exact ⟨rfl, fun success => absurd success Int.one_ne_zero⟩
        | some accepted =>
            obtain ⟨place, room, same⟩ := block source accepted inside found
            exact ⟨rfl, fun _ => ⟨source, place, rfl, room, same⟩⟩

namespace Linux

/-- The window of physical memory, when it can be mapped. -/
def scannedWindow (system : System) : Except Int Source :=
  match system.devMem with
  | .locked errno => .error errno
  | .opened mmap =>
      match mmap searchMemStart searchMemLen with
      | .error errno => .error errno
      | .ok memory => .ok ⟨searchMemLen, memory⟩

def phymemReads (system : System) (param : OsParam) : Run (Int × OsParam) :=
  loadReads (scannedWindow system) (fun source => source.firstReads 16 (searchMemLen / 16) 0) param

theorem vtoyOsParamFromPhymem_eq (system : System) (param : OsParam) :
    vtoyOsParamFromPhymem system param =
      loadFound (scannedWindow system)
        (fun source => firstAccepted source.memory 16 (searchMemLen / 16) 0) param := by
  unfold vtoyOsParamFromPhymem scannedWindow
  cases system.devMem with
  | locked errno => rfl
  | opened mmap =>
      simp only
      cases mmap searchMemStart searchMemLen with
      | error errno => rfl
      | ok memory =>
          cases found : firstAccepted memory 16 (searchMemLen / 16) 0 with
          | none => simp only [loadFound, found]
          | some param => simp only [loadFound, found]

end Linux

namespace Windows

def fileReads (system : System) (param : OsParam) (file : List Char) : Run (Int × OsParam) :=
  loadReads (scannedFile system file) (fun source => source.lastReads source.size 0 none) param

def ibftReads (system : System) (param : OsParam) : Run (Int × OsParam) :=
  loadReads (scannedIbft system) (fun source => source.firstReads 1 source.size 0) param

def acpiReads (system : System) (param : OsParam) : Run (Int × OsParam) :=
  loadReads (scannedAcpi system) (fun source => source.firstReads 1 source.size 0) param

end Windows

section Loaders

variable {linux : Linux.System} {windows : Windows.System} {file : List Char}

theorem scannedWindow_error {rc : Int} (failed : Linux.scannedWindow linux = .error rc) :
    rc ≠ 0 := by
  unfold Linux.scannedWindow at failed
  cases memory : linux.devMem with
  | locked errno =>
      rw [memory] at failed
      cases failed
      exact errno.property
  | opened mmap =>
      simp only [memory] at failed
      cases mapped : mmap Linux.searchMemStart Linux.searchMemLen with
      | error errno =>
          rw [mapped] at failed
          cases failed
          exact errno.property
      | ok window =>
          rw [mapped] at failed
          cases failed

theorem size_of_scannedWindow {source : Source}
    (mapped : Linux.scannedWindow linux = .ok source) : source.size = Linux.searchMemLen := by
  unfold Linux.scannedWindow at mapped
  cases memory : linux.devMem with
  | locked errno =>
      rw [memory] at mapped
      cases mapped
  | opened mmap =>
      simp only [memory] at mapped
      cases answer : mmap Linux.searchMemStart Linux.searchMemLen with
      | error errno =>
          rw [answer] at mapped
          cases mapped
      | ok window =>
          rw [answer] at mapped
          cases mapped
          rfl

theorem staysInside_table_iff {scanned : Except Int Source} (param : OsParam)
    (failed : ∀ rc, scanned = .error rc → rc ≠ 0) :
    StaysInside scanned
        (loadReads scanned (fun source => source.firstReads 1 source.size 0) param)
        (loadFound scanned (fun source => firstAccepted source.memory 1 source.size 0) param) ↔
      ∀ source, scanned = .ok source → source.TableEnds := by
  rw [staysInside_iff_of_scan param failed (fun _ _ => Source.firstReads_eq_ok_iff)
    fun _ _ => Source.block_of_firstAccepted]
  exact forall₂_congr fun source _ => Source.tableScan_inside_iff

theorem staysInside_file_iff (param : OsParam) :
    StaysInside (Windows.scannedFile windows file) (Windows.fileReads windows param file)
        (Windows.vtoyOsParamFromFile windows param file) ↔
      ∀ source, Windows.scannedFile windows file = .ok source → source.size = 0 := by
  have failed : ∀ rc, Windows.scannedFile windows file = .error rc → rc ≠ 0 := by
    intro rc refused
    rw [Windows.scannedFile_error refused]
    exact Int.one_ne_zero
  rw [Windows.vtoyOsParamFromFile_eq, Windows.fileReads,
    staysInside_iff_of_scan param failed (fun _ _ => Source.lastReads_eq_ok_iff)]
  · exact forall₂_congr fun source _ => Source.fileScan_inside_iff
  · intro source found inside accepted
    rw [Source.fileScan_inside_iff.mp inside] at accepted
    cases accepted

theorem staysInside_phymem_iff (param : OsParam) :
    StaysInside (Linux.scannedWindow linux) (Linux.phymemReads linux param)
        (Linux.vtoyOsParamFromPhymem linux param) ↔
      ∀ source, Linux.scannedWindow linux = .ok source → source.WindowEnds := by
  rw [Linux.vtoyOsParamFromPhymem_eq, Linux.phymemReads,
    staysInside_iff_of_scan param (fun _ => scannedWindow_error)
      (fun _ _ => Source.firstReads_eq_ok_iff) fun _ _ => Source.block_of_firstAccepted]
  apply forall₂_congr
  intro source mapped
  have size := size_of_scannedWindow mapped
  rw [← size]
  apply Source.windowScan_inside_iff
  rw [size]
  decide

end Loaders

/-- The scan of physical memory stays inside its window exactly when it ends early or no
GUID lies in the last 512 bytes; the scans of the tables, when they end at a block inside
the table; the scan of a file, when the file is empty. -/
theorem staysInside_iff (linux : Linux.System) (windows : Windows.System) (param : OsParam)
    (file : List Char) :
    (StaysInside (Linux.scannedWindow linux) (Linux.phymemReads linux param)
        (Linux.vtoyOsParamFromPhymem linux param) ↔
      ∀ source, Linux.scannedWindow linux = .ok source → source.WindowEnds) ∧
    (StaysInside (Windows.scannedFile windows file) (Windows.fileReads windows param file)
        (Windows.vtoyOsParamFromFile windows param file) ↔
      ∀ source, Windows.scannedFile windows file = .ok source → source.size = 0) ∧
    (StaysInside (Windows.scannedIbft windows) (Windows.ibftReads windows param)
        (Windows.vtoyOsParamFromIbft windows param) ↔
      ∀ source, Windows.scannedIbft windows = .ok source → source.TableEnds) ∧
    (StaysInside (Windows.scannedAcpi windows) (Windows.acpiReads windows param)
        (Windows.vtoyOsParamFromAcpi windows param) ↔
      ∀ source, Windows.scannedAcpi windows = .ok source → source.TableEnds) := by
  refine ⟨staysInside_phymem_iff param, staysInside_file_iff param, ?_, ?_⟩
  · rw [Windows.vtoyOsParamFromIbft_eq]
    apply staysInside_table_iff
    intro rc refused
    rw [Windows.scannedIbft_error refused]
    exact Int.one_ne_zero
  · rw [Windows.vtoyOsParamFromAcpi_eq]
    apply staysInside_table_iff
    intro rc refused
    rw [Windows.scannedAcpi_error refused]
    exact Int.one_ne_zero

/-- A data file of one byte. -/
def byteFileSystem : Windows.System :=
  { Windows.System.bare with dataFile := fun _ => some ⟨1, fun _ => 0⟩ }

theorem not_staysInside_byteFile :
    ¬ StaysInside (Windows.scannedFile byteFileSystem [])
      (Windows.fileReads byteFileSystem .zero [])
      (Windows.vtoyOsParamFromFile byteFileSystem .zero []) := by
  rintro ⟨run, -⟩
  have beyond : Windows.fileReads byteFileSystem .zero [] = .error .outOfBounds := rfl
  rw [beyond] at run
  cases run

end Vtoydump
