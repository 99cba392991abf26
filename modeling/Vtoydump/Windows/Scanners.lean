import Mathlib.Order.Bounds.Basic
import Vtoydump.Windows.Loaders

/-!
# The scanners on one string

The loaders that search a data file, the iBFT table and the VTOY table agree on
a string of bytes when the file loader, which goes on behind a match, ends with
the block that the others begin with.
-/

namespace Vtoydump.Windows

open CRun

/-- The buffer of a data file, when it can be opened and allocated. -/
def scannedFile (system : System) (file : List Char) : Except Int Source :=
  match system.dataFile file with
  | none => .error 1
  | some source =>
      if 2147483647 < source.size ∨ !system.dataFileMalloc then .error 1 else .ok source

def scannedIbft (system : System) : Except Int Source :=
  if system.ibft.lastError = 0 ∧ 0 < system.ibft.table.size ∧ system.ibft.table.size < 1024 then
    .ok system.ibft.table
  else .error 1

def scannedAcpi (system : System) : Except Int Source :=
  if !system.acpiMalloc then .error 1
  else if system.acpi.lastError = 0 then .ok system.acpi.table
  else .error 1

section Failure

variable {system : System} {rc : Int}

theorem scannedFile_error {file : List Char} (failed : scannedFile system file = .error rc) :
    rc = 1 := by
  unfold scannedFile at failed
  cases opened : system.dataFile file with
  | none =>
      rw [opened] at failed
      cases failed
      rfl
  | some source =>
      simp only [opened] at failed
      split_ifs at failed
      cases failed
      rfl

theorem scannedIbft_error (failed : scannedIbft system = .error rc) : rc = 1 := by
  unfold scannedIbft at failed
  split_ifs at failed
  cases failed
  rfl

theorem scannedAcpi_error (failed : scannedAcpi system = .error rc) : rc = 1 := by
  unfold scannedAcpi at failed
  split_ifs at failed
  · cases failed
    rfl
  · cases failed
    rfl

end Failure

theorem vtoyOsParamFromFile_eq (system : System) (param : OsParam) (file : List Char) :
    vtoyOsParamFromFile system param file =
      loadFound (scannedFile system file)
        (fun source => lastAccepted source.memory source.size 0 none) param := by
  unfold vtoyOsParamFromFile scannedFile
  cases system.dataFile file with
  | none => rfl
  | some source =>
      simp only
      split_ifs with refused
      · rfl
      · rfl

theorem vtoyOsParamFromIbft_eq (system : System) (param : OsParam) :
    vtoyOsParamFromIbft system param =
      loadFound (scannedIbft system)
        (fun source => firstAccepted source.memory 1 source.size 0) param := by
  unfold vtoyOsParamFromIbft scannedIbft
  split_ifs with present
  · rfl
  · rfl

theorem vtoyOsParamFromAcpi_eq (system : System) (param : OsParam) :
    vtoyOsParamFromAcpi system param =
      loadFound (scannedAcpi system)
        (fun source => firstAccepted source.memory 1 source.size 0) param := by
  unfold vtoyOsParamFromAcpi scannedAcpi
  split_ifs with refused present
  · rfl
  · rfl
  · rfl

/-- The 512 bytes of a string from an offset on. -/
def blockOf (bytes : List UInt8) (offset : Nat) : OsParam :=
  paramAt (fun index => bytes.getD index 0) offset

/-- A complete block of the string that the check accepts. -/
def Accepts (bytes : List UInt8) (offset : Nat) : Prop :=
  offset + sizeofOsParam ≤ bytes.length ∧ (blockOf bytes offset).Valid

/-- The buffer holds the string, and the bytes behind it complete no match. -/
structure Supplies (source : Source) (bytes : List UInt8) : Prop where
  contents : bytesAt source.memory 0 source.size = bytes
  closed : ∀ place < source.size, source.size < place + sizeofOsParam →
    ¬ (paramAt source.memory place).Valid

/-- The three loaders get to search the string; the one for the iBFT table takes strings of
1 to 1023 bytes only. -/
structure Searched (system : System) (file : List Char) (bytes : List UInt8) : Prop where
  fileSource : ∃ source, system.dataFile file = some source ∧ Supplies source bytes
  fileMalloc : system.dataFileMalloc = true
  acpiMalloc : system.acpiMalloc = true
  acpiError : system.acpi.lastError = 0
  acpiSource : Supplies system.acpi.table bytes
  ibftError : system.ibft.lastError = 0
  ibftSource : 0 < bytes.length → bytes.length < 1024 → Supplies system.ibft.table bytes

/-- The loader fails if no offset is accepted, and returns the block at the lowest one. -/
def ReturnsLowest (bytes : List UInt8) (result : Int × OsParam) : Prop :=
  (result.1 ≠ 0 ↔ ∀ offset, ¬ Accepts bytes offset) ∧
    ∀ low, IsLeast {offset | Accepts bytes offset} low → result = (0, blockOf bytes low)

def ScannersAgree (system : System) (param : OsParam) (file : List Char)
    (bytes : List UInt8) : Prop :=
  ReturnsLowest bytes (vtoyOsParamFromFile system param file) ∧
    ReturnsLowest bytes (vtoyOsParamFromAcpi system param) ∧
    (0 < bytes.length → bytes.length < 1024 →
      ReturnsLowest bytes (vtoyOsParamFromIbft system param))

section Supplied

variable {source : Source} {bytes : List UInt8}

theorem Supplies.size_eq (supplied : Supplies source bytes) : source.size = bytes.length := by
  have lengths := congrArg List.length supplied.contents
  rw [length_bytesAt] at lengths
  exact lengths

theorem Supplies.paramAt_eq (supplied : Supplies source bytes) {offset : Nat}
    (inside : offset + sizeofOsParam ≤ bytes.length) :
    paramAt source.memory offset = blockOf bytes offset := by
  have same : bytesAt source.memory offset sizeofOsParam =
      bytesAt (fun index => bytes.getD index 0) offset sizeofOsParam := by
    apply bytesAt_congr
    intro index below
    have room : offset + index < source.size := by
      rw [supplied.size_eq]
      exact Nat.lt_of_lt_of_le (Nat.add_lt_add_left below offset) inside
    rw [← supplied.contents, getD_bytesAt room, Nat.zero_add]
  apply OsParam.bytes_injective
  rw [blockOf, bytes_paramAt, bytes_paramAt, same]

/-- Up to the end of the string, the buffer is accepted where the string is. -/
theorem Supplies.valid_iff (supplied : Supplies source bytes) {place : Nat}
    (scanned : place ∈ List.range' 0 source.size 1) :
    (paramAt source.memory place).Valid ↔ Accepts bytes place := by
  have before : place < source.size := by
    simpa using (List.mem_range'_1.mp scanned).2
  by_cases inside : place + sizeofOsParam ≤ bytes.length
  · rw [supplied.paramAt_eq inside]
    exact ⟨fun valid => ⟨inside, valid⟩, And.right⟩
  · have beyond := supplied.closed place before (by rw [supplied.size_eq]; omega)
    exact iff_of_false beyond fun accepted => inside accepted.1

theorem Supplies.mem_range' (supplied : Supplies source bytes) {offset : Nat}
    (accepted : Accepts bytes offset) : offset ∈ List.range' 0 source.size 1 := by
  have inside := accepted.1
  apply List.mem_range'_1.mpr
  rw [supplied.size_eq]
  unfold sizeofOsParam at inside
  omega

/-- The search that stops finds the lowest offset. -/
theorem firstAccepted_supplied (supplied : Supplies source bytes) :
    (firstAccepted source.memory 1 source.size 0 = none ∧ ∀ offset, ¬ Accepts bytes offset) ∨
      ∃ low, IsLeast {offset | Accepts bytes offset} low ∧
        firstAccepted source.memory 1 source.size 0 = some (blockOf bytes low) := by
  cases found : firstAccepted source.memory 1 source.size 0 with
  | none =>
      left
      refine ⟨rfl, ?_⟩
      intro offset accepted
      have scanned := supplied.mem_range' accepted
      exact firstAccepted_eq_none_iff.mp found offset scanned
        ((supplied.valid_iff scanned).mpr accepted)
  | some param =>
      right
      obtain ⟨low, reached, valid, rfl⟩ := reaches_of_firstAccepted found
      have accepted := (supplied.valid_iff reached.mem).mp valid
      refine ⟨low, ⟨accepted, ?_⟩, ?_⟩
      · intro other also
        have scanned := supplied.mem_range' also
        exact reached.le (List.pairwise_lt_range' 1 Nat.one_pos) scanned
          ((supplied.valid_iff scanned).mpr also)
      · rw [supplied.paramAt_eq accepted.1]

/-- The search that goes on ends with the highest place that is accepted. -/
theorem lastAccepted_cases (memory : Nat → UInt8) (count offset : Nat)
    (earlier : Option OsParam) :
    (lastAccepted memory count offset earlier = earlier ∧
      ∀ place ∈ List.range' offset count 1, ¬ (paramAt memory place).Valid) ∨
    ∃ place ∈ List.range' offset count 1, (paramAt memory place).Valid ∧
      (∀ other ∈ List.range' offset count 1, (paramAt memory other).Valid → other ≤ place) ∧
      lastAccepted memory count offset earlier = some (paramAt memory place) := by
  induction count generalizing offset earlier with
  | zero =>
      left
      exact ⟨rfl, by simp⟩
  | succ count inductionHypothesis =>
      rw [lastAccepted, List.range'_succ]
      simp only [vtoyCheckOsParam_eq_zero_iff, List.forall_mem_cons]
      rcases inductionHypothesis (offset + 1)
          (if (paramAt memory offset).Valid then some (paramAt memory offset) else earlier) with
        ⟨same, refused⟩ | ⟨place, behind, valid, highest, same⟩
      · by_cases here : (paramAt memory offset).Valid
        · right
          refine ⟨offset, List.mem_cons_self, here, ⟨fun _ => Nat.le_refl offset, ?_⟩, ?_⟩
          · intro other scanned also
            exact absurd also (refused other scanned)
          · rw [same, if_pos here]
        · left
          refine ⟨?_, here, refused⟩
          rw [same, if_neg here]
      · right
        refine ⟨place, List.mem_cons_of_mem offset behind, valid, ⟨?_, highest⟩, same⟩
        intro _
        exact Nat.le_of_lt (Nat.lt_of_succ_le (List.mem_range'_1.mp behind).1)

theorem lastAccepted_supplied (supplied : Supplies source bytes) :
    (lastAccepted source.memory source.size 0 none = none ∧
      ∀ offset, ¬ Accepts bytes offset) ∨
    ∃ high, IsGreatest {offset | Accepts bytes offset} high ∧
      lastAccepted source.memory source.size 0 none = some (blockOf bytes high) := by
  rcases lastAccepted_cases source.memory source.size 0 none with
    ⟨same, refused⟩ | ⟨high, scanned, valid, highest, same⟩
  · left
    refine ⟨same, ?_⟩
    intro offset accepted
    have scanned := supplied.mem_range' accepted
    exact refused offset scanned ((supplied.valid_iff scanned).mpr accepted)
  · right
    have accepted := (supplied.valid_iff scanned).mp valid
    refine ⟨high, ⟨accepted, ?_⟩, ?_⟩
    · intro other also
      have among := supplied.mem_range' also
      exact highest other among ((supplied.valid_iff among).mpr also)
    · rw [same, supplied.paramAt_eq accepted.1]

theorem loadFound_failed (param : OsParam) {rc : Int} (nonzero : rc ≠ 0)
    (search : Source → Option OsParam) (refused : ∀ offset, ¬ Accepts bytes offset) :
    ReturnsLowest bytes (loadFound (.error rc) search param) := by
  refine ⟨iff_of_true nonzero refused, ?_⟩
  intro low least
  exact absurd least.1 (refused low)

theorem returnsLowest_of_first (supplied : Supplies source bytes) (param : OsParam) :
    ReturnsLowest bytes
      (loadFound (.ok source) (fun table => firstAccepted table.memory 1 table.size 0) param) := by
  unfold loadFound
  simp only
  rcases firstAccepted_supplied supplied with ⟨found, refused⟩ | ⟨low, least, found⟩
  · rw [found]
    exact loadFound_failed param Int.one_ne_zero (fun _ => none) refused
  · rw [found]
    refine ⟨iff_of_false (not_not.mpr rfl) fun refused => refused low least.1, ?_⟩
    intro other alsoLeast
    rw [alsoLeast.unique least]

/-- The file loader returns the highest block, which may be the lowest one. -/
theorem returnsLowest_of_last (supplied : Supplies source bytes) (param : OsParam) :
    ReturnsLowest bytes
        (loadFound (.ok source) (fun file => lastAccepted file.memory file.size 0 none) param) ↔
      ∀ low high, IsLeast {offset | Accepts bytes offset} low →
        IsGreatest {offset | Accepts bytes offset} high →
          blockOf bytes high = blockOf bytes low := by
  unfold loadFound
  simp only
  rcases lastAccepted_supplied supplied with ⟨found, refused⟩ | ⟨high, greatest, found⟩
  · rw [found]
    apply iff_of_true (loadFound_failed param Int.one_ne_zero (fun _ => none) refused)
    intro low high least _
    exact absurd least.1 (refused low)
  · rw [found]
    constructor
    · rintro ⟨-, lowest⟩ low other least alsoGreatest
      have same := lowest low least
      rw [alsoGreatest.unique greatest]
      exact (Prod.mk.inj same).2
    · intro same
      refine ⟨iff_of_false (not_not.mpr rfl) fun refused => refused high greatest.1, ?_⟩
      intro low least
      rw [same low high least greatest]

end Supplied

section Searched

variable {system : System} {file : List Char} {bytes : List UInt8}

theorem Searched.fromAcpi (searched : Searched system file bytes) (param : OsParam) :
    ReturnsLowest bytes (vtoyOsParamFromAcpi system param) := by
  have scanned : scannedAcpi system = .ok system.acpi.table := by
    simp [scannedAcpi, searched.acpiMalloc, searched.acpiError]
  rw [vtoyOsParamFromAcpi_eq, scanned]
  exact returnsLowest_of_first searched.acpiSource param

theorem Searched.fromIbft (searched : Searched system file bytes) (param : OsParam)
    (nonempty : 0 < bytes.length) (small : bytes.length < 1024) :
    ReturnsLowest bytes (vtoyOsParamFromIbft system param) := by
  have table := searched.ibftSource nonempty small
  have scanned : scannedIbft system = .ok system.ibft.table := by
    simp [scannedIbft, searched.ibftError, table.size_eq, nonempty, small]
  rw [vtoyOsParamFromIbft_eq, scanned]
  exact returnsLowest_of_first table param

/-- A string with an accepted block has a highest and a lowest one. -/
theorem Supplies.none_or_bounds {source : Source} (supplied : Supplies source bytes) :
    (∀ offset, ¬ Accepts bytes offset) ∨
      ∃ low high, IsLeast {offset | Accepts bytes offset} low ∧
        IsGreatest {offset | Accepts bytes offset} high := by
  rcases firstAccepted_supplied supplied with ⟨-, refused⟩ | ⟨low, least, -⟩
  · exact .inl refused
  · rcases lastAccepted_supplied supplied with ⟨-, refused⟩ | ⟨high, greatest, -⟩
    · exact .inl refused
    · exact .inr ⟨low, high, least, greatest⟩

/-- A file that is too large for an `int` is not searched. -/
theorem returnsLowest_large_iff {source : Source} (supplied : Supplies source bytes)
    (large : 2147483647 < bytes.length) (search : Source → Option OsParam) (param : OsParam) :
    ReturnsLowest bytes (loadFound (.error 1) search param) ↔
      ∀ low high, IsLeast {offset | Accepts bytes offset} low →
        IsGreatest {offset | Accepts bytes offset} high →
          bytes.length ≤ 2147483647 ∧ blockOf bytes high = blockOf bytes low := by
  constructor
  · rintro ⟨fails, -⟩ low high least -
    exact absurd least.1 (fails.mp Int.one_ne_zero low)
  · intro small
    apply loadFound_failed param Int.one_ne_zero
    rcases supplied.none_or_bounds with refused | ⟨low, high, least, greatest⟩
    · exact refused
    · exact absurd (small low high least greatest).1 (Nat.not_le_of_lt large)

theorem Searched.fromFile_iff (searched : Searched system file bytes) (param : OsParam) :
    ReturnsLowest bytes (vtoyOsParamFromFile system param file) ↔
      ∀ low high, IsLeast {offset | Accepts bytes offset} low →
        IsGreatest {offset | Accepts bytes offset} high →
          bytes.length ≤ 2147483647 ∧ blockOf bytes high = blockOf bytes low := by
  obtain ⟨source, opened, supplied⟩ := searched.fileSource
  rw [vtoyOsParamFromFile_eq]
  by_cases large : 2147483647 < bytes.length
  · have refused : scannedFile system file = .error 1 := by
      simp [scannedFile, opened, supplied.size_eq, large]
    rw [refused]
    exact returnsLowest_large_iff supplied large _ param
  · have scanned : scannedFile system file = .ok source := by
      simp [scannedFile, opened, supplied.size_eq, large, searched.fileMalloc]
    rw [scanned, returnsLowest_of_last supplied]
    simp only [Nat.le_of_not_lt large, true_and]

end Searched

/-- The scanners agree exactly when the highest block that is accepted equals the lowest,
and the size of the file is an `int`, or no block is accepted. -/
theorem scannersAgree_iff (system : System) (param : OsParam) (file : List Char)
    (bytes : List UInt8) (searched : Searched system file bytes) :
    ScannersAgree system param file bytes ↔
      ∀ low high, IsLeast {offset | Accepts bytes offset} low →
        IsGreatest {offset | Accepts bytes offset} high →
          bytes.length ≤ 2147483647 ∧ blockOf bytes high = blockOf bytes low := by
  have others : ScannersAgree system param file bytes ↔
      ReturnsLowest bytes (vtoyOsParamFromFile system param file) :=
    and_iff_left ⟨searched.fromAcpi param, searched.fromIbft param⟩
  rw [others]
  exact searched.fromFile_iff param

section Strings

/-- A system whose file and tables hold one string. -/
def holding (bytes : List UInt8) : System :=
  { System.bare with
    dataFile := fun _ => some ⟨bytes.length, fun index => bytes.getD index 0⟩
    ibft := ⟨⟨bytes.length, fun index => bytes.getD index 0⟩, 0⟩
    acpi := ⟨⟨bytes.length, fun index => bytes.getD index 0⟩, 0⟩ }

theorem searched_holding {bytes : List UInt8}
    (closed : ∀ place < bytes.length, bytes.length < place + sizeofOsParam →
      ¬ (blockOf bytes place).Valid) : Searched (holding bytes) [] bytes := by
  have supplied : Supplies ⟨bytes.length, fun index => bytes.getD index 0⟩ bytes :=
    ⟨bytesAt_getD bytes, closed⟩
  exact ⟨⟨_, rfl, supplied⟩, rfl, rfl, rfl, supplied, rfl, fun _ _ => supplied⟩

/-- A block whose last bytes begin the GUID of another one. -/
def twoBlocks : List UInt8 :=
  ventoyGuid ++ [155] ++ List.replicate 483 0 ++
    (ventoyGuid ++ [19] ++ List.replicate 495 0)

theorem length_twoBlocks : twoBlocks.length = 1012 := by decide +kernel

theorem getD_ne_of_drop {bytes : List UInt8} {start index : Nat} {value : UInt8}
    (absent : ∀ byte ∈ bytes.drop start, byte ≠ value) (nonzero : 0 ≠ value)
    (behind : start ≤ index) : bytes.getD index 0 ≠ value := by
  rw [← Nat.add_sub_cancel' behind, List.getD_eq_getElem?_getD, ← List.getElem?_drop]
  cases found : (bytes.drop start)[index - start]? with
  | none => exact nonzero
  | some byte => exact absent byte (List.mem_of_getElem? found)

/-- No GUID ends behind the one of the second block. -/
theorem searched_twoBlocks : Searched (holding twoBlocks) [] twoBlocks := by
  have absent : ∀ byte ∈ twoBlocks.drop 516, byte ≠ 116 := by decide +kernel
  apply searched_holding
  rw [length_twoBlocks]
  intro place before beyond valid
  have guid := congrArg (fun bytes => bytes.getD 15 0) (guid_of_valid valid)
  rw [getD_bytesAt (by decide)] at guid
  apply getD_ne_of_drop absent (by decide) _ guid
  unfold sizeofOsParam at beyond
  omega

theorem accepts_of_take {bytes : List UInt8} {offset : Nat}
    (inside : offset + sizeofOsParam ≤ bytes.length)
    (guid : ((bytes.drop offset).take sizeofOsParam).take 16 = ventoyGuid)
    (sum : (((bytes.drop offset).take sizeofOsParam).map UInt8.toNat).sum % 256 = 0) :
    Accepts bytes offset := by
  refine ⟨inside, ?_⟩
  rw [OsParam.Valid, blockOf, bytes_paramAt, bytesAt_getD_of_le inside]
  exact ⟨guid, sum⟩

theorem scannersAgree_iff_twoBlocks :
    ScannersAgree (holding twoBlocks) .zero [] twoBlocks ↔
      ∀ low high, IsLeast {offset | Accepts twoBlocks offset} low →
        IsGreatest {offset | Accepts twoBlocks offset} high →
          twoBlocks.length ≤ 2147483647 ∧ blockOf twoBlocks high = blockOf twoBlocks low :=
  scannersAgree_iff (holding twoBlocks) .zero [] twoBlocks searched_twoBlocks

/-- The file loader returns the second block, the others return the first. -/
theorem not_scannersAgree_twoBlocks :
    Searched (holding twoBlocks) [] twoBlocks ∧
      ¬ ScannersAgree (holding twoBlocks) .zero [] twoBlocks := by
  refine ⟨searched_twoBlocks, ?_⟩
  rintro ⟨file, -, -⟩
  obtain ⟨source, opened, supplied⟩ := searched_twoBlocks.fileSource
  have scanned : scannedFile (holding twoBlocks) [] = .ok source := by
    have small : ¬ 2147483647 < source.size := by
      rw [supplied.size_eq, length_twoBlocks]
      decide
    simp [scannedFile, opened, small, searched_twoBlocks.fileMalloc]
  rw [vtoyOsParamFromFile_eq, scanned, returnsLowest_of_last supplied] at file
  have first : Accepts twoBlocks 0 := by
    apply accepts_of_take
    · rw [length_twoBlocks]
      decide
    · decide +kernel
    · decide +kernel
  have second : Accepts twoBlocks 500 := by
    apply accepts_of_take
    · rw [length_twoBlocks]
      decide
    · decide +kernel
    · decide +kernel
  have least : IsLeast {offset | Accepts twoBlocks offset} 0 :=
    ⟨first, fun offset _ => Nat.zero_le offset⟩
  have greatest : IsGreatest {offset | Accepts twoBlocks offset} 500 := by
    refine ⟨second, ?_⟩
    intro offset accepted
    have inside := accepted.1
    rw [length_twoBlocks] at inside
    exact Nat.le_of_add_le_add_right inside
  have same := congrArg OsParam.bytes (file 0 500 least greatest)
  rw [blockOf, blockOf, bytes_paramAt, bytes_paramAt, bytesAt_getD_of_le second.1,
    bytesAt_getD_of_le first.1] at same
  have differ : (twoBlocks.drop 500).take sizeofOsParam ≠
      (twoBlocks.drop 0).take sizeofOsParam := by
    decide +kernel
  exact differ same

end Strings

end Vtoydump.Windows
