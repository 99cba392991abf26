import Vtoydump.Basis.Checksum
import Vtoydump.Basis.Record
import Vtoydump.Exfat.Cluster
import Vtoydump.Exfat.Time
import Vtoydump.Exfat.Utf

/-!
# The entries of a file

A file is described by a set of entries of 32 bytes: two of metadata, then its
name, then others that are not looked at.  `parse_file_entries` checks the types,
the flags, the number of entries and the checksum before it believes a size or a
cluster; `exfat_flush_node` writes a node back over its set.
-/

namespace Vtoydump.Exfat

open CRun Record Checksum

structure ExfatEntry where
  bytes : List UInt8
  length_bytes : bytes.length = 32

namespace ExfatEntry

def type (entry : ExfatEntry) : UInt8 := entry.bytes.getD 0 0

def byte (entry : ExfatEntry) (offset : Nat) : UInt8 := entry.bytes.getD offset 0

def le (entry : ExfatEntry) (offset width : Nat) : Nat := number entry.bytes offset width

end ExfatEntry

def exfatEntryFile : UInt8 := 0x85

def exfatEntryFileInfo : UInt8 := 0xc0

def exfatEntryFileName : UInt8 := 0xc1

def exfatEntryFileTail : UInt8 := 0xe0

def exfatEnameMax : Nat := 15

def exfatAttribDir : UInt16 := 0x10

def exfatFlagAlways1 : UInt8 := 1

def exfatFlagContiguous : UInt8 := 2

/-- What may follow an entry of this type; `none` is `EXFAT_ENTRY_NONE`, before the first
entry and behind the last. -/
def validAfter (previous current : Option UInt8) : Bool :=
  match previous with
  | none => current == some exfatEntryFile
  | some type =>
      if type = exfatEntryFile then current == some exfatEntryFileInfo
      else if type = exfatEntryFileInfo then current == some exfatEntryFileName
      else if type = exfatEntryFileName then
        current == some exfatEntryFileName || current == none ||
          current.any (exfatEntryFileTail ≤ ·)
      else if exfatEntryFileTail ≤ type then
        current.any (exfatEntryFileTail ≤ ·) || current == none
      else false

def checkTypes (previous : Option UInt8) : List UInt8 → Bool
  | [] => validAfter previous none
  | type :: types => validAfter previous (some type) && checkTypes (some type) types

def checkEntries (entries : List ExfatEntry) : Bool :=
  checkTypes none (entries.map ExfatEntry.type)

def addChecksumByte (sum : UInt16) (byte : UInt8) : UInt16 :=
  (sum <<< 15 ||| sum >>> 1) + byte.toUInt16

/-- The checksum field itself is skipped. -/
def exfatStartChecksum (entry : ExfatEntry) : UInt16 :=
  sumSkipping addChecksumByte (fun index => index = 2 ∨ index = 3) 0 entry.bytes 0

def exfatAddChecksum (entry : ExfatEntry) (sum : UInt16) : UInt16 :=
  entry.bytes.foldl addChecksumByte sum

def exfatCalcChecksum (first : ExfatEntry) (rest : List ExfatEntry) : UInt16 :=
  rest.foldl (fun sum entry => exfatAddChecksum entry sum) (exfatStartChecksum first)

/-- `struct exfat_node` as entries fill it; the name has its 256 units. -/
structure NodeEntry where
  node : ExfatNode
  attrib : UInt16
  continuations : UInt8
  mtime : Int
  atime : Int
  name : List UInt16

namespace NodeEntry

def isDirectory (entry : NodeEntry) : Bool := entry.attrib &&& exfatAttribDir ≠ 0

end NodeEntry

def enameUnits (entry : ExfatEntry) : List UInt16 :=
  (List.range exfatEnameMax).map fun index => UInt16.ofNat (entry.le (2 + 2 * index) 2)

/-- `init_node_name` on a node that is zero, from so many of the entries. -/
def initNodeName (entries : List ExfatEntry) (count : Nat) : Run (List UInt16) :=
  if entries.length < count then .error .outOfBounds
  else
    let units := (entries.take count).flatMap enameUnits
    if exfatNameMax + 1 < units.length then .error .outOfBounds
    else .ok (units ++ List.replicate (exfatNameMax + 1 - units.length) 0)

/-- `DIV_ROUND_UP(meta2->name_length, EXFAT_ENAME_MAX)` -/
def nameEntries (nameLength : Nat) : Nat := (nameLength + exfatEnameMax - 1) / exfatEnameMax

/-- The times of a node; there is no centiseconds field for the access time. -/
def initNodeMeta1 (timezone : Timezone) (meta1 : ExfatEntry) : Run (Int × Int) := do
  let mtime ← exfatExfat2unix timezone (UInt16.ofNat (meta1.le 14 2))
    (UInt16.ofNat (meta1.le 12 2)) (meta1.byte 21)
  let atime ← exfatExfat2unix timezone (UInt16.ofNat (meta1.le 18 2))
    (UInt16.ofNat (meta1.le 16 2)) 0
  return (mtime, atime)

def initNode (meta1 meta2 : ExfatEntry) (times : Int × Int) (name : List UInt16) :
    NodeEntry where
  node := initNodeMeta2 (UInt64.ofNat (meta2.le 24 8)) (UInt32.ofNat (meta2.le 20 4))
    (meta2.byte 1 &&& exfatFlagContiguous ≠ 0)
  attrib := UInt16.ofNat (meta1.le 4 2)
  continuations := meta1.byte 1
  mtime := times.1
  atime := times.2
  name := name

/-- What `check_node` compares the node with. -/
def entryMeta (meta1 meta2 : ExfatEntry) (entries : List ExfatEntry) (attrib : UInt16) :
    NodeMeta where
  checksum := UInt16.ofNat (meta1.le 2 2)
  actualChecksum := exfatCalcChecksum meta1 (meta2 :: entries)
  validSize := UInt64.ofNat (meta2.le 8 8)
  isDirectory := attrib &&& exfatAttribDir ≠ 0

/-- `parse_file_entries`, on a volume mounted without repair.  Each complaint of
`check_node` first converts the name. -/
def parseFileEntries (sb : ExfatSuperBlock) (timezone : Timezone) (entries : List ExfatEntry) :
    Run (Except Int NodeEntry) :=
  if checkEntries entries = false then .ok (.error (-eio))
  else
    match entries with
    | meta1 :: meta2 :: rest =>
        if meta1.byte 1 < 2 then .ok (.error (-eio))
        else if meta2.byte 1 &&& ~~~(exfatFlagAlways1 ||| exfatFlagContiguous) ≠ 0 then
          .ok (.error (-eio))
        else if (meta1.byte 1).toNat < 2 + nameEntries (meta2.byte 3).toNat - 1 then
          .ok (.error (-eio))
        else do
          let times ← initNodeMeta1 timezone meta1
          let name ← initNodeName rest (nameEntries (meta2.byte 3).toNat)
          let entry := initNode meta1 meta2 times name
          if checkNode sb entry.node (entryMeta meta1 meta2 rest entry.attrib) then
            return .ok entry
          else do
            let _ ← exfatGetName name
            return .error (-eio)
    | _ => .error .outOfBounds

section Types

theorem any_tail_iff {type : UInt8} :
    (some type).any (exfatEntryFileTail ≤ ·) = true ↔ exfatEntryFileTail ≤ type := by
  rw [Option.any_some, decide_eq_true_eq]

theorem validAfter_tail {type : UInt8} (tail : exfatEntryFileTail ≤ type)
    (current : Option UInt8) :
    validAfter (some type) current =
      (current.any (exfatEntryFileTail ≤ ·) || current == none) := by
  have file : type ≠ exfatEntryFile := by
    rintro rfl
    exact absurd tail (by decide)
  have info : type ≠ exfatEntryFileInfo := by
    rintro rfl
    exact absurd tail (by decide)
  have name : type ≠ exfatEntryFileName := by
    rintro rfl
    exact absurd tail (by decide)
  simp only [validAfter, if_neg file, if_neg info, if_neg name, if_pos tail]

theorem checkTypes_tail_iff {type : UInt8} (tail : exfatEntryFileTail ≤ type)
    {types : List UInt8} :
    checkTypes (some type) types = true ↔ ∀ other ∈ types, exfatEntryFileTail ≤ other := by
  induction types generalizing type with
  | nil => simp [checkTypes, validAfter_tail tail]
  | cons other types inductionHypothesis =>
      have alone : (some other == none) = false := rfl
      rw [checkTypes, validAfter_tail tail, Bool.and_eq_true, alone, Bool.or_false, any_tail_iff,
        List.forall_mem_cons]
      exact and_congr_right fun here => inductionHypothesis here

theorem checkTypes_name_iff {types : List UInt8} :
    checkTypes (some exfatEntryFileName) types = true ↔
      ∃ names tails, types = List.replicate names exfatEntryFileName ++ tails ∧
        ∀ type ∈ tails, exfatEntryFileTail ≤ type := by
  induction types with
  | nil =>
      refine ⟨fun _ => ⟨0, [], rfl, fun _ membership => by cases membership⟩, fun _ => ?_⟩
      decide
  | cons type types inductionHypothesis =>
      have alone : (some type == none) = false := rfl
      have after : validAfter (some exfatEntryFileName) (some type) = true ↔
          type = exfatEntryFileName ∨ exfatEntryFileTail ≤ type := by
        rw [← any_tail_iff]
        simp [validAfter, exfatEntryFileName, exfatEntryFile, exfatEntryFileInfo]
      rw [checkTypes, Bool.and_eq_true, after]
      constructor
      · rintro ⟨rfl | tail, rest⟩
        · obtain ⟨names, tails, rfl, marked⟩ := inductionHypothesis.mp rest
          exact ⟨names + 1, tails, rfl, marked⟩
        · refine ⟨0, type :: types, rfl, ?_⟩
          exact List.forall_mem_cons.mpr ⟨tail, (checkTypes_tail_iff tail).mp rest⟩
      · rintro ⟨names, tails, same, marked⟩
        cases names with
        | zero =>
            rw [List.replicate_zero, List.nil_append] at same
            rw [← same] at marked
            obtain ⟨tail, others⟩ := List.forall_mem_cons.mp marked
            exact ⟨Or.inr tail, (checkTypes_tail_iff tail).mpr others⟩
        | succ names =>
            rw [List.replicate_succ, List.cons_append, List.cons.injEq] at same
            obtain ⟨rfl, rfl⟩ := same
            exact ⟨Or.inl rfl, inductionHypothesis.mpr ⟨names, tails, rfl, marked⟩⟩

/-- The sets that `check_entries` lets pass: a file, its info, one name or more, and then
entries that are not looked at. -/
theorem checkEntries_iff (entries : List ExfatEntry) :
    checkEntries entries = true ↔
      ∃ names tails, entries.map ExfatEntry.type =
          exfatEntryFile :: exfatEntryFileInfo ::
            (List.replicate (names + 1) exfatEntryFileName ++ tails) ∧
        ∀ type ∈ tails, exfatEntryFileTail ≤ type := by
  have file : ∀ {type : UInt8}, validAfter none (some type) = true ↔ type = exfatEntryFile := by
    intro type
    simp [validAfter]
  have info : ∀ {type : UInt8}, validAfter (some exfatEntryFile) (some type) = true ↔
      type = exfatEntryFileInfo := by
    intro type
    simp [validAfter]
  have name : ∀ {type : UInt8}, validAfter (some exfatEntryFileInfo) (some type) = true ↔
      type = exfatEntryFileName := by
    intro type
    simp [validAfter, exfatEntryFileInfo, exfatEntryFile]
  unfold checkEntries
  constructor
  · intro checked
    match shape : entries.map ExfatEntry.type, checked with
    | [], checked => exact absurd checked (by decide)
    | [first], checked =>
        rw [checkTypes, Bool.and_eq_true, file] at checked
        obtain ⟨rfl, last⟩ := checked
        exact absurd last (by decide)
    | [first, second], checked =>
        rw [checkTypes, checkTypes, Bool.and_eq_true, Bool.and_eq_true, file] at checked
        obtain ⟨rfl, second, last⟩ := checked
        rw [info] at second
        subst second
        exact absurd last (by decide)
    | first :: second :: third :: types, checked =>
        rw [checkTypes, checkTypes, checkTypes, Bool.and_eq_true, Bool.and_eq_true,
          Bool.and_eq_true, file] at checked
        obtain ⟨rfl, second, third, rest⟩ := checked
        rw [info] at second
        subst second
        rw [name] at third
        subst third
        obtain ⟨names, tails, rfl, marked⟩ := checkTypes_name_iff.mp rest
        exact ⟨names, tails, rfl, marked⟩
  · rintro ⟨names, tails, shape, marked⟩
    rw [shape, checkTypes, checkTypes, Bool.and_eq_true, Bool.and_eq_true, file, info,
      List.replicate_succ, List.cons_append, checkTypes, Bool.and_eq_true, name]
    exact ⟨rfl, rfl, rfl, checkTypes_name_iff.mpr ⟨names, tails, rfl, marked⟩⟩

end Types

section Checksum

theorem toNat_addChecksumByte (sum : UInt16) (byte : UInt8) :
    (addChecksumByte sum byte).toNat =
      (sum.toNat % 2 * 2 ^ 15 + sum.toNat / 2 + byte.toNat) % 2 ^ 16 := by
  have rotated := @rotate_eq 15 sum.toNat sum.toNat_lt
  rw [addChecksumByte, UInt16.toNat_add, UInt16.toNat_or, UInt16.toNat_shiftLeft,
    UInt16.toNat_shiftRight, UInt8.toNat_toUInt16]
  rw [← rotated, Nat.shiftLeft_eq, Nat.shiftRight_eq_div_pow]
  rfl

theorem tight_addChecksumByte : Tight addChecksumByte where
  sum := by
    intro byte first second same
    have numbers := congrArg UInt16.toNat same
    rw [toNat_addChecksumByte, toNat_addChecksumByte] at numbers
    have firstSmall := first.toNat_lt
    have secondSmall := second.toNat_lt
    rw [← UInt16.toNat_inj]
    apply @rotate_injective 15 _ _ firstSmall secondSmall
    omega
  byte := by
    intro sum first second same
    have numbers := congrArg UInt16.toNat same
    rw [toNat_addChecksumByte, toNat_addChecksumByte] at numbers
    have firstSmall := first.toNat_lt
    have secondSmall := second.toNat_lt
    have small := sum.toNat_lt
    rw [← UInt8.toNat_inj]
    omega

/-- The checksum runs over all bytes of the set but two. -/
theorem exfatCalcChecksum_eq (first : ExfatEntry) (rest : List ExfatEntry) :
    exfatCalcChecksum first rest =
      sumSkipping addChecksumByte (fun index => index = 2 ∨ index = 3) 0
        ((first :: rest).flatMap ExfatEntry.bytes) 0 := by
  have others : ∀ (entries : List ExfatEntry) (sum : UInt16) (index : Nat), 3 < index →
      sumSkipping addChecksumByte (fun index => index = 2 ∨ index = 3) index
        (entries.flatMap ExfatEntry.bytes) sum =
        entries.foldl (fun sum entry => exfatAddChecksum entry sum) sum := by
    intro entries
    induction entries with
    | nil =>
        intro sum index beyond
        rfl
    | cons entry entries inductionHypothesis =>
        intro sum index beyond
        rw [List.flatMap_cons, sumSkipping_append, List.foldl_cons,
          inductionHypothesis _ _ (Nat.lt_add_right _ beyond), exfatAddChecksum]
        congr 1
        apply sumSkipping_eq_foldl
        intro offset _
        rw [decide_eq_false_iff_not]
        omega
  rw [List.flatMap_cons, sumSkipping_append, first.length_bytes, others _ _ _ (by decide)]
  rfl

end Checksum

/-- What `parse_file_entries` has found of a set that it accepts. -/
structure Accepted (sb : ExfatSuperBlock) (timezone : Timezone) (meta1 meta2 : ExfatEntry)
    (rest : List ExfatEntry) (node : NodeEntry) : Prop where
  types : checkEntries (meta1 :: meta2 :: rest) = true
  continuations : ¬ meta1.byte 1 < 2
  flags : meta2.byte 1 &&& ~~~(exfatFlagAlways1 ||| exfatFlagContiguous) = 0
  mandatory : ¬ (meta1.byte 1).toNat < 2 + nameEntries (meta2.byte 3).toNat - 1
  times : initNodeMeta1 timezone meta1 = .ok (node.mtime, node.atime)
  name : initNodeName rest (nameEntries (meta2.byte 3).toNat) = .ok node.name
  fields : node = initNode meta1 meta2 (node.mtime, node.atime) node.name
  checked : checkNode sb node.node (entryMeta meta1 meta2 rest node.attrib) = true

section Parse

variable {sb : ExfatSuperBlock} {timezone : Timezone} {entries : List ExfatEntry} {node : NodeEntry}

theorem parseFileEntries_eq_ok_iff :
    parseFileEntries sb timezone entries = .ok (.ok node) ↔
      ∃ meta1 meta2 rest, entries = meta1 :: meta2 :: rest ∧
        Accepted sb timezone meta1 meta2 rest node := by
  unfold parseFileEntries
  constructor
  · intro parsed
    by_cases types : checkEntries entries = false
    · rw [if_pos types] at parsed
      cases parsed
    rw [if_neg types] at parsed
    rw [Bool.not_eq_false] at types
    split at parsed
    next meta1 meta2 rest =>
      by_cases few : meta1.byte 1 < 2
      · rw [if_pos few] at parsed
        cases parsed
      rw [if_neg few] at parsed
      by_cases flags : meta2.byte 1 &&& ~~~(exfatFlagAlways1 ||| exfatFlagContiguous) = 0
      swap
      · rw [if_pos flags] at parsed
        cases parsed
      rw [if_neg (not_not.mpr flags)] at parsed
      by_cases short : (meta1.byte 1).toNat < 2 + nameEntries (meta2.byte 3).toNat - 1
      · rw [if_pos short] at parsed
        cases parsed
      rw [if_neg short] at parsed
      obtain ⟨times, timed, parsed⟩ := bind_eq_ok_iff.mp parsed
      obtain ⟨name, named, result⟩ := bind_eq_ok_iff.mp parsed
      dsimp only at result
      split_ifs at result with checked
      · cases result
        exact ⟨meta1, meta2, rest, rfl, types, few, flags, short, timed, named, rfl, checked⟩
      · rw [bind_eq_ok_iff] at result
        rcases result with ⟨_, _, result⟩
        cases result
    · cases parsed
  · rintro ⟨meta1, meta2, rest, rfl, accepted⟩
    rw [if_neg (by rw [accepted.types]; exact Bool.noConfusion)]
    dsimp only
    rw [if_neg accepted.continuations, if_neg (not_not.mpr accepted.flags),
      if_neg accepted.mandatory, accepted.times, ok_bind, accepted.name, ok_bind,
      ← accepted.fields, if_pos accepted.checked]
    rfl

theorem Accepted.checksum {meta1 meta2 : ExfatEntry} {rest : List ExfatEntry}
    (accepted : Accepted sb timezone meta1 meta2 rest node) :
    exfatCalcChecksum meta1 (meta2 :: rest) = UInt16.ofNat (meta1.le 2 2) := by
  have checked := accepted.checked
  simp only [checkNode, entryMeta, Bool.and_eq_true, beq_iff_eq] at checked
  exact checked.1.1.1.1.1.1

theorem checkNode_empty (sb : ExfatSuperBlock) {info : NodeMeta}
    (sum : info.actualChecksum = info.checksum) (valid : info.validSize = 0) :
    checkNode sb (initNodeMeta2 0 0 false) info = true := by
  simp [checkNode, initNodeMeta2, sum, valid]

end Parse

/-- Two sets of as many entries, with other values of one byte. -/
def OneByteApart (entries others : List ExfatEntry) : Prop :=
  ∃ front byte other back, byte ≠ other ∧
    entries.flatMap ExfatEntry.bytes = front ++ byte :: back ∧
    others.flatMap ExfatEntry.bytes = front ++ other :: back

section Corruption

theorem storedChecksum_eq (meta1 : ExfatEntry) (rest : List ExfatEntry) :
    meta1.le 2 2 = number ((meta1 :: rest).flatMap ExfatEntry.bytes) 2 2 := by
  rw [ExfatEntry.le, number, number]
  congr 1
  apply field_congr
  intro index _ upper
  rw [List.flatMap_cons, List.getElem?_append_left (by rw [meta1.length_bytes]; omega)]

theorem number_set_apart {front back : List UInt8} {byte other : UInt8} {offset width : Nat}
    (apart : front.length < offset ∨ offset + width ≤ front.length) :
    number (front ++ byte :: back) offset width = number (front ++ other :: back) offset width := by
  rw [number, number]
  congr 1
  apply field_congr
  intro index lower upper
  rw [List.getElem?_append, List.getElem?_append]
  split_ifs with before
  · rfl
  · obtain ⟨behind, position⟩ : ∃ behind, index - front.length = behind + 1 :=
      ⟨index - front.length - 1, by omega⟩
    rw [position, List.getElem?_cons_succ, List.getElem?_cons_succ]

theorem number_set_ne {front back : List UInt8} {byte other : UInt8} {offset width : Nat}
    (different : byte ≠ other) (lower : offset ≤ front.length)
    (upper : front.length < offset + width) :
    number (front ++ byte :: back) offset width ≠ number (front ++ other :: back) offset width := by
  intro same
  have fields := leValue_injective (by
    simp only [field, List.length_take, List.length_drop, List.length_append,
      List.length_cons]) same
  have cell := congrArg (fun cells : List UInt8 => cells[front.length - offset]?) fields
  simp only [field, List.getElem?_take, List.getElem?_drop] at cell
  rw [if_pos (by omega), if_pos (by omega), Nat.add_sub_of_le lower,
    List.getElem?_append_right (Nat.le_refl _), List.getElem?_append_right (Nat.le_refl _),
    Nat.sub_self] at cell
  exact different (Option.some.inj cell)

/-- Of two sets with other values of one byte, whichever byte that is, at most one is
accepted. -/
theorem parseFileEntries_oneByteApart {sb otherSb : ExfatSuperBlock} {timezone : Timezone}
    {entries others : List ExfatEntry} {node other : NodeEntry}
    (accepted : parseFileEntries sb timezone entries = .ok (.ok node))
    (apart : OneByteApart entries others) :
    parseFileEntries otherSb timezone others ≠ .ok (.ok other) := by
  intro acceptedToo
  obtain ⟨meta1, meta2, rest, rfl, first⟩ := parseFileEntries_eq_ok_iff.mp accepted
  obtain ⟨otherMeta1, otherMeta2, otherRest, rfl, second⟩ :=
    parseFileEntries_eq_ok_iff.mp acceptedToo
  obtain ⟨front, byte, changed, back, different, bytes, bytesToo⟩ := apart
  have stored := first.checksum
  have storedToo := second.checksum
  rw [storedChecksum_eq meta1 (meta2 :: rest), exfatCalcChecksum_eq, bytes] at stored
  rw [storedChecksum_eq otherMeta1 (otherMeta2 :: otherRest), exfatCalcChecksum_eq,
    bytesToo] at storedToo
  by_cases inField : front.length = 2 ∨ front.length = 3
  · -- the checksum itself was changed: the sum is the same, the stored value is not
    have sums := @sumSkipping_skipped _ _ addChecksumByte
      (fun index => index = 2 ∨ index = 3) 0 front back
      (by rw [Nat.zero_add]; exact decide_eq_true inField) byte changed 0
    rw [stored, storedToo] at sums
    have numbers := congrArg UInt16.toNat sums
    rw [toNat_ofNat16 (number_lt _ _ _), toNat_ofNat16 (number_lt _ _ _)] at numbers
    exact number_set_ne different (by omega) (by omega) numbers
  · -- another byte: the stored value is the same, the sum is not
    apply @Tight.sumSkipping_ne _ _ addChecksumByte
      (fun index => index = 2 ∨ index = 3) tight_addChecksumByte 0 front back byte changed
      (by rw [Nat.zero_add]; exact decide_eq_false inField) different 0
    rw [stored, storedToo, @number_set_apart front back byte changed 2 2 (by omega)]

/-- The entries of an empty file with the name `a`. -/
def smallMeta1 : ExfatEntry :=
  ⟨[0x85, 2, 0x7f, 0xbd, 0x20, 0, 0, 0, 0, 0, 0x21, 0, 0, 0, 0x21, 0, 0, 0, 0x21, 0] ++
    List.replicate 12 0, rfl⟩

def smallMeta2 : ExfatEntry := ⟨[0xc0, 1, 0, 1, 0x30, 0x80] ++ List.replicate 26 0, rfl⟩

def smallName1 (letter : UInt8) : ExfatEntry := ⟨[0xc1, 0, letter] ++ List.replicate 29 0, rfl⟩

def smallSet : List ExfatEntry := [smallMeta1, smallMeta2, smallName1 97]

def greenwich : Timezone := ⟨.bits64, 0⟩

def smallNode : NodeEntry :=
  initNode smallMeta1 smallMeta2 (315532800, 315532800) (97 :: List.replicate 255 0)

theorem parseFileEntries_smallSet (sb : ExfatSuperBlock) :
    parseFileEntries sb greenwich smallSet = .ok (.ok smallNode) := by
  refine parseFileEntries_eq_ok_iff.mpr ⟨_, _, _, rfl, ?_⟩
  exact {
    types := by decide
    continuations := by decide
    flags := by decide
    mandatory := by decide
    times := by decide +kernel
    name := by decide +kernel
    fields := rfl
    checked := checkNode_empty sb (by decide +kernel) rfl }

theorem parseFileEntries_oneByteApart_small :
    parseFileEntries ⟨0, 4, 9, 0⟩ greenwich [smallMeta1, smallMeta2, smallName1 98] ≠
      .ok (.ok smallNode) :=
  parseFileEntries_oneByteApart (parseFileEntries_smallSet ⟨0, 4, 9, 0⟩)
    ⟨smallMeta1.bytes ++ smallMeta2.bytes ++ [0xc1, 0], 97, 98, List.replicate 29 0,
      by decide, rfl, rfl⟩

end Corruption

end Vtoydump.Exfat
