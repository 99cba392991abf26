import Vtoydump.Exfat.Entries

/-!
# Writing the entries of a file

`exfat_flush_node` and `commit_entry` write what `parse_file_entries` reads.  A
node that is flushed over its set and read again is the same node, except that an
empty file is not contiguous and that the time of the last access has no odd
seconds.
-/

namespace Vtoydump.Exfat

open CRun Record Checksum

namespace ExfatEntry

def put (entry : ExfatEntry) (offset width value : Nat) (inside : offset + width ≤ 32) :
    ExfatEntry where
  bytes := setField entry.bytes offset (leBytes width value)
  length_bytes := by
    rw [length_setField, entry.length_bytes]
    rw [length_leBytes, entry.length_bytes]
    exact inside

variable (entry : ExfatEntry) {offset width value other size : Nat}

theorem data_inside (inside : offset + width ≤ 32) :
    offset + (leBytes width value).length ≤ entry.bytes.length := by
  rw [length_leBytes, entry.length_bytes]
  exact inside

variable (inside : offset + width ≤ 32)

theorem le_put_same : (entry.put offset width value inside).le offset width =
    value % 256 ^ width := by
  rw [le, put, number, field_setField_same (entry.data_inside inside) (length_leBytes _ _),
    leValue_leBytes]

theorem le_put_apart (apart : other + size ≤ offset ∨ offset + width ≤ other) :
    (entry.put offset width value inside).le other size = entry.le other size := by
  rw [le, put, number_setField_apart (entry.data_inside inside)
    (by rw [length_leBytes]; exact apart), le]

theorem byte_put_apart (apart : other < offset ∨ offset + width ≤ other) :
    (entry.put offset width value inside).byte other = entry.byte other := by
  rw [byte, put, List.getD_eq_getElem?_getD, getElem?_setField (entry.data_inside inside),
    if_neg (by rw [length_leBytes]; omega), ← List.getD_eq_getElem?_getD, byte]

theorem byte_put_same (inside : offset + 1 ≤ 32) :
    (entry.put offset 1 value inside).byte offset = UInt8.ofNat value := by
  rw [byte, put, List.getD_eq_getElem?_getD, getElem?_setField (entry.data_inside inside),
    if_pos (by rw [length_leBytes]; omega), Nat.sub_self]
  rfl

theorem type_put (before : 0 < offset) :
    (entry.put offset width value inside).type = entry.type :=
  entry.byte_put_apart inside (Or.inl before)

end ExfatEntry

def flushFlags (node : ExfatNode) : UInt8 :=
  if node.size ≠ 0 ∧ node.isContiguous then exfatFlagAlways1 ||| exfatFlagContiguous
  else exfatFlagAlways1

def flushMeta1 (meta1 : ExfatEntry) (attrib mdate mtime adate atime : UInt16)
    (mtimeCs : UInt8) : ExfatEntry :=
  (((((meta1.put 4 2 attrib.toNat (by decide)).put 14 2 mdate.toNat (by decide)).put 12 2
    mtime.toNat (by decide)).put 21 1 mtimeCs.toNat (by decide)).put 18 2 adate.toNat
      (by decide)).put 16 2 atime.toNat (by decide)

def flushMeta2 (meta2 : ExfatEntry) (node : ExfatNode) : ExfatEntry :=
  (((meta2.put 24 8 node.size.toNat (by decide)).put 8 8 node.size.toNat (by decide)).put 20 4
    node.startCluster.toNat (by decide)).put 1 1 (flushFlags node).toNat (by decide)

def setChecksum (meta1 : ExfatEntry) (rest : List ExfatEntry) : ExfatEntry :=
  meta1.put 2 2 (exfatCalcChecksum meta1 rest).toNat (by decide)

/-- What `exfat_flush_node` writes for a node over the entries that it has read. -/
def flushEntries (timezone : Timezone) (node : NodeEntry) (entries : List ExfatEntry) :
    Run (Except Int (List ExfatEntry)) :=
  if checkEntries entries = false then .ok (.error (-eio))
  else
    match entries with
    | meta1 :: meta2 :: rest => do
        let (mdate, mtime, mtimeCs) ← exfatUnix2exfat timezone node.mtime
        let (adate, atime, _) ← exfatUnix2exfat timezone node.atime
        let written := flushMeta1 meta1 node.attrib mdate mtime adate atime mtimeCs
        let info := flushMeta2 meta2 node.node
        return .ok (setChecksum written (info :: rest) :: info :: rest)
    | _ => .error .outOfBounds

theorem ofNat_stored8 (value : UInt8) : UInt8.ofNat value.toNat = value := UInt8.ofNat_toNat

theorem ofNat_stored16 (value : UInt16) : UInt16.ofNat (value.toNat % 256 ^ 2) = value := by
  rw [Nat.mod_eq_of_lt (by exact value.toNat_lt), UInt16.ofNat_toNat]

theorem ofNat_stored32 (value : UInt32) : UInt32.ofNat (value.toNat % 256 ^ 4) = value := by
  rw [Nat.mod_eq_of_lt (by exact value.toNat_lt), UInt32.ofNat_toNat]

theorem ofNat_stored64 (value : UInt64) : UInt64.ofNat (value.toNat % 256 ^ 8) = value := by
  rw [Nat.mod_eq_of_lt (by exact value.toNat_lt), UInt64.ofNat_toNat]

section Checksum

theorem exfatCalcChecksum_setChecksum (meta1 : ExfatEntry) (rest : List ExfatEntry) :
    exfatCalcChecksum (setChecksum meta1 rest) rest = exfatCalcChecksum meta1 rest := by
  rw [exfatCalcChecksum, exfatCalcChecksum]
  congr 1
  obtain ⟨bytes, length⟩ := meta1
  match bytes, length with
  | first :: second :: third :: fourth :: others, _ => rfl

theorem le_setChecksum (meta1 : ExfatEntry) (rest : List ExfatEntry) :
    UInt16.ofNat ((setChecksum meta1 rest).le 2 2) =
      exfatCalcChecksum (setChecksum meta1 rest) rest := by
  rw [exfatCalcChecksum_setChecksum, setChecksum, ExfatEntry.le_put_same, ofNat_stored16]

end Checksum

/-- A time as an entry without centiseconds keeps it. -/
def Timezone.keptEven (timezone : Timezone) (unixTime : Int) : Int :=
  timezone.kept unixTime - (timezone.kept unixTime - timezone.epoch) % 2

/-- The node that is read behind a flush. -/
def flushedNode (timezone : Timezone) (node : NodeEntry) : NodeEntry :=
  { node with
    node := initNodeMeta2 node.node.size node.node.startCluster
      (decide (node.node.size ≠ 0) && node.node.isContiguous)
    mtime := timezone.kept node.mtime
    atime := timezone.keptEven node.atime }

/-- The size, the start and the flag agree with each other and with the volume. -/
def Consistent (sb : ExfatSuperBlock) (node : ExfatNode) (directory : Bool) : Prop :=
  checkNode sb node ⟨0, 0, 0, directory⟩ = true

section Flush

theorem checkNode_iff_consistent {sb : ExfatSuperBlock} {node : ExfatNode} {info : NodeMeta}
    (sum : info.actualChecksum = info.checksum) (valid : info.validSize ≤ node.size) :
    checkNode sb node info = true ↔ Consistent sb node info.isDirectory := by
  unfold Consistent checkNode
  simp [sum, valid]

/-- The access time is stored without its odd second. -/
theorem exists_stored_time {timezone : Timezone} {time : Int}
    (epochHeld : timezone.timeT.Holds timezone.epoch) (reaches : timezone.Reaches time) :
    ∃ stamp : Stamp, exfatUnix2exfat timezone time =
        .ok (stamp.date, stamp.time, stamp.centisec) ∧
      exfatExfat2unix timezone stamp.date stamp.time stamp.centisec =
        .ok (timezone.kept time) ∧
      exfatExfat2unix timezone stamp.date stamp.time 0 = .ok (timezone.keptEven time) := by
  obtain ⟨stamp, stored, kept, localHeld, held⟩ := reaches.exists_stamp epochHeld
  have last := stamp.second_lt
  have parts : stamp.seconds =
      Stamp.seconds { stamp with second := 0, second_lt := by decide } + stamp.second := by
    simp only [Stamp.seconds, Stamp.days, Nat.add_zero]
  have odd : stamp.seconds % 2 = stamp.second := by
    rw [Stamp.seconds, secInDay]
    omega
  refine ⟨stamp, stored, ?_, ?_⟩
  · rw [kept]
    apply stamp.exfatExfat2unix_eq timezone _ localHeld held
    rw [stamp.toNat_centisec, Nat.mul_div_cancel _ (by decide)]
  · have even := @Stamp.exfatExfat2unix_eq { stamp with second := 0, second_lt := by decide }
      timezone 0 rfl (localHeld.mono (Int.natCast_nonneg _) (Int.ofNat_le.mpr (by omega))) (by
        unfold TimeT.Holds at epochHeld held ⊢
        omega)
    refine even.trans (congrArg Except.ok ?_)
    rw [Timezone.keptEven, kept]
    omega

theorem flushFlags_known (node : ExfatNode) :
    flushFlags node &&& ~~~(exfatFlagAlways1 ||| exfatFlagContiguous) = 0 := by
  unfold flushFlags
  split_ifs <;> decide

theorem flushFlags_contiguous (node : ExfatNode) :
    decide (flushFlags node &&& exfatFlagContiguous ≠ 0) =
      (decide (node.size ≠ 0) && node.isContiguous) := by
  unfold flushFlags
  by_cases empty : node.size = 0
  · rw [if_neg (by simp [empty])]
    simp only [empty]
    cases node.isContiguous <;> decide
  · cases contiguous : node.isContiguous with
    | false =>
        rw [if_neg (by simp)]
        simp only [Bool.and_false]
        decide
    | true =>
        rw [if_pos ⟨empty, rfl⟩]
        simp only [ne_eq, empty, not_false_eq_true, decide_true, Bool.and_true]
        decide

variable {sb : ExfatSuperBlock} {timezone : Timezone} {entries : List ExfatEntry}
  {old node : NodeEntry}

section Fields

variable (meta1 meta2 : ExfatEntry) (rest : List ExfatEntry) (node : NodeEntry)
  (mstamp astamp : Stamp)

theorem initNodeMeta1_flush
    (mtime : exfatExfat2unix timezone mstamp.date mstamp.time mstamp.centisec =
      .ok (timezone.kept node.mtime))
    (atime : exfatExfat2unix timezone astamp.date astamp.time 0 =
      .ok (timezone.keptEven node.atime)) :
    initNodeMeta1 timezone
        (setChecksum (flushMeta1 meta1 node.attrib mstamp.date mstamp.time astamp.date
          astamp.time mstamp.centisec) rest) =
      .ok ((flushedNode timezone node).mtime, (flushedNode timezone node).atime) := by
  unfold initNodeMeta1
  simp (disch := decide) only [setChecksum, flushMeta1, ExfatEntry.le_put_apart,
    ExfatEntry.le_put_same, ExfatEntry.byte_put_apart, ExfatEntry.byte_put_same, ofNat_stored8,
    ofNat_stored16, mtime, atime, ok_bind]
  rfl

/-- The fields of a node, read from the entries that it was written to. -/
theorem initNode_flush (same : node.continuations = meta1.byte 1) :
    initNode
        (setChecksum (flushMeta1 meta1 node.attrib mstamp.date mstamp.time astamp.date
          astamp.time mstamp.centisec) rest)
        (flushMeta2 meta2 node.node)
        ((flushedNode timezone node).mtime, (flushedNode timezone node).atime) node.name =
      flushedNode timezone node := by
  unfold initNode flushedNode
  simp (disch := decide) only [setChecksum, flushMeta1, flushMeta2, ExfatEntry.le_put_apart,
    ExfatEntry.le_put_same, ExfatEntry.byte_put_apart, ExfatEntry.byte_put_same, ofNat_stored8,
    ofNat_stored16, ofNat_stored32, ofNat_stored64, same]
  congr 2
  exact flushFlags_contiguous node.node

end Fields

theorem entryMeta_setChecksum (meta1 meta2 : ExfatEntry) (rest : List ExfatEntry)
    (attrib : UInt16) :
    (entryMeta (setChecksum meta1 (meta2 :: rest)) meta2 rest attrib).actualChecksum =
      (entryMeta (setChecksum meta1 (meta2 :: rest)) meta2 rest attrib).checksum :=
  (le_setChecksum meta1 (meta2 :: rest)).symm

theorem validSize_flushMeta2_le (meta1 meta2 : ExfatEntry) (rest : List ExfatEntry)
    (node : ExfatNode) (attrib : UInt16) :
    (entryMeta meta1 (flushMeta2 meta2 node) rest attrib).validSize ≤ node.size := by
  simp (disch := decide) only [entryMeta, flushMeta2, ExfatEntry.le_put_apart,
    ExfatEntry.le_put_same, ofNat_stored64]
  exact UInt64.le_refl _

theorem accepted_flush {meta1 meta2 : ExfatEntry} {rest : List ExfatEntry}
    (accepted : Accepted sb timezone meta1 meta2 rest old) (name : node.name = old.name)
    (continuations : node.continuations = old.continuations) {mstamp astamp : Stamp}
    (mtime : exfatExfat2unix timezone mstamp.date mstamp.time mstamp.centisec =
      .ok (timezone.kept node.mtime))
    (atime : exfatExfat2unix timezone astamp.date astamp.time 0 =
      .ok (timezone.keptEven node.atime))
    (consistent : Consistent sb (flushedNode timezone node).node
      (decide (node.attrib &&& exfatAttribDir ≠ 0))) :
    Accepted sb timezone
      (setChecksum (flushMeta1 meta1 node.attrib mstamp.date mstamp.time astamp.date
        astamp.time mstamp.centisec) (flushMeta2 meta2 node.node :: rest))
      (flushMeta2 meta2 node.node) rest (flushedNode timezone node) where
  types := by
    have first : (setChecksum (flushMeta1 meta1 node.attrib mstamp.date mstamp.time astamp.date
        astamp.time mstamp.centisec) (flushMeta2 meta2 node.node :: rest)).type = meta1.type := by
      simp (disch := decide) only [setChecksum, flushMeta1, ExfatEntry.type_put]
    have second : (flushMeta2 meta2 node.node).type = meta2.type := by
      simp (disch := decide) only [flushMeta2, ExfatEntry.type_put]
    have types := accepted.types
    simp only [checkEntries, List.map_cons] at types ⊢
    rw [first, second]
    exact types
  continuations := by
    simp (disch := decide) only [setChecksum, flushMeta1, ExfatEntry.byte_put_apart]
    exact accepted.continuations
  flags := by
    simp (disch := decide) only [flushMeta2, ExfatEntry.byte_put_same, ofNat_stored8]
    exact flushFlags_known node.node
  mandatory := by
    simp (disch := decide) only [setChecksum, flushMeta1, flushMeta2,
      ExfatEntry.byte_put_apart]
    exact accepted.mandatory
  times := initNodeMeta1_flush meta1 _ node mstamp astamp mtime atime
  name := by
    simp (disch := decide) only [flushMeta2, ExfatEntry.byte_put_apart]
    rw [accepted.name, ← name]
    rfl
  fields := by
    have same : node.continuations = meta1.byte 1 := by
      rw [continuations, accepted.fields]
      rfl
    exact (initNode_flush meta1 meta2 _ node mstamp astamp same).symm
  checked := by
    have sum := entryMeta_setChecksum (flushMeta1 meta1 node.attrib mstamp.date mstamp.time
      astamp.date astamp.time mstamp.centisec) (flushMeta2 meta2 node.node) rest node.attrib
    have valid := validSize_flushMeta2_le (setChecksum (flushMeta1 meta1 node.attrib mstamp.date
      mstamp.time astamp.date astamp.time mstamp.centisec) (flushMeta2 meta2 node.node :: rest))
      meta2 rest node.node node.attrib
    exact (@checkNode_iff_consistent sb (flushedNode timezone node).node _ sum
      valid).mpr consistent

/-- A node flushed over its set and read again is the same node, if its size, start and
flags agree with the volume: only a contiguous empty file, a time outside the 128 years of
an entry and an odd second of the access time change. -/
theorem parseFileEntries_flushEntries
    (accepted : parseFileEntries sb timezone entries = .ok (.ok old))
    (name : node.name = old.name) (continuations : node.continuations = old.continuations)
    (epochHeld : timezone.timeT.Holds timezone.epoch) (mtime : timezone.Reaches node.mtime)
    (atime : timezone.Reaches node.atime)
    (consistent : Consistent sb (flushedNode timezone node).node
      (decide (node.attrib &&& exfatAttribDir ≠ 0))) :
    ∃ flushed, flushEntries timezone node entries = .ok (.ok flushed) ∧
      parseFileEntries sb timezone flushed = .ok (.ok (flushedNode timezone node)) := by
  obtain ⟨meta1, meta2, rest, rfl, first⟩ := parseFileEntries_eq_ok_iff.mp accepted
  obtain ⟨mstamp, mstored, mread, -⟩ := exists_stored_time epochHeld mtime
  obtain ⟨astamp, astored, -, aread⟩ := exists_stored_time epochHeld atime
  have written := accepted_flush first name continuations mread aread consistent
  refine ⟨_, ?_, parseFileEntries_eq_ok_iff.mpr ⟨_, _, _, rfl, written⟩⟩
  rw [flushEntries, if_neg (by rw [first.types]; exact Bool.noConfusion)]
  simp only [mstored, astored, ok_bind]
  rfl

/-- Two clusters are given to the file that had none, and its times change. -/
def grownNode : NodeEntry :=
  { smallNode with node := initNodeMeta2 1024 2 true, mtime := 1000000001, atime := 1000000001 }

theorem parseFileEntries_flushEntries_grown :
    ∃ flushed, flushEntries greenwich grownNode smallSet = .ok (.ok flushed) ∧
      parseFileEntries ⟨0, 4, 9, 0⟩ greenwich flushed =
        .ok (.ok (flushedNode greenwich grownNode)) :=
  parseFileEntries_flushEntries (parseFileEntries_smallSet ⟨0, 4, 9, 0⟩) rfl rfl
    (by decide) ⟨by decide, by decide, by decide +kernel⟩
    ⟨by decide, by decide, by decide +kernel⟩ (by
      unfold Consistent
      decide +kernel)

end Flush

def zeroEntry : ExfatEntry := ⟨List.replicate 32 0, List.length_replicate⟩

/-- The le16 units of a name, a piece of it for each entry. -/
def unitBytes (units : List UInt16) : List UInt8 :=
  units.flatMap fun unit => leBytes 2 unit.toNat

theorem length_unitBytes (units : List UInt16) :
    (unitBytes units).length = 2 * units.length := by
  induction units with
  | nil => rfl
  | cons unit units inductionHypothesis =>
      rw [unitBytes] at inductionHypothesis ⊢
      rw [List.flatMap_cons, List.length_append, length_leBytes, inductionHypothesis,
        List.length_cons]
      omega

def nameEntry (units : List UInt16) (whole : units.length = exfatEnameMax) : ExfatEntry where
  bytes := [exfatEntryFileName, 0] ++ unitBytes units
  length_bytes := by
    rw [List.length_append, length_unitBytes, whole]
    rfl

def nameBuffer (name : List UInt16) : List UInt16 :=
  name ++ List.replicate (exfatNameMax + 1 - name.length) 0

/-- A name for a new file: it ends with its first zero and fits the buffer. -/
structure NewName where
  units : List UInt16
  nonzero : ∀ unit ∈ units, unit ≠ 0
  inhabited : 0 < units.length
  fits : units.length ≤ exfatNameMax

namespace NewName

variable (name : NewName)

def entries : Nat := nameEntries name.units.length

theorem entries_pos : 0 < name.entries := by
  have some := name.inhabited
  unfold entries nameEntries exfatEnameMax
  omega

theorem entries_le : name.entries ≤ 17 := by
  have fits := name.fits
  unfold exfatNameMax at fits
  unfold entries nameEntries exfatEnameMax
  omega

theorem length_le_entries : name.units.length ≤ exfatEnameMax * name.entries := by
  unfold entries nameEntries exfatEnameMax
  omega

theorem length_nameBuffer : (nameBuffer name.units).length = 256 := by
  have fits := name.fits
  unfold exfatNameMax at fits
  rw [nameBuffer, List.length_append, List.length_replicate, exfatNameMax]
  omega

theorem length_piece {index : Nat} (below : index < name.entries) :
    (((nameBuffer name.units).drop (exfatEnameMax * index)).take exfatEnameMax).length =
      exfatEnameMax := by
  have few := name.entries_le
  rw [List.length_take, List.length_drop, name.length_nameBuffer, exfatEnameMax]
  omega

def nameList : List ExfatEntry :=
  (List.range name.entries).pmap (fun index below => nameEntry
    (((nameBuffer name.units).drop (exfatEnameMax * index)).take exfatEnameMax)
    (name.length_piece below)) fun _ membership => List.mem_range.mp membership

end NewName

def exfatCalcNameHash (upcase : UInt16 → UInt16) (name : List UInt16) : UInt16 :=
  name.foldl (fun hash unit =>
    let low := (hash <<< 15 ||| hash >>> 1) + (upcase unit &&& 0xff)
    (low <<< 15 ||| low >>> 1) + upcase unit >>> 8) 0

def commitMeta1 (count : Nat) (attrib crdate crtime : UInt16) (crtimeCs : UInt8) : ExfatEntry :=
  ((((((((((zeroEntry.put 0 1 exfatEntryFile.toNat (by decide)).put 1 1 (1 + count)
    (by decide)).put 4 2 attrib.toNat (by decide)).put 10 2 crdate.toNat (by decide)).put 8 2
    crtime.toNat (by decide)).put 20 1 crtimeCs.toNat (by decide)).put 18 2 crdate.toNat
    (by decide)).put 14 2 crdate.toNat (by decide)).put 16 2 crtime.toNat (by decide)).put 12 2
    crtime.toNat (by decide)).put 21 1 crtimeCs.toNat (by decide)

def commitMeta2 (nameLength : Nat) (hash : UInt16) : ExfatEntry :=
  ((((zeroEntry.put 0 1 exfatEntryFileInfo.toNat (by decide)).put 1 1 exfatFlagAlways1.toNat
    (by decide)).put 3 1 nameLength (by decide)).put 4 2 hash.toNat (by decide)).put 20 4 0
    (by decide)

def commitSet (upcase : UInt16 → UInt16) (name : NewName) (attrib crdate crtime : UInt16)
    (crtimeCs : UInt8) : List ExfatEntry :=
  let meta1 := commitMeta1 name.entries attrib crdate crtime crtimeCs
  let meta2 := commitMeta2 name.units.length (exfatCalcNameHash upcase name.units)
  setChecksum meta1 (meta2 :: name.nameList) :: meta2 :: name.nameList

/-- The entries that `commit_entry` writes, at a given time. -/
def commitEntries (upcase : UInt16 → UInt16) (timezone : Timezone) (now : Int)
    (name : NewName) (attrib : UInt16) : Run (List ExfatEntry) := do
  let (crdate, crtime, crtimeCs) ← exfatUnix2exfat timezone now
  return commitSet upcase name attrib crdate crtime crtimeCs

/-- The node that `commit_entry` attaches, as it is read from the volume. -/
def committedNode (timezone : Timezone) (now : Int) (name : NewName) (attrib : UInt16) :
    NodeEntry where
  node := initNodeMeta2 0 0 false
  attrib := attrib
  continuations := UInt8.ofNat (1 + name.entries)
  mtime := timezone.kept now
  atime := timezone.keptEven now
  name := nameBuffer name.units

section Commit

theorem enameUnits_nameEntry (units : List UInt16) (whole : units.length = exfatEnameMax) :
    enameUnits (nameEntry units whole) = units := by
  apply List.ext_getElem?
  intro index
  rw [enameUnits, List.getElem?_map]
  by_cases inside : index < units.length
  · have unit := List.getElem?_eq_getElem inside
    rw [List.getElem?_range (by rw [← whole]; exact inside), unit, Option.map_some]
    have stored := @field_flatMap 2 _ (fun unit : UInt16 => leBytes 2 unit.toNat)
      [exfatEntryFileName, 0] units (fun _ _ => length_leBytes _ _) index _ unit
    refine congrArg some ?_
    calc UInt16.ofNat ((nameEntry units whole).le (2 + 2 * index) 2)
        = UInt16.ofNat (leValue (leBytes 2 units[index].toNat)) :=
          congrArg (fun bytes => UInt16.ofNat (leValue bytes)) stored
      _ = units[index] := by rw [leValue_leBytes, ofNat_stored16]
  · rw [List.getElem?_eq_none (Nat.le_of_not_lt inside), List.getElem?_eq_none (by
      rw [List.length_range, ← whole]
      exact Nat.le_of_not_lt inside), Option.map_none]

variable (name : NewName)

theorem NewName.length_nameList : name.nameList.length = name.entries := by
  rw [nameList, List.length_pmap, List.length_range]

theorem NewName.units_nameList :
    name.nameList.flatMap enameUnits =
      (nameBuffer name.units).take (exfatEnameMax * name.entries) := by
  rw [← flatMap_pieces, nameList]
  have each : ∀ (list : List Nat) (below : ∀ index ∈ list, index < name.entries),
      (list.pmap (fun index below => nameEntry
        (((nameBuffer name.units).drop (exfatEnameMax * index)).take exfatEnameMax)
        (name.length_piece below)) below).flatMap enameUnits =
      list.flatMap fun index =>
        ((nameBuffer name.units).drop (exfatEnameMax * index)).take exfatEnameMax := by
    intro list below
    induction list with
    | nil => rfl
    | cons index list inductionHypothesis =>
        rw [List.pmap_cons, List.flatMap_cons, List.flatMap_cons, enameUnits_nameEntry,
          inductionHypothesis]
  exact each _ _

theorem NewName.initNodeName_nameList :
    initNodeName name.nameList name.entries = .ok (nameBuffer name.units) := by
  have few := name.entries_le
  have enough := name.length_le_entries
  have whole := name.length_nameBuffer
  have taken : name.nameList.take name.entries = name.nameList := by
    rw [← name.length_nameList, List.take_length]
  have length : ((nameBuffer name.units).take (exfatEnameMax * name.entries)).length =
      exfatEnameMax * name.entries := by
    rw [List.length_take, whole]
    unfold exfatEnameMax at enough ⊢
    omega
  rw [initNodeName, if_neg (by rw [name.length_nameList]; exact Nat.lt_irrefl _), taken,
    name.units_nameList]
  dsimp only
  rw [length, if_neg (by unfold exfatEnameMax exfatNameMax; omega)]
  congr 1
  have rest : (nameBuffer name.units).drop (exfatEnameMax * name.entries) =
      List.replicate (exfatNameMax + 1 - exfatEnameMax * name.entries) 0 := by
    rw [nameBuffer, List.drop_append, List.drop_of_length_le enough, List.nil_append,
      List.drop_replicate]
    congr 1
    omega
  rw [← rest, List.take_append_drop]

theorem type_put_type (entry : ExfatEntry) (type : UInt8) :
    (entry.put 0 1 type.toNat (by decide)).type = type := by
  rw [ExfatEntry.type, ← ExfatEntry.byte, ExfatEntry.byte_put_same, UInt8.ofNat_toNat]

theorem NewName.types_nameList :
    name.nameList.map ExfatEntry.type = List.replicate name.entries exfatEntryFileName := by
  rw [List.eq_replicate_iff, List.length_map, name.length_nameList]
  refine ⟨rfl, ?_⟩
  intro type membership
  obtain ⟨entry, listed, rfl⟩ := List.mem_map.mp membership
  obtain ⟨index, _, rfl⟩ := List.mem_pmap.mp listed
  rfl

theorem NewName.checkEntries_nameList {meta1 meta2 : ExfatEntry}
    (first : meta1.type = exfatEntryFile) (second : meta2.type = exfatEntryFileInfo) :
    checkEntries (meta1 :: meta2 :: name.nameList) = true := by
  obtain ⟨more, entries⟩ := Nat.exists_eq_succ_of_ne_zero (Nat.ne_of_gt name.entries_pos)
  refine (checkEntries_iff _).mpr ⟨more, [], ?_, fun _ membership => by cases membership⟩
  rw [List.map_cons, List.map_cons, first, second, name.types_nameList, entries,
    List.append_nil]

theorem type_commitMeta1 (count : Nat) (attrib crdate crtime : UInt16) (crtimeCs : UInt8) :
    (commitMeta1 count attrib crdate crtime crtimeCs).type = exfatEntryFile := by
  simp (disch := decide) only [commitMeta1, ExfatEntry.type_put, type_put_type]

theorem type_commitMeta2 (nameLength : Nat) (hash : UInt16) :
    (commitMeta2 nameLength hash).type = exfatEntryFileInfo := by
  simp (disch := decide) only [commitMeta2, ExfatEntry.type_put, type_put_type]

theorem initNodeMeta1_commit (rest : List ExfatEntry) {timezone : Timezone} {now : Int}
    (attrib : UInt16) {stamp : Stamp}
    (mtime : exfatExfat2unix timezone stamp.date stamp.time stamp.centisec =
      .ok (timezone.kept now))
    (atime : exfatExfat2unix timezone stamp.date stamp.time 0 = .ok (timezone.keptEven now)) :
    initNodeMeta1 timezone
        (setChecksum (commitMeta1 name.entries attrib stamp.date stamp.time stamp.centisec) rest) =
      .ok (timezone.kept now, timezone.keptEven now) := by
  unfold initNodeMeta1
  simp (disch := decide) only [setChecksum, commitMeta1, ExfatEntry.le_put_apart,
    ExfatEntry.le_put_same, ExfatEntry.byte_put_apart, ExfatEntry.byte_put_same, ofNat_stored8,
    ofNat_stored16, mtime, atime, ok_bind]
  rfl

/-- The fields of a node, read from the entries that a new file is given. -/
theorem initNode_commit (nameLength : Nat) (hash : UInt16) (rest : List ExfatEntry)
    (timezone : Timezone) (now : Int) (attrib : UInt16) (stamp : Stamp) :
    initNode
        (setChecksum (commitMeta1 name.entries attrib stamp.date stamp.time stamp.centisec) rest)
        (commitMeta2 nameLength hash) (timezone.kept now, timezone.keptEven now)
        (nameBuffer name.units) =
      committedNode timezone now name attrib := by
  have size : zeroEntry.le 24 8 = 0 := by decide
  have flags : exfatFlagAlways1 &&& exfatFlagContiguous = 0 := by decide
  unfold initNode committedNode
  simp (disch := decide) only [setChecksum, commitMeta1, commitMeta2, ExfatEntry.le_put_apart,
    ExfatEntry.le_put_same, ExfatEntry.byte_put_apart, ExfatEntry.byte_put_same, ofNat_stored8,
    ofNat_stored16, size, flags]
  rfl

theorem validSize_commitMeta2 (nameLength : Nat) (hash : UInt16) :
    (commitMeta2 nameLength hash).le 8 8 = 0 := by
  simp (disch := decide) only [commitMeta2, ExfatEntry.le_put_apart]
  decide

theorem parseFileEntries_commitSet (sb : ExfatSuperBlock) (upcase : UInt16 → UInt16)
    {timezone : Timezone} {now : Int} (attrib : UInt16) {stamp : Stamp}
    (mtime : exfatExfat2unix timezone stamp.date stamp.time stamp.centisec =
      .ok (timezone.kept now))
    (atime : exfatExfat2unix timezone stamp.date stamp.time 0 = .ok (timezone.keptEven now)) :
    parseFileEntries sb timezone
        (commitSet upcase name attrib stamp.date stamp.time stamp.centisec) =
      .ok (.ok (committedNode timezone now name attrib)) := by
  have some := name.entries_pos
  have few := name.entries_le
  have fits := name.fits
  unfold exfatNameMax at fits
  have nameLength : (UInt8.ofNat name.units.length).toNat = name.units.length := by
    rw [UInt8.toNat_ofNat', Nat.mod_eq_of_lt (by omega)]
  have continuations : (UInt8.ofNat (1 + name.entries)).toNat = 1 + name.entries := by
    rw [UInt8.toNat_ofNat', Nat.mod_eq_of_lt (by omega)]
  refine parseFileEntries_eq_ok_iff.mpr ⟨_, _, _, rfl, ?_⟩
  exact {
    types := by
      apply name.checkEntries_nameList
      · simp (disch := decide) only [setChecksum, ExfatEntry.type_put, type_commitMeta1]
      · exact type_commitMeta2 _ _
    continuations := by
      simp (disch := decide) only [setChecksum, commitMeta1, ExfatEntry.byte_put_apart,
        ExfatEntry.byte_put_same]
      rw [UInt8.lt_iff_toNat_lt, continuations]
      exact Nat.not_lt.mpr (Nat.add_le_add_left some 1)
    flags := by
      simp (disch := decide) only [commitMeta2, ExfatEntry.byte_put_apart,
        ExfatEntry.byte_put_same]
      decide
    mandatory := by
      simp (disch := decide) only [setChecksum, commitMeta1, commitMeta2,
        ExfatEntry.byte_put_apart, ExfatEntry.byte_put_same]
      rw [continuations, nameLength]
      have same : nameEntries name.units.length = name.entries := rfl
      omega
    name := by
      simp (disch := decide) only [commitMeta2, ExfatEntry.byte_put_apart,
        ExfatEntry.byte_put_same]
      rw [nameLength]
      exact name.initNodeName_nameList
    times := initNodeMeta1_commit name _ attrib mtime atime
    fields := (initNode_commit name _ _ _ timezone now attrib stamp).symm
    checked := by
      have sum := entryMeta_setChecksum (commitMeta1 name.entries attrib stamp.date stamp.time
        stamp.centisec) (commitMeta2 name.units.length (exfatCalcNameHash upcase name.units))
        name.nameList attrib
      exact checkNode_empty sb sum (congrArg UInt64.ofNat (validSize_commitMeta2 _ _)) }

/-- A file that was just created is read back with the name that it was given. -/
theorem parseFileEntries_commitEntries (sb : ExfatSuperBlock) (upcase : UInt16 → UInt16)
    {timezone : Timezone} {now : Int} (epochHeld : timezone.timeT.Holds timezone.epoch)
    (reaches : timezone.Reaches now) (attrib : UInt16) :
    ∃ entries, commitEntries upcase timezone now name attrib = .ok entries ∧
      parseFileEntries sb timezone entries =
        .ok (.ok (committedNode timezone now name attrib)) := by
  obtain ⟨stamp, stored, read, readEven⟩ := exists_stored_time epochHeld reaches
  refine ⟨_, ?_, parseFileEntries_commitSet name sb upcase attrib read readEven⟩
  rw [commitEntries, stored, ok_bind]
  rfl

end Commit

section Small

/-- `README for release.md`, a name of two entries. -/
def smallName : NewName :=
  ⟨[82, 69, 65, 68, 77, 69, 32, 102, 111, 114, 32, 114, 101, 108, 101, 97, 115, 101, 46, 109, 100],
    by simp, by decide, by decide⟩

/-- A directory that is created in 2023. -/
theorem parseFileEntries_commitEntries_small :
    ∃ entries, commitEntries id greenwich 1700000001 smallName 0x10 = .ok entries ∧
      parseFileEntries ⟨0, 4, 9, 0⟩ greenwich entries =
        .ok (.ok (committedNode greenwich 1700000001 smallName 0x10)) :=
  parseFileEntries_commitEntries smallName ⟨0, 4, 9, 0⟩ id (by decide)
    ⟨by decide, by decide, by decide +kernel⟩ 0x10

end Small

end Vtoydump.Exfat
