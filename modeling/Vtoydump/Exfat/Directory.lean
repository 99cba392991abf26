import Vtoydump.Exfat.Entries
import Vtoydump.Exfat.Pread

/-!
# Reading a directory

`readdir` reads one entry after the other through the cached pointer of the
directory, the sets of files in a second read; `exfat_cache_directory` repeats it
until the directory ends.  What comes of it is a function of the entries that the
clusters of the directory hold, in whatever state the pointer was.
-/

namespace Vtoydump.Exfat

open CRun Record

def enoent : Int := 2

def exfatEntryValid : UInt8 := 0x80

def exfatEntryBitmap : UInt8 := 0x81

def exfatEntryUpcase : UInt8 := 0x82

def exfatEntryLabel : UInt8 := 0x83

def exfatUpcaseChars : Nat := 0x10000

def exfatUtf8EnameBufferMax : Nat := exfatEnameMax * 3 + 1

/-- `BMAP_SIZE`, in the arithmetic of `size_t`. -/
def bmapSize (sizeT : SizeT) (count : Nat) : Nat :=
  let bits := match sizeT with
    | .bits32 => 32
    | .bits64 => 64
  sizeT.trunc (count + bits - 1) / bits * bits / 8

/-- The map of clusters; the chunk is what was read of it. -/
structure Cmap where
  startCluster : UInt32
  size : UInt32
  chunk : Option (List UInt8)

/-- What entries of directories set in `struct exfat`; an array of 65536 units is a
function. -/
structure VolumeTables where
  upcase : Option (UInt16 → UInt16)
  cmap : Cmap
  label : List UInt8

/-- A volume, the build and the time zone of the process that reads it. -/
structure ExfatReader extends ExfatFs where
  sizeT : SizeT
  timezone : Timezone

/-- The loop of `decompress_upcase`, from an output index on. -/
def decompressLoop : List UInt16 → Nat → (UInt16 → UInt16) → UInt16 → UInt16
  | [], _, output => output
  | [ch], oi, output =>
      if oi < exfatUpcaseChars then Function.update output (UInt16.ofNat oi) ch else output
  | ch :: run :: source, oi, output =>
      if exfatUpcaseChars ≤ oi then output
      else if ch = 0xffff then decompressLoop source (oi + run.toNat) output
      else decompressLoop (run :: source) (oi + 1)
        (Function.update output (UInt16.ofNat oi) ch)

def decompressUpcase (source : List UInt16) : UInt16 → UInt16 := decompressLoop source 0 id

/-- The case `EXFAT_ENTRY_UPCASE`; a read that is too short leaves units that nothing set. -/
def readUpcase (ef : ExfatReader) (entry : ExfatEntry) (tables : VolumeTables) :
    Run (Int × VolumeTables) :=
  if tables.upcase.isSome then .ok (0, tables)
  else if clusterInvalid ef.sb (UInt32.ofNat (entry.le 20 4)) then .ok (-eio, tables)
  else if entry.le 24 8 = 0 ∨ exfatUpcaseChars * 2 < entry.le 24 8 ∨ entry.le 24 8 % 2 ≠ 0 then
    .ok (-eio, tables)
  else do
    let offset ← exfatC2o ef.sb (UInt32.ofNat (entry.le 20 4))
    match ef.dev.pread (entry.le 24 8) offset with
    | none => return (-eio, tables)
    | some bytes =>
        if bytes.length < entry.le 24 8 then .error .uninitialized
        else
          let source := (List.range (entry.le 24 8 / 2)).map fun index =>
            UInt16.ofNat (number bytes (2 * index) 2)
          return (0, { tables with upcase := some (decompressUpcase source) })

def readBitmap (ef : ExfatReader) (entry : ExfatEntry) (tables : VolumeTables) :
    Run (Int × VolumeTables) :=
  let startCluster := UInt32.ofNat (entry.le 20 4)
  let size := ef.sb.clusterCount
  if clusterInvalid ef.sb startCluster then
    .ok (-eio, { tables with cmap := { tables.cmap with startCluster := startCluster } })
  else if entry.le 24 8 < ((size + 8 - 1) / 8).toNat then
    .ok (-eio, { tables with cmap := ⟨startCluster, size, tables.cmap.chunk⟩ })
  else do
    let offset ← exfatC2o ef.sb startCluster
    match ef.dev.pread (bmapSize ef.sizeT size.toNat) offset with
    | none => return (-eio, { tables with cmap := ⟨startCluster, size, some []⟩ })
    | some bytes => return (0, { tables with cmap := ⟨startCluster, size, some bytes⟩ })

def readLabel (entry : ExfatEntry) (tables : VolumeTables) : Int × VolumeTables :=
  if exfatEnameMax < (entry.byte 1).toNat then (-eio, tables)
  else
    match utf16ToUtf8 (enameUnits entry) exfatUtf8EnameBufferMax with
    | .error _ => (-eio, tables)
    | .ok label => (0, { tables with label := label })

/-- What `readdir` does with an entry that does not begin a file. -/
def readdirEntry (ef : ExfatReader) (entry : ExfatEntry) (tables : VolumeTables) :
    Run (Int × VolumeTables) :=
  if entry.type = exfatEntryUpcase then readUpcase ef entry tables
  else if entry.type = exfatEntryBitmap then readBitmap ef entry tables
  else if entry.type = exfatEntryLabel then .ok (readLabel entry tables)
  else if entry.type &&& exfatEntryValid = 0 then .ok (0, tables)
  else .ok (-eio, tables)

def entryAt (content : Nat → UInt8) (offset : Nat) : ExfatEntry :=
  ⟨bytesAt content offset 32, length_bytesAt _ _ _⟩

def readEntries (ef : ExfatReader) (dir : NodeEntry) (n offset : Nat) :
    Run (Int × List ExfatEntry × NodeEntry) :=
  if dir.isDirectory then do
    let (size, filled, moved) ← exfatGenericPread ef.toExfatFs dir.node
      (List.replicate (32 * n) 0) (32 * n) offset
    let entries := (List.range n).map fun index =>
      entryAt (fun position => filled.getD position 0) (32 * index)
    return (if size = (32 * n : Nat) then 0 else if size = 0 then -enoent else -eio, entries,
      { dir with node := moved })
  else .error .abort

/-- The node and the offset behind it, or an error. -/
def parseFileEntry (ef : ExfatReader) (parent : NodeEntry) (offset n : Nat) :
    Run (Except Int (NodeEntry × Nat) × NodeEntry) := do
  let (rc, entries, moved) ← readEntries ef parent n offset
  if rc ≠ 0 then return (.error rc, moved)
  match ← parseFileEntries ef.sb ef.timezone entries with
  | .error rc => return (.error rc, moved)
  | .ok node => return (.ok (node, offset + 32 * n), moved)

def readdir (ef : ExfatReader) : Nat → NodeEntry → Nat → VolumeTables →
    Run (Except Int (NodeEntry × Nat) × NodeEntry × VolumeTables)
  | 0, _, _, _ => .error .diverges
  | fuel + 1, parent, offset, tables => do
      let (rc, entries, moved) ← readEntries ef parent 1 offset
      if rc ≠ 0 then return (.error rc, moved, tables)
      match entries with
      | [] => .error .outOfBounds
      | entry :: _ =>
          if entry.type = exfatEntryFile then do
            let (result, moved) ← parseFileEntry ef moved offset (1 + (entry.byte 1).toNat)
            return (result, moved, tables)
          else do
            let (rc, tables) ← readdirEntry ef entry tables
            if rc ≠ 0 then return (.error rc, moved, tables)
            readdir ef fuel moved (offset + 32) tables

/-- The loop of `exfat_cache_directory`: the error that ended it and the nodes before. -/
def cacheLoop (ef : ExfatReader) : Nat → NodeEntry → Nat → VolumeTables →
    Run (Int × List NodeEntry × NodeEntry × VolumeTables)
  | 0, _, _, _ => .error .diverges
  | fuel + 1, dir, offset, tables => do
      match ← readdir ef (fuel + 1) dir offset tables with
      | (.error rc, moved, tables) => return (rc, [], moved, tables)
      | (.ok (node, next), moved, tables) => do
          let (rc, nodes, moved, tables) ← cacheLoop ef fuel moved next tables
          return (rc, node :: nodes, moved, tables)

/-- `exfat_cache_directory` on a directory that is not cached: its children, or an error
with none of them left.  Every round takes an entry at least. -/
def exfatCacheDirectory (ef : ExfatReader) (dir : NodeEntry) (tables : VolumeTables) :
    Run (Except Int (List NodeEntry) × NodeEntry × VolumeTables) := do
  let (rc, nodes, moved, tables) ← cacheLoop ef (dir.node.size.toNat / 32 + 1) dir 0 tables
  return (if rc = -enoent then .ok nodes else .error rc, moved, tables)

/-- The files of a directory, from its entries; behind them it ends, or breaks off. -/
def listFiles (ef : ExfatReader) (complete : Bool) : List ExfatEntry → Nat → VolumeTables →
    Run (Except Int (List NodeEntry) × VolumeTables)
  | [], _, tables => .ok (if complete then .ok [] else .error (-eio), tables)
  | _ :: rest, skip + 1, tables => listFiles ef complete rest skip tables
  | entry :: rest, 0, tables =>
      if entry.type = exfatEntryFile then
        if rest.length < (entry.byte 1).toNat then .ok (.error (-eio), tables)
        else do
          match ← parseFileEntries ef.sb ef.timezone
              (entry :: rest.take (entry.byte 1).toNat) with
          | .error rc => return (.error rc, tables)
          | .ok node => do
              let (files, tables) ←
                listFiles ef complete rest (entry.byte 1).toNat tables
              return (files.map (node :: ·), tables)
      else do
        let (rc, tables) ← readdirEntry ef entry tables
        if rc ≠ 0 then return (.error rc, tables)
        listFiles ef complete rest 0 tables

def readableEntries (ef : ExfatFs) (node : ExfatNode) : Nat :=
  min (node.size.toNat / 32) (Cursor.leading
    (fun index => clusterInvalid ef.sb (clusterAt ef.volume node index))
    (clustersFor ef node.size.toNat) * (ef.clusterSize / 32))

def directoryEntries (ef : ExfatFs) (content : Nat → UInt8) (node : ExfatNode) :
    List ExfatEntry :=
  (List.range (readableEntries ef node)).map fun index =>
    entryAt (fileContent ef content node) (32 * index)

def directoryFiles (ef : ExfatReader) (content : Nat → UInt8) (dir : NodeEntry)
    (tables : VolumeTables) : Run (Except Int (List NodeEntry) × VolumeTables) :=
  listFiles ef (readableEntries ef.toExfatFs dir.node == dir.node.size.toNat / 32)
    (directoryEntries ef.toExfatFs content dir.node) 0 tables

/-- A node that can be read as a directory, with its pointer at the beginning. -/
structure Directory (ef : ExfatReader) (dir : NodeEntry) : Prop where
  isDirectory : dir.isDirectory = true
  fresh : dir.node.fptrIndex = 0
  heap : dir.node.size.toNat ≤ ef.sb.clusterCount.toNat * ef.clusterSize
  aligned : ef.clusterSize ∣ dir.node.size.toNat

/-- A directory after some reads: only its cached pointer is another one. -/
structure Reread (ef : ExfatReader) (dir before : NodeEntry) : Prop where
  same : before = { dir with node := before.node }
  requested : Requested ef.volume dir.node before.node

section Entries

variable {ef : ExfatReader} {content : Nat → UInt8} {dir before : NodeEntry}

theorem Reread.refl (ef : ExfatReader) (dir : NodeEntry) : Reread ef dir dir := ⟨rfl, .fresh⟩

theorem Reread.isDirectory (reread : Reread ef dir before) :
    before.isDirectory = dir.isDirectory := by
  rw [reread.same]
  rfl

theorem dvd_clusterSize (ef : ExfatReader) : 32 ∣ ef.clusterSize :=
  Nat.dvd_trans (by decide : 32 ∣ 512)
    (Nat.dvd_trans (dvd_sectorSize ef.volume.sb) ⟨_, Nat.shiftLeft_eq _ _⟩)

theorem Directory.size_eq (directory : Directory ef dir) :
    dir.node.size.toNat = 32 * (dir.node.size.toNat / 32) :=
  (Nat.mul_div_cancel' (Nat.dvd_trans (dvd_clusterSize ef) directory.aligned)).symm

theorem clustersFor_le_iff {length clusters : Nat} :
    clustersFor ef.toExfatFs length ≤ clusters ↔ length ≤ clusters * ef.clusterSize := by
  rw [← Nat.not_lt, lt_clustersFor_iff, Nat.not_lt]

theorem Directory.intactTo_iff (directory : Directory ef dir) {count : Nat}
    (within : count ≤ dir.node.size.toNat / 32) :
    IntactTo ef.volume dir.node (clustersFor ef.toExfatFs (32 * count)) ↔
      count ≤ readableEntries ef.toExfatFs dir.node := by
  have whole := directory.size_eq
  have ordered : clustersFor ef.toExfatFs (32 * count) ≤
      clustersFor ef.toExfatFs dir.node.size.toNat := by
    rw [clustersFor_le_iff]
    refine Nat.le_trans ?_ (clustersFor_le_iff.mp (Nat.le_refl _))
    omega
  have valid := @Cursor.le_leading_iff
    (fun index => clusterInvalid ef.sb (clusterAt ef.volume dir.node index)) _ _ ordered
  rw [clustersFor_le_iff] at valid
  obtain ⟨entries, size⟩ := dvd_clusterSize ef
  rw [IntactTo, readableEntries, Nat.le_min, and_iff_right within, size,
    Nat.mul_div_cancel_left _ (by decide)]
  rw [size] at valid
  refine valid.symm.trans ?_
  rw [Nat.mul_left_comm]
  exact Nat.mul_le_mul_left_iff (by decide)

theorem entryAt_bytesAt {offset width index : Nat} {rest : List UInt8}
    (inside : index + 32 ≤ width) :
    entryAt (fun position => (bytesAt content offset width ++ rest).getD position 0) index =
      entryAt content (offset + index) := by
  unfold entryAt
  congr 1
  refine (List.map_congr_left fun position below => ?_)
  rw [List.mem_range] at below
  have within : index + position < (bytesAt content offset width).length := by
    rw [length_bytesAt]
    omega
  dsimp only
  rw [List.getD_eq_getElem?_getD, List.getElem?_append_left within,
    ← List.getD_eq_getElem?_getD, getD_bytesAt (by omega), Nat.add_assoc]

theorem readEntries_of_pread (directory : Directory ef dir) (reread : Reread ef dir before)
    {n offset : Nat} {size : Int} {filled : List UInt8} {moved : ExfatNode}
    (read : exfatGenericPread ef.toExfatFs before.node (List.replicate (32 * n) 0) (32 * n)
      offset = .ok (size, filled, moved)) :
    readEntries ef before n offset =
      .ok (if size = (32 * n : Nat) then 0 else if size = 0 then -enoent else -eio,
        (List.range n).map fun index =>
          entryAt (fun position => filled.getD position 0) (32 * index),
        { before with node := moved }) ∧
      Reread ef dir { before with node := moved } := by
  refine ⟨?_, ?_, reread.requested.pread read⟩
  · rw [readEntries, if_pos (by rw [reread.isDirectory, directory.isDirectory]), read, ok_bind]
    rfl
  · rw [reread.same]

theorem readEntries_eq (directory : Directory ef dir)
    (readable : ClustersReadable ef.toExfatFs content) (reread : Reread ef dir before)
    {n position : Nat} (some : 0 < n)
    (reached : position ≤ readableEntries ef.toExfatFs dir.node) :
    ∃ rc entries after, readEntries ef before n (32 * position) = .ok (rc, entries, after) ∧
      Reread ef dir after ∧
      if position + n ≤ readableEntries ef.toExfatFs dir.node then
        rc = 0 ∧ entries = (List.range n).map fun index =>
          entryAt (fileContent ef.toExfatFs content dir.node) (32 * (position + index))
      else if position = dir.node.size.toNat / 32 then rc = -enoent
      else rc = -eio := by
  have limit : readableEntries ef.toExfatFs dir.node ≤ dir.node.size.toNat / 32 :=
    Nat.min_le_left _ _
  have whole := directory.size_eq
  have started : IntactTo ef.volume dir.node (32 * position / ef.clusterSize) := by
    apply ((directory.intactTo_iff (reached.trans limit)).mpr reached).mono
    apply Nat.div_le_div_right
    have positive := ef.clusterSize_pos
    omega
  have count : min (32 * n) (dir.node.size.toNat - 32 * position) =
      32 * min n (dir.node.size.toNat / 32 - position) := by omega
  by_cases last : position = dir.node.size.toNat / 32
  · have nothing := @exfatGenericPread_nothing ef.toExfatFs before.node
      (List.replicate (32 * n) 0) (32 * n) (32 * position) (by
        rw [reread.requested.sameFile.size]
        omega)
    obtain ⟨read, kept⟩ := readEntries_of_pread directory reread nothing
    refine ⟨_, _, _, read, kept, ?_⟩
    rw [if_neg (by omega), if_pos last, if_neg (by omega), if_pos rfl]
  · obtain ⟨moved, done⟩ := @exfatGenericPread_some ef.toExfatFs content dir.node before.node
      (List.replicate (32 * n) 0) (32 * n) (32 * position) directory.fresh reread.requested
      directory.heap readable (by rw [List.length_replicate]) started
      (by unfold wantedBytes; omega)
    have complete : deliveredBytes ef.toExfatFs dir.node (32 * n) (32 * position) =
          wantedBytes dir.node (32 * n) (32 * position) ↔
        position + min n (dir.node.size.toNat / 32 - position) ≤
          readableEntries ef.toExfatFs dir.node := by
      rw [← directory.intactTo_iff (by omega), intactTo_iff_le_reachedBytes, deliveredBytes,
        wantedBytes, count, ← Nat.mul_add]
      omega
    simp only [complete] at done
    obtain ⟨read, kept⟩ := readEntries_of_pread directory reread done
    refine ⟨_, _, _, read, kept, ?_⟩
    by_cases all : position + n ≤ readableEntries ef.toExfatFs dir.node
    · have uncut : min n (dir.node.size.toNat / 32 - position) = n := by omega
      rw [uncut] at complete
      rw [complete.mpr all, wantedBytes, count, uncut, if_pos all, if_pos all, if_pos rfl]
      refine ⟨rfl, List.map_congr_left fun index below => ?_⟩
      rw [List.mem_range] at below
      rw [entryAt_bytesAt (by omega), Nat.mul_add]
    · rw [wantedBytes, count]
      have some' : 0 < min n (dir.node.size.toNat / 32 - position) := by omega
      have cut : min n (dir.node.size.toNat / 32 - position) ≤ n := Nat.min_le_left _ _
      generalize min n (dir.node.size.toNat / 32 - position) = part at some' cut ⊢
      rw [if_neg all, if_neg last]
      by_cases intact : position + part ≤ readableEntries ef.toExfatFs dir.node
      · have fewer : part ≠ n := fun whole => all (whole ▸ intact)
        rw [if_pos intact, if_neg (by omega), if_neg (by omega)]
      · rw [if_neg intact, if_neg (by unfold eio; omega), if_neg (by decide)]

end Entries

section List

variable {ef : ExfatReader} {complete : Bool} {tables : VolumeTables}

theorem listFiles_skip (entries : List ExfatEntry) (skip : Nat) :
    listFiles ef complete entries skip tables =
      listFiles ef complete (entries.drop skip) 0 tables := by
  induction entries generalizing skip with
  | nil => rw [List.drop_nil, listFiles, listFiles]
  | cons entry entries inductionHypothesis =>
      cases skip with
      | zero => rfl
      | succ skip => rw [listFiles, List.drop_succ_cons, inductionHypothesis]

theorem parseFileEntries_error {sb : ExfatSuperBlock} {timezone : Timezone}
    {entries : List ExfatEntry} {rc : Int}
    (parsed : parseFileEntries sb timezone entries = .ok (.error rc)) : rc = -eio := by
  unfold parseFileEntries at parsed
  split_ifs at parsed
  · cases parsed
    rfl
  · split at parsed
    · split_ifs at parsed
      · cases parsed
        rfl
      · cases parsed
        rfl
      · cases parsed
        rfl
      · obtain ⟨times, timed, parsed⟩ := bind_eq_ok_iff.mp parsed
        obtain ⟨name, named, result⟩ := bind_eq_ok_iff.mp parsed
        dsimp only at result
        split_ifs at result
        · cases result
        · obtain ⟨_, _, result⟩ := bind_eq_ok_iff.mp result
          cases result
          rfl
    · cases parsed

theorem readUpcase_rc {entry : ExfatEntry} {rc : Int} {after : VolumeTables}
    (read : readUpcase ef entry tables = .ok (rc, after)) : rc = 0 ∨ rc = -eio := by
  unfold readUpcase at read
  split_ifs at read
  · cases read
    exact Or.inl rfl
  · cases read
    exact Or.inr rfl
  · cases read
    exact Or.inr rfl
  · obtain ⟨offset, _, read⟩ := bind_eq_ok_iff.mp read
    split at read
    · cases read
      exact Or.inr rfl
    · split_ifs at read
      cases read
      exact Or.inl rfl

theorem readBitmap_rc {entry : ExfatEntry} {rc : Int} {after : VolumeTables}
    (read : readBitmap ef entry tables = .ok (rc, after)) : rc = 0 ∨ rc = -eio := by
  unfold readBitmap at read
  dsimp only at read
  split_ifs at read
  · cases read
    exact Or.inr rfl
  · cases read
    exact Or.inr rfl
  · obtain ⟨offset, _, read⟩ := bind_eq_ok_iff.mp read
    split at read
    · cases read
      exact Or.inr rfl
    · cases read
      exact Or.inl rfl

theorem readLabel_rc (entry : ExfatEntry) (tables : VolumeTables) :
    (readLabel entry tables).1 = 0 ∨ (readLabel entry tables).1 = -eio := by
  unfold readLabel
  split_ifs
  · exact Or.inr rfl
  · split
    · exact Or.inr rfl
    · exact Or.inl rfl

theorem readdirEntry_rc {entry : ExfatEntry} {rc : Int} {after : VolumeTables}
    (read : readdirEntry ef entry tables = .ok (rc, after)) : rc = 0 ∨ rc = -eio := by
  unfold readdirEntry at read
  split_ifs at read
  · exact readUpcase_rc read
  · exact readBitmap_rc read
  · have label := readLabel_rc entry tables
    rw [Except.ok.inj read] at label
    exact label
  · cases read
    exact Or.inl rfl
  · cases read
    exact Or.inr rfl

end List

def filesFrom (ef : ExfatReader) (content : Nat → UInt8) (dir : NodeEntry) (position : Nat)
    (tables : VolumeTables) : Run (Except Int (List NodeEntry) × VolumeTables) :=
  listFiles ef (readableEntries ef.toExfatFs dir.node == dir.node.size.toNat / 32)
    ((directoryEntries ef.toExfatFs content dir.node).drop position) 0 tables

/-- What `readdir` can return at an entry, and what that is of the list of files. -/
inductive ReaddirGives (ef : ExfatReader) (content : Nat → UInt8) (dir : NodeEntry)
    (position : Nat) (tables : VolumeTables) :
    Run (Except Int (NodeEntry × Nat) × NodeEntry × VolumeTables) → Prop where
  | fault {fault : Fault} :
      filesFrom ef content dir position tables = .error fault →
      ReaddirGives ef content dir position tables (.error fault)
  | stop {rc : Int} {after : NodeEntry} {found : VolumeTables} :
      Reread ef dir after →
      filesFrom ef content dir position tables =
        .ok (if rc = -enoent then .ok [] else .error rc, found) →
      ReaddirGives ef content dir position tables (.ok (.error rc, after, found))
  | file {node after : NodeEntry} {next : Nat} {found : VolumeTables} :
      Reread ef dir after → position < next →
      next ≤ readableEntries ef.toExfatFs dir.node →
      filesFrom ef content dir position tables = (do
        let (files, tables) ← filesFrom ef content dir next found
        return (files.map (node :: ·), tables)) →
      ReaddirGives ef content dir position tables (.ok (.ok (node, 32 * next), after, found))

section Readdir

variable {ef : ExfatReader} {content : Nat → UInt8} {dir before : NodeEntry}

theorem length_directoryEntries (ef : ExfatFs) (content : Nat → UInt8) (node : ExfatNode) :
    (directoryEntries ef content node).length = readableEntries ef node := by
  rw [directoryEntries, List.length_map, List.length_range]

theorem take_drop_directoryEntries {position n : Nat}
    (inside : position + n ≤ readableEntries ef.toExfatFs dir.node) :
    ((directoryEntries ef.toExfatFs content dir.node).drop position).take n =
      (List.range n).map fun index =>
        entryAt (fileContent ef.toExfatFs content dir.node) (32 * (position + index)) := by
  apply List.ext_getElem?
  intro index
  rw [List.getElem?_take, List.getElem?_map]
  split_ifs with below
  · rw [List.getElem?_drop, directoryEntries, List.getElem?_map,
      List.getElem?_range (by omega), List.getElem?_range below]
    rfl
  · rw [List.getElem?_eq_none (by rw [List.length_range]; omega), Option.map_none]

theorem drop_directoryEntries {position : Nat}
    (inside : position < readableEntries ef.toExfatFs dir.node) :
    (directoryEntries ef.toExfatFs content dir.node).drop position =
      entryAt (fileContent ef.toExfatFs content dir.node) (32 * position) ::
        (directoryEntries ef.toExfatFs content dir.node).drop (position + 1) := by
  rw [List.drop_eq_getElem_cons (by rw [length_directoryEntries]; exact inside)]
  congr 1
  simp only [directoryEntries, List.getElem_map, List.getElem_range]

theorem readableEntries_le (ef : ExfatFs) (node : ExfatNode) :
    readableEntries ef node ≤ node.size.toNat / 32 := Nat.min_le_left _ _

theorem filesFrom_file {position : Nat}
    (inside : position < readableEntries ef.toExfatFs dir.node) (tables : VolumeTables)
    (file : (entryAt (fileContent ef.toExfatFs content dir.node) (32 * position)).type =
      exfatEntryFile) {n : Nat}
    (whole : n = 1 + ((entryAt (fileContent ef.toExfatFs content dir.node)
      (32 * position)).byte 1).toNat) :
    filesFrom ef content dir position tables =
      if position + n ≤ readableEntries ef.toExfatFs dir.node then do
        match ← parseFileEntries ef.sb ef.timezone
            (((directoryEntries ef.toExfatFs content dir.node).drop position).take n) with
        | .error rc => return (.error rc, tables)
        | .ok node => do
            let (files, tables) ← filesFrom ef content dir (position + n) tables
            return (files.map (node :: ·), tables)
      else .ok (.error (-eio), tables) := by
  subst whole
  rw [filesFrom, drop_directoryEntries inside, listFiles, if_pos file]
  have length : ((directoryEntries ef.toExfatFs content dir.node).drop (position + 1)).length =
      readableEntries ef.toExfatFs dir.node - (position + 1) := by
    rw [List.length_drop, length_directoryEntries]
  by_cases fits : position + (1 + ((entryAt (fileContent ef.toExfatFs content dir.node)
      (32 * position)).byte 1).toNat) ≤ readableEntries ef.toExfatFs dir.node
  · rw [if_pos fits, if_neg (by omega), listFiles_skip, List.drop_drop, Nat.add_comm 1,
      List.take_succ_cons]
    simp only [filesFrom, Nat.add_assoc, Nat.add_comm 1]
  · rw [if_neg fits, if_pos (by omega)]

theorem parseFileEntry_gives (directory : Directory ef dir)
    (readable : ClustersReadable ef.toExfatFs content) (reread : Reread ef dir before)
    {position : Nat} (inside : position < readableEntries ef.toExfatFs dir.node)
    (tables : VolumeTables)
    (file : (entryAt (fileContent ef.toExfatFs content dir.node) (32 * position)).type =
      exfatEntryFile) {n : Nat}
    (whole : n = 1 + ((entryAt (fileContent ef.toExfatFs content dir.node)
      (32 * position)).byte 1).toNat) :
    ReaddirGives ef content dir position tables (do
      let (result, moved) ← parseFileEntry ef before (32 * position) n
      return (result, moved, tables)) := by
  obtain ⟨rc, entries, after, read, kept, cases⟩ := readEntries_eq directory readable reread
    (by omega : 0 < n) (Nat.le_of_lt inside)
  have files := filesFrom_file inside tables file whole
  have limit := readableEntries_le ef.toExfatFs dir.node
  rw [parseFileEntry, read]
  by_cases fits : position + n ≤ readableEntries ef.toExfatFs dir.node
  · rw [if_pos fits] at cases files
    obtain ⟨rfl, rfl⟩ := cases
    rw [take_drop_directoryEntries fits] at files
    simp only [ok_bind, ne_eq, not_true_eq_false, if_false]
    cases parsed : parseFileEntries ef.sb ef.timezone ((List.range n).map fun index =>
        entryAt (fileContent ef.toExfatFs content dir.node) (32 * (position + index))) with
    | error fault =>
        rw [parsed] at files
        exact .fault files
    | ok result =>
        rw [parsed, ok_bind] at files
        cases result with
        | error rc =>
            have code := parseFileEntries_error parsed
            subst code
            refine .stop kept ?_
            rw [files, if_neg (by decide)]
            rfl
        | ok node =>
            have next : 32 * position + 32 * n = 32 * (position + n) := (Nat.mul_add _ _ _).symm
            simp only [ok_bind, next]
            exact .file kept (by omega) fits files
  · rw [if_neg fits] at cases files
    rw [if_neg (by omega)] at cases
    subst cases
    refine .stop kept ?_
    rw [files, if_neg (by decide)]

theorem filesFrom_other {position : Nat}
    (inside : position < readableEntries ef.toExfatFs dir.node) (tables : VolumeTables)
    (other : (entryAt (fileContent ef.toExfatFs content dir.node) (32 * position)).type ≠
      exfatEntryFile) :
    filesFrom ef content dir position tables = (do
      let (rc, tables) ← readdirEntry ef
        (entryAt (fileContent ef.toExfatFs content dir.node) (32 * position)) tables
      if rc ≠ 0 then return (.error rc, tables)
      filesFrom ef content dir (position + 1) tables) := by
  rw [filesFrom, drop_directoryEntries inside, listFiles, if_neg other]
  rfl

theorem filesFrom_last (tables : VolumeTables) :
    filesFrom ef content dir (readableEntries ef.toExfatFs dir.node) tables =
      .ok (if readableEntries ef.toExfatFs dir.node = dir.node.size.toNat / 32 then .ok []
        else .error (-eio), tables) := by
  rw [filesFrom, ← length_directoryEntries ef.toExfatFs content dir.node, List.drop_length,
    listFiles]
  simp only [beq_iff_eq]

theorem ReaddirGives.earlier {position : Nat} {tables found : VolumeTables}
    {run : Run (Except Int (NodeEntry × Nat) × NodeEntry × VolumeTables)}
    (same : filesFrom ef content dir position tables =
      filesFrom ef content dir (position + 1) found)
    (gives : ReaddirGives ef content dir (position + 1) found run) :
    ReaddirGives ef content dir position tables run := by
  cases gives with
  | fault files => exact .fault (same.trans files)
  | stop kept files => exact .stop kept (same.trans files)
  | file kept beyond inside files =>
      exact .file kept (Nat.lt_of_succ_lt beyond) inside (same.trans files)

theorem readdir_gives (directory : Directory ef dir)
    (readable : ClustersReadable ef.toExfatFs content) {fuel position : Nat}
    (enough : readableEntries ef.toExfatFs dir.node < position + fuel)
    (reached : position ≤ readableEntries ef.toExfatFs dir.node)
    (reread : Reread ef dir before) (tables : VolumeTables) :
    ReaddirGives ef content dir position tables
      (readdir ef fuel before (32 * position) tables) := by
  have limit := readableEntries_le ef.toExfatFs dir.node
  induction fuel generalizing position before tables with
  | zero => exact absurd enough (Nat.not_lt.mpr reached)
  | succ fuel inductionHypothesis =>
      obtain ⟨rc, entries, after, read, kept, cases⟩ :=
        readEntries_eq directory readable reread Nat.one_pos reached
      rw [readdir, read]
      by_cases inside : position + 1 ≤ readableEntries ef.toExfatFs dir.node
      · rw [if_pos inside] at cases
        obtain ⟨rfl, rfl⟩ := cases
        simp only [ok_bind, ne_eq, not_true_eq_false, if_false, List.range_one, List.map_cons,
          Nat.add_zero, List.map_nil]
        by_cases file : (entryAt (fileContent ef.toExfatFs content dir.node)
          (32 * position)).type = exfatEntryFile
        · rw [if_pos file]
          exact parseFileEntry_gives directory readable kept inside tables file rfl
        rw [if_neg file]
        have files := filesFrom_other inside tables file
        cases entry : readdirEntry ef
            (entryAt (fileContent ef.toExfatFs content dir.node) (32 * position)) tables with
        | error fault =>
            rw [entry] at files
            exact .fault files
        | ok result =>
            obtain ⟨rc, found⟩ := result
            rw [entry, ok_bind] at files
            dsimp only at files
            simp only [ok_bind]
            rcases readdirEntry_rc entry with rfl | rfl
            · rw [if_neg (not_not.mpr rfl)] at files ⊢
              exact (inductionHypothesis (by omega) inside kept found).earlier files
            · rw [if_pos (by decide)] at files ⊢
              refine .stop kept ?_
              rw [files, if_neg (by decide)]
              rfl
      · obtain rfl : position = readableEntries ef.toExfatFs dir.node := by omega
        have files := @filesFrom_last ef content dir tables
        rw [if_neg inside] at cases
        by_cases last : readableEntries ef.toExfatFs dir.node = dir.node.size.toNat / 32
        · rw [if_pos last] at cases files
          subst cases
          refine .stop kept ?_
          rw [files, if_pos rfl]
        · rw [if_neg last] at cases files
          subst cases
          refine .stop kept ?_
          rw [files, if_neg (by decide)]

/-- The loop of `exfat_cache_directory`, from any entry on. -/
theorem cacheLoop_eq (directory : Directory ef dir)
    (readable : ClustersReadable ef.toExfatFs content) {fuel position : Nat}
    (enough : readableEntries ef.toExfatFs dir.node < position + fuel)
    (reached : position ≤ readableEntries ef.toExfatFs dir.node)
    (reread : Reread ef dir before) (tables : VolumeTables) :
    (∃ fault, filesFrom ef content dir position tables = .error fault ∧
        cacheLoop ef fuel before (32 * position) tables = .error fault) ∨
      ∃ rc nodes after found, Reread ef dir after ∧
        cacheLoop ef fuel before (32 * position) tables = .ok (rc, nodes, after, found) ∧
        filesFrom ef content dir position tables =
          .ok (if rc = -enoent then .ok nodes else .error rc, found) := by
  induction fuel generalizing position before tables with
  | zero => exact absurd enough (Nat.not_lt.mpr reached)
  | succ fuel inductionHypothesis =>
      rw [cacheLoop]
      have gives := readdir_gives directory readable enough reached reread tables
      generalize readdir ef (fuel + 1) before (32 * position) tables = run at gives
      cases gives with
      | fault files => exact Or.inl ⟨_, files, rfl⟩
      | stop kept files => exact Or.inr ⟨_, [], _, _, kept, rfl, files⟩
      | @file node after next found kept beyond inside files =>
          rcases inductionHypothesis (by omega) inside kept found with
            ⟨fault, rest, loop⟩ | ⟨rc, nodes, last, final, keptLast, loop, rest⟩
          · refine Or.inl ⟨fault, ?_, ?_⟩
            · rw [files, rest]
              rfl
            · simp only [ok_bind, loop]
              rfl
          · refine Or.inr ⟨rc, node :: nodes, last, final, keptLast, ?_, ?_⟩
            · simp only [ok_bind, loop]
              rfl
            · rw [files, rest, ok_bind]
              dsimp only
              split_ifs <;> rfl

/-- Caching a directory gives the files that its clusters hold, or the same fault or
error, however far its cached pointer has been moved by reads before. -/
theorem exfatCacheDirectory_eq (directory : Directory ef dir)
    (readable : ClustersReadable ef.toExfatFs content) (reread : Reread ef dir before)
    (tables : VolumeTables) :
    (∃ fault, directoryFiles ef content dir tables = .error fault ∧
        exfatCacheDirectory ef before tables = .error fault) ∨
      ∃ files after found, Reread ef dir after ∧
        directoryFiles ef content dir tables = .ok (files, found) ∧
        exfatCacheDirectory ef before tables = .ok (files, after, found) := by
  have limit := readableEntries_le ef.toExfatFs dir.node
  have size := reread.requested.sameFile.size
  rw [exfatCacheDirectory, size]
  have all : filesFrom ef content dir 0 tables = directoryFiles ef content dir tables := rfl
  rcases @cacheLoop_eq ef content dir before directory readable (dir.node.size.toNat / 32 + 1) 0
    (by omega) (Nat.zero_le _) reread tables with
      ⟨fault, files, loop⟩ | ⟨rc, nodes, after, found, kept, loop, files⟩
  · rw [Nat.mul_zero] at loop
    rw [loop, ← all]
    exact Or.inl ⟨fault, files, rfl⟩
  · rw [Nat.mul_zero] at loop
    rw [loop, ← all]
    exact Or.inr ⟨_, after, found, kept, files, rfl⟩

end Readdir

/-- A node as it is read from a set of entries, before anything is read through it. -/
structure ReadNode (ef : ExfatReader) (entry : NodeEntry) : Prop where
  terminated : 0 ∈ entry.name
  directory : entry.isDirectory = true → Directory ef entry

section Files

variable {ef : ExfatReader} {complete : Bool}

theorem initNodeName_terminated {entries : List ExfatEntry} {length : UInt8}
    {name : List UInt16}
    (named : initNodeName entries (nameEntries length.toNat) = .ok name) : 0 ∈ name := by
  unfold initNodeName at named
  split_ifs at named with short
  dsimp only at named
  split_ifs at named
  cases named
  have each : ∀ list : List ExfatEntry, (list.flatMap enameUnits).length = 15 * list.length := by
    intro list
    induction list with
    | nil => rfl
    | cons entry list inductionHypothesis =>
        rw [List.flatMap_cons, List.length_append, inductionHypothesis, List.length_cons]
        simp only [enameUnits, List.length_map, List.length_range, exfatEnameMax]
        omega
  have bound := length.toNat_lt
  have few : nameEntries length.toNat ≤ 17 := by
    unfold nameEntries exfatEnameMax
    omega
  refine List.mem_append_right _ (List.mem_replicate.mpr ⟨?_, rfl⟩)
  rw [each, List.length_take, exfatNameMax]
  omega

theorem readNode_of_parse {entries : List ExfatEntry} {entry : NodeEntry}
    (parsed : parseFileEntries ef.sb ef.timezone entries = .ok (.ok entry)) :
    ReadNode ef entry := by
  obtain ⟨meta1, meta2, rest, rfl, accepted⟩ := parseFileEntries_eq_ok_iff.mp parsed
  refine ⟨initNodeName_terminated accepted.name, fun isDirectory => ?_⟩
  have checked := accepted.checked
  have fresh : entry.node.fptrIndex = 0 := by
    rw [accepted.fields]
    rfl
  refine ⟨isDirectory, fresh, size_le_of_checkNode checked, ?_⟩
  simp only [checkNode, Bool.and_eq_true] at checked
  have whole := checked.2
  have known : (entryMeta meta1 meta2 rest entry.attrib).isDirectory = true := isDirectory
  rw [known, Bool.true_and, Bool.not_eq_true', bne_eq_false_iff_eq] at whole
  exact Nat.dvd_of_mod_eq_zero whole

/-- What holds of a list of files that was returned, or of the error. -/
structure Listed (ef : ExfatReader) (tables found : VolumeTables)
    (result : Except Int (List NodeEntry)) : Prop where
  code : ∀ rc, result = .error rc → rc = -eio
  nodes : ∀ files, result = .ok files → ∀ file ∈ files, ReadNode ef file
  upcase : tables.upcase.isSome = true → found.upcase = tables.upcase

theorem listed_error {tables found : VolumeTables}
    (kept : tables.upcase.isSome = true → found.upcase = tables.upcase) :
    Listed ef tables found (.error (-eio)) where
  code := by
    rintro rc same
    cases same
    rfl
  nodes := by
    rintro files same
    cases same
  upcase := kept

theorem listed_nil (tables : VolumeTables) : Listed ef tables tables (.ok []) where
  code := by
    rintro rc same
    cases same
  nodes := by
    rintro files same
    cases same
    exact fun file membership => by cases membership
  upcase _ := rfl

theorem readdirEntry_upcase {entry : ExfatEntry} {tables found : VolumeTables} {rc : Int}
    (read : readdirEntry ef entry tables = .ok (rc, found))
    (mounted : tables.upcase.isSome = true) : found.upcase = tables.upcase := by
  unfold readdirEntry at read
  split_ifs at read
  · rw [readUpcase, if_pos mounted] at read
    cases read
    rfl
  · unfold readBitmap at read
    dsimp only at read
    split_ifs at read
    · cases read
      rfl
    · cases read
      rfl
    · obtain ⟨offset, _, read⟩ := bind_eq_ok_iff.mp read
      split at read
      · cases read
        rfl
      · cases read
        rfl
  · unfold readLabel at read
    split_ifs at read
    · cases read
      rfl
    · split at read
      · cases read
        rfl
      · cases read
        rfl
  · cases read
    rfl
  · cases read
    rfl

theorem listed_of_listFiles {entries : List ExfatEntry} {skip : Nat}
    {tables found : VolumeTables} {result : Except Int (List NodeEntry)}
    (listed : listFiles ef complete entries skip tables = .ok (result, found)) :
    Listed ef tables found result := by
  induction entries generalizing skip tables result with
  | nil =>
      rw [listFiles] at listed
      cases listed
      split_ifs
      · exact listed_nil _
      · exact listed_error fun _ => rfl
  | cons entry entries inductionHypothesis =>
      cases skip with
      | succ skip => exact inductionHypothesis listed
      | zero =>
          rw [listFiles] at listed
          split_ifs at listed
          · cases listed
            exact listed_error fun _ => rfl
          · obtain ⟨parsed, reading, rest⟩ := bind_eq_ok_iff.mp listed
            cases parsed with
            | error rc =>
                cases rest
                rw [parseFileEntries_error reading]
                exact listed_error fun _ => rfl
            | ok node =>
                obtain ⟨⟨files, last⟩, tail, rest⟩ := bind_eq_ok_iff.mp rest
                cases rest
                have inner := inductionHypothesis tail
                refine ⟨?_, ?_, inner.upcase⟩
                · rintro rc same
                  cases files with
                  | error other =>
                      cases same
                      exact inner.code _ rfl
                  | ok files => cases same
                · rintro all same
                  cases files with
                  | error other => cases same
                  | ok files =>
                      cases same
                      exact List.forall_mem_cons.mpr
                        ⟨readNode_of_parse reading, inner.nodes files rfl⟩
          · obtain ⟨⟨rc, tables'⟩, reading, rest⟩ := bind_eq_ok_iff.mp listed
            dsimp only at rest
            split_ifs at rest with failed
            · cases rest
              rcases readdirEntry_rc reading with rfl | rfl
              · exact absurd rfl failed
              · exact listed_error (readdirEntry_upcase reading)
            · have inner := inductionHypothesis rest
              refine ⟨inner.code, inner.nodes, fun mounted => ?_⟩
              have kept := readdirEntry_upcase reading mounted
              rw [inner.upcase (by rw [kept]; exact mounted), kept]

/-- Two runs with the same first component of their results. -/
theorem same_first {First Second : Type} {run other : Run (First × Second)}
    (same : run.map Prod.fst = other.map Prod.fst) :
    (∃ fault, run = .error fault ∧ other = .error fault) ∨
      ∃ value left right, run = .ok (value, left) ∧ other = .ok (value, right) := by
  cases run with
  | error fault =>
      cases other with
      | error fault' =>
          cases same
          exact Or.inl ⟨_, rfl, rfl⟩
      | ok result => cases same
  | ok result =>
      obtain ⟨value, left⟩ := result
      cases other with
      | error fault => cases same
      | ok result' =>
          obtain ⟨value', right⟩ := result'
          cases same
          exact Or.inr ⟨_, _, _, rfl, rfl⟩

/-- Only an entry of a table of upper case looks at the tables. -/
theorem readdirEntry_other {entry : ExfatEntry} (other : entry.type ≠ exfatEntryUpcase)
    (tables others : VolumeTables) :
    (readdirEntry ef entry tables).map Prod.fst = (readdirEntry ef entry others).map Prod.fst := by
  unfold readdirEntry
  rw [if_neg other, if_neg other]
  split_ifs
  · unfold readBitmap
    dsimp only
    split_ifs
    · rfl
    · rfl
    · cases exfatC2o ef.sb (UInt32.ofNat (entry.le 20 4)) with
      | error fault => rfl
      | ok offset =>
          simp only [ok_bind]
          split <;> rfl
  · unfold readLabel
    split_ifs
    · rfl
    · split <;> rfl
  · rfl
  · rfl

theorem readdirEntry_of_mounted {entry : ExfatEntry} {tables : VolumeTables}
    (upcase : entry.type = exfatEntryUpcase) (mounted : tables.upcase.isSome = true) :
    readdirEntry ef entry tables = .ok (0, tables) := by
  rw [readdirEntry, if_pos upcase, readUpcase, if_pos mounted]

/-- On a mounted volume the tables do not change what an entry does. -/
theorem readdirEntry_tables (entry : ExfatEntry) {tables other : VolumeTables}
    (mounted : tables.upcase.isSome = true) (mountedToo : other.upcase.isSome = true) :
    (readdirEntry ef entry tables).map Prod.fst = (readdirEntry ef entry other).map Prod.fst := by
  by_cases upcase : entry.type = exfatEntryUpcase
  · rw [readdirEntry_of_mounted upcase mounted, readdirEntry_of_mounted upcase mountedToo]
    rfl
  · exact readdirEntry_other upcase tables other

/-- On a mounted volume the tables do not change what files a directory holds. -/
theorem listFiles_tables (entries : List ExfatEntry) (skip : Nat) {tables other : VolumeTables}
    (mounted : tables.upcase.isSome = true) (mountedToo : other.upcase.isSome = true) :
    (listFiles ef complete entries skip tables).map Prod.fst =
      (listFiles ef complete entries skip other).map Prod.fst := by
  induction entries generalizing skip tables other with
  | nil => rfl
  | cons entry entries inductionHypothesis =>
      cases skip with
      | succ skip => exact inductionHypothesis skip mounted mountedToo
      | zero =>
          rw [listFiles, listFiles]
          split_ifs
          · rfl
          · cases parseFileEntries ef.sb ef.timezone
              (entry :: entries.take (entry.byte 1).toNat) with
            | error fault => rfl
            | ok parsed =>
                cases parsed with
                | error rc => rfl
                | ok node =>
                    have tail := inductionHypothesis (entry.byte 1).toNat mounted mountedToo
                    simp only [ok_bind]
                    rcases same_first tail with ⟨fault, one, two⟩ | ⟨files, left, right, one, two⟩
                    · rw [one, two]
                    · rw [one, two]
                      rfl
          · have read := @readdirEntry_tables ef entry tables other mounted mountedToo
            rcases same_first read with ⟨fault, one, two⟩ | ⟨rc, left, right, one, two⟩
            · rw [one, two]
            · simp only [one, two, ok_bind]
              split_ifs
              · rfl
              · apply inductionHypothesis
                · rw [readdirEntry_upcase one mounted]
                  exact mounted
                · rw [readdirEntry_upcase two mountedToo]
                  exact mountedToo

/-- What a directory holds while the tables are found, it holds on the mounted volume. -/
theorem listFiles_mounted {entries : List ExfatEntry} {skip : Nat}
    {tables found mounted : VolumeTables} {files : List NodeEntry}
    (listed : listFiles ef complete entries skip tables = .ok (.ok files, found))
    (known : mounted.upcase.isSome = true) :
    ∃ after, listFiles ef complete entries skip mounted = .ok (.ok files, after) := by
  induction entries generalizing skip tables mounted files with
  | nil =>
      rw [listFiles] at listed ⊢
      cases complete with
      | false => cases listed
      | true =>
          cases listed
          exact ⟨_, rfl⟩
  | cons entry entries inductionHypothesis =>
      cases skip with
      | succ skip => exact inductionHypothesis listed known
      | zero =>
          rw [listFiles] at listed ⊢
          split_ifs at listed ⊢
          · cases listed
          · obtain ⟨parsed, reading, rest⟩ := bind_eq_ok_iff.mp listed
            rw [reading]
            cases parsed with
            | error rc => cases rest
            | ok node =>
                obtain ⟨⟨tail, last⟩, tailed, rest⟩ := bind_eq_ok_iff.mp rest
                cases tail with
                | error rc => cases rest
                | ok tail =>
                    cases rest
                    obtain ⟨after, again⟩ := inductionHypothesis tailed known
                    refine ⟨after, ?_⟩
                    simp only [ok_bind, again]
                    rfl
          · obtain ⟨⟨rc, between⟩, reading, rest⟩ := bind_eq_ok_iff.mp listed
            dsimp only at rest
            split_ifs at rest with failed
            · cases rest
            obtain rfl : rc = 0 := not_not.mp failed
            obtain ⟨after, again⟩ : ∃ after, readdirEntry ef entry mounted = .ok (0, after) := by
              by_cases upcase : entry.type = exfatEntryUpcase
              · exact ⟨mounted, readdirEntry_of_mounted upcase known⟩
              · rcases same_first (readdirEntry_other upcase tables mounted) with
                  ⟨fault, one, two⟩ | ⟨rc, left, right, one, two⟩
                · rw [reading] at one
                  cases one
                · rw [reading] at one
                  cases one
                  exact ⟨right, two⟩
            have still : after.upcase.isSome = true := by
              rw [readdirEntry_upcase again known]
              exact known
            obtain ⟨last, tail⟩ := inductionHypothesis rest still
            refine ⟨last, ?_⟩
            simp only [again, ok_bind]
            rw [if_neg (not_not.mpr rfl), tail]

end Files

end Vtoydump.Exfat
