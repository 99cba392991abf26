import Vtoydump.Exfat.FreeClusters
import Vtoydump.Exfat.Lookup

/-!
# Mounting a volume

`exfat_mount` with the options `ro`, as the tool gives them: it checks the super
block and the checksum over the boot sectors, follows the clusters of the root
directory and reads it.  What it returns with success is a tree that stands for the
volume, so lookups after it give what the volume holds.
-/

namespace Vtoydump.Exfat

open CRun Record Checksum

def oemName : List UInt8 := [0x45, 0x58, 0x46, 0x41, 0x54, 0x20, 0x20, 0x20]

/-- The fields of the super block that the geometry consists of. -/
def superBlock (sb : List UInt8) : ExfatSuperBlock where
  clusterSectorStart := UInt32.ofNat (number sb 0x58 4)
  clusterCount := UInt32.ofNat (number sb 0x5c 4)
  sectorBits := sb.getD 0x6c 0
  spcBits := sb.getD 0x6d 0

def rootdirStart (sb : List UInt8) : UInt32 := UInt32.ofNat (number sb 0x60 4)

def addVbrByte (sum : UInt32) (byte : UInt8) : UInt32 :=
  (sum <<< 31 ||| sum >>> 1) + byte.toUInt32

/-- The fields `volume_state` and `allocated_percent` are skipped. -/
def vbrSkipped (index : Nat) : Bool := index = 0x6a ∨ index = 0x6b ∨ index = 0x70

def exfatVbrStartChecksum (sector : List UInt8) : UInt32 :=
  sumSkipping addVbrByte vbrSkipped 0 sector 0

def exfatVbrAddChecksum (sector : List UInt8) (sum : UInt32) : UInt32 :=
  sector.foldl addVbrByte sum

/-- The sectors from 1 to 10, read one after the other into one buffer. -/
def vbrLoop (dev : ExfatDev) (size : Nat) :
    Nat → Nat → List UInt8 → UInt32 → Run (Option (List UInt8 × UInt32))
  | 0, _, buffer, sum => .ok (some (buffer, sum))
  | left + 1, index, buffer, sum => do
      match ← exfatPread dev buffer size (index * size) with
      | none => return none
      | some sector =>
          vbrLoop dev size left (index + 1) sector
            (exfatVbrAddChecksum (sector.take size) sum)

/-- `verify_vbr_checksum`; the buffer holds a cluster, of whatever bytes. -/
def verifyVbrChecksum (dev : ExfatDev) (buffer : List UInt8) (size : Nat) : Run Bool := do
  match ← exfatPread dev buffer size 0 with
  | none => return false
  | some sector => do
      match ← vbrLoop dev size 10 1 sector (exfatVbrStartChecksum (sector.take size)) with
      | none => return false
      | some (sector, sum) => do
          match ← exfatPread dev sector size (11 * size) with
          | none => return false
          | some sector =>
              return (List.range (size / 4)).all fun index =>
                UInt32.ofNat (number sector (4 * index) 4) == sum

/-- Where the table has the entry of a cluster. -/
def fatOffset (sizeT : SizeT) (sb : List UInt8) (cluster : UInt32) : Nat :=
  s2o (superBlock sb) (number sb 0x50 4) + sizeT.trunc (cluster.toNat * 4)

/-- What `exfat_next_cluster` reads of the table over the uninitialised `next`; `none` is a
`pread` that fails. -/
def fatEntry (sizeT : SizeT) (dev : ExfatDev) (sb : List UInt8) (next : UInt32 → UInt32)
    (cluster : UInt32) : Option UInt32 :=
  (dev.pread 4 (fatOffset sizeT sb cluster)).map fun bytes =>
    UInt32.ofNat (leValue (bytes ++ (leBytes 4 (next cluster).toNat).drop bytes.length))

/-- The loop of `rootdir_size`: the number of clusters, or none. -/
def rootdirLoop (volume : Volume) (root : ExfatNode) : Nat → UInt32 → Nat → Run Nat
  | 0, _, _ => .ok 0
  | left + 1, cluster, clusters =>
      if clusterInvalid volume.sb.toExfatSuperBlock cluster then .ok 0
      else do
        let next ← exfatNextCluster volume root cluster
        if next = exfatClusterEnd then return clusters + 1
        rootdirLoop volume root left next (clusters + 1)

/-- `rootdir_size`; no clusters are no size. -/
def rootdirSize (volume : Volume) (rootdirCluster : UInt32) : Run Nat := do
  let clusters ← rootdirLoop volume (initNodeMeta2 0 rootdirCluster false)
    volume.sb.clusterCount.toNat rootdirCluster 0
  return clusters * clusterSize volume.sb.toExfatSuperBlock

/-- The root directory has no entries of its own. -/
def rootNode (size : Nat) (rootdirCluster : UInt32) : NodeEntry where
  node := initNodeMeta2 (UInt64.ofNat size) rootdirCluster false
  attrib := exfatAttribDir
  continuations := 0
  mtime := 0
  atime := 0
  name := List.replicate (exfatNameMax + 1) 0

/-- `struct exfat` before the root directory is read. -/
def emptyTables : VolumeTables := ⟨none, ⟨0, 0, none⟩, []⟩

/-- The root directory, and what its entries give. -/
def exfatMountRoot (ef : ExfatReader) (rootdirCluster : UInt32) :
    Run (Except Int (ExfatReader × ExfatTree)) := do
  let size ← rootdirSize ef.volume rootdirCluster
  if size = 0 then return .error (-eio)
  let root : TreeNode := { allocateNode (rootNode size rootdirCluster) with references := 1 }
  let (rc, cached) ← cacheDirectory ef ⟨[root], emptyTables⟩ 0
  if rc ≠ 0 then return .error (-eio)
  if cached.tables.upcase.isNone then return .error (-eio)
  if cached.tables.cmap.chunk.isNone then return .error (-eio)
  return .ok (ef, cached)

/-- `exfat_mount`, read-only; `memory` is what the allocator leaves in the buffer for the
boot sectors, and `next` what is on the stack when an entry of the table is read. -/
def exfatMount (sizeT : SizeT) (timezone : Timezone) (dev : ExfatDev) (deviceSize : Nat)
    (memory : List UInt8) (next : UInt32 → UInt32) :
    Run (Except Int (ExfatReader × ExfatTree)) := do
  match ← exfatPread dev (List.replicate 512 0) 512 0 with
  | none => return .error (-eio)
  | some sb => do
      if field sb 3 8 ≠ oemName then return .error (-eio)
      if (superBlock sb).sectorBits.toNat < 9 then return .error (-eio)
      if 25 < (superBlock sb).sectorBits.toNat + (superBlock sb).spcBits.toNat then
        return .error (-eio)
      let verified ← verifyVbrChecksum dev memory (sectorSize (superBlock sb))
      if verified = false then return .error (-eio)
      if sb.getD 0x69 0 ≠ 1 ∨ sb.getD 0x68 0 ≠ 0 then return .error (-eio)
      if sb.getD 0x6e 0 ≠ 1 then return .error (-eio)
      match exfatMountGeometry (superBlock sb) deviceSize with
      | .error rc => return .error rc
      | .ok geometry =>
          exfatMountRoot ⟨⟨dev, ⟨geometry, fatEntry sizeT dev sb next⟩⟩, sizeT, timezone⟩
            (rootdirStart sb)

/-- From one cluster of a chain to its end: valid clusters, not more than the limit. -/
structure ChainEnds (volume : Volume) (root : ExfatNode) (first limit total : Nat) : Prop where
  some : first < total
  within : total ≤ limit
  valid : ∀ index, first ≤ index → index < total →
    clusterInvalid volume.sb.toExfatSuperBlock (clusterAt volume root index) = false
  ends : clusterAt volume root total = exfatClusterEnd
  not_before : ∀ index, first < index → index < total →
    clusterAt volume root index ≠ exfatClusterEnd

section Root

variable {volume : Volume} {root : ExfatNode}

/-- The loop that counts the clusters ends within as many rounds as the volume has
clusters, a chain that runs in a circle included. -/
theorem rootdirLoop_eq (left clusters : Nat) :
    ∃ count, rootdirLoop volume root left (clusterAt volume root clusters) clusters = .ok count ∧
      (count = 0 ∨ ChainEnds volume root clusters (clusters + left) count) ∧
      ∀ total, ChainEnds volume root clusters (clusters + left) total → count = total := by
  induction left generalizing clusters with
  | zero =>
      refine ⟨0, rfl, Or.inl rfl, fun total chain => ?_⟩
      have some := chain.some
      have within := chain.within
      omega
  | succ left inductionHypothesis =>
      rw [rootdirLoop]
      cases invalid : clusterInvalid volume.sb.toExfatSuperBlock
          (clusterAt volume root clusters) with
      | true =>
          refine ⟨0, if_pos rfl, Or.inl rfl, fun total chain => ?_⟩
          have valid := chain.valid clusters (Nat.le_refl _) chain.some
          rw [invalid] at valid
          cases valid
      | false =>
          rw [if_neg (by decide), exfatNextCluster_of_valid root invalid, ok_bind]
          have next : nextCluster volume root (clusterAt volume root clusters) =
              clusterAt volume root (clusters + 1) := rfl
          rw [next]
          by_cases last : clusterAt volume root (clusters + 1) = exfatClusterEnd
          · rw [if_pos last]
            refine ⟨clusters + 1, rfl, Or.inr ?_, fun total chain => ?_⟩
            · refine ⟨Nat.lt_succ_self _, by omega, fun index lower upper => ?_, last,
                fun index lower upper => by omega⟩
              obtain rfl : index = clusters := by omega
              exact invalid
            · by_contra other
              exact chain.not_before (clusters + 1) (Nat.lt_succ_self _)
                (by have some := chain.some; omega) last
          · rw [if_neg last]
            obtain ⟨count, done, shape, only⟩ := inductionHypothesis (clusters + 1)
            have limit : clusters + 1 + left = clusters + (left + 1) := by omega
            rw [limit] at shape only
            refine ⟨count, done, shape.imp_right fun chain => ?_, fun total chain => only total ?_⟩
            · refine ⟨Nat.lt_of_succ_lt chain.some, chain.within, fun index lower upper => ?_,
                chain.ends, fun index lower upper => ?_⟩
              · rcases Nat.eq_or_lt_of_le lower with rfl | later
                · exact invalid
                · exact chain.valid index later upper
              · rcases Nat.eq_or_lt_of_le (Nat.succ_le_of_lt lower) with rfl | later
                · exact last
                · exact chain.not_before index later upper
            · have further : clusters + 1 ≠ total := by
                rintro rfl
                exact last chain.ends
              have some := chain.some
              exact ⟨by omega, chain.within, fun index lower upper =>
                chain.valid index (by omega) upper, chain.ends, fun index lower upper =>
                chain.not_before index (by omega) upper⟩

theorem rootdirSize_eq_ok {rootdirCluster : UInt32} {size : Nat}
    (done : rootdirSize volume rootdirCluster = .ok size) (some : size ≠ 0) :
    ∃ count, ChainEnds volume (initNodeMeta2 0 rootdirCluster false) 0
        volume.sb.clusterCount.toNat count ∧
      size = count * clusterSize volume.sb.toExfatSuperBlock := by
  obtain ⟨count, looped, shape, _⟩ := @rootdirLoop_eq volume
    (initNodeMeta2 0 rootdirCluster false) volume.sb.clusterCount.toNat 0
  rw [Nat.zero_add] at shape
  have begins : clusterAt volume (initNodeMeta2 0 rootdirCluster false) 0 = rootdirCluster := rfl
  rw [begins] at looped
  rw [rootdirSize, looped, ok_bind] at done
  cases done
  refine ⟨count, shape.resolve_left ?_, rfl⟩
  rintro rfl
  exact some (Nat.zero_mul _)

/-- The root directory has a size exactly when its chain ends, on every volume: a chain that
leaves the volume or runs in a circle gives none. -/
theorem rootdirSize_eq (volume : Volume) (rootdirCluster : UInt32) :
    ∃ size, rootdirSize volume rootdirCluster = .ok size ∧
      (size = 0 ↔ ∀ count, ¬ ChainEnds volume (initNodeMeta2 0 rootdirCluster false) 0
        volume.sb.clusterCount.toNat count) ∧
      ∀ count, ChainEnds volume (initNodeMeta2 0 rootdirCluster false) 0
        volume.sb.clusterCount.toNat count →
        size = count * clusterSize volume.sb.toExfatSuperBlock := by
  obtain ⟨count, looped, shape, only⟩ := @rootdirLoop_eq volume
    (initNodeMeta2 0 rootdirCluster false) volume.sb.clusterCount.toNat 0
  have begins : clusterAt volume (initNodeMeta2 0 rootdirCluster false) 0 = rootdirCluster := rfl
  rw [begins] at looped
  rw [Nat.zero_add] at shape only
  refine ⟨count * clusterSize volume.sb.toExfatSuperBlock, ?_, ⟨?_, ?_⟩, ?_⟩
  · rw [rootdirSize, looped]
    rfl
  · intro none total chain
    obtain rfl := only total chain
    have size := Nat.mul_pos chain.some (clusterSize_pos volume.sb.toExfatSuperBlock)
    omega
  · intro none
    rw [shape.resolve_right (none count), Nat.zero_mul]
  · intro total chain
    rw [only total chain]

theorem toNat_size_rootNode {count : Nat} (rootdirCluster : UInt32)
    (within : count ≤ volume.sb.clusterCount.toNat) :
    (rootNode (count * clusterSize volume.sb.toExfatSuperBlock) rootdirCluster).node.size.toNat =
      count * clusterSize volume.sb.toExfatSuperBlock := by
  have room := heapSize_lt volume.sb
  have smaller := Nat.mul_le_mul_right (clusterSize volume.sb.toExfatSuperBlock) within
  exact Nat.mod_eq_of_lt (by omega)

theorem isDirectory_rootNode (size : Nat) (rootdirCluster : UInt32) :
    (rootNode size rootdirCluster).isDirectory = true :=
  decide_eq_true (by decide : exfatAttribDir &&& exfatAttribDir ≠ 0)

theorem readNode_root {ef : ExfatReader} {count : Nat} (rootdirCluster : UInt32)
    (within : count ≤ ef.volume.sb.clusterCount.toNat) :
    ReadNode ef (rootNode (count * clusterSize ef.volume.sb.toExfatSuperBlock) rootdirCluster) := by
  have size := toNat_size_rootNode rootdirCluster within
  refine ⟨List.mem_replicate.mpr ⟨by decide, rfl⟩, fun isDirectory => ⟨isDirectory, rfl, ?_, ?_⟩⟩
  · rw [size]
    exact Nat.mul_le_mul_right _ within
  · rw [size]
    exact Nat.dvd_mul_left _ _

theorem represents_single {ef : ExfatReader} {content : Nat → UInt8}
    {upcase : UInt16 → UInt16} {root : NodeEntry} {tables : VolumeTables}
    (known : ReadNode ef root) (mounted : tables.upcase = some upcase) :
    Represents ef content upcase ⟨[{ allocateNode root with references := 1 }], tables⟩ [root] ∧
      ∀ id, ExfatTree.references ⟨[{ allocateNode root with references := 1 }], tables⟩ id =
        if id = 0 then 1 else 0 := by
  have counts : ∀ id, ExfatTree.references
      ⟨[{ allocateNode root with references := 1 }], tables⟩ id = if id = 0 then 1 else 0 := by
    intro id
    cases id <;> rfl
  refine ⟨⟨mounted, rfl, fun entry membership => ?_, ?_, ?_, fun id => ?_⟩, counts⟩
  · rw [List.mem_singleton.mp membership]
    exact known
  · intro id node entry at_ listed
    cases id with
    | zero =>
        cases at_
        cases listed
        exact Reread.refl ef root
    | succ id => cases at_
  · intro id node entry at_ listed isCached
    cases id with
    | zero =>
        cases at_
        cases isCached
    | succ id => cases at_
  · rw [counts]
    split_ifs <;> decide

/-- The root directory is read before the table of upper case is known. -/
theorem represents_of_cacheDirectory {ef : ExfatReader} {content : Nat → UInt8}
    {upcase : UInt16 → UInt16} {root : NodeEntry} {tree : ExfatTree}
    (readable : ClustersReadable ef.toExfatFs content) (known : ReadNode ef root)
    (isDirectory : root.isDirectory = true)
    (cached : cacheDirectory ef ⟨[{ allocateNode root with references := 1 }], emptyTables⟩ 0 =
      .ok (0, tree)) (found : tree.tables.upcase = some upcase) :
    ∃ files, Represents ef content upcase tree (root :: files) ∧
      ∀ id, tree.references id = if id = 0 then 1 else 0 := by
  rw [cacheDirectory] at cached
  dsimp only [List.getElem?_cons_zero] at cached
  rw [if_neg (by exact Bool.false_ne_true)] at cached
  rcases exfatCacheDirectory_eq (known.directory isDirectory) readable (Reread.refl ef root)
    emptyTables with ⟨fault, _, failure⟩ | ⟨result, after, tables, kept, listed, done⟩
  · rw [allocateNode, failure] at cached
    cases cached
  rw [allocateNode, done, ok_bind] at cached
  have sound := listed_of_listFiles listed
  cases result with
  | error rc =>
      have code := sound.code rc rfl
      subst code
      cases cached
  | ok files =>
      cases cached
      obtain ⟨final, again⟩ := @listFiles_mounted ef _ _ _ _ _ (mountedTables upcase) _ listed rfl
      have children : HasFiles ef content upcase (root :: files) root
          (List.range' 1 files.length) := by
        refine ⟨files, ?_, map_range'_append [root] files⟩
        rw [volumeFiles, if_pos isDirectory, directoryFiles, again]
        rfl
      obtain ⟨single, counts⟩ := @represents_single ef content upcase root tables known found
      obtain ⟨more, countsMore⟩ := single.append (sound.nodes files rfl)
      obtain ⟨final, countsFinal⟩ := @Represents.set ef content upcase _ _ 0 root more
        ⟨after, 1, true, List.range' 1 files.length⟩ { allocateNode root with references := 1 }
        tables rfl rfl found kept rfl fun _ => children
      exact ⟨files, final, fun id =>
        (countsFinal id).trans ((countsMore id).trans (counts id))⟩

theorem reader_of_exfatMountRoot {ef reader : ExfatReader} {rootdirCluster : UInt32}
    {tree : ExfatTree}
    (mounted : exfatMountRoot ef rootdirCluster = .ok (.ok (reader, tree))) : reader = ef := by
  obtain ⟨size, _, mounted⟩ := bind_eq_ok_iff.mp mounted
  split_ifs at mounted
  · cases mounted
  obtain ⟨⟨rc, cached⟩, _, mounted⟩ := bind_eq_ok_iff.mp mounted
  dsimp only at mounted
  split_ifs at mounted <;> cases mounted
  rfl

theorem represents_of_exfatMountRoot {ef reader : ExfatReader} {content : Nat → UInt8}
    {rootdirCluster : UInt32} {tree : ExfatTree}
    (readable : ClustersReadable ef.toExfatFs content)
    (mounted : exfatMountRoot ef rootdirCluster = .ok (.ok (reader, tree))) :
    ∃ count upcase files, ChainEnds ef.volume (initNodeMeta2 0 rootdirCluster false) 0
        ef.volume.sb.clusterCount.toNat count ∧
      tree.tables.upcase = some upcase ∧
      Represents ef content upcase tree
        (rootNode (count * clusterSize ef.volume.sb.toExfatSuperBlock) rootdirCluster :: files) ∧
      ∀ id, tree.references id = if id = 0 then 1 else 0 := by
  obtain ⟨size, sized, mounted⟩ := bind_eq_ok_iff.mp mounted
  dsimp only at mounted
  split_ifs at mounted with empty
  · cases mounted
  obtain ⟨count, chain, rfl⟩ := rootdirSize_eq_ok sized empty
  obtain ⟨⟨rc, cached⟩, caching, mounted⟩ := bind_eq_ok_iff.mp mounted
  dsimp only at mounted
  split_ifs at mounted with failed upcaseNone chunkNone
  · cases mounted
  · cases mounted
  · cases mounted
  cases mounted
  obtain rfl : rc = 0 := not_not.mp failed
  obtain ⟨upcase, found⟩ := Option.ne_none_iff_exists'.mp (mt Option.isNone_iff_eq_none.mpr
    upcaseNone)
  obtain ⟨files, stands, counts⟩ := represents_of_cacheDirectory readable
    (readNode_root rootdirCluster chain.within) (isDirectory_rootNode _ _) caching found
  exact ⟨count, upcase, files, chain, found, stands, counts⟩

end Root

/-- The boot sectors and the sector of their checksum can be read, and hold this content. -/
def BootReadable (dev : ExfatDev) (content : Nat → UInt8) (size : Nat) : Prop :=
  ∀ index < 12, dev.pread size (index * size) = some (bytesAt content (index * size) size)

def vbrSum (content : Nat → UInt8) (size : Nat) : UInt32 :=
  sumSkipping addVbrByte vbrSkipped 0 (bytesAt content 0 (11 * size)) 0

def vbrWord (content : Nat → UInt8) (size index : Nat) : Nat :=
  number (bytesAt content (11 * size) size) (4 * index) 4

section Boot

variable {dev : ExfatDev} {content : Nat → UInt8} {size : Nat}

theorem toNat_addVbrByte (sum : UInt32) (byte : UInt8) :
    (addVbrByte sum byte).toNat =
      (sum.toNat % 2 * 2 ^ 31 + sum.toNat / 2 + byte.toNat) % 2 ^ 32 := by
  have rotated := @rotate_eq 31 sum.toNat sum.toNat_lt
  rw [addVbrByte, UInt32.toNat_add, UInt32.toNat_or, UInt32.toNat_shiftLeft,
    UInt32.toNat_shiftRight, UInt8.toNat_toUInt32]
  rw [← rotated, Nat.shiftLeft_eq, Nat.shiftRight_eq_div_pow]
  rfl

theorem tight_addVbrByte : Tight addVbrByte where
  sum := by
    intro byte first second same
    have numbers := congrArg UInt32.toNat same
    rw [toNat_addVbrByte, toNat_addVbrByte] at numbers
    have firstSmall := first.toNat_lt
    have secondSmall := second.toNat_lt
    rw [← UInt32.toNat_inj]
    apply @rotate_injective 31 _ _ firstSmall secondSmall
    omega
  byte := by
    intro sum first second same
    have numbers := congrArg UInt32.toNat same
    rw [toNat_addVbrByte, toNat_addVbrByte] at numbers
    have firstSmall := first.toNat_lt
    have secondSmall := second.toNat_lt
    have small := sum.toNat_lt
    rw [← UInt8.toNat_inj]
    omega

theorem exfatPread_boot (readable : BootReadable dev content size) {buffer : List UInt8}
    (room : size ≤ buffer.length) {index : Nat} (below : index < 12) :
    exfatPread dev buffer size (index * size) =
      .ok (some (bytesAt content (index * size) size ++ buffer.drop size)) := by
  rw [exfatPread, readable index below]
  dsimp only
  rw [length_bytesAt, if_neg (by omega)]

theorem vbrLoop_eq (readable : BootReadable dev content size) {buffer : List UInt8}
    (room : size ≤ buffer.length) {left index : Nat} (within : index + left ≤ 12)
    (sum : UInt32) :
    ∃ sector, vbrLoop dev size left index buffer sum =
        .ok (some (sector, (bytesAt content (index * size) (left * size)).foldl addVbrByte sum)) ∧
      sector.length = buffer.length := by
  induction left generalizing index buffer sum with
  | zero =>
      refine ⟨buffer, ?_, rfl⟩
      rw [vbrLoop, Nat.zero_mul]
      rfl
  | succ left inductionHypothesis =>
      have length : (bytesAt content (index * size) size ++ buffer.drop size).length =
          buffer.length := by
        rw [List.length_append, length_bytesAt, List.length_drop]
        omega
      obtain ⟨sector, looped, kept⟩ := @inductionHypothesis
        (bytesAt content (index * size) size ++ buffer.drop size) (by rw [length]; exact room)
        (index + 1) (by omega)
        (exfatVbrAddChecksum (bytesAt content (index * size) size) sum)
      refine ⟨sector, ?_, kept.trans length⟩
      rw [vbrLoop, exfatPread_boot readable room (by omega), ok_bind]
      dsimp only
      rw [List.take_left' (length_bytesAt _ _ _), looped, Nat.succ_mul left size,
        Nat.add_comm (left * size), Blocks.bytesAt_append, List.foldl_append, Nat.succ_mul]
      rfl

theorem number_append {bytes rest : List UInt8} {offset width : Nat}
    (inside : offset + width ≤ bytes.length) :
    number (bytes ++ rest) offset width = number bytes offset width := by
  rw [number, number]
  congr 1
  apply field_congr
  intro index _ upper
  rw [List.getElem?_append_left (by omega)]

/-- What `verify_vbr_checksum` decides, whatever its buffer held. -/
theorem verifyVbrChecksum_eq (readable : BootReadable dev content size) (large : 0x70 < size)
    {buffer : List UInt8} (room : size ≤ buffer.length) :
    verifyVbrChecksum dev buffer size =
      .ok ((List.range (size / 4)).all fun index =>
        UInt32.ofNat (vbrWord content size index) == vbrSum content size) := by
  have first := exfatPread_boot readable room (by decide : 0 < 12)
  rw [Nat.zero_mul] at first
  have length : (bytesAt content 0 size ++ buffer.drop size).length = buffer.length := by
    rw [List.length_append, length_bytesAt, List.length_drop]
    omega
  obtain ⟨sector, looped, kept⟩ := @vbrLoop_eq dev content size readable
    (bytesAt content 0 size ++ buffer.drop size) (by rw [length]; exact room) 10 1 (by decide)
    (exfatVbrStartChecksum (bytesAt content 0 size))
  have last := @exfatPread_boot dev content size readable sector
    (by rw [kept, length]; exact room) 11 (by decide)
  have sum : (bytesAt content (1 * size) (10 * size)).foldl addVbrByte
      (exfatVbrStartChecksum (bytesAt content 0 size)) = vbrSum content size := by
    have whole : 11 * size = size + 10 * size := by omega
    rw [vbrSum, whole, Blocks.bytesAt_append, sumSkipping_append, length_bytesAt, Nat.zero_add,
      Nat.one_mul, exfatVbrStartChecksum]
    symm
    apply sumSkipping_eq_foldl
    intro offset _
    rw [vbrSkipped, decide_eq_false_iff_not]
    omega
  rw [verifyVbrChecksum, first, ok_bind]
  dsimp only
  rw [List.take_left' (length_bytesAt _ _ _), looped, ok_bind]
  dsimp only
  rw [last, ok_bind, sum]
  refine congrArg Except.ok (Bool.eq_iff_iff.mpr ?_)
  rw [List.all_eq_true, List.all_eq_true]
  refine forall₂_congr fun index below => ?_
  rw [List.mem_range] at below
  rw [number_append (by rw [length_bytesAt]; omega), vbrWord]

structure OneByteChanged (content other : Nat → UInt8) (position : Nat) : Prop where
  different : content position ≠ other position
  elsewhere : ∀ index, index ≠ position → content index = other index

theorem bytesAt_split (content : Nat → UInt8) {offset width position : Nat}
    (lower : offset ≤ position) (upper : position < offset + width) :
    bytesAt content offset width = bytesAt content offset (position - offset) ++
      content position :: bytesAt content (position + 1) (offset + width - (position + 1)) := by
  have parts : width = (position - offset) + (1 + (offset + width - (position + 1))) := by omega
  conv_lhs => rw [parts, Blocks.bytesAt_append, Blocks.bytesAt_append, Nat.add_sub_cancel' lower]
  rfl

theorem OneByteChanged.bytesAt_eq {other : Nat → UInt8} {position : Nat}
    (changed : OneByteChanged content other position) (offset width : Nat)
    (outside : position < offset ∨ offset + width ≤ position) :
    bytesAt content offset width = bytesAt other offset width := by
  apply bytesAt_congr
  intro index below
  apply changed.elsewhere
  omega

theorem OneByteChanged.vbrSum_ne {other : Nat → UInt8} {position : Nat}
    (changed : OneByteChanged content other position) (inside : position < 11 * size)
    (counts : vbrSkipped position = false) : vbrSum content size ≠ vbrSum other size := by
  have same := changed.bytesAt_eq 0 position (by omega)
  have sameToo := changed.bytesAt_eq (position + 1) (0 + 11 * size - (position + 1))
    (by omega)
  rw [vbrSum, vbrSum, bytesAt_split content (Nat.zero_le position) (by omega),
    bytesAt_split other (Nat.zero_le position) (by omega), Nat.sub_zero, ← same, ← sameToo]
  apply tight_addVbrByte.sumSkipping_ne _ changed.different
  rw [length_bytesAt, Nat.zero_add]
  exact counts

theorem vbrWord_lt (content : Nat → UInt8) (size index : Nat) :
    vbrWord content size index < 2 ^ 32 :=
  Nat.lt_of_lt_of_le (number_lt _ _ _) (by decide)

theorem OneByteChanged.vbrWord_ne {other : Nat → UInt8} {position : Nat}
    (changed : OneByteChanged content other position) (lower : 11 * size ≤ position)
    (upper : position < 11 * size + size) :
    vbrWord content size ((position - 11 * size) / 4) ≠
      vbrWord other size ((position - 11 * size) / 4) := by
  have same := changed.bytesAt_eq (11 * size) (position - 11 * size) (by omega)
  have sameToo := changed.bytesAt_eq (position + 1) (11 * size + size - (position + 1))
    (by omega)
  rw [vbrWord, vbrWord, bytesAt_split content lower upper, bytesAt_split other lower upper,
    ← same, ← sameToo]
  apply number_set_ne changed.different
  · rw [length_bytesAt]
    omega
  · rw [length_bytesAt]
    omega

/-- No change of one byte of the boot sectors passes the checksum: a volume that was
accepted is refused after it, but for the three bytes that are skipped. -/
theorem verifyVbrChecksum_oneByteChanged {otherDev : ExfatDev} {other : Nat → UInt8}
    {buffer otherBuffer : List UInt8} {position : Nat} (whole : 4 ∣ size) (large : 0x70 < size)
    (readable : BootReadable dev content size) (room : size ≤ buffer.length)
    (readableToo : BootReadable otherDev other size) (roomToo : size ≤ otherBuffer.length)
    (accepted : verifyVbrChecksum dev buffer size = .ok true)
    (changed : OneByteChanged content other position) (inside : position < 12 * size)
    (counts : vbrSkipped position = false) :
    verifyVbrChecksum otherDev otherBuffer size = .ok false := by
  rw [verifyVbrChecksum_eq readable large room] at accepted
  rw [verifyVbrChecksum_eq readableToo large roomToo]
  have stored := List.all_eq_true.mp (Except.ok.inj accepted)
  refine congrArg Except.ok (Bool.eq_false_iff.mpr fun all => ?_)
  have storedToo := List.all_eq_true.mp all
  by_cases summed : position < 11 * size
  · -- the first word is the same, and it is both sums
    have first := stored 0 (List.mem_range.mpr (by omega))
    have firstToo := storedToo 0 (List.mem_range.mpr (by omega))
    have word : vbrWord content size 0 = vbrWord other size 0 := by
      rw [vbrWord, vbrWord, changed.bytesAt_eq _ _ (Or.inl summed)]
    rw [beq_iff_eq] at first firstToo
    rw [← word, first] at firstToo
    exact changed.vbrSum_ne summed counts firstToo
  · -- the sums are the same, and the word that was changed is both
    have index : (position - 11 * size) / 4 < size / 4 := by omega
    have here := stored _ (List.mem_range.mpr index)
    have hereToo := storedToo _ (List.mem_range.mpr index)
    have sums : vbrSum content size = vbrSum other size := by
      rw [vbrSum, vbrSum, changed.bytesAt_eq _ _ (by omega)]
    rw [beq_iff_eq] at here hereToo
    rw [← sums, ← here] at hereToo
    have numbers := congrArg UInt32.toNat hereToo
    rw [UInt32.toNat_ofNat', UInt32.toNat_ofNat', Nat.mod_eq_of_lt (vbrWord_lt _ _ _),
      Nat.mod_eq_of_lt (vbrWord_lt _ _ _)] at numbers
    exact changed.vbrWord_ne (Nat.le_of_not_lt summed) (by omega) numbers.symm

end Boot

section Mount

variable {sizeT : SizeT} {timezone : Timezone} {dev : ExfatDev} {deviceSize : Nat}
  {memory : List UInt8} {next : UInt32 → UInt32} {ef : ExfatReader} {content : Nat → UInt8}
  {mounted tree : ExfatTree} {held : List Nat}

/-- What a mount that succeeds has checked before it reads the root directory. -/
structure MountChecks (dev : ExfatDev) (deviceSize : Nat) (memory sb : List UInt8)
    (geometry : Geometry) : Prop where
  read : exfatPread dev (List.replicate 512 0) 512 0 = .ok (some sb)
  oem : field sb 3 8 = oemName
  verified : verifyVbrChecksum dev memory (sectorSize (superBlock sb)) = .ok true
  version : sb.getD 0x69 0 = 1 ∧ sb.getD 0x68 0 = 0
  tables : sb.getD 0x6e 0 = 1
  geometry : exfatMountGeometry (superBlock sb) deviceSize = .ok geometry

theorem exfatMount_eq_ok_iff :
    exfatMount sizeT timezone dev deviceSize memory next = .ok (.ok (ef, mounted)) ↔
      ∃ sb geometry, MountChecks dev deviceSize memory sb geometry ∧
        exfatMountRoot ⟨⟨dev, ⟨geometry, fatEntry sizeT dev sb next⟩⟩, sizeT, timezone⟩
          (rootdirStart sb) = .ok (.ok (ef, mounted)) := by
  constructor
  · intro mount
    obtain ⟨read, reading, mount⟩ := bind_eq_ok_iff.mp mount
    cases read with
    | none => cases mount
    | some sb =>
        dsimp only at mount
        by_cases oem : field sb 3 8 ≠ oemName
        · rw [if_pos oem] at mount
          cases mount
        rw [if_neg oem] at mount
        by_cases small : (superBlock sb).sectorBits.toNat < 9
        · rw [if_pos small] at mount
          cases mount
        rw [if_neg small] at mount
        by_cases big : 25 < (superBlock sb).sectorBits.toNat + (superBlock sb).spcBits.toNat
        · rw [if_pos big] at mount
          cases mount
        rw [if_neg big] at mount
        obtain ⟨verified, verifying, mount⟩ := bind_eq_ok_iff.mp mount
        cases verified with
        | false => cases mount
        | true =>
            rw [if_neg (by decide)] at mount
            by_cases version : sb.getD 0x69 0 ≠ 1 ∨ sb.getD 0x68 0 ≠ 0
            · rw [if_pos version] at mount
              cases mount
            rw [if_neg version] at mount
            by_cases tables : sb.getD 0x6e 0 ≠ 1
            · rw [if_pos tables] at mount
              cases mount
            rw [if_neg tables] at mount
            cases checked : exfatMountGeometry (superBlock sb) deviceSize with
            | error rc =>
                rw [checked] at mount
                cases mount
            | ok geometry =>
                rw [checked] at mount
                rw [not_or, not_not, not_not] at version
                exact ⟨sb, geometry, ⟨reading, not_not.mp oem, verifying, version,
                  not_not.mp tables, checked⟩, mount⟩
  · rintro ⟨sb, geometry, checks, root⟩
    have accepted := checks.geometry
    rw [exfatMountGeometry] at accepted
    split_ifs at accepted with small big room
    rw [exfatMount, checks.read, ok_bind]
    dsimp only
    rw [if_neg (not_not.mpr checks.oem), if_neg small, if_neg big, checks.verified, ok_bind,
      if_neg (by decide), if_neg (by rw [not_or, not_not, not_not]; exact checks.version),
      if_neg (not_not.mpr checks.tables), checks.geometry]
    exact root

theorem superBlock_of_exfatMountGeometry {sb : ExfatSuperBlock} {geometry : Geometry}
    (accepted : exfatMountGeometry sb deviceSize = .ok geometry) :
    geometry.toExfatSuperBlock = sb := by
  unfold exfatMountGeometry at accepted
  split_ifs at accepted
  cases accepted
  rfl

/-- The bytes before an offset can be read, and are those of this content. -/
def ReadableTo (dev : ExfatDev) (content : Nat → UInt8) (limit : Nat) : Prop :=
  ∀ size offset, offset + size ≤ limit → dev.pread size offset = some (bytesAt content offset size)

theorem ReadableTo.boot {size : Nat} (readable : ReadableTo dev content (12 * size)) :
    BootReadable dev content size := by
  intro index below
  apply readable
  have whole := Nat.mul_le_mul_right size (Nat.succ_le_of_lt below)
  rw [Nat.succ_mul] at whole
  exact whole

theorem ReadableTo.superBlock {limit : Nat} (readable : ReadableTo dev content limit)
    (room : 512 ≤ limit) :
    exfatPread dev (List.replicate 512 0) 512 0 = .ok (some (bytesAt content 0 512)) := by
  rw [exfatPread, readable 512 0 (by omega)]
  dsimp only
  rw [length_bytesAt, List.length_replicate, if_neg (by decide), List.drop_replicate,
    Nat.sub_self, List.replicate_zero, List.append_nil]

theorem sectorSize_superBlock (sb : List UInt8) :
    sectorSize (superBlock sb) = 1 <<< (sb.getD 0x6c 0).toNat := rfl

/-- A mount refuses a volume whose checksum is wrong, if nothing else is. -/
theorem exfatMount_of_unverified {sb : List UInt8}
    (read : exfatPread dev (List.replicate 512 0) 512 0 = .ok (some sb))
    (unverified : verifyVbrChecksum dev memory (sectorSize (superBlock sb)) = .ok false) :
    exfatMount sizeT timezone dev deviceSize memory next = .ok (.error (-eio)) := by
  rw [exfatMount, read, ok_bind]
  dsimp only
  rw [unverified, ok_bind, if_pos rfl]
  split_ifs <;> rfl

/-- A volume that was mounted is refused after a change of one byte of its boot sectors, but
for the bytes that the checksum skips and the one that gives their size. -/
theorem exfatMount_oneByteChanged {otherSizeT : SizeT} {otherZone : Timezone}
    {otherDev : ExfatDev} {otherSize : Nat} {otherMemory : List UInt8}
    {otherNext : UInt32 → UInt32} {other : Nat → UInt8} {position : Nat}
    (mount : exfatMount sizeT timezone dev deviceSize memory next = .ok (.ok (ef, mounted)))
    (readable : ReadableTo dev content (12 * sectorSize ef.sb))
    (room : sectorSize ef.sb ≤ memory.length)
    (readableToo : ReadableTo otherDev other (12 * sectorSize ef.sb))
    (roomToo : sectorSize ef.sb ≤ otherMemory.length)
    (changed : OneByteChanged content other position) (inside : position < 12 * sectorSize ef.sb)
    (counts : vbrSkipped position = false) (sized : position ≠ 0x6c) :
    exfatMount otherSizeT otherZone otherDev otherSize otherMemory otherNext =
      .ok (.error (-eio)) := by
  obtain ⟨sb, geometry, checks, root⟩ := exfatMount_eq_ok_iff.mp mount
  obtain rfl := reader_of_exfatMountRoot root
  have same := superBlock_of_exfatMountGeometry checks.geometry
  have large := geometry.sectorBits_ge
  have size : sectorSize geometry.toExfatSuperBlock = 2 ^ geometry.sectorBits.toNat :=
    Nat.one_shiftLeft _
  have least := Nat.pow_le_pow_right (by decide : 0 < 2) large
  change ReadableTo dev content (12 * sectorSize geometry.toExfatSuperBlock) at readable
  change ReadableTo otherDev other (12 * sectorSize geometry.toExfatSuperBlock) at readableToo
  change position < 12 * sectorSize geometry.toExfatSuperBlock at inside
  have first := readable.superBlock (by omega)
  have sector : bytesAt content 0 512 = sb :=
    Option.some.inj (Except.ok.inj (first.symm.trans checks.read))
  subst sector
  have sizeKept : sectorSize (superBlock (bytesAt other 0 512)) =
      sectorSize geometry.toExfatSuperBlock := by
    have bits : (bytesAt other 0 512).getD 0x6c 0 = (bytesAt content 0 512).getD 0x6c 0 := by
      rw [getD_bytesAt (by decide), getD_bytesAt (by decide), Nat.zero_add,
        changed.elsewhere _ (Ne.symm sized)]
    rw [same, sectorSize_superBlock, sectorSize_superBlock, bits]
  apply exfatMount_of_unverified (readableToo.superBlock (by omega))
  rw [sizeKept]
  have accepted := checks.verified
  rw [← same] at accepted
  have whole : 4 ∣ sectorSize geometry.toExfatSuperBlock :=
    (by decide : 4 ∣ 512).trans (dvd_sectorSize geometry)
  exact verifyVbrChecksum_oneByteChanged whole (by omega) readable.boot room readableToo.boot
    roomToo accepted changed inside counts

end Mount

section Small

/-- The fields of the super block of a volume of four clusters. -/
def smallBoot (offset : Nat) : UInt8 :=
  if offset < 11 then ([0xeb, 0x76, 0x90] ++ oemName).getD offset 0
  else if offset < 0x50 then 0
  else [12, 0, 0, 0, 1, 0, 0, 0, 13, 0, 0, 0, 4, 0, 0, 0, 2, 0, 0, 0, 0, 0, 0, 0, 0, 1, 0, 0, 9,
    0, 1].getD (offset - 0x50) 0

/-- A root directory with a map of clusters, a table of upper case and one file. -/
def smallRoot : List UInt8 :=
  [0x81] ++ List.replicate 19 0 ++ [3, 0, 0, 0, 1] ++ List.replicate 7 0 ++
    [0x82] ++ List.replicate 19 0 ++ [4, 0, 0, 0, 2] ++ List.replicate 7 0 ++
    smallSet.flatMap ExfatEntry.bytes

def smallVolume (offset : Nat) : UInt8 :=
  if offset < 112 then smallBoot offset
  else if offset < 11 * 512 then 0
  else if offset < 12 * 512 then [20, 76, 214, 209].getD (offset % 4) 0
  else if offset < 13 * 512 then
    [0, 0, 0, 0, 0, 0, 0, 0, 0xff, 0xff, 0xff, 0xff].getD (offset - 12 * 512) 0
  else smallRoot.getD (offset - 13 * 512) 0

def smallGeometry : Geometry := ⟨⟨13, 4, 9, 0⟩, by decide, by decide⟩

theorem bootReadable_wholeDevice (content : Nat → UInt8) (size : Nat) :
    BootReadable (wholeDevice content) content size := fun _ _ => rfl

theorem verifyVbrChecksum_smallVolume :
    verifyVbrChecksum (wholeDevice smallVolume) (List.replicate 512 0) 512 = .ok true := by
  have sum : vbrSum smallVolume 512 = 0xd1d64c14 := by decide +kernel
  rw [verifyVbrChecksum_eq (bootReadable_wholeDevice _ _) (by decide)
    (by rw [List.length_replicate]), sum]
  decide +kernel

theorem mountChecks_smallVolume :
    MountChecks (wholeDevice smallVolume) 8704 (List.replicate 512 0)
      (bytesAt smallVolume 0 512) smallGeometry where
  read := by
    rw [exfatPread, wholeDevice]
    dsimp only
    rw [length_bytesAt, List.length_replicate, if_neg (by decide), List.drop_replicate,
      Nat.sub_self, List.replicate_zero, List.append_nil]
  oem := by decide +kernel
  verified := by
    have size : sectorSize (superBlock (bytesAt smallVolume 0 512)) = 512 := by decide +kernel
    rw [size]
    exact verifyVbrChecksum_smallVolume
  version := by decide +kernel
  tables := by decide +kernel
  geometry := by
    have same : superBlock (bytesAt smallVolume 0 512) = smallGeometry.toExfatSuperBlock := by
      decide +kernel
    rw [same]
    exact exfatMountGeometry_eq_ok smallGeometry (by decide)

def smallReader : ExfatReader :=
  ⟨⟨wholeDevice smallVolume, ⟨smallGeometry, fatEntry .bits64 (wholeDevice smallVolume)
    (bytesAt smallVolume 0 512) id⟩⟩, .bits64, greenwich⟩

def mountedTree : Run (Except Int (ExfatReader × ExfatTree)) → ExfatTree
  | .ok (.ok (_, tree)) => tree
  | _ => ⟨[], emptyTables⟩

theorem eq_mountedTree {run : Run (Except Int (ExfatReader × ExfatTree))}
    (mounts : run.toOption.any Except.isOk = true) :
    ∃ reader, run = .ok (.ok (reader, mountedTree run)) := by
  match run, mounts with
  | .ok (.ok (reader, _)), _ => exact ⟨reader, rfl⟩

@[irreducible] def smallTree : ExfatTree := mountedTree (exfatMountRoot smallReader 2)

theorem exfatMountRoot_smallReader :
    exfatMountRoot smallReader 2 = .ok (.ok (smallReader, smallTree)) := by
  obtain ⟨reader, root⟩ := @eq_mountedTree (exfatMountRoot smallReader 2) (by decide +kernel)
  have same := reader_of_exfatMountRoot root
  unfold smallTree
  generalize mountedTree (exfatMountRoot smallReader 2) = tree at root
  rw [root, same]

theorem exfatMount_smallVolume :
    exfatMount .bits64 greenwich (wholeDevice smallVolume) 8704 (List.replicate 512 0) id =
      .ok (.ok (smallReader, smallTree)) := by
  have start : rootdirStart (bytesAt smallVolume 0 512) = 2 := by decide +kernel
  have root := exfatMountRoot_smallReader
  rw [← start, smallReader] at root
  exact exfatMount_eq_ok_iff.mpr ⟨_, _, mountChecks_smallVolume, root⟩

theorem readableTo_wholeDevice (content : Nat → UInt8) (limit : Nat) :
    ReadableTo (wholeDevice content) content limit := fun _ _ _ => rfl

/-- A bit of the first instruction. -/
def changedVolume (offset : Nat) : UInt8 := if offset = 0 then 0xea else smallVolume offset

theorem exfatMount_changedVolume :
    exfatMount .bits32 greenwich (wholeDevice changedVolume) 8704 (List.replicate 512 7) id =
      .ok (.error (-eio)) := by
  have mount := exfatMount_smallVolume
  have room : sectorSize smallReader.sb ≤ 512 := by decide
  exact exfatMount_oneByteChanged mount (readableTo_wholeDevice smallVolume _)
    (by rw [List.length_replicate]; exact room) (readableTo_wholeDevice changedVolume _)
    (by rw [List.length_replicate]; exact room)
    (⟨by decide, fun index other => (if_neg other).symm⟩ : OneByteChanged _ _ 0) (by decide)
    (by decide) (by decide)

end Small

end Vtoydump.Exfat
