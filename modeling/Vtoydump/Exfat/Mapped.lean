import Vtoydump.Exfat.Pread
import Vtoydump.Exfat.Coverage

/-!
# Reading through the table

The table that `exfat_get_image_location` builds, used as a map from the bytes
of the image to those of the device, gives the bytes that
`exfat_generic_pread` gives: two ways to read one file.
-/

namespace Vtoydump.Exfat

open CRun Layout Blocks

instance (region : VentoyImageDiskRegion) (sector : Nat) : Decidable (Covers region sector) :=
  inferInstanceAs (Decidable (_ ∧ _))

def diskSector (region : VentoyImageDiskRegion) (sector : Nat) : Nat :=
  region.diskStartSector.toNat + 4 * (sector - region.imageStartSector.toNat)

/-- Where a table has a byte of the image. -/
def tableOffset (regions : List VentoyImageDiskRegion) (position : Nat) : Option Nat :=
  (regions.find? fun region => decide (Covers region (position / 2048))).map fun region =>
    512 * diskSector region (position / 2048) + position % 2048

def readTable (content : Nat → UInt8) (regions : List VentoyImageDiskRegion)
    (offset count : Nat) : Option (List UInt8) :=
  (List.range count).mapM fun index => (tableOffset regions (offset + index)).map content

theorem mapM_of_forall {Index Value : Type} {answer : Index → Option Value}
    {value : Index → Value} {indices : List Index}
    (all : ∀ index ∈ indices, answer index = some (value index)) :
    indices.mapM answer = some (indices.map value) := by
  induction indices with
  | nil => rfl
  | cons index indices inductionHypothesis =>
      obtain ⟨here, others⟩ := List.forall_mem_cons.mp all
      rw [List.mapM_cons, here, inductionHypothesis others]
      rfl

section Table

variable {volume : Volume} {node : ExfatNode} {regions : List VentoyImageDiskRegion}

theorem sector_in_cluster {size position : Nat} (aligned : 2048 ∣ size) (positive : 0 < size) :
    position / 2048 * 2048 / size = position / size ∧
      position / 2048 * 2048 % size + position % 2048 = position % size ∧
      512 ∣ position / 2048 * 2048 % size := by
  obtain ⟨factor, rfl⟩ := aligned
  have some : 0 < factor := Nat.pos_of_mul_pos_left positive
  have block : position / 2048 * 2048 / (2048 * factor) = position / (2048 * factor) := by
    rw [← Nat.div_div_eq_div_mul, Nat.mul_div_cancel _ (by decide), Nat.div_div_eq_div_mul]
  have inner : position / 2048 * 2048 % (2048 * factor) = 2048 * (position / 2048 % factor) := by
    rw [Nat.mul_comm _ 2048, Nat.mul_mod_mul_left]
  refine ⟨block, ?_, ?_⟩
  · rw [inner, Nat.mod_mul]
    omega
  · rw [inner]
    exact ((by decide : 512 ∣ 2048)).mul_right _

/-- A table that translates the image leads to the byte of the chain. -/
theorem tableOffset_of_translatesImage (translates : TranslatesImage volume node regions)
    (aligned : 2048 ∣ clusterSize volume.sb.toExfatSuperBlock)
    (whole : 2048 ∣ node.size.toNat) {position : Nat} (inside : position < node.size.toNat) :
    tableOffset regions position = some (clusterOffset volume.sb.toExfatSuperBlock
      (clusterAt volume node (position / clusterSize volume.sb.toExfatSuperBlock)) +
        position % clusterSize volume.sb.toExfatSuperBlock) := by
  have sector : position / 2048 < node.size.toNat / 2048 := by omega
  obtain ⟨⟨index, ⟨region, found, covers⟩, -⟩, leads⟩ := translates _ sector
  cases search : regions.find? fun region => decide (Covers region (position / 2048)) with
  | none =>
      have absent := List.find?_eq_none.mp search region (List.mem_of_getElem? found)
      exact absurd (decide_eq_true covers) absent
  | some first =>
      have membership := List.mem_of_find?_eq_some search
      have holds : Covers first (position / 2048) := by
        simpa using List.find?_some search
      obtain ⟨block, inner, multiple⟩ := @sector_in_cluster
        (clusterSize volume.sb.toExfatSuperBlock) position aligned (clusterSize_pos _)
      have place := leads first membership holds
      rw [chainSector, block] at place
      have start := dvd_clusterOffset volume.sb
        (clusterAt volume node (position / clusterSize volume.sb.toExfatSuperBlock))
      rw [tableOffset, search, Option.map_some, diskSector, place,
        Nat.mul_div_cancel' (Nat.dvd_add start multiple), Nat.add_assoc, inner]

theorem readTable_of_translatesImage {ef : ExfatFs} (content : Nat → UInt8)
    (translates : TranslatesImage ef.volume node regions)
    (aligned : 2048 ∣ ef.clusterSize) (whole : 2048 ∣ node.size.toNat) {offset count : Nat}
    (inside : offset + count ≤ node.size.toNat) :
    readTable content regions offset count =
      some (bytesAt (fileContent ef content node) offset count) := by
  apply mapM_of_forall
  intro index membership
  have below := List.mem_range.mp membership
  rw [tableOffset_of_translatesImage translates aligned whole (by omega)]
  rfl

end Table

/-- A call that returns success has met no invalid cluster. -/
theorem validChain_of_returned {sizeT : SizeT} {volume : Volume} {node : ExfatNode}
    (nonempty : 0 < node.size.toNat)
    (sized : node.size.toNat ≤
      volume.sb.clusterCount.toNat * clusterSize volume.sb.toExfatSuperBlock)
    {globals : Globals}
    (returned : exfatGetImageLocation (.allocating sizeT) volume node .fresh = .ok (0, globals)) :
    ValidChain volume node := by
  by_cases fits : regionsNeeded sizeT volume node ≤ maxRegions sizeT
  · obtain ⟨final, -, -, call⟩ := exfatGetImageLocation_allocating sizeT nonempty sized fits
    rw [call, Except.ok.injEq, Prod.mk.injEq] at returned
    by_contra broken
    rw [if_neg broken] at returned
    exact absurd returned.1 (by decide)
  · obtain ⟨fault, overflow⟩ := exfatGetImageLocation_allocating_overflow sizeT nonempty sized
      (Nat.lt_of_not_le fits)
    rw [overflow] at returned
    cases returned

section Image

variable {ef : ExfatFs} {content : Nat → UInt8} {node before : ExfatNode}

theorem intactTo_of_validChain (chain : ValidChain ef.volume node) {length : Nat}
    (within : length ≤ node.size.toNat) :
    IntactTo ef.volume node (clustersFor ef length) := by
  intro index below
  rw [lt_clustersFor_iff] at below
  have needed : index < fileClusters ef.volume node := by
    rw [lt_fileClusters_iff]
    exact Nat.lt_of_lt_of_le below within
  have valid := chain index needed
  rw [validAt, Bool.not_eq_true'] at valid
  exact valid

/-- For an image whose table is built, reading through the table and reading through the
clusters give the same bytes, for every range and after any earlier reads. -/
theorem exfatGenericPread_eq_readTable {globals : Globals} {block : TableBlock}
    {buffer : List UInt8} {size offset : Nat} (inside : offset < node.size.toNat)
    (heap : node.size.toNat ≤ ef.sb.clusterCount.toNat * ef.clusterSize)
    (short : node.size.toNat < 8796093022208)
    (aligned : 2048 ∣ ef.clusterSize) (whole : 2048 ∣ node.size.toNat)
    (built : exfatGetImageLocation (.allocating .bits64) ef.volume node .fresh = .ok (0, globals))
    (obtained : globals.gImageLocation = some block)
    (fresh : node.fptrIndex = 0) (requested : Requested ef.volume node before)
    (readable : ClustersReadable ef content) (room : size ≤ buffer.length) :
    ∃ bytes after,
      readTable content block.location.regions offset (min size (node.size.toNat - offset)) =
        some bytes ∧
      exfatGenericPread ef before buffer size offset =
        .ok (bytes.length, bytes ++ buffer.drop bytes.length, after) := by
  have nonempty : 0 < node.size.toNat := by omega
  have chain := validChain_of_returned nonempty heap built
  have translates : TranslatesImage ef.volume node block.location.regions := by
    rw [regions_of_returned nonempty heap built obtained, fileRegions_exact chain short]
    · exact translatesImage_exactRegions chain aligned whole short
    · exact fun run membership => dvd_size_of_mem_dropLast chain aligned membership
  have through := @readTable_of_translatesImage node block.location.regions ef content
    translates aligned whole offset (min size (node.size.toNat - offset)) (by omega)
  have within : offset + wantedBytes node size offset ≤ node.size.toNat := by
    unfold wantedBytes
    omega
  obtain ⟨after, done⟩ := exfatGenericPread_of_intact fresh requested heap readable room
    (intactTo_of_validChain chain within)
  refine ⟨_, after, through, ?_⟩
  rw [done, length_bytesAt, wantedBytes]

end Image

/-- A read across the first two clusters of a file whose clusters are not in order. -/
theorem exfatGenericPread_eq_readTable_shuttle :
    ∃ (globals : Globals) (block : TableBlock),
      exfatGetImageLocation (.allocating .bits64) shuttleVolume (shuttleFile 3) .fresh =
        .ok (0, globals) ∧
      globals.gImageLocation = some block ∧
      ∃ bytes after,
        readTable UInt8.ofNat block.location.regions 2000
          (min 100 ((shuttleFile 3).size.toNat - 2000)) = some bytes ∧
        exfatGenericPread ⟨wholeDevice UInt8.ofNat, shuttleVolume⟩ (shuttleFile 3)
          (List.replicate 100 0) 100 2000 =
          .ok (bytes.length, bytes ++ (List.replicate 100 0).drop bytes.length, after) := by
  obtain ⟨final, -, -, call⟩ := @exfatGetImageLocation_allocating .bits64 shuttleVolume
    (shuttleFile 3) (by decide) (by decide) (by decide)
  rw [if_pos validChain_shuttleFile] at call
  refine ⟨final.globals, _, call, rfl, ?_⟩
  exact @exfatGenericPread_eq_readTable ⟨wholeDevice UInt8.ofNat, shuttleVolume⟩ UInt8.ofNat
    (shuttleFile 3) (shuttleFile 3) final.globals _ _ _ _
    (by decide) (by decide) (by decide) (by decide) (by decide) call rfl rfl .fresh
    (clustersReadable_wholeDevice _ _) (by decide)

end Vtoydump.Exfat
