import Vtoydump.Exfat.ExactTable

/-!
# The table translates the image

A walk that is complete answers, for every sector of the image, with the disk
sector at which the cluster chain holds it.  The one thing that can go wrong
with every allocation succeeding is the growth of the table itself: more
regions than `maxRegions` overflow the computation of its capacity.
-/

namespace Vtoydump.Exfat

open CRun Layout

section ExactRuns

variable {volume : Volume} {node : ExfatNode}

theorem exact_fileRuns {sizeT : SizeT}
    (sized : ∀ run ∈ fileRuns volume node, run.size < sizeT.modulus)
    (inner : ∀ run ∈ (fileRuns volume node).dropLast,
      2048 ∣ run.size ∧ run.size < 8796093022208) :
    Exact sizeT (fileRuns volume node) where
  apart := isChain_fileRuns
  offset _ membership := ⟨dvd_fileRuns_offset membership, fileRuns_offset_lt membership⟩
  size run membership := ⟨fileRuns_size_pos membership, sized run membership⟩
  inner := inner

theorem fileRuns_size_le (chain : ValidChain volume node) {run : Extent}
    (membership : run ∈ fileRuns volume node) : run.size ≤ node.size.toNat := by
  rw [← total_fileRuns chain]
  exact size_le_total membership

theorem dvd_size_of_mem_dropLast (chain : ValidChain volume node)
    (aligned : 2048 ∣ clusterSize volume.sb.toExfatSuperBlock) {run : Extent}
    (membership : run ∈ (fileRuns volume node).dropLast) : 2048 ∣ run.size :=
  aligned.trans (clusterSize_dvd_of_mem_dropLast chain membership)

/-- In the 64-bit build a file below 8 TiB has an exact table, if only its last run
may have a rest. -/
theorem fileRegions_exact (chain : ValidChain volume node)
    (short : node.size.toNat < 8796093022208)
    (inner : ∀ run ∈ (fileRuns volume node).dropLast, 2048 ∣ run.size) :
    fileRegions .bits64 volume node = exactRegions 0 (fileRuns volume node) := by
  have small : ∀ run ∈ fileRuns volume node, run.size < 8796093022208 :=
    fun run membership => (fileRuns_size_le chain membership).trans_lt short
  rw [fileRegions, handedOver_of_valid chain]
  apply putAll_nil_exact
  apply exact_fileRuns
  · intro run membership
    exact (small run membership).trans (by decide)
  · intro run membership
    exact ⟨inner run membership, small run (List.dropLast_subset _ membership)⟩

end ExactRuns

def Covers (region : VentoyImageDiskRegion) (sector : Nat) : Prop :=
  region.imageStartSector.toNat ≤ sector ∧
    sector < region.imageStartSector.toNat + region.imageSectorCount.toNat

def chainSector (volume : Volume) (node : ExfatNode) (sector : Nat) : Nat :=
  (clusterOffset volume.sb.toExfatSuperBlock
      (clusterAt volume node (sector * 2048 / clusterSize volume.sb.toExfatSuperBlock)) +
    sector * 2048 % clusterSize volume.sb.toExfatSuperBlock) / 512

/-- Every sector of the image is in exactly one region, which leads to the
chain's disk sector. -/
def TranslatesImage (volume : Volume) (node : ExfatNode)
    (regions : List VentoyImageDiskRegion) : Prop :=
  ∀ sector < node.size.toNat / 2048,
    (∃! index : Nat, ∃ region, regions[index]? = some region ∧ Covers region sector) ∧
      ∀ region ∈ regions, Covers region sector →
        region.diskStartSector.toNat + 4 * (sector - region.imageStartSector.toNat) =
          chainSector volume node sector

theorem holds_regionSegment_iff {region : VentoyImageDiskRegion} {sector : Nat} :
    (regionSegment region).Holds (4 * sector) ↔ Covers region sector := by
  simp only [Segment.Holds, regionSegment, Covers]
  omega

section Image

variable {volume : Volume} {node : ExfatNode}

/-- A region list that is a layout in disk sectors translates like the layout. -/
theorem existsUnique_covers {regions : List VentoyImageDiskRegion} {runs : List Extent}
    (placed : regions.map regionSegment = place 0 runs) {sector : Nat}
    (inside : 4 * sector < total runs) :
    ∃! index : Nat, ∃ region, regions[index]? = some region ∧ Covers region sector := by
  have unique := existsUnique_holds (Nat.zero_le (4 * sector))
    (inside.trans_eq (Nat.zero_add _).symm)
  simp only [← placed, List.getElem?_map, Option.map_eq_some_iff] at unique
  obtain ⟨index, ⟨segment, ⟨region, found, rfl⟩, holds⟩, only⟩ := unique
  refine ⟨index, ⟨region, found, holds_regionSegment_iff.mp holds⟩, ?_⟩
  rintro other ⟨covering, foundOther, covers⟩
  exact only other ⟨_, ⟨covering, foundOther, rfl⟩, holds_regionSegment_iff.mpr covers⟩

theorem locate_of_covers {regions : List VentoyImageDiskRegion} {runs : List Extent}
    (placed : regions.map regionSegment = place 0 runs) {region : VentoyImageDiskRegion}
    (membership : region ∈ regions) {sector : Nat} (covers : Covers region sector) :
    locate runs (4 * sector) =
      some (region.diskStartSector.toNat + 4 * (sector - region.imageStartSector.toNat)) := by
  obtain ⟨index, found⟩ := List.getElem?_of_mem membership
  have segment : (place 0 runs)[index]? = some (regionSegment region) := by
    rw [← placed, List.getElem?_map, found]
    rfl
  have place := locate_of_holds segment (holds_regionSegment_iff.mpr covers)
  rw [Nat.sub_zero] at place
  rw [place, Nat.mul_sub]
  rfl

theorem dvd_fileRuns_size (chain : ValidChain volume node)
    (aligned : 2048 ∣ clusterSize volume.sb.toExfatSuperBlock)
    (whole : 2048 ∣ node.size.toNat) {run : Extent} (membership : run ∈ fileRuns volume node) :
    2048 ∣ run.size := by
  apply dvd_size_of_dvd_total _ _ run membership
  · intro inner inside
    exact dvd_size_of_mem_dropLast chain aligned inside
  · rw [total_fileRuns chain]
    exact whole

theorem translatesImage_exactRegions (chain : ValidChain volume node)
    (aligned : 2048 ∣ clusterSize volume.sb.toExfatSuperBlock)
    (whole : 2048 ∣ node.size.toNat) (short : node.size.toNat < 8796093022208) :
    TranslatesImage volume node (exactRegions 0 (fileRuns volume node)) := by
  have sectors : ∀ run ∈ fileRuns volume node, 2048 ∣ run.size :=
    fun run membership => dvd_fileRuns_size chain aligned whole membership
  have disk : ∀ run ∈ fileRuns volume node, run.Aligned 512 := fun run membership =>
    ⟨dvd_fileRuns_offset membership, (by decide : 512 ∣ 2048).trans (sectors run membership)⟩
  have placed : (exactRegions 0 (fileRuns volume node)).map regionSegment =
      place 0 ((fileRuns volume node).map (Extent.scale 512)) := by
    apply map_regionSegment_exactRegions
    · exact fun run membership => fileRuns_offset_lt membership
    · exact sectors
    · rw [total_fileRuns chain]
      omega
  have size : total ((fileRuns volume node).map (Extent.scale 512)) = node.size.toNat / 512 := by
    rw [total_map_scale fun run membership => (disk run membership).2, total_fileRuns chain]
  intro sector inside
  constructor
  · apply existsUnique_covers placed
    rw [size]
    omega
  · intro region membership covers
    have translated := locate_of_covers placed membership covers
    rw [locate_map_scale (by decide) disk, locate_file chain (by omega), Option.map_some,
      Option.some.injEq, show 4 * sector * 512 = sector * 2048 by omega] at translated
    exact translated.symm

end Image

/-- What the first call owes a file: a result, `-EIO` exactly for a broken chain,
and otherwise the exact table wherever image sectors are whole. -/
def TranslatesExactly (sizeT : SizeT) (volume : Volume) (node : ExfatNode) : Prop :=
  ∃ rc globals,
    exfatGetImageLocation (.allocating sizeT) volume node .fresh = .ok (rc, globals) ∧
    (rc = -eio ↔ ∃ index < fileClusters volume node,
      clusterInvalid volume.sb.toExfatSuperBlock (clusterAt volume node index) = true) ∧
    (rc ≠ -eio → rc = 0 ∧
      (sizeT = .bits64 → 2048 ∣ clusterSize volume.sb.toExfatSuperBlock →
        2048 ∣ node.size.toNat → node.size.toNat < 8796093022208 →
        ∃ block, globals.gImageLocation = some block ∧
          TranslatesImage volume node block.location.regions))

theorem not_validChain_iff {volume : Volume} {node : ExfatNode} :
    ¬ ValidChain volume node ↔ ∃ index < fileClusters volume node,
      clusterInvalid volume.sb.toExfatSuperBlock (clusterAt volume node index) = true := by
  simp [ValidChain, validAt]

/-- The walk translates the chain exactly if and only if its regions fit into the
largest capacity of the table. -/
theorem translatesExactly_iff (sizeT : SizeT) (volume : Volume) (node : ExfatNode)
    (nonempty : 0 < node.size.toNat)
    (sized : node.size.toNat ≤
      volume.sb.clusterCount.toNat * clusterSize volume.sb.toExfatSuperBlock) :
    TranslatesExactly sizeT volume node ↔ regionsNeeded sizeT volume node ≤ maxRegions sizeT := by
  constructor
  · rintro ⟨rc, globals, call, -⟩
    by_contra exceeds
    obtain ⟨fault, overflow⟩ := exfatGetImageLocation_allocating_overflow sizeT nonempty sized
      (Nat.lt_of_not_le exceeds)
    rw [overflow] at call
    cases call
  · intro fits
    obtain ⟨final, -, regions, call⟩ := exfatGetImageLocation_allocating sizeT nonempty sized fits
    refine ⟨_, _, call, ?_, ?_⟩
    · rw [← not_validChain_iff]
      by_cases chain : ValidChain volume node <;> simp [chain, eio]
    · intro complete
      by_cases chain : ValidChain volume node
      · refine ⟨if_pos chain, ?_⟩
        rintro rfl aligned whole short
        refine ⟨_, rfl, ?_⟩
        have inner : ∀ run ∈ (fileRuns volume node).dropLast, 2048 ∣ run.size :=
          fun run membership => dvd_size_of_mem_dropLast chain aligned membership
        rw [Table.location, regions, fileRegions_exact chain short inner]
        exact translatesImage_exactRegions chain aligned whole short
      · exact absurd (if_neg chain) complete

/-- A volume whose FAT leads from cluster 2 to cluster 4 and back. -/
def shuttleVolume : Volume where
  sb := ⟨⟨128, 2147483648, 9, 2⟩, by decide, by decide⟩
  fat cluster := if cluster = 2 then some 4 else some 2

def shuttleFile (clusters : Nat) : ExfatNode :=
  initNodeMeta2 (UInt64.ofNat (2048 * clusters)) 2 false

section Shuttle

variable {clusters : Nat}

theorem size_shuttleFile (few : clusters < 4294967296) :
    (shuttleFile clusters).size.toNat = 2048 * clusters := by
  rw [shuttleFile, initNodeMeta2, UInt64.toNat_ofNat', Nat.mod_eq_of_lt]
  omega

theorem fileClusters_shuttleFile (few : clusters < 4294967296) :
    fileClusters shuttleVolume (shuttleFile clusters) = clusters := by
  have size : clusterSize shuttleVolume.sb.toExfatSuperBlock = 2048 := rfl
  rw [fileClusters, size_shuttleFile few, size]
  omega

theorem clusterAt_shuttleFile (index : Nat) :
    let cluster := clusterAt shuttleVolume (shuttleFile clusters)
    cluster index = 2 ∧ cluster (index + 1) = 4 ∨ cluster index = 4 ∧ cluster (index + 1) = 2 := by
  induction index with
  | zero => exact .inl ⟨rfl, rfl⟩
  | succ index inductionHypothesis =>
      rcases inductionHypothesis with ⟨-, four⟩ | ⟨-, two⟩
      · refine .inr ⟨four, ?_⟩
        rw [clusterAt, four]
        rfl
      · refine .inl ⟨two, ?_⟩
        rw [clusterAt, two]
        rfl

theorem validChain_shuttleFile : ValidChain shuttleVolume (shuttleFile clusters) := by
  intro index _
  rcases @clusterAt_shuttleFile clusters index with ⟨two, -⟩ | ⟨four, -⟩
  · rw [validAt, two]
    rfl
  · rw [validAt, four]
    rfl

theorem fileRuns_shuttleFile :
    fileRuns shuttleVolume (shuttleFile clusters) =
      walkedClusters shuttleVolume (shuttleFile clusters) := by
  apply fileRuns_of_scattered validChain_shuttleFile
  intro index inner meets
  have whole := clusterExtent_size_eq (Nat.add_lt_of_lt_sub inner)
  rw [Extent.Meets, Extent.stop, whole] at meets
  rcases @clusterAt_shuttleFile clusters index with ⟨here, next⟩ | ⟨here, next⟩
  · rw [clusterExtent, clusterExtent, here, next] at meets
    cases meets
  · rw [clusterExtent, clusterExtent, here, next] at meets
    cases meets

theorem regionsNeeded_shuttleFile (few : clusters < 4294967296) :
    regionsNeeded .bits64 shuttleVolume (shuttleFile clusters) = clusters := by
  have short : (shuttleFile clusters).size.toNat < 8796093022208 := by
    rw [size_shuttleFile few]
    omega
  have inner : ∀ run ∈ (fileRuns shuttleVolume (shuttleFile clusters)).dropLast,
      2048 ∣ run.size :=
    fun run membership =>
      dvd_size_of_mem_dropLast validChain_shuttleFile (Nat.dvd_refl 2048) membership
  rw [regionsNeeded, fileRegions_exact validChain_shuttleFile short inner, length_exactRegions,
    fileRuns_shuttleFile, walkedClusters_of_valid validChain_shuttleFile, List.length_map,
    List.length_range, fileClusters_shuttleFile few]

end Shuttle

theorem translatesExactly_iff_shuttle :
    TranslatesExactly .bits64 shuttleVolume (shuttleFile 3) ↔
      regionsNeeded .bits64 shuttleVolume (shuttleFile 3) ≤ maxRegions .bits64 :=
  translatesExactly_iff .bits64 shuttleVolume (shuttleFile 3) (by decide) (by decide)

/-- A file of more fragments than the largest capacity is not translated. -/
theorem not_translatesExactly_shuttle :
    ∃ volume node, 0 < node.size.toNat ∧
      node.size.toNat ≤
        volume.sb.clusterCount.toNat * clusterSize volume.sb.toExfatSuperBlock ∧
      ¬ TranslatesExactly .bits64 volume node := by
  refine ⟨shuttleVolume, shuttleFile 1073741825, by decide, by decide, ?_⟩
  rintro ⟨rc, globals, call, -⟩
  have exceeds : maxRegions .bits64 <
      regionsNeeded .bits64 shuttleVolume (shuttleFile 1073741825) := by
    rw [regionsNeeded_shuttleFile (by decide)]
    decide
  obtain ⟨fault, overflow⟩ := exfatGetImageLocation_allocating_overflow .bits64
    (by decide) (by decide) exceeds
  rw [overflow] at call
  cases call

end Vtoydump.Exfat
