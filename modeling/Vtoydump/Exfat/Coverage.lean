import Vtoydump.Exfat.Translation

/-!
# Coverage of the file

Sizes are divided by 2048 each time an extent reaches the table, so a run that
is not a whole number of image sectors loses its rest.  Nothing makes up for
such a loss: the table covers the file exactly when no run has a rest.
-/

namespace Vtoydump.Exfat

open CRun Layout

def diskExtent (region : VentoyImageDiskRegion) : Extent :=
  ⟨region.diskStartSector.toNat * 512, region.imageSectorCount.toNat * 4 * 512⟩

/-- The table holds as many bytes as the file, and each cluster's part of the file
lies in one of its regions. -/
def CoversFile (volume : Volume) (node : ExfatNode)
    (regions : List VentoyImageDiskRegion) : Prop :=
  node.size.toNat ≤ imageBytes regions ∧
    ∀ index < fileClusters volume node,
      ∃ region ∈ regions, (clusterExtent volume node index).Within (diskExtent region)

section Loss

@[simp] theorem imageBytes_nil : imageBytes [] = 0 := rfl

@[simp] theorem imageBytes_append (first second : List VentoyImageDiskRegion) :
    imageBytes (first ++ second) = imageBytes first + imageBytes second := by
  simp [imageBytes]

@[simp] theorem imageBytes_singleton (region : VentoyImageDiskRegion) :
    imageBytes [region] = region.imageSectorCount.toNat * 2048 := by
  simp [imageBytes]

theorem imageBytes_putExtent_le (regions : List VentoyImageDiskRegion) (size offset : Nat) :
    imageBytes (putExtent regions size offset) ≤ imageBytes regions + size / 2048 * 2048 := by
  have fresh : (UInt32.ofNat (size / 2048)).toNat ≤ size / 2048 := by
    rw [UInt32.toNat_ofNat']
    exact Nat.mod_le _ _
  unfold putExtent
  split_ifs with empty
  · exact Nat.le_add_right _ _
  · cases found : regions.getLast? with
    | none =>
        rw [imageBytes_singleton]
        exact (Nat.mul_le_mul_right _ fresh).trans (Nat.le_add_left _ _)
    | some last =>
        simp only
        split_ifs with continues
        · have split := List.dropLast_append_getLast? last found
          have longer : (last.imageSectorCount + UInt32.ofNat (size / 2048)).toNat ≤
              last.imageSectorCount.toNat + size / 2048 := by
            rw [UInt32.toNat_add]
            exact (Nat.mod_le _ _).trans (Nat.add_le_add_left fresh _)
          rw [← split, imageBytes_append, imageBytes_append, imageBytes_singleton,
            imageBytes_singleton, List.dropLast_concat, Nat.add_assoc, ← Nat.add_mul]
          exact Nat.add_le_add_left (Nat.mul_le_mul_right _ longer) _
        · rw [imageBytes_append, imageBytes_singleton]
          exact Nat.add_le_add_left (Nat.mul_le_mul_right _ fresh) _

theorem imageBytes_putAll_le (sizeT : SizeT) (regions : List VentoyImageDiskRegion)
    (runs : List Extent) :
    imageBytes (putAll sizeT regions runs) ≤
      imageBytes regions + (runs.map fun run => run.size / 2048 * 2048).sum := by
  induction runs generalizing regions with
  | nil => exact Nat.le_add_right _ _
  | cons run runs inductionHypothesis =>
      have rest := inductionHypothesis (putExtent regions (sizeT.trunc run.size) run.offset)
      have here := imageBytes_putExtent_le regions (sizeT.trunc run.size) run.offset
      have cut : sizeT.trunc run.size / 2048 * 2048 ≤ run.size / 2048 * 2048 :=
        Nat.mul_le_mul_right _ (Nat.div_le_div_right (sizeT.trunc_le _))
      rw [List.map_cons, List.sum_cons, ← Nat.add_assoc]
      exact rest.trans (Nat.add_le_add_right (here.trans (Nat.add_le_add_left cut _)) _)

theorem sum_wholeSectors_lt_total {runs : List Extent} {run : Extent}
    (membership : run ∈ runs) (rest : ¬ 2048 ∣ run.size) :
    (runs.map fun run => run.size / 2048 * 2048).sum < total runs := by
  apply List.sum_lt_sum
  · intro other _
    exact Nat.div_mul_le_self _ _
  · refine ⟨run, membership, ?_⟩
    apply Nat.lt_of_le_of_ne (Nat.div_mul_le_self _ _)
    intro whole
    exact rest ⟨run.size / 2048, by rw [Nat.mul_comm, whole]⟩

theorem not_coversFile_fileRegions {sizeT : SizeT} {volume : Volume} {node : ExfatNode}
    (chain : ValidChain volume node) {run : Extent} (membership : run ∈ fileRuns volume node)
    (rest : ¬ 2048 ∣ run.size) : ¬ CoversFile volume node (fileRegions sizeT volume node) := by
  rintro ⟨enough, -⟩
  have counted := imageBytes_putAll_le sizeT [] (fileRuns volume node)
  have lost := sum_wholeSectors_lt_total membership rest
  rw [total_fileRuns chain] at lost
  rw [imageBytes_nil, Nat.zero_add] at counted
  rw [fileRegions, handedOver_of_valid chain] at enough
  exact Nat.lt_irrefl _ ((enough.trans counted).trans_lt lost)

end Loss

section Whole

theorem diskExtent_exactRegion {start : Nat} {run : Extent} (whole : 512 ∣ run.offset)
    (near : run.offset < 288230376151711744) (sectors : 2048 ∣ run.size)
    (short : run.size < 8796093022208) : diskExtent (exactRegion start run) = run := by
  obtain ⟨sector, offset⟩ := whole
  obtain ⟨count, size⟩ := sectors
  cases run
  simp only [diskExtent, exactRegion, UInt64.toNat_ofNat', UInt32.toNat_ofNat',
    Extent.mk.injEq] at offset size near short ⊢
  omega

theorem exists_exactRegion {start : Nat} {runs : List Extent} {run : Extent}
    (membership : run ∈ runs) :
    ∃ place, exactRegion place run ∈ exactRegions start runs := by
  induction runs generalizing start with
  | nil => cases membership
  | cons first runs inductionHypothesis =>
      rcases List.mem_cons.mp membership with rfl | later
      · exact ⟨start, List.mem_cons_self⟩
      · obtain ⟨place, found⟩ := inductionHypothesis later
        exact ⟨place, List.mem_cons_of_mem _ found⟩

theorem imageBytes_exactRegions {start : Nat} {runs : List Extent}
    (sectors : ∀ run ∈ runs, 2048 ∣ run.size) (short : ∀ run ∈ runs, run.size < 8796093022208) :
    imageBytes (exactRegions start runs) = total runs := by
  induction runs generalizing start with
  | nil => rfl
  | cons run runs inductionHypothesis =>
      obtain ⟨whole, rest⟩ := List.forall_mem_cons.mp sectors
      obtain ⟨fits, others⟩ := List.forall_mem_cons.mp short
      have count : (UInt32.ofNat (run.size / 2048)).toNat = run.size / 2048 := by
        rw [UInt32.toNat_ofNat']
        omega
      have later := @inductionHypothesis (start + run.size / 2048) rest others
      rw [total_cons, ← later, exactRegions, ← List.singleton_append, imageBytes_append,
        imageBytes_singleton, exactRegion, count, Nat.div_mul_cancel whole]

variable {volume : Volume} {node : ExfatNode}

theorem coversFile_fileRegions (chain : ValidChain volume node)
    (short : node.size.toNat < 8796093022208)
    (whole : ∀ run ∈ fileRuns volume node, 2048 ∣ run.size) :
    CoversFile volume node (fileRegions .bits64 volume node) := by
  have small : ∀ run ∈ fileRuns volume node, run.size < 8796093022208 :=
    fun run membership => (fileRuns_size_le chain membership).trans_lt short
  rw [fileRegions_exact chain short fun run inner => whole run (List.dropLast_subset _ inner)]
  constructor
  · rw [imageBytes_exactRegions whole small, total_fileRuns chain]
  · intro index needed
    obtain ⟨run, membership, within⟩ := exists_run_of_cluster chain needed
    obtain ⟨place, found⟩ := exists_exactRegion membership
    refine ⟨_, found, ?_⟩
    rw [diskExtent_exactRegion (dvd_fileRuns_offset membership) (fileRuns_offset_lt membership)
      (whole run membership) (small run membership)]
    exact within

end Whole

theorem regions_of_returned {sizeT : SizeT} {volume : Volume} {node : ExfatNode}
    (nonempty : 0 < node.size.toNat)
    (sized : node.size.toNat ≤
      volume.sb.clusterCount.toNat * clusterSize volume.sb.toExfatSuperBlock)
    {rc : Int} {globals : Globals}
    (returned : exfatGetImageLocation (.allocating sizeT) volume node .fresh = .ok (rc, globals))
    {block : TableBlock} (obtained : globals.gImageLocation = some block) :
    block.location.regions = fileRegions sizeT volume node := by
  by_cases fits : regionsNeeded sizeT volume node ≤ maxRegions sizeT
  · obtain ⟨final, -, regions, call⟩ := exfatGetImageLocation_allocating sizeT nonempty sized fits
    rw [call] at returned
    cases returned
    cases obtained
    exact regions
  · obtain ⟨fault, overflow⟩ := exfatGetImageLocation_allocating_overflow sizeT nonempty sized
      (Nat.lt_of_not_le fits)
    rw [overflow] at returned
    cases returned

/-- A table that is returned covers the file if and only if every run of the file
is a whole number of image sectors. -/
theorem coversFile_iff (volume : Volume) (node : ExfatNode) (info : NodeMeta)
    (nonempty : 0 < node.size.toNat)
    (checked : checkNode volume.sb.toExfatSuperBlock node info = true)
    (chain : ValidChain volume node) (short : node.size.toNat < 8796093022208)
    (globals : Globals) (block : TableBlock)
    (returned : exfatGetImageLocation (.allocating .bits64) volume node .fresh = .ok (0, globals))
    (obtained : globals.gImageLocation = some block) :
    CoversFile volume node block.location.regions ↔
      ∀ run ∈ fileRuns volume node, 2048 ∣ run.size := by
  rw [regions_of_returned nonempty (size_le_of_checkNode checked) returned obtained]
  constructor
  · intro covers run membership
    by_contra rest
    exact not_coversFile_fileRegions chain membership rest covers
  · intro whole
    exact coversFile_fileRegions chain short whole

theorem coversFile_iff_shuttle :
    ∃ (globals : Globals) (block : TableBlock),
      globals.gImageLocation = some block ∧
      (CoversFile shuttleVolume (shuttleFile 3) block.location.regions ↔
        ∀ run ∈ fileRuns shuttleVolume (shuttleFile 3), 2048 ∣ run.size) := by
  obtain ⟨final, -, -, call⟩ := @exfatGetImageLocation_allocating .bits64 shuttleVolume
    (shuttleFile 3) (by decide) (by decide) (by decide)
  rw [if_pos validChain_shuttleFile] at call
  exact ⟨final.globals, _, rfl, coversFile_iff shuttleVolume (shuttleFile 3) ⟨0, 0, 0, false⟩
    (by decide) (by decide) validChain_shuttleFile (by decide) final.globals _ call rfl⟩

/-- A volume with clusters of a disk sector. -/
def sectorVolume : Volume where
  sb := ⟨⟨128, 1024, 9, 0⟩, by decide, by decide⟩
  fat cluster := if cluster = 2 then some 4 else some 2

/-- Fragments of less than an image sector leave nothing in the table. -/
theorem not_coversFile_sectorVolume :
    ∃ (globals : Globals) (block : TableBlock),
      checkNode sectorVolume.sb.toExfatSuperBlock (shuttleFile 1) ⟨0, 0, 0, false⟩ = true ∧
      ValidChain sectorVolume (shuttleFile 1) ∧
      exfatGetImageLocation (.allocating .bits64) sectorVolume (shuttleFile 1) .fresh =
        .ok (0, globals) ∧
      globals.gImageLocation = some block ∧
      ¬ CoversFile sectorVolume (shuttleFile 1) block.location.regions := by
  have chain : ValidChain sectorVolume (shuttleFile 1) := by decide
  have lossy : ∃ run ∈ fileRuns sectorVolume (shuttleFile 1), ¬ 2048 ∣ run.size := by decide
  obtain ⟨final, -, regions, call⟩ := @exfatGetImageLocation_allocating .bits64 sectorVolume
    (shuttleFile 1) (by decide) (by decide) (by decide)
  rw [if_pos chain] at call
  refine ⟨final.globals, _, by decide, chain, call, rfl, ?_⟩
  obtain ⟨run, membership, rest⟩ := lossy
  rw [Table.location, regions]
  exact not_coversFile_fileRegions chain membership rest

end Vtoydump.Exfat
