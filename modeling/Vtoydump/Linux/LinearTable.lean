import Vtoydump.Basis.Segment
import Vtoydump.Linux.Sources

/-!
# The printed lines as a linear table

`dmsetup` counts in sectors of 512 bytes.  The printer divides by the size of a
disk sector, which the table may give as another one: the lines then are those
of another image, or leave gaps where the division cuts off a rest.
-/

namespace Vtoydump.Linux

open CRun Exfat Layout

/-- What a region says about the image, in image sectors. -/
def imageSegment (region : VentoyImageDiskRegion) : Segment :=
  ⟨region.imageStartSector.toNat,
    ⟨region.diskStartSector.toNat, region.imageSectorCount.toNat⟩⟩

def lineSegment (line : DmLine) : Segment :=
  ⟨line.start.toNat, ⟨line.offset.toNat, line.count.toNat⟩⟩

/-- The line counts the bytes of the region in sectors of 512. -/
def InSectors (location : VentoyImageLocation) (region : VentoyImageDiskRegion)
    (line : DmLine) : Prop :=
  line.start.toNat * 512 = region.imageStartSector.toNat * location.imageSectorSize.toNat ∧
    line.count.toNat * 512 = region.imageSectorCount.toNat * location.imageSectorSize.toNat

/-- The run prints a line for each region, in sectors of 512 bytes, and the lines tile
the image. -/
def PrintsLinearTable (location : VentoyImageLocation) (run : Run PrintResult) : Prop :=
  ∃ result, run = .ok result ∧ result.rc = 0 ∧
    List.Forall₂ (InSectors location) location.regions (dmLines result.out) ∧
    Tiles 0 ((dmLines result.out).map lineSegment)

/-- The table numbers the sectors of the image, and these consist of sectors of 512. -/
structure Regular (location : VentoyImageLocation) : Prop where
  guid : location.guid = ventoyGuid
  imageSectors : location.imageSectorSize ≠ 0
  diskSectors : location.diskSectorSize ≠ 0
  small : location.regions.length < 2147483648
  consecutive : Tiles 0 (location.regions.map imageSegment)
  whole : 512 ∣ location.imageSectorSize.toNat

/-- Counted in disk sectors of the given size, so many sectors of 512 bytes stay as many. -/
def SameCount (diskSectorSize sectors : Nat) : Prop :=
  sectors = 0 ∨ diskSectorSize ≤ 512 ∧ sectors * (512 - diskSectorSize) < diskSectorSize

instance (diskSectorSize sectors : Nat) : Decidable (SameCount diskSectorSize sectors) :=
  inferInstanceAs (Decidable (_ ∨ _))

/-- The sectors of 512 bytes in so many image sectors. -/
def sectorsOf (location : VentoyImageLocation) (imageSectors : UInt32) : Nat :=
  imageSectors.toNat * (location.imageSectorSize.toNat / 512)

section Units

variable {location : VentoyImageLocation}

theorem sameCount_iff {diskSectorSize sectors : Nat} (positive : 0 < diskSectorSize) :
    sectors * 512 / diskSectorSize = sectors ↔ SameCount diskSectorSize sectors := by
  rw [SameCount, Nat.div_eq_iff positive]
  rcases Nat.eq_zero_or_pos sectors with rfl | inhabited
  · simp
  · have nonzero : sectors ≠ 0 := inhabited.ne'
    simp only [nonzero, false_or]
    by_cases fine : diskSectorSize ≤ 512
    · obtain ⟨rest, size⟩ := Nat.exists_eq_add_of_le fine
      have split : sectors * 512 = sectors * diskSectorSize + sectors * rest := by
        rw [size, Nat.mul_add]
      have left : 512 - diskSectorSize = rest := by omega
      rw [left, split]
      omega
    · have larger : sectors * 512 < sectors * diskSectorSize :=
        Nat.mul_lt_mul_of_pos_left (Nat.lt_of_not_le fine) inhabited
      omega

/-- Neither the product nor the quotient of the printer overflows. -/
theorem toNat_converted (imageSectors : UInt32) :
    (UInt64.ofNat imageSectors.toNat * UInt64.ofNat location.imageSectorSize.toNat /
        UInt64.ofNat location.diskSectorSize.toNat).toNat =
      imageSectors.toNat * location.imageSectorSize.toNat / location.diskSectorSize.toNat := by
  have sectors := imageSectors.toNat_lt
  have size := location.imageSectorSize.toNat_lt
  have divisor := location.diskSectorSize.toNat_lt
  have product : imageSectors.toNat * location.imageSectorSize.toNat < 18446744073709551616 :=
    Nat.mul_lt_mul'' sectors size
  rw [UInt64.toNat_div, UInt64.toNat_mul, UInt64.toNat_ofNat', UInt64.toNat_ofNat',
    UInt64.toNat_ofNat', Nat.mod_eq_of_lt (sectors.trans (by decide)),
    Nat.mod_eq_of_lt (size.trans (by decide)), Nat.mod_eq_of_lt (divisor.trans (by decide)),
    Nat.mod_eq_of_lt product]

theorem converted_mul_eq_iff (regular : Regular location) (imageSectors : UInt32) :
    (UInt64.ofNat imageSectors.toNat * UInt64.ofNat location.imageSectorSize.toNat /
        UInt64.ofNat location.diskSectorSize.toNat).toNat * 512 =
        imageSectors.toNat * location.imageSectorSize.toNat ↔
      SameCount location.diskSectorSize.toNat (sectorsOf location imageSectors) := by
  have positive : 0 < location.diskSectorSize.toNat := by
    apply Nat.pos_of_ne_zero
    intro zero
    exact regular.diskSectors (UInt32.toNat_inj.mp zero)
  have bytes : imageSectors.toNat * location.imageSectorSize.toNat =
      sectorsOf location imageSectors * 512 := by
    rw [sectorsOf, Nat.mul_assoc, Nat.div_mul_cancel regular.whole]
  rw [← sameCount_iff positive, toNat_converted, bytes, Nat.mul_right_cancel_iff (by decide)]

theorem inSectors_dmLine_iff (regular : Regular location) {device : List Char}
    {partstart : UInt64} (region : VentoyImageDiskRegion) :
    InSectors location region (dmLine location device partstart region) ↔
      SameCount location.diskSectorSize.toNat (sectorsOf location region.imageStartSector) ∧
        SameCount location.diskSectorSize.toNat (sectorsOf location region.imageSectorCount) :=
  and_congr (converted_mul_eq_iff regular _) (converted_mul_eq_iff regular _)

/-- Lines in sectors of 512 bytes tile what the regions tile. -/
theorem tiles_of_inSectors {regions : List VentoyImageDiskRegion} {lines : List DmLine}
    {start first : Nat} (tiled : Tiles start (regions.map imageSegment))
    (converted : List.Forall₂ (InSectors location) regions lines)
    (begins : first * 512 = start * location.imageSectorSize.toNat) :
    Tiles first (lines.map lineSegment) := by
  induction converted generalizing start first with
  | nil => trivial
  | @cons region line regions lines here _ inductionHypothesis =>
      obtain ⟨rfl, rest⟩ := tiled
      refine ⟨?_, inductionHypothesis rest ?_⟩
      · apply Nat.eq_of_mul_eq_mul_right (by decide : 0 < 512)
        exact here.1.trans begins.symm
      · rw [Nat.add_mul, Nat.add_mul, begins]
        exact congrArg _ here.2

end Units

/-- Each sector of a linear table is in one line. -/
theorem PrintsLinearTable.existsUnique_line {location : VentoyImageLocation}
    {run : Run PrintResult} (prints : PrintsLinearTable location run) :
    ∃ result, run = .ok result ∧
      ∀ sector < total ((dmLines result.out).map fun line => (lineSegment line).extent),
        ∃! index : Nat, ∃ line, (dmLines result.out)[index]? = some line ∧
          (lineSegment line).Holds sector := by
  obtain ⟨result, returned, -, -, tiles⟩ := prints
  refine ⟨result, returned, ?_⟩
  intro sector inside
  have extents : ((dmLines result.out).map lineSegment).map Segment.extent =
      (dmLines result.out).map fun line => (lineSegment line).extent := List.map_map
  rw [← extents, ← Nat.zero_add (total _)] at inside
  obtain ⟨index, ⟨segment, found, holds⟩, only⟩ :=
    tiles.existsUnique_holds (Nat.zero_le sector) inside
  rw [List.getElem?_map, Option.map_eq_some_iff] at found
  obtain ⟨line, printed, rfl⟩ := found
  refine ⟨index, ⟨line, printed, holds⟩, ?_⟩
  rintro other ⟨another, printedToo, holdsToo⟩
  apply only
  refine ⟨lineSegment another, ?_, holdsToo⟩
  rw [List.getElem?_map, printedToo]
  rfl

/-- The printed lines are a linear table of the image exactly when its disk sectors have
512 bytes, or no start and no count is changed by dividing by their size: a size above
512 changes each but 0, a smaller one those from a certain number on. -/
theorem printsLinearTable_iff (system : System) (format : Nat) (param : OsParam)
    (diskname device : List Char) (block : HeapBlock) (location : VentoyImageLocation)
    (stderr : List String) (regular : Regular location)
    (obtained : imageLocation system param diskname = .ok (some block, device, stderr))
    (contents : encodeLocation location <+: block.written) :
    PrintsLinearTable location (vtoyPrintImageLocation system format param diskname) ↔
      location.diskSectorSize = 512 ∨ ∀ region ∈ location.regions,
        SameCount location.diskSectorSize.toNat (sectorsOf location region.imageStartSector) ∧
          SameCount location.diskSectorSize.toNat
            (sectorsOf location region.imageSectorCount) := by
  obtain ⟨partstart, started⟩ := exists_partStart system diskname param.vtoyDiskPartId
  obtain ⟨result, printed, success, lines⟩ :=
    @printTable_encodeLocation system format param diskname device block location partstart
      regular.guid regular.diskSectors regular.small contents started
  have same : ∀ sectors, location.diskSectorSize = 512 →
      SameCount location.diskSectorSize.toNat sectors := by
    intro sectors usual
    rw [usual]
    exact .inr ⟨Nat.le_refl _, by simp⟩
  have units : List.Forall₂ (InSectors location) location.regions (dmLines result.out) ↔
      ∀ region ∈ location.regions,
        SameCount location.diskSectorSize.toNat (sectorsOf location region.imageStartSector) ∧
          SameCount location.diskSectorSize.toNat
            (sectorsOf location region.imageSectorCount) := by
    rw [lines, List.forall₂_map_right_iff, List.forall₂_same]
    exact forall₂_congr fun region _ => inSectors_dmLine_iff regular region
  rw [vtoyPrintImageLocation_of_location system format param diskname device obtained, printed]
  constructor
  · rintro ⟨_, ⟨⟩, -, converted, -⟩
    exact .inr (units.mp converted)
  · intro sizes
    have converted : List.Forall₂ (InSectors location) location.regions (dmLines result.out) := by
      apply units.mpr
      rcases sizes with usual | unchanged
      · intro region _
        exact ⟨same _ usual, same _ usual⟩
      · exact unchanged
    exact ⟨result, rfl, success, converted,
      tiles_of_inSectors regular.consecutive converted (by simp)⟩

section Large

/-- Two regions of an image, on a disk with sectors of 4096 bytes. -/
def largeSectors : VentoyImageLocation :=
  ⟨ventoyGuid, 2048, 4096, [⟨3, 0, 2048⟩, ⟨1, 3, 4096⟩]⟩

theorem regular_largeSectors : Regular largeSectors :=
  ⟨rfl, by decide, by decide, by decide, ⟨rfl, rfl, trivial⟩, by decide⟩

theorem exists_imageLocation_largeSectors :
    ∃ block, imageLocation (memorySystem (encodeLocation largeSectors))
        (memoryParam (encodeLocation largeSectors).length) "sda".toList =
        .ok (some block, dmdisk "sda".toList, []) ∧
      encodeLocation largeSectors <+: block.written := by
  obtain ⟨block, obtained, contents⟩ :=
    @firmwareLocation_memory (encodeLocation largeSectors) (by decide) (by decide)
  refine ⟨block, ?_, contents ▸ List.prefix_rfl⟩
  rw [imageLocation, obtained]

theorem printsLinearTable_iff_large :
    PrintsLinearTable largeSectors (vtoyPrintImageLocation
        (memorySystem (encodeLocation largeSectors)) 2
        (memoryParam (encodeLocation largeSectors).length) "sda".toList) ↔
      largeSectors.diskSectorSize = 512 ∨ ∀ region ∈ largeSectors.regions,
        SameCount largeSectors.diskSectorSize.toNat
            (sectorsOf largeSectors region.imageStartSector) ∧
          SameCount largeSectors.diskSectorSize.toNat
            (sectorsOf largeSectors region.imageSectorCount) := by
  obtain ⟨block, obtained, contents⟩ := exists_imageLocation_largeSectors
  exact printsLinearTable_iff _ 2 _ _ _ block largeSectors [] regular_largeSectors obtained
    contents

/-- The three sectors of the first region become one of 4096 bytes, not twelve of 512. -/
theorem not_printsLinearTable_large :
    Regular largeSectors ∧ ¬ PrintsLinearTable largeSectors (vtoyPrintImageLocation
      (memorySystem (encodeLocation largeSectors)) 2
      (memoryParam (encodeLocation largeSectors).length) "sda".toList) := by
  refine ⟨regular_largeSectors, ?_⟩
  obtain ⟨block, obtained, contents⟩ := exists_imageLocation_largeSectors
  obtain ⟨partstart, started⟩ := exists_partStart (memorySystem (encodeLocation largeSectors))
    "sda".toList (memoryParam (encodeLocation largeSectors).length).vtoyDiskPartId
  obtain ⟨result, printed, -, lines⟩ :=
    @printTable_encodeLocation _ 2 _ _ (dmdisk "sda".toList) block largeSectors partstart
      rfl (by decide) (by decide) contents started
  rw [vtoyPrintImageLocation_of_location _ 2 _ _ _ obtained, printed]
  rintro ⟨_, ⟨⟩, -, converted, -⟩
  rw [lines, List.forall₂_map_right_iff, List.forall₂_same] at converted
  have counted := ((inSectors_dmLine_iff regular_largeSectors _).mp
    (converted ⟨3, 0, 2048⟩ (by decide))).2
  exact absurd counted (by decide)

end Large

end Vtoydump.Linux
