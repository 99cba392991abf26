import Mathlib.Algebra.Ring.Nat
import Vtoydump.Exfat.RegionTable

/-!
# The image table in memory

The layout of `ventoy_image_location`: a header of 28 bytes and 16 bytes for
each region.  What is read at the places of the fields is what was written,
also when more bytes than the table needs were delivered.
-/

namespace Vtoydump

open CRun

def encodeRegion (region : VentoyImageDiskRegion) : List UInt8 :=
  leBytes 4 region.imageSectorCount.toNat ++ leBytes 4 region.imageStartSector.toNat ++
    leBytes 8 region.diskStartSector.toNat

def encodeHeader (location : VentoyImageLocation) : List UInt8 :=
  location.guid ++ leBytes 4 location.imageSectorSize.toNat ++
    leBytes 4 location.diskSectorSize.toNat ++ leBytes 4 location.regions.length

/-- The bytes of an image table. -/
def encodeLocation (location : VentoyImageLocation) : List UInt8 :=
  encodeHeader location ++ location.regions.flatMap encodeRegion

@[simp] theorem length_encodeRegion (region : VentoyImageDiskRegion) :
    (encodeRegion region).length = sizeofRegion := by
  simp [encodeRegion, sizeofRegion]

theorem length_encodeRegions (regions : List VentoyImageDiskRegion) :
    (regions.flatMap encodeRegion).length = sizeofRegion * regions.length := by
  induction regions with
  | nil => rfl
  | cons region regions inductionHypothesis =>
      rw [List.flatMap_cons, List.length_append, length_encodeRegion, inductionHypothesis,
        List.length_cons, Nat.mul_succ, Nat.add_comm]

theorem length_encodeHeader {location : VentoyImageLocation} (guid : location.guid.length = 16) :
    (encodeHeader location).length = sizeofHeader := by
  simp [encodeHeader, guid, sizeofHeader]

theorem length_encodeLocation {location : VentoyImageLocation} (guid : location.guid.length = 16) :
    (encodeLocation location).length = sizeofHeader + sizeofRegion * location.regions.length := by
  rw [encodeLocation, List.length_append, length_encodeHeader guid, length_encodeRegions]

theorem encodeRegions_split {regions : List VentoyImageDiskRegion} {index : Nat}
    {region : VentoyImageDiskRegion} (found : regions[index]? = some region) :
    regions.flatMap encodeRegion = (regions.take index).flatMap encodeRegion ++
      (encodeRegion region ++ (regions.drop (index + 1)).flatMap encodeRegion) := by
  obtain ⟨inside, rfl⟩ := List.getElem?_eq_some_iff.mp found
  conv_lhs => rw [← List.take_append_drop index regions, List.drop_eq_getElem_cons inside]
  rw [List.flatMap_append, List.flatMap_cons]

section Read

variable {block : HeapBlock} {location : VentoyImageLocation}

theorem readGuid_encodeLocation (guid : location.guid.length = 16)
    (contents : encodeLocation location <+: block.written) :
    block.read 0 16 = .ok location.guid := by
  obtain ⟨rest, contents⟩ := contents
  have whole : block.written = location.guid ++ (leBytes 4 location.imageSectorSize.toNat ++
      leBytes 4 location.diskSectorSize.toNat ++ leBytes 4 location.regions.length ++
      location.regions.flatMap encodeRegion ++ rest) := by
    simp [← contents, encodeLocation, encodeHeader, List.append_assoc]
  rw [HeapBlock.read_of_le (by simp [whole, guid]), List.drop_zero, whole, List.take_left' guid]

theorem readHeader_encodeLocation (guid : location.guid.length = 16)
    (contents : encodeLocation location <+: block.written) :
    block.readField 16 4 = .ok location.imageSectorSize.toNat ∧
      block.readField 20 4 = .ok location.diskSectorSize.toNat ∧
      block.readField 24 4 = .ok (location.regions.length % 4294967296) := by
  obtain ⟨rest, contents⟩ := contents
  refine ⟨?_, ?_, ?_⟩
  · have field : block.written = location.guid ++ (leBytes 4 location.imageSectorSize.toNat ++
        (leBytes 4 location.diskSectorSize.toNat ++ (leBytes 4 location.regions.length ++
          (location.regions.flatMap encodeRegion ++ rest)))) := by
      simp [← contents, encodeLocation, encodeHeader, List.append_assoc]
    exact HeapBlock.readField_leBytes_of_lt field guid location.imageSectorSize.toNat_lt
  · have field : block.written = (location.guid ++ leBytes 4 location.imageSectorSize.toNat) ++
        (leBytes 4 location.diskSectorSize.toNat ++ (leBytes 4 location.regions.length ++
          (location.regions.flatMap encodeRegion ++ rest))) := by
      simp [← contents, encodeLocation, encodeHeader, List.append_assoc]
    exact HeapBlock.readField_leBytes_of_lt field (by simp [guid])
      location.diskSectorSize.toNat_lt
  · have field : block.written = (location.guid ++ leBytes 4 location.imageSectorSize.toNat ++
        leBytes 4 location.diskSectorSize.toNat) ++ (leBytes 4 location.regions.length ++
          (location.regions.flatMap encodeRegion ++ rest)) := by
      simp [← contents, encodeLocation, encodeHeader, List.append_assoc]
    exact HeapBlock.readField_leBytes field (by simp [guid])

theorem readRegion_encodeLocation (guid : location.guid.length = 16)
    (contents : encodeLocation location <+: block.written) {index : Nat}
    {region : VentoyImageDiskRegion} (found : location.regions[index]? = some region) :
    block.readField (sizeofHeader + sizeofRegion * index) 4 =
        .ok region.imageSectorCount.toNat ∧
      block.readField (sizeofHeader + sizeofRegion * index + 4) 4 =
        .ok region.imageStartSector.toNat ∧
      block.readField (sizeofHeader + sizeofRegion * index + 8) 8 =
        .ok region.diskStartSector.toNat := by
  obtain ⟨rest, contents⟩ := contents
  obtain ⟨front, back, place, whole⟩ : ∃ front back,
      front.length = sizeofHeader + sizeofRegion * index ∧
        block.written = front ++ (encodeRegion region ++ back) := by
    have inside := (List.getElem?_eq_some_iff.mp found).1
    refine ⟨encodeHeader location ++ (location.regions.take index).flatMap encodeRegion,
      (location.regions.drop (index + 1)).flatMap encodeRegion ++ rest, ?_, ?_⟩
    · rw [List.length_append, length_encodeHeader guid, length_encodeRegions, List.length_take,
        Nat.min_eq_left (Nat.le_of_lt inside)]
    · rw [← contents, encodeLocation, encodeRegions_split found]
      simp only [List.append_assoc]
  refine ⟨?_, ?_, ?_⟩
  · have field : block.written = front ++ (leBytes 4 region.imageSectorCount.toNat ++
        (leBytes 4 region.imageStartSector.toNat ++
          (leBytes 8 region.diskStartSector.toNat ++ back))) := by
      simp [whole, encodeRegion, List.append_assoc]
    exact HeapBlock.readField_leBytes_of_lt field place region.imageSectorCount.toNat_lt
  · have field : block.written = (front ++ leBytes 4 region.imageSectorCount.toNat) ++
        (leBytes 4 region.imageStartSector.toNat ++
          (leBytes 8 region.diskStartSector.toNat ++ back)) := by
      simp [whole, encodeRegion, List.append_assoc]
    exact HeapBlock.readField_leBytes_of_lt field (by simp [place])
      region.imageStartSector.toNat_lt
  · have field : block.written = (front ++ leBytes 4 region.imageSectorCount.toNat ++
        leBytes 4 region.imageStartSector.toNat) ++
          (leBytes 8 region.diskStartSector.toNat ++ back) := by
      simp [whole, encodeRegion, List.append_assoc]
    exact HeapBlock.readField_leBytes_of_lt field (by simp [place])
      region.diskStartSector.toNat_lt

end Read

end Vtoydump
