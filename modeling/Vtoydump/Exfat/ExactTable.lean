import Vtoydump.Exfat.FileRuns
import Vtoydump.Exfat.TableRun

/-!
# Tables without truncation

When runs do not meet and no length is cut off, every run becomes a region of
its own: `exfat_add_disk_region` never merges.  The resulting table is the
layout of the file, placed from image sector 0 on and measured in disk sectors.
-/

namespace Vtoydump.Exfat

open CRun Layout

def exactRegion (start : Nat) (run : Extent) : VentoyImageDiskRegion :=
  ⟨UInt32.ofNat (run.size / 2048), UInt32.ofNat start, UInt64.ofNat (run.offset / 512)⟩

def exactRegions : Nat → List Extent → List VentoyImageDiskRegion
  | _, [] => []
  | start, run :: runs => exactRegion start run :: exactRegions (start + run.size / 2048) runs

@[simp] theorem length_exactRegions (start : Nat) (runs : List Extent) :
    (exactRegions start runs).length = runs.length := by
  induction runs generalizing start with
  | nil => rfl
  | cons run runs inductionHypothesis => simp [exactRegions, inductionHypothesis]

/-- Runs that no step of the table building can confuse. -/
structure Exact (sizeT : SizeT) (runs : List Extent) : Prop where
  apart : runs.IsChain fun left right => ¬ left.Meets right
  offset : ∀ run ∈ runs, 512 ∣ run.offset ∧ run.offset < 288230376151711744
  size : ∀ run ∈ runs, 0 < run.size ∧ run.size < sizeT.modulus
  inner : ∀ run ∈ runs.dropLast, 2048 ∣ run.size ∧ run.size < 8796093022208

theorem Exact.tail {sizeT : SizeT} {run next : Extent} {runs : List Extent}
    (exact : Exact sizeT (run :: next :: runs)) : Exact sizeT (next :: runs) where
  apart := (List.isChain_cons_cons.mp exact.apart).2
  offset other membership := exact.offset other (List.mem_cons_of_mem _ membership)
  size other membership := exact.size other (List.mem_cons_of_mem _ membership)
  inner other membership := exact.inner other (by
    rw [List.dropLast_cons_cons]
    exact List.mem_cons_of_mem _ membership)

theorem diskStop_exactRegion {start : Nat} {run : Extent}
    (whole : 512 ∣ run.offset) (near : run.offset < 288230376151711744)
    (sectors : 2048 ∣ run.size) (short : run.size < 8796093022208) :
    (diskStop (exactRegion start run)).toNat = run.stop / 512 := by
  simp only [diskStop, exactRegion, Extent.stop, UInt64.toNat_add, UInt64.toNat_mul,
    UInt64.toNat_ofNat', UInt32.toNat_toUInt64, UInt32.toNat_ofNat', UInt64.toNat_ofNat]
  omega

theorem exactRegion_not_continued {start : Nat} {run next : Extent}
    (apart : ¬ run.Meets next) (whole : 512 ∣ run.offset) (near : run.offset < 288230376151711744)
    (sectors : 2048 ∣ run.size) (short : run.size < 8796093022208)
    (nextWhole : 512 ∣ next.offset) (nextNear : next.offset < 288230376151711744) :
    diskStop (exactRegion start run) ≠ UInt64.ofNat (next.offset / 512) := by
  intro continued
  have stops := @diskStop_exactRegion start run whole near sectors short
  rw [continued, UInt64.toNat_ofNat'] at stops
  apply apart
  simp only [Extent.Meets, Extent.stop] at stops ⊢
  omega

theorem putAll_exact {sizeT : SizeT} (regions : List VentoyImageDiskRegion) (start : Nat)
    (run : Extent) (runs : List Extent) (exact : Exact sizeT (run :: runs)) :
    putAll sizeT (regions ++ [exactRegion start run]) runs =
      regions ++ exactRegions start (run :: runs) := by
  induction runs generalizing regions start run with
  | nil => rfl
  | cons next runs inductionHypothesis =>
      obtain ⟨whole, near⟩ := exact.offset run (by simp)
      obtain ⟨nextWhole, nextNear⟩ := exact.offset next (by simp)
      obtain ⟨nextPositive, nextFits⟩ := exact.size next (by simp)
      obtain ⟨sectors, short⟩ := exact.inner run (by simp)
      have apart : ¬ run.Meets next := (List.isChain_cons_cons.mp exact.apart).1
      have found : (regions ++ [exactRegion start run]).getLast? =
          some (exactRegion start run) := by
        simp
      have opens : Opens (regions ++ [exactRegion start run]) next.size next.offset := by
        refine ⟨nextPositive.ne', fun last foundLast => ?_⟩
        rw [found, Option.some.injEq] at foundLast
        subst last
        exact exactRegion_not_continued apart whole near sectors short nextWhole nextNear
      have numbered : (exactRegion start run).imageStartSector +
          (exactRegion start run).imageSectorCount = UInt32.ofNat (start + run.size / 2048) := by
        simp [exactRegion, UInt32.ofNat_add]
      rw [putAll, SizeT.trunc_of_lt nextFits, putExtent_of_opens found opens, numbered]
      have rest := inductionHypothesis (regions ++ [exactRegion start run])
        (start + run.size / 2048) next exact.tail
      exact rest.trans (List.append_assoc _ _ _)

theorem putAll_nil_exact {sizeT : SizeT} {runs : List Extent} (exact : Exact sizeT runs) :
    putAll sizeT [] runs = exactRegions 0 runs := by
  cases runs with
  | nil => rfl
  | cons run runs =>
      obtain ⟨positive, fits⟩ := exact.size run (by simp)
      have first := putAll_exact [] 0 run runs exact
      rw [putAll, SizeT.trunc_of_lt fits]
      simp only [List.nil_append] at first
      rw [← first]
      simp [putExtent, positive.ne', exactRegion]

/-- What a region says about the image, in disk sectors. -/
def regionSegment (region : VentoyImageDiskRegion) : Segment :=
  ⟨4 * region.imageStartSector.toNat,
    ⟨region.diskStartSector.toNat, 4 * region.imageSectorCount.toNat⟩⟩

/-- A table without truncation is the layout of the file in disk sectors. -/
theorem map_regionSegment_exactRegions {start : Nat} {runs : List Extent}
    (offset : ∀ run ∈ runs, run.offset < 288230376151711744)
    (sectors : ∀ run ∈ runs, 2048 ∣ run.size)
    (numbered : start + total runs / 2048 < 4294967296) :
    (exactRegions start runs).map regionSegment =
      place (4 * start) (runs.map (Extent.scale 512)) := by
  induction runs generalizing start with
  | nil => rfl
  | cons run runs inductionHypothesis =>
      obtain ⟨count, size⟩ := sectors run (by simp)
      have near := offset run (by simp)
      rw [total_cons, size, Nat.mul_add_div (by decide)] at numbered
      have rest := @inductionHypothesis (start + run.size / 2048)
        (fun other membership => offset other (by simp [membership]))
        (fun other membership => sectors other (by simp [membership]))
        (by rw [size, Nat.mul_div_cancel_left _ (by decide)]; omega)
      rw [exactRegions, List.map_cons, rest, List.map_cons, place_cons]
      congr 1
      · simp only [regionSegment, exactRegion, Extent.scale, UInt32.toNat_ofNat',
          UInt64.toNat_ofNat', size]
        congr 2 <;> omega
      · simp only [Extent.scale, size]
        congr 1
        omega

def imageBytes (regions : List VentoyImageDiskRegion) : Nat :=
  (regions.map fun region => region.imageSectorCount.toNat * 2048).sum

end Vtoydump.Exfat
