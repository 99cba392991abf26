import Vtoydump.Exfat.Coverage
import Vtoydump.Exfat.TableInvariant

/-!
# Coalescing before the table

The loop of `exfat_get_image_location` joins byte-adjacent clusters before it
hands them over; `exfat_add_disk_region` would join them as well, by disk
sectors.  As long as no count wraps, handing over the join of two extents is
handing over one after the other, so the delayed flush leaves no trace.
-/

namespace Vtoydump.Exfat

open CRun Layout

/-- The call without the pending extent: each cluster is handed over when it is reached. -/
def imageLocationByCluster (process : Process) (volume : Volume) (node : ExfatNode)
    (globals : Globals) : Run (Int × Globals) := do
  let (_, allocated) ← reallocImageLocation process globals 1024
  let added ← addExtents process allocated
    ((List.range (fileClusters volume node)).map (clusterExtent volume node))
  return (0, added)

structure Whole (extents : List Extent) : Prop where
  positive : ∀ extent ∈ extents, 0 < extent.size
  inner : ∀ extent ∈ extents.dropLast, 2048 ∣ extent.size

section Put

variable {regions : List VentoyImageDiskRegion} {size offset : Nat}

theorem diskStop_extended {last : VentoyImageDiskRegion} {count : Nat}
    (continues : diskStop last = UInt64.ofNat (offset / 512))
    (small : last.imageSectorCount.toNat + count < 4294967296) :
    diskStop { last with imageSectorCount := last.imageSectorCount + UInt32.ofNat count } =
      UInt64.ofNat ((offset + 2048 * count) / 512) := by
  have behind : (offset + 2048 * count) / 512 = offset / 512 + count * 4 := by omega
  have widened : (last.imageSectorCount + UInt32.ofNat count).toUInt64 =
      last.imageSectorCount.toUInt64 + UInt64.ofNat count := by
    apply UInt64.toNat_inj.mp
    simp only [UInt32.toNat_toUInt64, UInt32.toNat_add, UInt32.toNat_ofNat', UInt64.toNat_add,
      UInt64.toNat_ofNat']
    omega
  calc diskStop { last with imageSectorCount := last.imageSectorCount + UInt32.ofNat count }
      = last.diskStartSector + (last.imageSectorCount.toUInt64 + UInt64.ofNat count) * 4 := by
        rw [diskStop, widened]
    _ = diskStop last + UInt64.ofNat count * 4 := by
        rw [diskStop, UInt64.add_mul, UInt64.add_assoc]
    _ = UInt64.ofNat ((offset + 2048 * count) / 512) := by
        rw [continues, behind, UInt64.ofNat_add, UInt64.ofNat_mul]
        rfl

/-- What a call leaves behind it: a last region that ends where the extent ends, and that
more bytes behind the extent would only have made longer. -/
theorem exists_last_putExtent (positive : 0 < size) (whole : 2048 ∣ size)
    (small : imageBytes regions + size < 8796093022208) (more : Nat) :
    ∃ front last, putExtent regions size offset = front ++ [last] ∧
      diskStop last = UInt64.ofNat ((offset + size) / 512) ∧
      putExtent regions (size + more) offset = front ++ [{ last with
        imageSectorCount := last.imageSectorCount + UInt32.ofNat (more / 2048) }] := by
  obtain ⟨count, rfl⟩ := whole
  have counted : 2048 * count / 2048 = count := Nat.mul_div_cancel_left _ (by decide)
  have together : (2048 * count + more) / 2048 = count + more / 2048 :=
    Nat.mul_add_div (by decide) _ _
  have nonzero : 2048 * count ≠ 0 := positive.ne'
  have nonzeroMore : 2048 * count + more ≠ 0 := by omega
  have opened : ∀ start : UInt32,
      diskStop ⟨UInt32.ofNat count, start, UInt64.ofNat (offset / 512)⟩ =
        UInt64.ofNat ((offset + 2048 * count) / 512) := by
    intro start
    have empty : diskStop ⟨0, start, UInt64.ofNat (offset / 512)⟩ = UInt64.ofNat (offset / 512) :=
      UInt64.add_zero _
    have extended := @diskStop_extended offset _ count empty (by
      change 0 + count < 4294967296
      omega)
    simp only [UInt32.zero_add] at extended
    exact extended
  rcases List.eq_nil_or_concat' regions with rfl | ⟨front, last, rfl⟩
  · refine ⟨[], ⟨UInt32.ofNat count, 0, UInt64.ofNat (offset / 512)⟩, ?_, opened 0, ?_⟩
    · simp only [putExtent, nonzero, if_false, List.getLast?_nil, counted, List.nil_append]
    · simp only [putExtent, nonzeroMore, if_false, List.getLast?_nil, together,
        UInt32.ofNat_add, List.nil_append]
  · rw [imageBytes_append, imageBytes_singleton] at small
    rw [putExtent_concat, putExtent_concat, if_neg nonzero, if_neg nonzeroMore, counted, together]
    by_cases continues : diskStop last = UInt64.ofNat (offset / 512)
    · rw [if_pos continues, if_pos continues]
      refine ⟨front, _, rfl, diskStop_extended continues (by omega), ?_⟩
      rw [UInt32.ofNat_add, UInt32.add_assoc]
    · rw [if_neg continues, if_neg continues]
      refine ⟨front ++ [last], _, rfl, opened _, ?_⟩
      rw [UInt32.ofNat_add]

/-- The next extent continues what the first one left, and the two make one. -/
theorem putExtent_join {first second : Extent} (positive : 0 < first.size)
    (whole : 2048 ∣ first.size) (small : imageBytes regions + first.size < 8796093022208)
    (meets : first.Meets second) :
    ¬ Opens (putExtent regions first.size first.offset) second.size second.offset ∧
      putExtent (putExtent regions first.size first.offset) second.size second.offset =
        putExtent regions (first.join second).size (first.join second).offset := by
  obtain ⟨front, last, stored, stops, joined⟩ :=
    @exists_last_putExtent regions first.size first.offset positive whole small second.size
  have continues : diskStop last = UInt64.ofNat (second.offset / 512) := by
    rw [← meets]
    exact stops
  rw [stored, Extent.join_size, Extent.join_offset, joined, putExtent_concat, if_pos continues]
  constructor
  · rintro ⟨-, others⟩
    exact others last (List.getLast?_concat ..) continues
  · split_ifs with empty
    · simp [empty]
    · rfl

end Put

section Run

/-- With memory enough, a call that needs more than the largest capacity always faults alike. -/
theorem exfatAddDiskRegion_largest (table : Table .bits64) {size offset : Nat}
    (opens : Opens table.regions size offset) (full : table.Full)
    (largest : ¬ table.doublings < maxDoublings .bits64) :
    exfatAddDiskRegion (.allocating .bits64) table.globals size offset = .error .intOverflow := by
  have last := Nat.le_antisymm table.bounded (Nat.le_of_not_lt largest)
  rw [Process.allocating, exfatAddDiskRegion_full _ table opens full, capacity_mul_two, last]
  rfl

theorem opens_join_iff {regions : List VentoyImageDiskRegion} {first second : Extent}
    (positive : 0 < first.size) :
    Opens regions (first.join second).size (first.join second).offset ↔
      Opens regions first.size first.offset := by
  have nonzero : first.size + second.size ≠ 0 := by omega
  rw [Opens, Opens, Extent.join_size, Extent.join_offset]
  exact and_congr (iff_of_true nonzero positive.ne') Iff.rfl

theorem globals_put_put {table : Table .bits64} {first second : Extent}
    (positive : 0 < first.size) (whole : 2048 ∣ first.size)
    (small : imageBytes table.regions + first.size < 8796093022208)
    (meets : first.Meets second)
    (fits : ¬ table.Full ∨ ¬ Opens table.regions first.size first.offset)
    (fitsJoin : ¬ table.Full ∨
      ¬ Opens table.regions (first.join second).size (first.join second).offset) :
    exfatAddDiskRegion (.allocating .bits64) (table.put _ _ fits).globals second.size
        second.offset =
      .ok (SizeT.bits64.signed second.size, (table.put _ _ fitsJoin).globals) := by
  obtain ⟨continues, joined⟩ :=
    @putExtent_join table.regions first second positive whole small meets
  have call := exfatAddDiskRegion_put (fun _ => true) (table.put _ _ fits) second.size
    second.offset (.inr continues)
  refine call.trans ?_
  simp only [Table.globals, Table.put, Table.location, joined]

/-- Two extents that meet, one after the other or as one. -/
theorem addExtents_join (table : Table .bits64) {first second : Extent}
    (positive : 0 < first.size) (whole : 2048 ∣ first.size)
    (small : imageBytes table.regions + (first.size + second.size) < 8796093022208)
    (meets : first.Meets second) (rest : List Extent) :
    addExtents (.allocating .bits64) table.globals (first :: second :: rest) =
      addExtents (.allocating .bits64) table.globals (first.join second :: rest) := by
  have short : imageBytes table.regions + first.size < 8796093022208 := by omega
  have truncFirst : SizeT.bits64.trunc first.size = first.size :=
    SizeT.trunc_of_lt (by simp only [SizeT.modulus]; omega)
  have truncSecond : SizeT.bits64.trunc second.size = second.size :=
    SizeT.trunc_of_lt (by simp only [SizeT.modulus]; omega)
  have truncJoin : SizeT.bits64.trunc (first.join second).size = (first.join second).size :=
    SizeT.trunc_of_lt (by simp only [SizeT.modulus, Extent.join_size]; omega)
  have same := @opens_join_iff table.regions first second positive
  change (do
      let (_, added) ← exfatAddDiskRegion (.allocating .bits64) table.globals
        (SizeT.bits64.trunc first.size) first.offset
      let (_, again) ← exfatAddDiskRegion (.allocating .bits64) added
        (SizeT.bits64.trunc second.size) second.offset
      addExtents (.allocating .bits64) again rest) = (do
      let (_, added) ← exfatAddDiskRegion (.allocating .bits64) table.globals
        (SizeT.bits64.trunc (first.join second).size) (first.join second).offset
      addExtents (.allocating .bits64) added rest)
  rw [truncFirst, truncSecond, truncJoin]
  by_cases fits : ¬ table.Full ∨ ¬ Opens table.regions first.size first.offset
  · have fitsJoin : ¬ table.Full ∨
        ¬ Opens table.regions (first.join second).size (first.join second).offset :=
      fits.imp_right same.not.mpr
    have once := exfatAddDiskRegion_put (fun _ => true) table _ _ fits
    have join := exfatAddDiskRegion_put (fun _ => true) table _ _ fitsJoin
    have twice := globals_put_put positive whole short meets fits fitsJoin
    rw [Process.allocating] at twice ⊢
    simp only [once, join, twice, ok_bind]
  · obtain ⟨full, opens⟩ := not_or.mp fits
    rw [not_not] at full opens
    have opensJoin := same.mpr opens
    by_cases below : table.doublings < maxDoublings .bits64
    · have once := exfatAddDiskRegion_grown (fun _ => true) table opens full below rfl
      have join := exfatAddDiskRegion_grown (fun _ => true) table opensJoin full below rfl
      have twice := @globals_put_put (table.grown below) first second positive whole short meets
        (.inl (table.not_full_grown below)) (.inl (table.not_full_grown below))
      rw [Process.allocating] at twice ⊢
      simp only [once, join, twice, ok_bind]
    · rw [exfatAddDiskRegion_largest table opens full below,
        exfatAddDiskRegion_largest table opensJoin full below]
      rfl

theorem Whole.tail {extent next : Extent} {extents : List Extent}
    (whole : Whole (extent :: next :: extents)) : Whole (next :: extents) where
  positive other membership := whole.positive other (List.mem_cons_of_mem _ membership)
  inner other membership := by
    apply whole.inner other
    rw [List.dropLast_cons_cons]
    exact List.mem_cons_of_mem _ membership

theorem Whole.join {first second : Extent} {extents : List Extent}
    (whole : Whole (first :: second :: extents)) : Whole (first.join second :: extents) where
  positive := by
    rw [List.forall_mem_cons]
    have here := whole.positive first (by simp)
    refine ⟨Nat.add_pos_left here _, ?_⟩
    intro other membership
    exact whole.positive other (by simp [membership])
  inner := by
    cases extents with
    | nil =>
        rintro other ⟨⟩
    | cons next extents =>
        have inner := whole.inner
        simp only [List.dropLast_cons_cons, List.forall_mem_cons] at inner ⊢
        exact ⟨Nat.dvd_add inner.1 inner.2.1, inner.2.2⟩

theorem imageBytes_step_le {sizeT : SizeT} {malloc : Nat → Bool} {table next : Table sizeT}
    {extent : Extent} (step : table.step malloc extent = some next) :
    imageBytes next.regions ≤ imageBytes table.regions + extent.size := by
  have put : imageBytes (putExtent table.regions (sizeT.trunc extent.size) extent.offset) ≤
      imageBytes table.regions + extent.size := by
    have stored := imageBytes_putExtent_le table.regions (sizeT.trunc extent.size) extent.offset
    have sectors := Nat.div_mul_le_self (sizeT.trunc extent.size) 2048
    exact stored.trans (Nat.add_le_add_left (sectors.trans (sizeT.trunc_le _)) _)
  unfold Table.step at step
  split_ifs at step
  · cases step
    exact put
  · cases step
    exact put
  · cases step
    exact Nat.le_add_right _ _
  · cases step
    exact Nat.le_add_right _ _

/-- The delayed flush leaves no trace: from any table, with any pending extent. -/
theorem addExtents_coalesceFrom (table : Table .bits64) (pending : Extent)
    (layout : List Extent) (whole : Whole (pending :: layout))
    (small : imageBytes table.regions + total (pending :: layout) < 8796093022208) :
    addExtents (.allocating .bits64) table.globals (coalesceFrom pending layout) =
      addExtents (.allocating .bits64) table.globals (pending :: layout) := by
  induction layout generalizing table pending with
  | nil => rfl
  | cons extent layout inductionHypothesis =>
      rw [total_cons, total_cons] at small
      by_cases meets : pending.Meets extent
      · have positive := whole.positive pending (by simp)
        have sectors := whole.inner pending (by simp)
        rw [coalesceFrom_cons_of_meets meets,
          addExtents_join table positive sectors (by omega) meets]
        apply inductionHypothesis table (pending.join extent) whole.join
        rw [total_cons, Extent.join_size]
        omega
      · rw [coalesceFrom_cons_of_not_meets meets]
        have call := @exfatAddDiskRegion_step .bits64 (fun _ => true) table pending
        cases step : table.step (fun _ => true) pending with
        | none =>
            rw [step] at call
            obtain ⟨fault, call⟩ := call
            have faults : ∀ rest, addExtents (.allocating .bits64) table.globals
                (pending :: rest) = .error fault := by
              intro rest
              simp only [addExtents, Process.allocating, call, error_bind]
            rw [faults, faults]
        | some next =>
            rw [step] at call
            obtain ⟨rc, call⟩ := call
            have continues : ∀ rest, addExtents (.allocating .bits64) table.globals
                (pending :: rest) = addExtents (.allocating .bits64) next.globals rest := by
              intro rest
              simp only [addExtents, Process.allocating, call, ok_bind]
            rw [continues, continues]
            have grown := imageBytes_step_le step
            apply inductionHypothesis next extent whole.tail
            rw [total_cons]
            omega

end Run

section File

variable {volume : Volume} {node : ExfatNode}

theorem whole_clusterExtents (aligned : 2048 ∣ clusterSize volume.sb.toExfatSuperBlock) :
    Whole ((List.range (fileClusters volume node)).map (clusterExtent volume node)) where
  positive := by
    rw [List.forall_mem_map]
    intro index membership
    exact clusterExtent_size_pos (List.mem_range.mp membership)
  inner _ membership := aligned.trans (clusterSize_dvd_of_inner membership)

theorem addExtents_fileRuns (aligned : 2048 ∣ clusterSize volume.sb.toExfatSuperBlock)
    (short : node.size.toNat < 8796093022208) (chain : ValidChain volume node) :
    addExtents (.allocating .bits64) (Table.empty .bits64).globals (fileRuns volume node) =
      addExtents (.allocating .bits64) (Table.empty .bits64).globals
        ((List.range (fileClusters volume node)).map (clusterExtent volume node)) := by
  have whole := @whole_clusterExtents volume node aligned
  have size := total_walkedClusters chain
  rw [fileRuns, walkedClusters_of_valid chain] at *
  cases clusters : (List.range (fileClusters volume node)).map (clusterExtent volume node) with
  | nil => rfl
  | cons first later =>
      rw [clusters] at whole size
      apply addExtents_coalesceFrom (Table.empty .bits64) first later whole
      rw [size]
      exact (Nat.zero_add _).trans_lt short

end File

/-- Coalescing clusters before they are added changes nothing: the call computes what it
would by adding cluster after cluster.  It returns a table as long as the regions fit the
largest capacity; beyond it both ways fault alike. -/
theorem exfatGetImageLocation_byCluster (volume : Volume) (node : ExfatNode)
    (aligned : 2048 ∣ clusterSize volume.sb.toExfatSuperBlock)
    (nonempty : 0 < node.size.toNat) (short : node.size.toNat < 8796093022208)
    (chain : ValidChain volume node) :
    exfatGetImageLocation (.allocating .bits64) volume node .fresh =
        imageLocationByCluster (.allocating .bits64) volume node .fresh ∧
      (regionsNeeded .bits64 volume node ≤ maxRegions .bits64 →
        ∃ table : Table .bits64, exfatGetImageLocation (.allocating .bits64) volume node .fresh =
          .ok (0, table.globals)) := by
  have call := @exfatGetImageLocation_eq_of_lt (.allocating .bits64) volume node nonempty
    (short.trans (by decide)) Globals.fresh
  have allocated : reallocImageLocation (.allocating .bits64) .fresh 1024 =
      .ok (0, (Table.empty .bits64).globals) := reallocImageLocation_fresh rfl
  simp only [allocated, ok_bind, handedOver_of_valid chain, if_pos chain] at call
  constructor
  · simp only [call, imageLocationByCluster, allocated, ok_bind,
      addExtents_fileRuns aligned short chain]
  · intro fits
    rw [regionsNeeded, fileRegions, handedOver_of_valid chain] at fits
    obtain ⟨final, -, -, run⟩ := (Table.tight_empty .bits64).run (fileRuns volume node) fits
    refine ⟨final, ?_⟩
    have added : addExtents (.allocating .bits64) (Table.empty .bits64).globals
        (fileRuns volume node) = .ok final.globals := addExtents_of_run run
    rw [call, added]
    rfl

/-- A volume whose FAT leads from each cluster to the next one, and from cluster 3 to
cluster 6. -/
def skippingVolume : Volume where
  sb := shuttleVolume.sb
  fat cluster := some (if cluster = 3 then 6 else cluster + 1)

/-- Five clusters in two runs. -/
example : fileRuns skippingVolume (shuttleFile 5) = [⟨65536, 4096⟩, ⟨73728, 6144⟩] := by decide

theorem exfatGetImageLocation_byCluster_skipping :
    exfatGetImageLocation (.allocating .bits64) skippingVolume (shuttleFile 5) .fresh =
        imageLocationByCluster (.allocating .bits64) skippingVolume (shuttleFile 5) .fresh ∧
      (regionsNeeded .bits64 skippingVolume (shuttleFile 5) ≤ maxRegions .bits64 →
        ∃ table : Table .bits64,
          exfatGetImageLocation (.allocating .bits64) skippingVolume (shuttleFile 5) .fresh =
            .ok (0, table.globals)) :=
  exfatGetImageLocation_byCluster skippingVolume (shuttleFile 5) (by decide) (by decide)
    (by decide) (by decide)

end Vtoydump.Exfat
