import Mathlib.Data.Nat.Log
import Vtoydump.Exfat.ImageLocation

/-!
# Whole runs over the region table

`putAll` is what a list of extents makes of a region list when memory never
runs out, `Table.run` what it makes of a table for any answers of `malloc`.
The code computes the latter.  A run whose allocations all succeed is `putAll`
as long as the result fits into the largest capacity, and faults beyond it.
-/

namespace Vtoydump.Exfat

open CRun Layout

/-- The regions after every extent was put behind them, sizes in `size_t`. -/
def putAll (sizeT : SizeT) : List VentoyImageDiskRegion → List Extent →
    List VentoyImageDiskRegion
  | regions, [] => regions
  | regions, extent :: extents =>
      putAll sizeT (putExtent regions (sizeT.trunc extent.size) extent.offset) extents

theorem length_le_length_putAll (sizeT : SizeT) (regions : List VentoyImageDiskRegion)
    (extents : List Extent) : regions.length ≤ (putAll sizeT regions extents).length := by
  induction extents generalizing regions with
  | nil => exact Nat.le_refl _
  | cons extent extents inductionHypothesis =>
      exact (length_le_length_putExtent _ _ _).trans (inductionHypothesis _)

theorem putAll_append (sizeT : SizeT) (regions : List VentoyImageDiskRegion)
    (first second : List Extent) :
    putAll sizeT regions (first ++ second) = putAll sizeT (putAll sizeT regions first) second := by
  induction first generalizing regions with
  | nil => rfl
  | cons extent first inductionHypothesis => exact inductionHypothesis _

namespace Table

variable {sizeT : SizeT}

/-- The table was not doubled more often than its regions need, and every
doubling was one call of `malloc`. -/
structure Tight (table : Table sizeT) : Prop where
  needed : ∀ doublings < table.doublings, capacity doublings < table.regions.length
  counted : table.mallocs = table.doublings + 1

theorem tight_empty (sizeT : SizeT) : (empty sizeT).Tight := ⟨by simp [empty], rfl⟩

theorem Tight.put {table : Table sizeT} (tight : table.Tight) (size offset : Nat)
    (fits : ¬ table.Full ∨ ¬ Opens table.regions size offset) :
    (table.put size offset fits).Tight where
  needed doublings below :=
    (tight.needed doublings below).trans_le (length_le_length_putExtent _ _ _)
  counted := tight.counted

theorem Tight.grown_put {table : Table sizeT} (tight : table.Tight) {size offset : Nat}
    (full : table.Full) (opens : Opens table.regions size offset)
    (below : table.doublings < maxDoublings sizeT) :
    ((table.grown below).put size offset (.inl (table.not_full_grown below))).Tight where
  needed doublings less := by
    have longer := length_putExtent_of_opens opens
    have bound := capacity_mono (Nat.le_of_lt_succ less)
    simp only [Table.put, grown]
    unfold Full at full
    omega
  counted := congrArg (· + 1) tight.counted

theorem Tight.doublings_eq {table : Table sizeT} (tight : table.Tight) :
    table.doublings = Nat.clog 2 ((table.regions.length + 1023) / 1024) := by
  have fits : table.regions.length ≤ 1024 * 2 ^ table.doublings := table.room
  apply Nat.le_antisymm
  · by_contra! less
    have needed := tight.needed _ less
    have enough := Nat.le_pow_clog Nat.one_lt_two ((table.regions.length + 1023) / 1024)
    unfold capacity at needed
    omega
  · rw [Nat.clog_le_iff_le_pow (by decide)]
    omega

end Table

/-- The allocations a table of some length takes: the first one and the doublings. -/
def allocationsFor (regionCount : Nat) : Nat := Nat.clog 2 ((regionCount + 1023) / 1024) + 1

section Run

variable {sizeT : SizeT}

/-- One call of `exfat_add_disk_region` on a table; `none` when the largest
capacity is to be doubled. -/
def Table.step (malloc : Nat → Bool) (table : Table sizeT) (extent : Extent) :
    Option (Table sizeT) :=
  if fits : ¬ table.Full ∨ ¬ Opens table.regions (sizeT.trunc extent.size) extent.offset then
    some (table.put _ _ fits)
  else if below : table.doublings < maxDoublings sizeT then
    if malloc table.mallocs then
      some ((table.grown below).put (sizeT.trunc extent.size) extent.offset
        (.inl (table.not_full_grown below)))
    else some table.refused
  else if sizeT = .bits64 ∨ malloc table.mallocs then none
  else some table.refused

def Table.run (malloc : Nat → Bool) : Table sizeT → List Extent → Option (Table sizeT)
  | table, [] => some table
  | table, extent :: extents => (table.step malloc extent).bind fun next => next.run malloc extents

variable {malloc : Nat → Bool}

section Step

variable {table : Table sizeT} {extent : Extent}

theorem Table.step_put
    (fits : ¬ table.Full ∨ ¬ Opens table.regions (sizeT.trunc extent.size) extent.offset) :
    table.step malloc extent = some (table.put _ _ fits) := dif_pos fits

theorem Table.step_grown
    (grows : ¬ (¬ table.Full ∨ ¬ Opens table.regions (sizeT.trunc extent.size) extent.offset))
    (below : table.doublings < maxDoublings sizeT) (granted : malloc table.mallocs = true) :
    table.step malloc extent = some ((table.grown below).put (sizeT.trunc extent.size)
      extent.offset (.inl (table.not_full_grown below))) := by
  rw [step, dif_neg grows, dif_pos below, if_pos granted]

theorem Table.step_refused
    (grows : ¬ (¬ table.Full ∨ ¬ Opens table.regions (sizeT.trunc extent.size) extent.offset))
    (below : table.doublings < maxDoublings sizeT) (refusal : malloc table.mallocs = false) :
    table.step malloc extent = some table.refused := by
  rw [step, dif_neg grows, dif_pos below, refusal]
  rfl

theorem Table.step_largest
    (grows : ¬ (¬ table.Full ∨ ¬ Opens table.regions (sizeT.trunc extent.size) extent.offset))
    (largest : ¬ table.doublings < maxDoublings sizeT) (granted : malloc table.mallocs = true) :
    table.step malloc extent = none := by
  rw [step, dif_neg grows, dif_neg largest, if_pos (.inr granted)]

end Step

/-- The code computes the step, and faults where there is none. -/
theorem exfatAddDiskRegion_step (table : Table sizeT) (extent : Extent) :
    match table.step malloc extent with
    | some next => ∃ rc, exfatAddDiskRegion ⟨sizeT, malloc⟩ table.globals
        (sizeT.trunc extent.size) extent.offset = .ok (rc, next.globals)
    | none => ∃ fault, exfatAddDiskRegion ⟨sizeT, malloc⟩ table.globals
        (sizeT.trunc extent.size) extent.offset = .error fault := by
  unfold Table.step
  by_cases fits : ¬ table.Full ∨ ¬ Opens table.regions (sizeT.trunc extent.size) extent.offset
  · rw [dif_pos fits]
    exact ⟨_, exfatAddDiskRegion_put malloc table _ _ fits⟩
  · rw [dif_neg fits]
    obtain ⟨full, opens⟩ := not_or.mp fits
    rw [not_not] at full opens
    by_cases below : table.doublings < maxDoublings sizeT
    · rw [dif_pos below]
      cases granted : malloc table.mallocs with
      | true => exact ⟨_, exfatAddDiskRegion_grown malloc table opens full below granted⟩
      | false => exact ⟨_, exfatAddDiskRegion_refused malloc table opens full (.inl below) granted⟩
    · have largest := Nat.le_antisymm table.bounded (Nat.le_of_not_lt below)
      rw [dif_neg below]
      by_cases asks : sizeT = .bits64 ∨ malloc table.mallocs = true
      · rw [if_pos asks]
        exact exfatAddDiskRegion_overflow malloc table opens full largest asks
      · rw [if_neg asks]
        obtain ⟨notWide, refusal⟩ := not_or.mp asks
        have narrow : sizeT = .bits32 := by
          cases sizeT with
          | bits32 => rfl
          | bits64 => exact absurd rfl notWide
        exact ⟨_, exfatAddDiskRegion_refused malloc table opens full (.inr narrow)
          (Bool.eq_false_of_not_eq_true refusal)⟩

theorem addExtents_run (table : Table sizeT) (extents : List Extent) :
    match table.run malloc extents with
    | some final => addExtents ⟨sizeT, malloc⟩ table.globals extents = .ok final.globals
    | none => ∃ fault, addExtents ⟨sizeT, malloc⟩ table.globals extents = .error fault := by
  induction extents generalizing table with
  | nil => rfl
  | cons extent extents inductionHypothesis =>
      have call := @exfatAddDiskRegion_step sizeT malloc table extent
      rw [Table.run]
      cases step : table.step malloc extent with
      | none =>
          rw [step] at call
          obtain ⟨fault, call⟩ := call
          exact ⟨fault, by simp only [addExtents, call, error_bind]⟩
      | some next =>
          rw [step] at call
          obtain ⟨rc, call⟩ := call
          have unfolded : addExtents ⟨sizeT, malloc⟩ table.globals (extent :: extents) =
              addExtents ⟨sizeT, malloc⟩ next.globals extents := by
            simp only [addExtents, call, ok_bind]
          rw [unfolded]
          exact inductionHypothesis next

theorem addExtents_of_run {table final : Table sizeT} {extents : List Extent}
    (run : table.run malloc extents = some final) :
    addExtents ⟨sizeT, malloc⟩ table.globals extents = .ok final.globals := by
  have computed := @addExtents_run sizeT malloc table extents
  rw [run] at computed
  exact computed

theorem addExtents_of_run_none {table : Table sizeT} {extents : List Extent}
    (run : table.run malloc extents = none) :
    ∃ fault, addExtents ⟨sizeT, malloc⟩ table.globals extents = .error fault := by
  have computed := @addExtents_run sizeT malloc table extents
  rw [run] at computed
  exact computed

theorem Table.Tight.step {table : Table sizeT} (tight : table.Tight) (extent : Extent)
    (fits : (putExtent table.regions (sizeT.trunc extent.size) extent.offset).length ≤
      maxRegions sizeT) :
    ∃ next : Table sizeT, next.Tight ∧
      next.regions = putExtent table.regions (sizeT.trunc extent.size) extent.offset ∧
      table.step (fun _ => true) extent = some next := by
  by_cases room : ¬ table.Full ∨ ¬ Opens table.regions (sizeT.trunc extent.size) extent.offset
  · exact ⟨_, tight.put _ _ room, rfl, Table.step_put room⟩
  · obtain ⟨full, opens⟩ := not_or.mp room
    rw [not_not] at full opens
    have below : table.doublings < maxDoublings sizeT := by
      by_contra notBelow
      have largest := Nat.le_antisymm table.bounded (Nat.le_of_not_lt notBelow)
      rw [length_putExtent_of_opens opens, full, largest] at fits
      exact Nat.not_succ_le_self _ fits
    exact ⟨_, tight.grown_put full opens below, rfl, Table.step_grown room below rfl⟩

/-- With memory enough, a run computes `putAll`. -/
theorem Table.Tight.run {table : Table sizeT} (tight : table.Tight) (extents : List Extent)
    (fits : (putAll sizeT table.regions extents).length ≤ maxRegions sizeT) :
    ∃ final : Table sizeT, final.Tight ∧ final.regions = putAll sizeT table.regions extents ∧
      table.run (fun _ => true) extents = some final := by
  induction extents generalizing table with
  | nil => exact ⟨table, tight, rfl, rfl⟩
  | cons extent extents inductionHypothesis =>
      obtain ⟨next, nextTight, regions, step⟩ :=
        tight.step extent ((length_le_length_putAll _ _ extents).trans fits)
      rw [putAll, ← regions] at fits ⊢
      obtain ⟨final, finalTight, finalRegions, run⟩ := inductionHypothesis nextTight fits
      refine ⟨final, finalTight, finalRegions, ?_⟩
      rw [Table.run, step]
      exact run

theorem Table.run_eq_none_of_lt (table : Table sizeT) (extents : List Extent)
    (exceeds : maxRegions sizeT < (putAll sizeT table.regions extents).length) :
    table.run (fun _ => true) extents = none := by
  induction extents generalizing table with
  | nil =>
      have room := table.room.trans (capacity_mono table.bounded)
      exact absurd (exceeds.trans_le room) (Nat.lt_irrefl _)
  | cons extent extents inductionHypothesis =>
      rw [Table.run]
      by_cases fits : ¬ table.Full ∨ ¬ Opens table.regions (sizeT.trunc extent.size) extent.offset
      · rw [Table.step_put fits]
        exact inductionHypothesis (table.put _ _ fits) exceeds
      · by_cases below : table.doublings < maxDoublings sizeT
        · rw [Table.step_grown fits below rfl]
          exact inductionHypothesis
            ((table.grown below).put _ _ (.inl (table.not_full_grown below))) exceeds
        · rw [Table.step_largest fits below rfl]
          rfl

end Run

theorem reallocImageLocation_fresh {sizeT : SizeT} {malloc : Nat → Bool}
    (granted : malloc 0 = true) :
    reallocImageLocation ⟨sizeT, malloc⟩ .fresh 1024 = .ok (0, (Table.empty sizeT).globals) := by
  have len : locationLen sizeT (capacity 0) = _ := locationLen_capacity (Nat.zero_le _)
  simp only [reallocImageLocation, show (1024 : Int) = capacity 0 by rfl, len, ok_bind,
    Globals.fresh, granted, Bool.not_true, Bool.false_eq_true, if_false]
  rw [if_neg (by simp)]
  rfl

theorem reallocImageLocation_fresh_refused {sizeT : SizeT} {malloc : Nat → Bool}
    (refusal : malloc 0 = false) :
    reallocImageLocation ⟨sizeT, malloc⟩ .fresh 1024 = .ok (-1, ⟨0, none, 1⟩) := by
  have len : locationLen sizeT (capacity 0) = _ := locationLen_capacity (Nat.zero_le _)
  simp [reallocImageLocation, show (1024 : Int) = capacity 0 by rfl, len, Globals.fresh, refusal]

section Built

variable {process : Process}

def Built (sizeT : SizeT) (globals : Globals) : Prop :=
  globals.gImageLocation = none ∨ ∃ table : Table sizeT, globals = table.globals

theorem Built.addDiskRegion {before after : Globals} (built : Built process.sizeT before)
    {size offset : Nat} {rc : Int}
    (call : exfatAddDiskRegion process before (process.sizeT.trunc size) offset =
      .ok (rc, after)) : Built process.sizeT after := by
  rcases built with absent | ⟨table, rfl⟩
  · unfold exfatAddDiskRegion at call
    rw [absent] at call
    split_ifs at call
    cases call
    exact .inl absent
  · have step := @exfatAddDiskRegion_step process.sizeT process.malloc table ⟨offset, size⟩
    cases next : table.step process.malloc ⟨offset, size⟩ with
    | none =>
        rw [next] at step
        obtain ⟨fault, computed⟩ := step
        rw [computed] at call
        cases call
    | some grown =>
        rw [next] at step
        obtain ⟨code, computed⟩ := step
        rw [computed] at call
        cases call
        exact .inr ⟨grown, rfl⟩

theorem Built.imageLocationLoop {volume : Volume} {node : ExfatNode} {left : Nat}
    {cluster : UInt32} {lastSize lastOffset : Nat} {before after : Globals} {rc : Int}
    (built : Built process.sizeT before)
    (run : imageLocationLoop process volume node left cluster lastSize lastOffset before =
      .ok (rc, after)) : Built process.sizeT after := by
  induction left using Nat.strong_induction_on generalizing cluster lastSize lastOffset before with
  | _ left inductionHypothesis =>
      rw [Exfat.imageLocationLoop] at run
      split_ifs at run with more invalid
      · cases run
        exact built
      · have smaller : left - min (clusterSize volume.sb.toExfatSuperBlock) left < left := by
          have positive := clusterSize_pos volume.sb.toExfatSuperBlock
          omega
        obtain ⟨curOffset, -, rest⟩ := bind_eq_ok_iff.mp run
        split_ifs at rest with adjacent
        · obtain ⟨next, -, tail⟩ := bind_eq_ok_iff.mp rest
          exact inductionHypothesis _ smaller built tail
        · obtain ⟨⟨code, flushed⟩, call, later⟩ := bind_eq_ok_iff.mp rest
          obtain ⟨next, -, tail⟩ := bind_eq_ok_iff.mp later
          exact inductionHypothesis _ smaller (built.addDiskRegion call) tail
      · obtain ⟨⟨code, flushed⟩, call, result⟩ := bind_eq_ok_iff.mp run
        cases result
        exact built.addDiskRegion call

/-- Whatever `malloc` answers, a first call leaves a table within its capacity. -/
theorem built_of_exfatGetImageLocation {volume : Volume} {node : ExfatNode} {rc : Int}
    {globals : Globals}
    (returned : exfatGetImageLocation process volume node .fresh = .ok (rc, globals)) :
    Built process.sizeT globals := by
  have allocated : ∀ code first,
      reallocImageLocation process .fresh 1024 = .ok (code, first) →
        Built process.sizeT first := by
    intro code first call
    cases granted : process.malloc 0 with
    | true =>
        have fresh : reallocImageLocation process .fresh 1024 = _ :=
          @reallocImageLocation_fresh process.sizeT process.malloc granted
        rw [fresh] at call
        cases call
        exact .inr ⟨_, rfl⟩
    | false =>
        have fresh : reallocImageLocation process .fresh 1024 = _ :=
          @reallocImageLocation_fresh_refused process.sizeT process.malloc granted
        rw [fresh] at call
        cases call
        exact .inl rfl
  obtain ⟨⟨code, first⟩, call, rest⟩ := bind_eq_ok_iff.mp returned
  obtain ⟨⟨cluster, rewound⟩, -, walk⟩ := bind_eq_ok_iff.mp rest
  simp only at walk
  split_ifs at walk
  · cases walk
    exact allocated _ _ call
  · exact (allocated _ _ call).imageLocationLoop walk

end Built

def fileRegions (sizeT : SizeT) (volume : Volume) (node : ExfatNode) :
    List VentoyImageDiskRegion := putAll sizeT [] (handedOver volume node)

def regionsNeeded (sizeT : SizeT) (volume : Volume) (node : ExfatNode) : Nat :=
  (fileRegions sizeT volume node).length

section Call

variable (sizeT : SizeT) {volume : Volume} {node : ExfatNode}

theorem exfatGetImageLocation_allocating (nonempty : 0 < node.size.toNat)
    (sized : node.size.toNat ≤
      volume.sb.clusterCount.toNat * clusterSize volume.sb.toExfatSuperBlock)
    (fits : regionsNeeded sizeT volume node ≤ maxRegions sizeT) :
    ∃ final : Table sizeT, final.Tight ∧ final.regions = fileRegions sizeT volume node ∧
      exfatGetImageLocation (.allocating sizeT) volume node .fresh =
        .ok (if ValidChain volume node then 0 else -eio, final.globals) := by
  obtain ⟨final, tight, regions, run⟩ :=
    (Table.tight_empty sizeT).run (handedOver volume node) fits
  refine ⟨final, tight, regions, ?_⟩
  rw [exfatGetImageLocation_eq _ nonempty sized, Process.allocating,
    reallocImageLocation_fresh rfl]
  simp only [ok_bind, addExtents_of_run run]
  rfl

/-- Such a call leaves the semantics of C when the table gets too large. -/
theorem exfatGetImageLocation_allocating_overflow (nonempty : 0 < node.size.toNat)
    (sized : node.size.toNat ≤
      volume.sb.clusterCount.toNat * clusterSize volume.sb.toExfatSuperBlock)
    (exceeds : maxRegions sizeT < regionsNeeded sizeT volume node) :
    ∃ fault, exfatGetImageLocation (.allocating sizeT) volume node .fresh = .error fault := by
  obtain ⟨fault, run⟩ := addExtents_of_run_none
    ((Table.empty sizeT).run_eq_none_of_lt (handedOver volume node) exceeds)
  refine ⟨fault, ?_⟩
  rw [exfatGetImageLocation_eq _ nonempty sized, Process.allocating,
    reallocImageLocation_fresh rfl]
  simp only [ok_bind, run, error_bind]

end Call

end Vtoydump.Exfat
