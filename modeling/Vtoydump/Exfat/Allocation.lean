import Vtoydump.Exfat.WordSize

/-!
# Failed allocations

The loop does not look at what `exfat_add_disk_region` returns, and the walk
does not look at what `realloc_image_location` returns.  A refused doubling
drops the extent that asked for it, and a refused first allocation leaves no
table to put extents into.
-/

namespace Vtoydump.Exfat

open CRun Layout

def Dropped (before after : Globals) : Prop :=
  before.mallocs < after.mallocs ∧ after.gImageMaxRegion = before.gImageMaxRegion

def NothingAppended (process : Process) : Globals → List Extent → Prop
  | _, [] => True
  | before, extent :: extents => ∀ rc after,
      exfatAddDiskRegion process before (process.sizeT.trunc extent.size) extent.offset =
          .ok (rc, after) →
        (tableRegions after).length ≤ (tableRegions before).length ∧
          NothingAppended process after extents

def NoGap (process : Process) : Globals → List Extent → Prop
  | _, [] => True
  | before, extent :: extents => ∀ rc after,
      exfatAddDiskRegion process before (process.sizeT.trunc extent.size) extent.offset =
          .ok (rc, after) →
        (Dropped before after → NothingAppended process after extents) ∧
          NoGap process after extents

/-- The first call fails, or it builds the table that it would have built with
every allocation succeeding, without a gap on the way. -/
def NeverIncomplete (process : Process) (volume : Volume) (node : ExfatNode) : Prop :=
  ∃ rc globals, exfatGetImageLocation process volume node .fresh = .ok (rc, globals) ∧
    (rc ≠ 0 ∨
      (∃ full, exfatGetImageLocation (.allocating process.sizeT) volume node .fresh =
          .ok (0, full) ∧
        globals.gImageLocation.map TableBlock.location =
          full.gImageLocation.map TableBlock.location) ∧
      ∀ result allocated,
        reallocImageLocation process .fresh 1024 = .ok (result, allocated) →
          NoGap process allocated (handedOver volume node))

/-- Every allocation succeeds that the table of the file takes. -/
def Affords (process : Process) (volume : Volume) (node : ExfatNode) : Prop :=
  regionsNeeded process.sizeT volume node ≤ maxRegions process.sizeT ∧
    ∀ request < allocationsFor (regionsNeeded process.sizeT volume node),
      process.malloc request = true

/-- The extents before an invalid cluster meet neither a missing table nor the
largest capacity. -/
def StopsSafely (process : Process) (volume : Volume) (node : ExfatNode) : Prop :=
  if process.malloc 0 = true then
    ((Table.empty process.sizeT).run process.malloc (handedOver volume node)).isSome = true
  else ∀ extent ∈ handedOver volume node, process.sizeT.trunc extent.size = 0

section Runs

variable {sizeT : SizeT} {malloc : Nat → Bool}

theorem Table.step_mono {table next : Table sizeT} {extent : Extent}
    (step : table.step malloc extent = some next) :
    table.mallocs ≤ next.mallocs ∧ table.regions.length ≤ next.regions.length := by
  unfold Table.step at step
  split_ifs at step
  · cases step
    exact ⟨Nat.le_refl _, length_le_length_putExtent _ _ _⟩
  · cases step
    exact ⟨Nat.le_succ _, length_le_length_putExtent _ _ _⟩
  · cases step
    exact ⟨Nat.le_succ _, Nat.le_refl _⟩
  · cases step
    exact ⟨Nat.le_succ _, Nat.le_refl _⟩

theorem Table.run_cons_eq_some {table final : Table sizeT} {extent : Extent}
    {extents : List Extent} (run : table.run malloc (extent :: extents) = some final) :
    ∃ next, table.step malloc extent = some next ∧ next.run malloc extents = some final :=
  Option.bind_eq_some_iff.mp run

theorem Table.run_mono {table final : Table sizeT} {extents : List Extent}
    (run : table.run malloc extents = some final) :
    table.mallocs ≤ final.mallocs ∧ table.regions.length ≤ final.regions.length := by
  induction extents generalizing table with
  | nil =>
      cases run
      exact ⟨Nat.le_refl _, Nat.le_refl _⟩
  | cons extent extents inductionHypothesis =>
      obtain ⟨next, step, rest⟩ := Table.run_cons_eq_some run
      obtain ⟨mallocs, regions⟩ := inductionHypothesis rest
      obtain ⟨stepMallocs, stepRegions⟩ := Table.step_mono step
      exact ⟨stepMallocs.trans mallocs, stepRegions.trans regions⟩

theorem exfatAddDiskRegion_of_step {table next : Table sizeT} {extent : Extent}
    (step : table.step malloc extent = some next) :
    ∃ rc, exfatAddDiskRegion ⟨sizeT, malloc⟩ table.globals (sizeT.trunc extent.size)
      extent.offset = .ok (rc, next.globals) := by
  have computed := @exfatAddDiskRegion_step sizeT malloc table extent
  rw [step] at computed
  exact computed

theorem noGap_cons_iff {table next : Table sizeT} {extent : Extent} {extents : List Extent}
    (step : table.step malloc extent = some next) :
    NoGap ⟨sizeT, malloc⟩ table.globals (extent :: extents) ↔
      (Dropped table.globals next.globals →
        NothingAppended ⟨sizeT, malloc⟩ next.globals extents) ∧
      NoGap ⟨sizeT, malloc⟩ next.globals extents := by
  obtain ⟨rc, call⟩ := exfatAddDiskRegion_of_step step
  constructor
  · intro noGap
    exact noGap rc next.globals call
  · intro rest _ after returned
    rw [call] at returned
    cases returned
    exact rest

theorem nothingAppended_cons_iff {table next : Table sizeT} {extent : Extent}
    {extents : List Extent} (step : table.step malloc extent = some next) :
    NothingAppended ⟨sizeT, malloc⟩ table.globals (extent :: extents) ↔
      next.regions.length ≤ table.regions.length ∧
      NothingAppended ⟨sizeT, malloc⟩ next.globals extents := by
  obtain ⟨rc, call⟩ := exfatAddDiskRegion_of_step step
  constructor
  · intro nothing
    exact nothing rc next.globals call
  · intro rest _ after returned
    rw [call] at returned
    cases returned
    exact rest

theorem length_le_of_nothingAppended {table final : Table sizeT} {extents : List Extent}
    (run : table.run malloc extents = some final)
    (nothing : NothingAppended ⟨sizeT, malloc⟩ table.globals extents) :
    final.regions.length ≤ table.regions.length := by
  induction extents generalizing table with
  | nil =>
      cases run
      exact Nat.le_refl _
  | cons extent extents inductionHypothesis =>
      obtain ⟨next, step, rest⟩ := Table.run_cons_eq_some run
      obtain ⟨here, later⟩ := (nothingAppended_cons_iff step).mp nothing
      exact (inductionHypothesis rest later).trans here

theorem step_of_granted {table next : Table sizeT} {extent : Extent}
    (step : table.step (fun _ => true) extent = some next)
    (granted : ∀ request, table.mallocs ≤ request → request < next.mallocs →
      malloc request = true) :
    table.step malloc extent = some next ∧ ¬ Dropped table.globals next.globals := by
  by_cases fits : ¬ table.Full ∨ ¬ Opens table.regions (sizeT.trunc extent.size) extent.offset
  · rw [Table.step_put fits] at step
    cases step
    refine ⟨Table.step_put fits, ?_⟩
    rintro ⟨more, -⟩
    exact Nat.lt_irrefl _ more
  · by_cases below : table.doublings < maxDoublings sizeT
    · rw [Table.step_grown fits below rfl] at step
      cases step
      have answer := granted table.mallocs (Nat.le_refl _) (Nat.lt_succ_self _)
      refine ⟨Table.step_grown fits below answer, ?_⟩
      rintro ⟨-, same⟩
      have larger := capacity_strictMono (Nat.lt_succ_self table.doublings)
      exact larger.ne' (Int.ofNat_inj.mp same)
    · rw [Table.step_largest fits below rfl] at step
      cases step

/-- A run whose requests are granted is the run with memory enough. -/
theorem run_of_granted {table final : Table sizeT} {extents : List Extent}
    (run : table.run (fun _ => true) extents = some final)
    (granted : ∀ request, table.mallocs ≤ request → request < final.mallocs →
      malloc request = true) :
    table.run malloc extents = some final ∧ NoGap ⟨sizeT, malloc⟩ table.globals extents := by
  induction extents generalizing table with
  | nil => exact ⟨run, trivial⟩
  | cons extent extents inductionHypothesis =>
      obtain ⟨next, step, rest⟩ := Table.run_cons_eq_some run
      obtain ⟨before, -⟩ := Table.step_mono step
      obtain ⟨after, -⟩ := Table.run_mono rest
      obtain ⟨same, kept⟩ := step_of_granted step fun request lower upper =>
        granted request lower (upper.trans_le after)
      obtain ⟨later, noGap⟩ := inductionHypothesis rest fun request lower upper =>
        granted request (before.trans lower) upper
      constructor
      · rw [Table.run, same]
        exact later
      · exact (noGap_cons_iff same).mpr ⟨fun dropped => absurd dropped kept, noGap⟩

/-- A run that ends with the table of the run with memory enough, and has no gap,
was granted every request of that run. -/
theorem granted_of_noGap {table final full : Table sizeT} {extents : List Extent}
    (fullRun : table.run (fun _ => true) extents = some full)
    (run : table.run malloc extents = some final)
    (same : final.regions.length = full.regions.length)
    (noGap : NoGap ⟨sizeT, malloc⟩ table.globals extents) :
    ∀ request, table.mallocs ≤ request → request < full.mallocs → malloc request = true := by
  induction extents generalizing table with
  | nil =>
      cases fullRun
      intro request lower upper
      exact absurd (lower.trans_lt upper) (Nat.lt_irrefl _)
  | cons extent extents inductionHypothesis =>
      obtain ⟨fullNext, fullStep, fullRest⟩ := Table.run_cons_eq_some fullRun
      by_cases fits : ¬ table.Full ∨ ¬ Opens table.regions (sizeT.trunc extent.size) extent.offset
      · rw [Table.step_put fits] at fullStep
        cases fullStep
        rw [Table.run, Table.step_put fits] at run
        have rest := ((noGap_cons_iff (Table.step_put fits)).mp noGap).2
        have others := inductionHypothesis fullRest run rest
        exact others
      · by_cases below : table.doublings < maxDoublings sizeT
        · rw [Table.step_grown fits below rfl] at fullStep
          cases fullStep
          cases answer : malloc table.mallocs with
          | true =>
              rw [Table.run, Table.step_grown fits below answer] at run
              have rest := ((noGap_cons_iff (Table.step_grown fits below answer)).mp noGap).2
              have others := inductionHypothesis fullRest run rest
              intro request lower upper
              rcases Nat.eq_or_lt_of_le lower with rfl | later
              · exact answer
              · exact others request later upper
          | false =>
              -- The extent is dropped, so the table stays shorter than the full one.
              rw [Table.run, Table.step_refused fits below answer] at run
              have after := ((noGap_cons_iff (Table.step_refused fits below answer)).mp noGap).1
                ⟨Nat.lt_succ_self _, rfl⟩
              have short := length_le_of_nothingAppended run after
              have opens := not_not.mp (not_or.mp fits).2
              have longer := (Table.run_mono fullRest).2
              simp only [Table.put, Table.grown, length_putExtent_of_opens opens] at longer
              rw [same] at short
              exact absurd (longer.trans short) (Nat.not_succ_le_self _)
        · rw [Table.step_largest fits below rfl] at fullStep
          cases fullStep

end Runs

section Calls

variable {sizeT : SizeT} {malloc : Nat → Bool}

theorem addExtents_refused (extents : List Extent) :
    (∀ extent ∈ extents, sizeT.trunc extent.size = 0) ∧
        addExtents ⟨sizeT, malloc⟩ ⟨0, none, 1⟩ extents = .ok ⟨0, none, 1⟩ ∨
      (¬ ∀ extent ∈ extents, sizeT.trunc extent.size = 0) ∧
        addExtents ⟨sizeT, malloc⟩ ⟨0, none, 1⟩ extents = .error .nullDeref := by
  induction extents with
  | nil => exact .inl ⟨by simp, rfl⟩
  | cons extent extents inductionHypothesis =>
      by_cases empty : sizeT.trunc extent.size = 0
      · have unfolded : addExtents ⟨sizeT, malloc⟩ ⟨0, none, 1⟩ (extent :: extents) =
            addExtents ⟨sizeT, malloc⟩ ⟨0, none, 1⟩ extents := by
          simp [addExtents, exfatAddDiskRegion, empty]
        rw [unfolded, List.forall_mem_cons]
        simpa only [empty, true_and] using inductionHypothesis
      · refine .inr ⟨fun all => empty (all extent List.mem_cons_self), ?_⟩
        simp [addExtents, exfatAddDiskRegion, empty]

variable {volume : Volume} {node : ExfatNode} (nonempty : 0 < node.size.toNat)
  (sized : node.size.toNat ≤
    volume.sb.clusterCount.toNat * clusterSize volume.sb.toExfatSuperBlock)

include nonempty sized

theorem exfatGetImageLocation_granted (granted : malloc 0 = true) :
    exfatGetImageLocation ⟨sizeT, malloc⟩ volume node .fresh = (do
      let flushed ← addExtents ⟨sizeT, malloc⟩ (Table.empty sizeT).globals (handedOver volume node)
      return (if ValidChain volume node then 0 else -eio, flushed)) := by
  rw [exfatGetImageLocation_eq _ nonempty sized, reallocImageLocation_fresh granted]
  rfl

theorem exfatGetImageLocation_refused (refusal : malloc 0 = false) :
    exfatGetImageLocation ⟨sizeT, malloc⟩ volume node .fresh = (do
      let flushed ← addExtents ⟨sizeT, malloc⟩ ⟨0, none, 1⟩ (handedOver volume node)
      return (if ValidChain volume node then 0 else -eio, flushed)) := by
  rw [exfatGetImageLocation_eq _ nonempty sized, reallocImageLocation_fresh_refused refusal]
  rfl

theorem returned_eq {process : Process} {rc : Int} {globals : Globals}
    (returned : exfatGetImageLocation process volume node .fresh = .ok (rc, globals)) :
    rc = if ValidChain volume node then 0 else -eio := by
  rw [exfatGetImageLocation_eq _ nonempty sized] at returned
  obtain ⟨allocation, -, rest⟩ := bind_eq_ok_iff.mp returned
  obtain ⟨flushed, -, result⟩ := bind_eq_ok_iff.mp rest
  cases result
  rfl

theorem neverIncomplete_of_not_validChain (broken : ¬ ValidChain volume node) :
    NeverIncomplete ⟨sizeT, malloc⟩ volume node ↔ StopsSafely ⟨sizeT, malloc⟩ volume node := by
  have completes : NeverIncomplete ⟨sizeT, malloc⟩ volume node ↔ ∃ result,
      exfatGetImageLocation ⟨sizeT, malloc⟩ volume node .fresh = .ok result := by
    constructor
    · rintro ⟨rc, globals, returned, -⟩
      exact ⟨_, returned⟩
    · rintro ⟨⟨rc, globals⟩, returned⟩
      refine ⟨rc, globals, returned, .inl ?_⟩
      rw [returned_eq nonempty sized returned, if_neg broken]
      decide
  rw [completes, StopsSafely]
  cases granted : malloc 0 with
  | true =>
      rw [exfatGetImageLocation_granted nonempty sized granted, if_pos granted]
      cases run : (Table.empty sizeT).run malloc (handedOver volume node) with
      | none =>
          obtain ⟨fault, computed⟩ := addExtents_of_run_none run
          simp [computed]
      | some final => simp [addExtents_of_run run]
  | false =>
      have refusal : ¬ malloc 0 = true := Bool.eq_false_iff.mp granted
      rw [exfatGetImageLocation_refused nonempty sized granted, if_neg refusal]
      rcases @addExtents_refused sizeT malloc (handedOver volume node) with
        ⟨empty, computed⟩ | ⟨some_extent, computed⟩
      · simp only [computed, ok_bind, pure_eq_ok, Except.ok.injEq, exists_eq', true_iff]
        exact empty
      · simp only [computed, error_bind, reduceCtorEq, exists_false, false_iff]
        exact some_extent

theorem affords_of_neverIncomplete (chain : ValidChain volume node)
    (never : NeverIncomplete ⟨sizeT, malloc⟩ volume node) :
    Affords ⟨sizeT, malloc⟩ volume node := by
  obtain ⟨rc, globals, returned, outcome⟩ := never
  have success := returned_eq nonempty sized returned
  rw [if_pos chain] at success
  obtain ⟨⟨full, fullReturned, same⟩, noGap⟩ := outcome.resolve_left (not_not_intro success)
  have fits := regionsNeeded_le_of_returned nonempty sized fullReturned
  obtain ⟨fullFinal, tight, regions, fullRun⟩ :=
    (Table.tight_empty sizeT).run (handedOver volume node) fits
  rw [Process.allocating, exfatGetImageLocation_granted nonempty sized rfl,
    addExtents_of_run fullRun, if_pos chain] at fullReturned
  cases fullReturned
  cases granted : malloc 0 with
  | false =>
      -- No table is left to compare with that of the full run.
      rw [exfatGetImageLocation_refused nonempty sized granted] at returned
      rcases @addExtents_refused sizeT malloc (handedOver volume node) with
        ⟨-, computed⟩ | ⟨-, computed⟩
      · rw [computed, if_pos chain] at returned
        cases returned
        cases same
      · rw [computed] at returned
        cases returned
  | true =>
      rw [exfatGetImageLocation_granted nonempty sized granted] at returned
      cases run : (Table.empty sizeT).run malloc (handedOver volume node) with
      | none =>
          obtain ⟨fault, computed⟩ := addExtents_of_run_none run
          rw [computed] at returned
          cases returned
      | some final =>
          rw [addExtents_of_run run, if_pos chain] at returned
          cases returned
          have lengths : final.regions.length = fullFinal.regions.length := by
            have locations := Option.some.inj same
            exact congrArg (fun location => location.regions.length) locations
          have others := granted_of_noGap fullRun run lengths
            (noGap 0 _ (reallocImageLocation_fresh granted))
          have count : fullFinal.mallocs =
              allocationsFor (regionsNeeded sizeT volume node) := by
            rw [tight.counted, tight.doublings_eq, regions]
            rfl
          refine ⟨fits, fun request below => ?_⟩
          rcases Nat.eq_zero_or_pos request with rfl | positive
          · exact granted
          · exact others request positive (count ▸ below)

theorem neverIncomplete_of_affords (affords : Affords ⟨sizeT, malloc⟩ volume node)
    (chain : ValidChain volume node) : NeverIncomplete ⟨sizeT, malloc⟩ volume node := by
  obtain ⟨fits, answers⟩ := affords
  have granted : malloc 0 = true := answers 0 (Nat.succ_pos _)
  obtain ⟨final, tight, regions, fullRun⟩ :=
    (Table.tight_empty sizeT).run (handedOver volume node) fits
  have count : final.mallocs = allocationsFor (regionsNeeded sizeT volume node) := by
    rw [tight.counted, tight.doublings_eq, regions]
    rfl
  obtain ⟨run, noGap⟩ := @run_of_granted sizeT malloc _ _ _ fullRun
    fun request _ below => answers request (count ▸ below)
  refine ⟨0, final.globals, ?_, .inr ⟨⟨final.globals, ?_, rfl⟩, ?_⟩⟩
  · rw [exfatGetImageLocation_granted nonempty sized granted, addExtents_of_run run, if_pos chain]
    rfl
  · rw [Process.allocating, exfatGetImageLocation_granted nonempty sized rfl,
      addExtents_of_run fullRun, if_pos chain]
    rfl
  · intro result allocated call
    rw [reallocImageLocation_fresh granted] at call
    cases call
    exact noGap

end Calls

/-- A table is never incomplete if and only if the allocations it takes succeed, or
the chain is broken and what stands before the break does no harm. -/
theorem neverIncomplete_iff (process : Process) (volume : Volume) (node : ExfatNode)
    (nonempty : 0 < node.size.toNat)
    (sized : node.size.toNat ≤
      volume.sb.clusterCount.toNat * clusterSize volume.sb.toExfatSuperBlock) :
    NeverIncomplete process volume node ↔
      ValidChain volume node ∧ Affords process volume node ∨
      ¬ ValidChain volume node ∧ StopsSafely process volume node := by
  by_cases chain : ValidChain volume node
  · simp only [chain, true_and, not_true_eq_false, false_and, or_false]
    constructor
    · exact affords_of_neverIncomplete nonempty sized chain
    · intro affords
      exact neverIncomplete_of_affords nonempty sized affords chain
  · simp only [chain, false_and, not_false_eq_true, true_and, false_or]
    exact neverIncomplete_of_not_validChain nonempty sized chain

/-- The doubling that the last two of 1026 regions need is refused once. -/
theorem neverIncomplete_iff_refusedDoubling :
    NeverIncomplete ⟨.bits64, fun request => request != 1⟩ shuttleVolume (shuttleFile 1026) ↔
      ValidChain shuttleVolume (shuttleFile 1026) ∧
          Affords ⟨.bits64, fun request => request != 1⟩ shuttleVolume (shuttleFile 1026) ∨
        ¬ ValidChain shuttleVolume (shuttleFile 1026) ∧
          StopsSafely ⟨.bits64, fun request => request != 1⟩ shuttleVolume (shuttleFile 1026) :=
  neverIncomplete_iff ⟨.bits64, fun request => request != 1⟩ shuttleVolume (shuttleFile 1026)
    (by decide) (by decide)

/-- The first doubling fails, the second would not. -/
theorem not_neverIncomplete_shuttle :
    ¬ NeverIncomplete ⟨.bits64, fun request => request != 1⟩ shuttleVolume (shuttleFile 1026) := by
  intro never
  obtain ⟨-, answers⟩ := affords_of_neverIncomplete (by decide) (by decide)
    validChain_shuttleFile never
  rw [regionsNeeded_shuttleFile (by decide)] at answers
  have second := answers 1 (by decide)
  cases second

end Vtoydump.Exfat
