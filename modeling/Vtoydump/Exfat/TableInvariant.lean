import Vtoydump.Exfat.Allocation

/-!
# What every call keeps

From the first allocation on, any calls of `exfat_add_disk_region` with any
answers of `malloc` keep the table within its capacity, its header as it was
written and its regions numbered, and no region ends on the disk where the next
one begins.  The return value does not tell a refused allocation from a size of
`SIZE_MAX`, and the 32-bit build must not double 2 ^ 27 entries.
-/

namespace Vtoydump.Exfat

open CRun Layout

/-- The second region is numbered behind the first one and does not continue it on the
disk. -/
def Linked (first second : VentoyImageDiskRegion) : Prop :=
  second.imageStartSector = first.imageStartSector + first.imageSectorCount ∧
    diskStop first ≠ second.diskStartSector

/-- The region list of a table that is being built. -/
structure LinkedRegions (regions : List VentoyImageDiskRegion) : Prop where
  first : ∀ region, regions.head? = some region → region.imageStartSector = 0
  chain : regions.IsChain Linked

structure TableInvariant (globals : Globals) (location : VentoyImageLocation) : Prop where
  held : globals.gImageLocation.map TableBlock.location = some location
  counted : (location.regions.length : Int) ≤ globals.gImageMaxRegion
  guid : location.guid = ventoyGuid
  imageSectors : location.imageSectorSize = 2048
  diskSectors : location.diskSectorSize = 512
  linked : LinkedRegions location.regions

inductive Changes : List VentoyImageDiskRegion → List VentoyImageDiskRegion → Prop where
  | same (regions : List VentoyImageDiskRegion) : Changes regions regions
  | extended (front : List VentoyImageDiskRegion) (last : VentoyImageDiskRegion)
      (count : UInt32) :
      Changes (front ++ [last]) (front ++ [{ last with imageSectorCount := count }])
  | appended (regions : List VentoyImageDiskRegion) (region : VentoyImageDiskRegion) :
      Changes regions (regions ++ [region])

/-- The indices of the regions that a call reads or writes, each with the capacity at
that moment. -/
def regionAccesses (process : Process) (globals : Globals) (size offset : Nat) :
    List (Nat × Int) :=
  if size = 0 then []
  else
    match globals.gImageLocation with
    | none => []
    | some block =>
        let count := block.location.regions.length
        match block.location.regions.getLast? with
        | none => [(0, globals.gImageMaxRegion)]
        | some last =>
            if diskStop last = UInt64.ofNat (offset / 512) then
              [(count - 1, globals.gImageMaxRegion)]
            else if (count : Int) = globals.gImageMaxRegion then
              match reallocImageLocation process globals (globals.gImageMaxRegion * 2) with
              | .ok (0, grown) => [(count - 1, globals.gImageMaxRegion),
                  (count - 1, grown.gImageMaxRegion), (count, grown.gImageMaxRegion)]
              | _ => [(count - 1, globals.gImageMaxRegion)]
            else [(count - 1, globals.gImageMaxRegion), (count, globals.gImageMaxRegion)]

def Doubles (process : Process) (globals : Globals) (size offset : Nat) : Prop :=
  ∃ block, globals.gImageLocation = some block ∧
    Opens block.location.regions size offset ∧
    (block.location.regions.length : Int) = globals.gImageMaxRegion ∧
    process.malloc globals.mallocs = true

/-- The capacities a build can address stay below this one. -/
def capacityLimit : SizeT → Int
  | .bits32 => 268435456
  | .bits64 => 1073741824

def StaysBelow (limit : Int) (process : Process) (globals : Globals) (size offset : Nat) :
    Prop :=
  globals.gImageMaxRegion < limit ∧
    (Doubles process globals size offset → globals.gImageMaxRegion * 2 < limit)

/-- The states after a first allocation and any calls that stay below a capacity. -/
inductive Reached (limit : Int) (process : Process) : Globals → Prop where
  | allocated {globals : Globals}
      (call : reallocImageLocation process .fresh 1024 = .ok (0, globals)) :
      Reached limit process globals
  | added {before after : Globals} {size offset : Nat} {rc : Int}
      (earlier : Reached limit process before) (sized : size < process.sizeT.modulus)
      (below : StaysBelow limit process before size offset)
      (call : exfatAddDiskRegion process before size offset = .ok (rc, after)) :
      Reached limit process after

/-- A call returns, stays within the capacity and changes at most the last region. -/
structure KeepsTable (process : Process) (before : Globals) (location : VentoyImageLocation)
    (size offset : Nat) (rc : Int) (after : Globals) : Prop where
  returned : exfatAddDiskRegion process before size offset = .ok (rc, after)
  within : ∀ access ∈ regionAccesses process before size offset, (access.1 : Int) < access.2
  changed : ∃ next, TableInvariant after next ∧ Changes location.regions next.regions

def Unchanged (before after : Globals) : Prop :=
  after.gImageLocation = before.gImageLocation ∧
    after.gImageMaxRegion = before.gImageMaxRegion

section Regions

variable {regions : List VentoyImageDiskRegion} {size offset : Nat}

theorem putExtent_concat (front : List VentoyImageDiskRegion) (last : VentoyImageDiskRegion)
    (size offset : Nat) :
    putExtent (front ++ [last]) size offset =
      if size = 0 then front ++ [last]
      else if diskStop last = UInt64.ofNat (offset / 512) then
        front ++ [{ last with
          imageSectorCount := last.imageSectorCount + UInt32.ofNat (size / 2048) }]
      else front ++ [last] ++ [⟨UInt32.ofNat (size / 2048),
        last.imageStartSector + last.imageSectorCount, UInt64.ofNat (offset / 512)⟩] := by
  simp only [putExtent, List.getLast?_concat, List.dropLast_concat]

theorem changes_putExtent (regions : List VentoyImageDiskRegion) (size offset : Nat) :
    Changes regions (putExtent regions size offset) := by
  rcases List.eq_nil_or_concat' regions with rfl | ⟨front, last, rfl⟩
  · unfold putExtent
    split_ifs
    · exact .same []
    · exact .appended [] _
  · rw [putExtent_concat]
    split_ifs
    · exact .same _
    · exact .extended front last _
    · exact .appended _ _

theorem linkedRegions_nil : LinkedRegions [] where
  first := by
    rintro region ⟨⟩
  chain := .nil

/-- The count of the last region decides neither its number nor its place. -/
theorem LinkedRegions.extended {front : List VentoyImageDiskRegion}
    {last : VentoyImageDiskRegion} (linked : LinkedRegions (front ++ [last]))
    (count : UInt32) :
    LinkedRegions (front ++ [{ last with imageSectorCount := count }]) where
  first := by
    intro region found
    cases front with
    | nil =>
        cases found
        exact linked.first last rfl
    | cons region front =>
        cases found
        exact linked.first region rfl
  chain := by
    obtain ⟨chain, -, links⟩ := List.isChain_append.mp linked.chain
    refine List.isChain_append.mpr ⟨chain, .singleton _, ?_⟩
    intro before found next only
    cases only
    exact links before found last rfl

theorem LinkedRegions.appended {front : List VentoyImageDiskRegion}
    {last region : VentoyImageDiskRegion} (linked : LinkedRegions (front ++ [last]))
    (link : Linked last region) : LinkedRegions (front ++ [last] ++ [region]) where
  first := by
    intro head found
    apply linked.first head
    rw [List.head?_append_of_ne_nil _ (by simp)] at found
    exact found
  chain := by
    refine List.isChain_append.mpr ⟨linked.chain, .singleton _, ?_⟩
    intro before found next only
    rw [List.getLast?_concat] at found
    cases found
    cases only
    exact link

theorem LinkedRegions.putExtent (linked : LinkedRegions regions) (size offset : Nat) :
    LinkedRegions (putExtent regions size offset) := by
  rcases List.eq_nil_or_concat' regions with rfl | ⟨front, last, rfl⟩
  · unfold Exfat.putExtent
    split_ifs
    · exact linked
    · refine ⟨?_, .singleton _⟩
      rintro region ⟨⟩
      rfl
  · rw [putExtent_concat]
    split_ifs with empty continues
    · exact linked
    · exact linked.extended _
    · exact linked.appended ⟨rfl, continues⟩

end Regions

section Call

variable {sizeT : SizeT} {malloc : Nat → Bool} {table : Table sizeT} {size offset : Nat}

theorem tableInvariant_globals (linked : LinkedRegions table.regions) :
    TableInvariant table.globals table.location where
  held := rfl
  counted := Int.ofNat_le.mpr table.room
  guid := rfl
  imageSectors := rfl
  diskSectors := rfl
  linked := linked

theorem doubles_globals_iff :
    Doubles ⟨sizeT, malloc⟩ table.globals size offset ↔
      Opens table.regions size offset ∧ table.Full ∧ malloc table.mallocs = true := by
  constructor
  · rintro ⟨_, ⟨⟩, opens, full, granted⟩
    exact ⟨opens, Int.ofNat_inj.mp full, granted⟩
  · rintro ⟨opens, full, granted⟩
    exact ⟨_, rfl, opens, congrArg Int.ofNat full, granted⟩

theorem doublings_lt_of_capacity_lt {doublings limit : Nat}
    (below : (capacity doublings : Int) < capacity limit) : doublings < limit := by
  by_contra notBelow
  have least := capacity_mono (Nat.le_of_not_lt notBelow)
  exact absurd (Int.ofNat_le.mpr least) (Int.not_le.mpr below)

theorem capacityLimit_le : capacityLimit sizeT ≤ capacity (maxDoublings sizeT + 1) := by
  cases sizeT <;> decide

theorem doublings_lt_of_staysBelow
    (below : StaysBelow (capacityLimit sizeT) ⟨sizeT, malloc⟩ table.globals size offset)
    (doubles : Doubles ⟨sizeT, malloc⟩ table.globals size offset) :
    table.doublings < maxDoublings sizeT := by
  have doubled := below.2 doubles
  have grows : (capacity table.doublings : Int) * 2 = capacity (table.doublings + 1) :=
    capacity_mul_two _
  have small : (capacity (table.doublings + 1) : Int) < capacityLimit sizeT := grows ▸ doubled
  exact Nat.lt_of_succ_lt_succ (doublings_lt_of_capacity_lt (small.trans_le capacityLimit_le))

theorem exfatAddDiskRegion_cases
    (below : StaysBelow (capacityLimit sizeT) ⟨sizeT, malloc⟩ table.globals size offset) :
    (∃ fits, exfatAddDiskRegion ⟨sizeT, malloc⟩ table.globals size offset =
        .ok (sizeT.signed size, (table.put size offset fits).globals)) ∨
      (table.Full ∧ Opens table.regions size offset ∧ ∃ room,
        malloc table.mallocs = true ∧
        exfatAddDiskRegion ⟨sizeT, malloc⟩ table.globals size offset =
          .ok (sizeT.signed size, ((table.grown room).put size offset
            (.inl (table.not_full_grown room))).globals)) ∨
      (table.Full ∧ Opens table.regions size offset ∧ malloc table.mallocs = false ∧
        (table.doublings < maxDoublings sizeT ∨ sizeT = .bits32) ∧
        exfatAddDiskRegion ⟨sizeT, malloc⟩ table.globals size offset =
          .ok (-1, table.refused.globals)) := by
  by_cases fits : ¬ table.Full ∨ ¬ Opens table.regions size offset
  · exact .inl ⟨fits, exfatAddDiskRegion_put malloc table size offset fits⟩
  · obtain ⟨full, opens⟩ := not_or.mp fits
    rw [not_not] at full opens
    right
    cases granted : malloc table.mallocs with
    | true =>
        have room := doublings_lt_of_staysBelow below
          (doubles_globals_iff.mpr ⟨opens, full, granted⟩)
        exact .inl ⟨full, opens, room, rfl,
          exfatAddDiskRegion_grown malloc table opens full room granted⟩
    | false =>
        have asks : table.doublings < maxDoublings sizeT ∨ sizeT = .bits32 := by
          cases sizeT with
          | bits32 => exact .inr rfl
          | bits64 => exact .inl (doublings_lt_of_capacity_lt below.1)
        exact .inr ⟨full, opens, rfl, asks,
          exfatAddDiskRegion_refused malloc table opens full asks granted⟩

theorem gImageMaxRegion_of_granted {process : Process} {before after : Globals} {asked : Int}
    (granted : reallocImageLocation process before asked = .ok (0, after)) :
    after.gImageMaxRegion = asked := by
  obtain ⟨len, -, rest⟩ := bind_eq_ok_iff.mp granted
  cases held : before.gImageLocation with
  | none =>
      simp only [held] at rest
      split_ifs at rest
      · cases rest
      · cases rest
        rfl
  | some old =>
      simp only [held] at rest
      split_ifs at rest
      · cases rest
      · obtain ⟨copied, -, stored⟩ := bind_eq_ok_iff.mp rest
        split_ifs at stored
        cases stored
        rfl

theorem regionAccesses_within :
    ∀ access ∈ regionAccesses ⟨sizeT, malloc⟩ table.globals size offset,
      (access.1 : Int) < access.2 := by
  have room := table.room
  have positive := capacity_pos table.doublings
  unfold regionAccesses
  by_cases empty : size = 0
  · simp [empty]
  · rcases List.eq_nil_or_concat' table.regions with none_left | ⟨front, last, regions⟩
    · simp only [empty, if_false, Table.globals, Table.location, none_left, List.getLast?_nil,
        List.forall_mem_singleton]
      exact_mod_cast positive
    · have length : table.regions.length = front.length + 1 := by simp [regions]
      have lastInside : ((table.regions.length - 1 : Nat) : Int) < capacity table.doublings := by
        omega
      simp only [empty, if_false, Table.globals, Table.location, regions, List.getLast?_concat]
      rw [← regions]
      split_ifs with continues full
      · exact List.forall_mem_singleton.mpr lastInside
      · split
        · next grown granted =>
            have doubled := gImageMaxRegion_of_granted granted
            simp only [List.forall_mem_cons, List.not_mem_nil, false_imp_iff, implies_true,
              and_true, doubled]
            omega
        · exact List.forall_mem_singleton.mpr lastInside
      · simp only [List.forall_mem_cons, List.not_mem_nil, false_imp_iff, implies_true, and_true]
        omega

theorem keepsTable_globals (linked : LinkedRegions table.regions)
    (below : StaysBelow (capacityLimit sizeT) ⟨sizeT, malloc⟩ table.globals size offset) :
    ∃ rc, ∃ next : Table sizeT, LinkedRegions next.regions ∧
      KeepsTable ⟨sizeT, malloc⟩ table.globals table.location size offset rc next.globals ∧
      (rc = sizeT.signed size ∨ rc = -1 ∧ Unchanged table.globals next.globals) := by
  have put := changes_putExtent table.regions size offset
  have linkedPut := linked.putExtent size offset
  rcases exfatAddDiskRegion_cases below with
    ⟨fits, call⟩ | ⟨-, -, room, -, call⟩ | ⟨-, -, -, -, call⟩
  · exact ⟨_, table.put size offset fits, linkedPut,
      ⟨call, regionAccesses_within, _, tableInvariant_globals linkedPut, put⟩, .inl rfl⟩
  · exact ⟨_, (table.grown room).put size offset (.inl (table.not_full_grown room)), linkedPut,
      ⟨call, regionAccesses_within, _, tableInvariant_globals linkedPut, put⟩, .inl rfl⟩
  · exact ⟨-1, table.refused, linked,
      ⟨call, regionAccesses_within, _, tableInvariant_globals linked, .same _⟩,
      .inr ⟨rfl, rfl, rfl⟩⟩

theorem signed_eq_neg_one_iff (sized : size < sizeT.modulus) :
    sizeT.signed size = -1 ↔ size + 1 = sizeT.modulus := by
  unfold SizeT.signed
  cases sizeT <;> simp only [SizeT.modulus] at sized ⊢ <;> split_ifs <;> omega

theorem exists_table_of_reached {globals : Globals}
    (reached : Reached (capacityLimit sizeT) ⟨sizeT, malloc⟩ globals) :
    ∃ table : Table sizeT, globals = table.globals ∧ LinkedRegions table.regions := by
  induction reached with
  | @allocated globals call =>
      cases granted : malloc 0 with
      | true =>
          rw [reallocImageLocation_fresh granted] at call
          cases call
          exact ⟨_, rfl, linkedRegions_nil⟩
      | false =>
          rw [reallocImageLocation_fresh_refused granted] at call
          cases call
  | @added before after size offset rc earlier sized below call inductionHypothesis =>
      obtain ⟨table, rfl, linked⟩ := inductionHypothesis
      obtain ⟨code, next, linkedNext, keeps, -⟩ := keepsTable_globals linked below
      rw [keeps.returned] at call
      cases call
      exact ⟨next, rfl, linkedNext⟩

end Call

/-- In every state that calls below the limit of the build reach, the invariant holds,
and the next such call keeps it; -1 leaves the table as it was, except for a size of
`SIZE_MAX`, whose own value as an `ssize_t` it is. -/
theorem tableInvariant_reached (process : Process) (globals : Globals)
    (reached : Reached (capacityLimit process.sizeT) process globals) :
    ∃ location, TableInvariant globals location ∧
      ∀ size offset, size < process.sizeT.modulus →
        StaysBelow (capacityLimit process.sizeT) process globals size offset →
        ∃ rc after, KeepsTable process globals location size offset rc after ∧
          (rc = -1 → size + 1 ≠ process.sizeT.modulus → Unchanged globals after) := by
  obtain ⟨table, rfl, linked⟩ := exists_table_of_reached reached
  refine ⟨table.location, tableInvariant_globals linked, ?_⟩
  intro size offset sized below
  obtain ⟨rc, next, -, keeps, outcome⟩ := keepsTable_globals linked below
  refine ⟨rc, next.globals, keeps, ?_⟩
  intro failed other
  rcases outcome with rfl | ⟨-, unchanged⟩
  · exact absurd ((signed_eq_neg_one_iff sized).mp failed) other
  · exact unchanged

/-- What `exfat_add_disk_region` is taken to keep: below 2 ^ 30 entries every call returns,
and -1 always means that the table is the one from before. -/
def KeepsAlways (process : Process) : Prop :=
  ∀ globals, Reached 1073741824 process globals →
    ∃ location, TableInvariant globals location ∧
      ∀ size offset, size < process.sizeT.modulus →
        StaysBelow 1073741824 process globals size offset →
        ∃ rc after, KeepsTable process globals location size offset rc after ∧
          (rc = -1 → Unchanged globals after)

/-- Extents of one image sector that do not meet. -/
def scattered (count : Nat) : List Extent :=
  (List.range count).map fun index => ⟨4096 * index, 2048⟩

section Scattered

variable (sizeT : SizeT) {count : Nat} (few : count ≤ 134217729)

include few

theorem exact_scattered : Exact sizeT (scattered count) where
  apart := by
    rw [scattered, List.isChain_map, List.isChain_range]
    intro index _
    simp only [Extent.Meets, Extent.stop]
    omega
  offset := by
    rw [scattered, List.forall_mem_map]
    intro index membership
    have inside := List.mem_range.mp membership
    simp only
    omega
  size := by
    rw [scattered, List.forall_mem_map]
    intro index _
    change 0 < 2048 ∧ 2048 < sizeT.modulus
    cases sizeT <;> decide
  inner := by
    intro run membership
    obtain ⟨index, -, rfl⟩ := List.mem_map.mp (List.dropLast_subset _ membership)
    change 2048 ∣ 2048 ∧ 2048 < 8796093022208
    decide

theorem length_putAll_scattered :
    (putAll sizeT [] (scattered count)).length = count := by
  rw [putAll_nil_exact (exact_scattered sizeT few), length_exactRegions, scattered, List.length_map,
    List.length_range]

end Scattered

section Run

variable {sizeT : SizeT} {malloc : Nat → Bool} {limit : Int}

theorem Table.staysBelow {table : Table sizeT} (small : capacity table.doublings * 2 < limit)
    (size offset : Nat) : StaysBelow limit ⟨sizeT, malloc⟩ table.globals size offset := by
  constructor
  · simp only [Table.globals]
    omega
  · intro _
    simp only [Table.globals]
    exact small

theorem Table.doublings_le_of_step {table next : Table sizeT} {extent : Extent}
    (step : table.step malloc extent = some next) : table.doublings ≤ next.doublings := by
  unfold Table.step at step
  split_ifs at step <;> cases step
  · exact Nat.le_refl _
  · exact Nat.le_succ _
  · exact Nat.le_refl _
  · exact Nat.le_refl _

theorem Table.doublings_le_of_run {table final : Table sizeT} {extents : List Extent}
    (run : table.run malloc extents = some final) : table.doublings ≤ final.doublings := by
  induction extents generalizing table with
  | nil =>
      cases run
      exact Nat.le_refl _
  | cons extent extents inductionHypothesis =>
      obtain ⟨next, step, rest⟩ := Table.run_cons_eq_some run
      exact (Table.doublings_le_of_step step).trans (inductionHypothesis rest)

theorem Table.run_append (table : Table sizeT) (first second : List Extent) :
    table.run malloc (first ++ second) =
      (table.run malloc first).bind fun next => next.run malloc second := by
  induction first generalizing table with
  | nil => rfl
  | cons extent first inductionHypothesis =>
      rw [List.cons_append, Table.run, Table.run]
      cases table.step malloc extent with
      | none => rfl
      | some next => exact inductionHypothesis next

/-- A call that is refused its memory and made again. -/
theorem Table.run_retried {table : Table sizeT} {extent : Extent} (full : table.Full)
    (opens : Opens table.regions (sizeT.trunc extent.size) extent.offset)
    (room : table.doublings < maxDoublings sizeT) (refusal : malloc table.mallocs = false)
    (granted : malloc (table.mallocs + 1) = true) :
    table.run malloc [extent, extent] =
      some ((table.refused.grown room).put (sizeT.trunc extent.size) extent.offset
        (.inl (Table.not_full_grown _ room))) := by
  have grows : ¬ (¬ table.Full ∨
      ¬ Opens table.regions (sizeT.trunc extent.size) extent.offset) :=
    not_or.mpr ⟨not_not_intro full, not_not_intro opens⟩
  have retried : table.refused.step malloc extent =
      some ((table.refused.grown room).put (sizeT.trunc extent.size) extent.offset
        (.inl (Table.not_full_grown _ room))) :=
    @Table.step_grown sizeT malloc table.refused extent grows room granted
  rw [Table.run, Table.step_refused grows room refusal, Option.bind_some, Table.run, retried]
  rfl

/-- Calls whose sizes fit reach the state that their run leads to. -/
theorem reached_of_run {table final : Table sizeT} {extents : List Extent}
    (small : capacity final.doublings * 2 < limit)
    (reached : Reached limit ⟨sizeT, malloc⟩ table.globals)
    (run : table.run malloc extents = some final) :
    Reached limit ⟨sizeT, malloc⟩ final.globals := by
  induction extents generalizing table with
  | nil =>
      cases run
      exact reached
  | cons extent extents inductionHypothesis =>
      have doubled := capacity_mono (Table.doublings_le_of_run run)
      obtain ⟨next, step, rest⟩ := Table.run_cons_eq_some run
      obtain ⟨rc, call⟩ := exfatAddDiskRegion_of_step step
      have below : StaysBelow limit ⟨sizeT, malloc⟩ table.globals
          (sizeT.trunc extent.size) extent.offset :=
        table.staysBelow (by omega) _ _
      exact inductionHypothesis (.added reached
        (Nat.mod_lt _ sizeT.modulus_pos) below call) rest

end Run

/-- Calls that fill the first table, one that its last region takes, and one that needs
more memory, made twice. -/
def crowdingCalls : List Extent :=
  scattered 1024 ++ [⟨4192256, 2048⟩, ⟨8388608, 2048⟩, ⟨8388608, 2048⟩]

theorem exists_run_scattered (malloc : Nat → Bool) :
    ∃ table : Table .bits64, (Table.empty .bits64).run malloc (scattered 1024) = some table ∧
      table.regions = exactRegions 0 (scattered 1024) ∧ table.doublings = 0 ∧
      table.mallocs = 1 := by
  have exact : Exact .bits64 (scattered 1024) := exact_scattered .bits64 (by decide)
  have count : (putAll .bits64 [] (scattered 1024)).length = 1024 :=
    length_putAll_scattered .bits64 (by decide)
  obtain ⟨table, tight, regions, run⟩ :=
    (Table.tight_empty .bits64).run (scattered 1024) (count.le.trans (by decide))
  have length : table.regions.length = 1024 := (congrArg List.length regions).trans count
  have doublings : table.doublings = 0 := by
    rw [tight.doublings_eq, length]
    decide
  have mallocs : table.mallocs = 1 := by rw [tight.counted, doublings]
  refine ⟨table, (run_of_granted run ?_).1, regions.trans (putAll_nil_exact exact), doublings,
    mallocs⟩
  intro request lower upper
  rw [mallocs] at upper
  exact absurd (lower.trans_lt upper) (Nat.lt_irrefl _)

/-- A merge, a refused doubling and a granted one lead to 1025 regions. -/
theorem exists_run_crowdingCalls :
    ∃ table : Table .bits64,
      (Table.empty .bits64).run (fun request => request != 1) crowdingCalls = some table ∧
      table.regions.length = 1025 ∧ table.doublings = 1 ∧ table.mallocs = 3 := by
  obtain ⟨table, run, regions, doublings, mallocs⟩ :=
    exists_run_scattered fun request => request != 1
  have length : table.regions.length = 1024 := by
    rw [regions, length_exactRegions, scattered, List.length_map, List.length_range]
  have last : table.regions.getLast? = some ⟨1, 1023, 8184⟩ := by
    rw [regions]
    decide +kernel
  have merges : ¬ Opens table.regions (SizeT.bits64.trunc 2048) 4192256 := by
    rintro ⟨-, apart⟩
    exact apart _ last (by decide)
  let merged := table.put (SizeT.bits64.trunc 2048) 4192256 (.inr merges)
  have mergedRegions : merged.regions = table.regions.dropLast ++ [⟨2, 1023, 8184⟩] := by
    change putExtent table.regions 2048 4192256 = _
    simp only [putExtent, last]
    rfl
  have full : merged.Full := by
    change (putExtent table.regions (SizeT.bits64.trunc 2048) 4192256).length =
      capacity table.doublings
    rw [length_putExtent, if_neg merges, length, doublings]
    rfl
  have opens : Opens merged.regions (SizeT.bits64.trunc 2048) 8388608 := by
    rw [mergedRegions]
    refine ⟨by decide, ?_⟩
    intro region found
    rw [List.getLast?_concat, Option.some.injEq] at found
    subst region
    decide
  have room : merged.doublings < maxDoublings .bits64 := by
    change table.doublings < 20
    omega
  have refusal : (merged.mallocs != 1) = false := by
    change (table.mallocs != 1) = false
    rw [mallocs]
    rfl
  have granted : (merged.mallocs + 1 != 1) = true := by
    change (table.mallocs + 1 != 1) = true
    rw [mallocs]
    rfl
  have retried := @Table.run_retried .bits64 (fun request => request != 1) merged
    ⟨8388608, 2048⟩ full opens room refusal granted
  refine ⟨(merged.refused.grown room).put (SizeT.bits64.trunc 2048) 8388608
    (.inl (Table.not_full_grown _ room)), ?_, ?_, ?_, ?_⟩
  · rw [crowdingCalls, Table.run_append, run, Option.bind_some, Table.run,
      @Table.step_put .bits64 _ table ⟨4192256, 2048⟩ (.inr merges), Option.bind_some]
    exact retried
  · change (putExtent merged.regions (SizeT.bits64.trunc 2048) 8388608).length = 1025
    rw [length_putExtent_of_opens opens, full]
    change capacity table.doublings + 1 = 1025
    rw [doublings]
    rfl
  · change table.doublings + 1 = 1
    rw [doublings]
  · change table.mallocs + 1 + 1 = 3
    rw [mallocs]

theorem tableInvariant_reached_crowdingCalls :
    ∃ table : Table .bits64,
      (Table.empty .bits64).run (fun request => request != 1) crowdingCalls = some table ∧
      table.regions.length = 1025 ∧ table.doublings = 1 ∧ table.mallocs = 3 ∧
      ∃ location, TableInvariant table.globals location ∧
        ∀ size offset, size < SizeT.bits64.modulus →
          StaysBelow (capacityLimit .bits64) ⟨.bits64, fun request => request != 1⟩ table.globals
            size offset →
          ∃ rc after, KeepsTable ⟨.bits64, fun request => request != 1⟩ table.globals location
            size offset rc after ∧
            (rc = -1 → size + 1 ≠ SizeT.bits64.modulus → Unchanged table.globals after) := by
  obtain ⟨table, run, length, doublings, mallocs⟩ := exists_run_crowdingCalls
  have small : (capacity table.doublings : Int) * 2 < capacityLimit .bits64 := by
    rw [doublings]
    decide
  exact ⟨table, run, length, doublings, mallocs,
    tableInvariant_reached ⟨.bits64, fun request => request != 1⟩ table.globals
      (reached_of_run small (.allocated (reallocImageLocation_fresh rfl)) run)⟩

section Largest

theorem scattered_succ (count : Nat) :
    scattered (count + 1) = scattered count ++ [⟨4096 * count, 2048⟩] := by
  rw [scattered, List.range_succ, List.map_append]
  rfl

/-- The 32-bit build fills 2 ^ 27 entries, and the next call asks for a block of one
header to copy them to. -/
theorem exists_reached_overflow :
    ∃ globals size offset fault, Reached 1073741824 (.allocating .bits32) globals ∧
      size < SizeT.bits32.modulus ∧
      StaysBelow 1073741824 (.allocating .bits32) globals size offset ∧
      exfatAddDiskRegion (.allocating .bits32) globals size offset = .error fault := by
  have count := length_putAll_scattered .bits32 (Nat.le_succ 134217728)
  obtain ⟨final, tight, regions, run⟩ :=
    (Table.tight_empty .bits32).run (scattered 134217728) (count.le.trans (by decide))
  have length : final.regions.length = 134217728 := (congrArg List.length regions).trans count
  have largest : final.doublings = maxDoublings .bits32 := by
    rw [tight.doublings_eq, length]
    exact Nat.clog_pow 2 17 (by decide)
  have full : final.Full := by
    rw [Table.Full, length, largest]
    rfl
  have opens : Opens final.regions 2048 (4096 * 134217728) := by
    have next := length_putAll_scattered .bits32 (Nat.le_refl 134217729)
    rw [scattered_succ, putAll_append] at next
    have filled : putAll .bits32 [] (scattered 134217728) = final.regions := regions.symm
    rw [filled] at next
    have stored : (putExtent final.regions 2048 (4096 * 134217728)).length = 134217729 := next
    rw [length_putExtent, length] at stored
    by_contra continues
    rw [if_neg continues] at stored
    cases stored
  obtain ⟨fault, call⟩ := exfatAddDiskRegion_overflow (fun _ => true) final opens full largest
    (.inr rfl)
  have small : (capacity final.doublings : Int) * 2 < 1073741824 := by
    rw [largest]
    decide
  exact ⟨final.globals, 2048, 4096 * 134217728, fault,
    reached_of_run small (.allocated (reallocImageLocation_fresh rfl)) run, by decide,
    final.staysBelow small _ _, call⟩

/-- A size of `SIZE_MAX` is stored, and the call returns -1. -/
theorem not_unchanged_sizeMax (sizeT : SizeT) :
    ∃ after, exfatAddDiskRegion (.allocating sizeT) (Table.empty sizeT).globals
        (sizeT.modulus - 1) 0 = .ok (-1, after) ∧
      ¬ Unchanged (Table.empty sizeT).globals after := by
  have fits : ¬ (Table.empty sizeT).Full ∨
      ¬ Opens (Table.empty sizeT).regions (sizeT.modulus - 1) 0 :=
    .inl (capacity_pos 0).ne
  have call := exfatAddDiskRegion_put (fun _ => true) (Table.empty sizeT) _ _ fits
  have code : sizeT.signed (sizeT.modulus - 1) = -1 := by
    cases sizeT <;> decide
  rw [code] at call
  refine ⟨_, call, ?_⟩
  rintro ⟨same, -⟩
  cases sizeT <;> cases same

theorem not_keepsAlways :
    (∀ sizeT, ¬ KeepsAlways (.allocating sizeT)) ∧
      ∃ globals size offset fault, Reached 1073741824 (.allocating .bits32) globals ∧
        size < SizeT.bits32.modulus ∧
        StaysBelow 1073741824 (.allocating .bits32) globals size offset ∧
        exfatAddDiskRegion (.allocating .bits32) globals size offset = .error fault := by
  refine ⟨?_, exists_reached_overflow⟩
  intro sizeT keeps
  obtain ⟨after, call, changed⟩ := not_unchanged_sizeMax sizeT
  obtain ⟨location, -, calls⟩ := keeps (Table.empty sizeT).globals
    (.allocated (reallocImageLocation_fresh rfl))
  have below : StaysBelow 1073741824 (.allocating sizeT) (Table.empty sizeT).globals
      (sizeT.modulus - 1) 0 := by
    change (1024 : Int) < 1073741824 ∧ (_ → (1024 : Int) * 2 < 1073741824)
    exact ⟨by decide, fun _ => by decide⟩
  obtain ⟨rc, next, keepsTable, unchanged⟩ := calls (sizeT.modulus - 1) 0
    (Nat.sub_lt sizeT.modulus_pos Nat.one_pos) below
  have returned := keepsTable.returned
  rw [call] at returned
  cases returned
  exact changed (unchanged rfl)

end Largest

end Vtoydump.Exfat
