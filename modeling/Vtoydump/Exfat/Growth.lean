import Mathlib.Data.Nat.ModEq
import Vtoydump.Exfat.RegionTable

/-!
# Growth of the region table

Once the first allocation succeeded, the globals always are those of a `Table`:
a region list within a capacity of `1024 * 2 ^ doublings` entries, in a block
of exactly that length.  One lemma for each thing `exfat_add_disk_region` can
do to such a table; everything later cites these lemmas.

The capacity is an `int` and its byte length a `size_t`, so it cannot be
doubled for ever: `maxRegions` is the capacity the code never gets beyond.
-/

namespace Vtoydump.Exfat

open CRun

/-- How often the capacity can be doubled before `int` (64-bit build) or
`size_t` (32-bit build) overflows. -/
def maxDoublings : SizeT → Nat
  | .bits32 => 17
  | .bits64 => 20

def capacity (doublings : Nat) : Nat := 1024 * 2 ^ doublings

def maxRegions (sizeT : SizeT) : Nat := capacity (maxDoublings sizeT)

theorem capacity_succ (doublings : Nat) : capacity (doublings + 1) = capacity doublings * 2 := by
  rw [capacity, capacity, Nat.pow_succ, Nat.mul_assoc]

theorem capacity_pos (doublings : Nat) : 0 < capacity doublings :=
  Nat.mul_pos (by decide) (Nat.two_pow_pos _)

theorem capacity_mono {first second : Nat} (le : first ≤ second) :
    capacity first ≤ capacity second :=
  Nat.mul_le_mul_left _ (Nat.pow_le_pow_right (by decide) le)

theorem capacity_strictMono {first second : Nat} (lt : first < second) :
    capacity first < capacity second :=
  Nat.mul_lt_mul_of_pos_left (Nat.pow_lt_pow_right (by decide) lt) (by decide)

/-- A capacity the build can address: a region list in a block that holds it. -/
structure Table (sizeT : SizeT) where
  doublings : Nat
  regions : List VentoyImageDiskRegion
  mallocs : Nat
  bounded : doublings ≤ maxDoublings sizeT
  room : regions.length ≤ capacity doublings

namespace Table

variable {sizeT : SizeT}

def location (table : Table sizeT) : VentoyImageLocation :=
  ⟨ventoyGuid, 2048, 512, table.regions⟩

def globals (table : Table sizeT) : Globals where
  gImageMaxRegion := capacity table.doublings
  gImageLocation := some ⟨table.location, sizeofHeader + sizeofRegion * capacity table.doublings⟩
  mallocs := table.mallocs

def empty (sizeT : SizeT) : Table sizeT := ⟨0, [], 1, Nat.zero_le _, Nat.zero_le _⟩

def Full (table : Table sizeT) : Prop := table.regions.length = capacity table.doublings

instance (table : Table sizeT) : Decidable table.Full := inferInstanceAs (Decidable (_ = _))

theorem length_lt_of_not_full {table : Table sizeT} (notFull : ¬ table.Full) :
    table.regions.length < capacity table.doublings := Nat.lt_of_le_of_ne table.room notFull

def refused (table : Table sizeT) : Table sizeT := { table with mallocs := table.mallocs + 1 }

def grown (table : Table sizeT) (below : table.doublings < maxDoublings sizeT) : Table sizeT where
  doublings := table.doublings + 1
  regions := table.regions
  mallocs := table.mallocs + 1
  bounded := below
  room := table.room.trans (capacity_mono (Nat.le_succ _))

theorem not_full_grown (table : Table sizeT) (below : table.doublings < maxDoublings sizeT) :
    ¬ (table.grown below).Full := by
  have strict := capacity_strictMono (Nat.lt_add_one table.doublings)
  have room := table.room
  simp only [Full, grown]
  omega

end Table

/-- The regions after an extent was put behind them. -/
def putExtent (regions : List VentoyImageDiskRegion) (size offset : Nat) :
    List VentoyImageDiskRegion :=
  if size = 0 then regions
  else
    match regions.getLast? with
    | none => [⟨UInt32.ofNat (size / 2048), 0, UInt64.ofNat (offset / 512)⟩]
    | some last =>
        if diskStop last = UInt64.ofNat (offset / 512) then
          regions.dropLast ++
            [{ last with imageSectorCount := last.imageSectorCount + UInt32.ofNat (size / 2048) }]
        else
          regions ++ [⟨UInt32.ofNat (size / 2048), last.imageStartSector + last.imageSectorCount,
            UInt64.ofNat (offset / 512)⟩]

def Opens (regions : List VentoyImageDiskRegion) (size offset : Nat) : Prop :=
  size ≠ 0 ∧ ∀ last, regions.getLast? = some last → diskStop last ≠ UInt64.ofNat (offset / 512)

instance (regions : List VentoyImageDiskRegion) (size offset : Nat) :
    Decidable (Opens regions size offset) :=
  match found : regions.getLast? with
  | none => decidable_of_iff (size ≠ 0) (by simp [Opens, found])
  | some last =>
      decidable_of_iff (size ≠ 0 ∧ diskStop last ≠ UInt64.ofNat (offset / 512))
        (by simp [Opens, found])

@[simp] theorem putExtent_zero (regions : List VentoyImageDiskRegion) (offset : Nat) :
    putExtent regions 0 offset = regions := rfl

theorem length_putExtent (regions : List VentoyImageDiskRegion) (size offset : Nat) :
    (putExtent regions size offset).length =
      regions.length + if Opens regions size offset then 1 else 0 := by
  by_cases empty : size = 0
  · simp [empty, Opens]
  · unfold putExtent
    rw [if_neg empty]
    cases found : regions.getLast? with
    | none =>
        obtain rfl := List.getLast?_eq_none_iff.mp found
        simp [Opens, empty]
    | some last =>
        have inhabited : regions ≠ [] := by
          rintro rfl
          simp at found
        have positive := List.length_pos_iff.mpr inhabited
        by_cases continues : diskStop last = UInt64.ofNat (offset / 512)
        · simp [Opens, found, continues]
          omega
        · simp [Opens, found, continues, empty]

theorem length_le_length_putExtent (regions : List VentoyImageDiskRegion) (size offset : Nat) :
    regions.length ≤ (putExtent regions size offset).length := by
  rw [length_putExtent]
  exact Nat.le_add_right _ _

theorem length_putExtent_le (regions : List VentoyImageDiskRegion) (size offset : Nat) :
    (putExtent regions size offset).length ≤ regions.length + 1 := by
  rw [length_putExtent]
  split_ifs <;> simp

theorem length_putExtent_of_opens {regions : List VentoyImageDiskRegion} {size offset : Nat}
    (opens : Opens regions size offset) :
    (putExtent regions size offset).length = regions.length + 1 := by
  rw [length_putExtent, if_pos opens]

/-- Put an extent into a table that has an entry left, or whose last region it
continues. -/
def Table.put {sizeT : SizeT} (table : Table sizeT) (size offset : Nat)
    (fits : ¬ table.Full ∨ ¬ Opens table.regions size offset) : Table sizeT where
  doublings := table.doublings
  regions := putExtent table.regions size offset
  mallocs := table.mallocs
  bounded := table.bounded
  room := by
    rcases fits with notFull | continues
    · exact (length_putExtent_le _ _ _).trans (Table.length_lt_of_not_full notFull)
    · rw [length_putExtent, if_neg continues]
      exact table.room

section Lengths

theorem locationLen_capacity {sizeT : SizeT} {doublings : Nat}
    (bounded : doublings ≤ maxDoublings sizeT) :
    locationLen sizeT (capacity doublings) =
      .ok (sizeofHeader + sizeofRegion * capacity doublings) := by
  have bound := capacity_mono bounded
  have positive := capacity_pos doublings
  obtain ⟨others, equality⟩ : ∃ others, capacity doublings = others + 1 :=
    ⟨capacity doublings - 1, by omega⟩
  have others_lt : others < 1073741824 := by
    cases sizeT <;> simp only [maxDoublings, capacity] at bound equality ⊢ <;> omega
  unfold locationLen
  rw [equality, Int.natCast_add, Int.natCast_one, Int.add_sub_cancel, checkInt_of_inInt (by
    unfold InInt intMax
    omega)]
  simp only [ok_bind, pure_eq_ok, Except.ok.injEq]
  have wide : others < sizeT.modulus := by
    cases sizeT <;> simp only [SizeT.modulus] <;> omega
  rw [SizeT.ofInt_of_lt wide]
  have product : sizeofLocation + sizeofRegion * others < sizeT.modulus := by
    cases sizeT <;>
      simp only [SizeT.modulus, sizeofLocation, sizeofHeader, sizeofRegion, maxDoublings,
        capacity] at bound equality ⊢ <;> omega
  have factor : sizeofRegion * others < sizeT.modulus :=
    (Nat.le_add_left _ _).trans_lt product
  rw [SizeT.trunc_of_lt factor, SizeT.trunc_of_lt product]
  simp only [sizeofLocation, sizeofRegion, sizeofHeader]
  omega

/-- Past it the 32-bit build asks for a block of one header. -/
theorem locationLen_bits32_overflow :
    locationLen .bits32 (capacity (maxDoublings .bits32 + 1)) = .ok sizeofHeader := by
  decide

end Lengths

section Steps

variable {sizeT : SizeT} (malloc : Nat → Bool)

theorem capacity_inInt (table : Table sizeT) : InInt (capacity table.doublings) := by
  have bound := capacity_mono table.bounded
  have positive := capacity_pos table.doublings
  unfold InInt intMax
  cases sizeT <;> simp only [maxDoublings, capacity] at bound positive ⊢ <;> omega

theorem reallocImageLocation_refused (table : Table sizeT) {doublings len : Nat}
    (computed : locationLen sizeT (capacity doublings) = .ok len)
    (refusal : malloc table.mallocs = false) :
    reallocImageLocation ⟨sizeT, malloc⟩ table.globals (capacity doublings) =
      .ok (-1, table.refused.globals) := by
  simp [reallocImageLocation, computed, Table.globals, Table.refused, Table.location, refusal]

theorem reallocImageLocation_grown (table : Table sizeT)
    (below : table.doublings < maxDoublings sizeT) (granted : malloc table.mallocs = true) :
    reallocImageLocation ⟨sizeT, malloc⟩ table.globals (capacity (table.doublings + 1)) =
      .ok (0, (table.grown below).globals) := by
  have bounded : table.doublings + 1 ≤ maxDoublings sizeT := below
  have len := locationLen_capacity bounded
  have copied := locationLen_capacity table.bounded
  have larger := capacity_mono (Nat.le_add_right table.doublings 1)
  have room := table.room
  simp only [reallocImageLocation, len, Table.globals, granted, copied, ok_bind, Bool.not_true,
    Bool.false_eq_true, if_false, Table.location, pure_eq_ok]
  rw [if_neg (by simp only [sizeofHeader, sizeofRegion]; omega)]
  rfl

theorem storeRegion_table {table : Table sizeT} (notFull : ¬ table.Full)
    (region : VentoyImageLocation → Run VentoyImageDiskRegion)
    {stored : VentoyImageDiskRegion} (value : region table.location = .ok stored) :
    storeRegion table.globals region = .ok { table.globals with
      gImageLocation := some
        ⟨{ table.location with regions := table.regions ++ [stored] },
          sizeofHeader + sizeofRegion * capacity table.doublings⟩ } := by
  have room := Table.length_lt_of_not_full notFull
  simp only [storeRegion, Table.globals, value, ok_bind, pure_eq_ok]
  rw [if_neg (by simp only [Table.location, sizeofHeader, sizeofRegion]; omega)]
  rfl

theorem nextRegion_of_getLast? {location : VentoyImageLocation} {last : VentoyImageDiskRegion}
    (found : location.regions.getLast? = some last) (size offset : Nat) :
    nextRegion size offset location = .ok ⟨UInt32.ofNat (size / 2048),
      last.imageStartSector + last.imageSectorCount, UInt64.ofNat (offset / 512)⟩ := by
  simp [nextRegion, found]

theorem putExtent_of_opens {regions : List VentoyImageDiskRegion} {last : VentoyImageDiskRegion}
    (found : regions.getLast? = some last) {size offset : Nat}
    (opens : Opens regions size offset) :
    putExtent regions size offset = regions ++ [⟨UInt32.ofNat (size / 2048),
      last.imageStartSector + last.imageSectorCount, UInt64.ofNat (offset / 512)⟩] := by
  simp [putExtent, opens.1, found, opens.2 last found]

theorem exfatAddDiskRegion_put (table : Table sizeT) (size offset : Nat)
    (fits : ¬ table.Full ∨ ¬ Opens table.regions size offset) :
    exfatAddDiskRegion ⟨sizeT, malloc⟩ table.globals size offset =
      .ok (sizeT.signed size, (table.put size offset fits).globals) := by
  by_cases empty : size = 0
  · subst empty
    simp [exfatAddDiskRegion, SizeT.signed, Table.put, Table.globals, Table.location,
      sizeT.modulus_pos]
  · cases found : table.regions.getLast? with
    | none =>
        have none_left := List.getLast?_eq_none_iff.mp found
        have notFull : ¬ table.Full := by
          have positive := capacity_pos table.doublings
          rw [Table.Full, none_left, List.length_nil]
          omega
        have stored := storeRegion_table notFull (fun _ =>
          .ok ⟨UInt32.ofNat (size / 2048), 0, UInt64.ofNat (offset / 512)⟩) rfl
        simp only [exfatAddDiskRegion, empty, if_false, Table.globals, Table.location, found]
        simp only [Table.globals, Table.location] at stored
        rw [stored]
        simp [Table.put, putExtent, empty, none_left]
    | some last =>
        by_cases continues : diskStop last = UInt64.ofNat (offset / 512)
        · simp [exfatAddDiskRegion, empty, Table.globals, Table.location, found, continues,
            Table.put, putExtent]
        · have opens : Opens table.regions size offset := by
            refine ⟨empty, fun other foundOther => ?_⟩
            rw [found, Option.some.injEq] at foundOther
            exact foundOther ▸ continues
          have notFull : ¬ table.Full := fits.resolve_right (not_not_intro opens)
          have foundLast : table.location.regions.getLast? = some last := found
          have stored := storeRegion_table notFull (nextRegion size offset)
            (nextRegion_of_getLast? foundLast size offset)
          have lengths : ¬ ((table.regions.length : Int) = capacity table.doublings) := by
            exact_mod_cast notFull
          simp only [exfatAddDiskRegion, empty, if_false, Table.globals, Table.location, found,
            continues, lengths]
          simp only [Table.globals, Table.location] at stored
          rw [stored]
          simp [Table.put, putExtent_of_opens found opens]

theorem exists_getLast?_of_full {table : Table sizeT} (full : table.Full) :
    ∃ last, table.regions.getLast? = some last := by
  cases found : table.regions.getLast? with
  | none =>
      have positive := capacity_pos table.doublings
      rw [Table.Full, List.getLast?_eq_none_iff.mp found, List.length_nil] at full
      omega
  | some last => exact ⟨last, rfl⟩

theorem exfatAddDiskRegion_full (table : Table sizeT) {size offset : Nat}
    (opens : Opens table.regions size offset) (full : table.Full) :
    exfatAddDiskRegion ⟨sizeT, malloc⟩ table.globals size offset = (do
      let doubled ← checkInt (capacity table.doublings * 2)
      let (rc, grown) ← reallocImageLocation ⟨sizeT, malloc⟩ table.globals doubled
      if rc ≠ 0 then
        return (-1, grown)
      let stored ← storeRegion grown (nextRegion size offset)
      return (sizeT.signed size, stored)) := by
  obtain ⟨last, found⟩ := exists_getLast?_of_full full
  have lengths : (table.regions.length : Int) = capacity table.doublings := by
    exact_mod_cast full
  simp only [exfatAddDiskRegion, opens.1, if_false, Table.globals, Table.location, found,
    opens.2 last found, lengths, if_true]

theorem capacity_mul_two (doublings : Nat) :
    (capacity doublings : Int) * 2 = capacity (doublings + 1) := by
  rw [capacity_succ]
  push_cast
  rfl

theorem exfatAddDiskRegion_grown (table : Table sizeT) {size offset : Nat}
    (opens : Opens table.regions size offset) (full : table.Full)
    (below : table.doublings < maxDoublings sizeT) (granted : malloc table.mallocs = true) :
    exfatAddDiskRegion ⟨sizeT, malloc⟩ table.globals size offset =
      .ok (sizeT.signed size,
        ((table.grown below).put size offset (.inl (table.not_full_grown below))).globals) := by
  have inRange : InInt (capacity (table.doublings + 1)) := capacity_inInt (table.grown below)
  obtain ⟨last, found⟩ := exists_getLast?_of_full full
  have foundGrown : (table.grown below).location.regions.getLast? = some last := found
  have stored := storeRegion_table (table.not_full_grown below) (nextRegion size offset)
    (nextRegion_of_getLast? foundGrown size offset)
  rw [exfatAddDiskRegion_full malloc table opens full, capacity_mul_two,
    checkInt_of_inInt inRange, ok_bind, reallocImageLocation_grown malloc table below granted]
  simp only [ok_bind, ne_eq, not_true_eq_false, if_false]
  rw [stored]
  simp [Table.put, putExtent_of_opens found opens, Table.globals, Table.location, Table.grown]

theorem exfatAddDiskRegion_refused (table : Table sizeT) {size offset : Nat}
    (opens : Opens table.regions size offset) (full : table.Full)
    (asks : table.doublings < maxDoublings sizeT ∨ sizeT = .bits32)
    (refusal : malloc table.mallocs = false) :
    exfatAddDiskRegion ⟨sizeT, malloc⟩ table.globals size offset =
      .ok (-1, table.refused.globals) := by
  obtain ⟨len, computed, inRange⟩ : ∃ len,
      locationLen sizeT (capacity (table.doublings + 1)) = .ok len ∧
        InInt (capacity (table.doublings + 1)) := by
    by_cases below : table.doublings < maxDoublings sizeT
    · exact ⟨_, locationLen_capacity below, capacity_inInt (table.grown below)⟩
    · obtain rfl := asks.resolve_left below
      have largest : table.doublings = maxDoublings .bits32 :=
        Nat.le_antisymm table.bounded (Nat.le_of_not_lt below)
      rw [largest]
      exact ⟨_, locationLen_bits32_overflow, by decide⟩
  rw [exfatAddDiskRegion_full malloc table opens full, capacity_mul_two,
    checkInt_of_inInt inRange, ok_bind, reallocImageLocation_refused malloc table computed refusal]
  rfl

/-- At the largest capacity the doubling overflows: in `int`, or in the length
of the block that is asked for. -/
theorem exfatAddDiskRegion_overflow (table : Table sizeT) {size offset : Nat}
    (opens : Opens table.regions size offset) (full : table.Full)
    (largest : table.doublings = maxDoublings sizeT)
    (granted : sizeT = .bits64 ∨ malloc table.mallocs = true) :
    ∃ fault, exfatAddDiskRegion ⟨sizeT, malloc⟩ table.globals size offset = .error fault := by
  rw [exfatAddDiskRegion_full malloc table opens full, capacity_mul_two, largest]
  cases sizeT with
  | bits64 => exact ⟨.intOverflow, rfl⟩
  | bits32 =>
      have copied := locationLen_capacity table.bounded
      rw [largest] at copied
      rw [checkInt_of_inInt (by decide), ok_bind]
      refine ⟨.outOfBounds, ?_⟩
      simp only [reallocImageLocation, locationLen_bits32_overflow, ok_bind, Table.globals, largest,
        granted.resolve_left (by decide), copied]
      rw [if_neg (by simp), if_pos (.inl (by decide))]
      rfl

end Steps

end Vtoydump.Exfat
