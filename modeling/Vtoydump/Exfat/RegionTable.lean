import Vtoydump.Basis.Bytes

/-!
# The region table

`ventoy_image_location` and the two functions of `lsexfat.c` that build it.
The table lives in a block whose length is computed in `size_t`; its entries
beyond `region_count` are not initialized, so `regions` lists the others and
`region_count` is the length of that list.  The answers of `malloc` are an
arbitrary sequence.
-/

namespace Vtoydump

open CRun

/-- `VENTOY_GUID`, as it lies in memory. -/
def ventoyGuid : List UInt8 :=
  leBytes 4 0x77772020 ++ leBytes 2 0x2e77 ++ leBytes 2 0x6576 ++
    [0x6e, 0x74, 0x6f, 0x79, 0x2e, 0x6e, 0x65, 0x74]

structure VentoyImageDiskRegion where
  imageSectorCount : UInt32
  imageStartSector : UInt32
  diskStartSector : UInt64
  deriving DecidableEq, Repr

structure VentoyImageLocation where
  guid : List UInt8
  imageSectorSize : UInt32
  diskSectorSize : UInt32
  regions : List VentoyImageDiskRegion
  deriving DecidableEq, Repr

def sizeofRegion : Nat := 16

def sizeofHeader : Nat := 28

def sizeofLocation : Nat := sizeofHeader + sizeofRegion

namespace Exfat

/-- The disk sector behind the region, in the 64-bit arithmetic of
`exfat_add_disk_region`. -/
def diskStop (region : VentoyImageDiskRegion) : UInt64 :=
  region.diskStartSector + region.imageSectorCount.toUInt64 * 4

structure TableBlock where
  location : VentoyImageLocation
  bytes : Nat
  deriving DecidableEq

/-- `g_image_max_region`, `g_image_location` and the number of calls of
`malloc` so far. -/
structure Globals where
  gImageMaxRegion : Int
  gImageLocation : Option TableBlock
  mallocs : Nat

def Globals.fresh : Globals := ⟨0, none, 0⟩

/-- The build of a process and what `malloc` answers to its calls. -/
structure Process where
  sizeT : SizeT
  malloc : Nat → Bool

def Process.allocating (sizeT : SizeT) : Process := ⟨sizeT, fun _ => true⟩

/-- `sizeof(ventoy_image_location) + sizeof(ventoy_image_disk_region) * (max_region - 1)` -/
def locationLen (sizeT : SizeT) (maxRegion : Int) : Run Nat := do
  let others ← checkInt (maxRegion - 1)
  return sizeT.trunc (sizeofLocation + sizeT.trunc (sizeofRegion * sizeT.ofInt others))

/-- `realloc_image_location`.  A copy that leaves the new block, or leaves a
region behind, is out of bounds. -/
def reallocImageLocation (process : Process) (globals : Globals) (maxRegion : Int) :
    Run (Int × Globals) := do
  let len ← locationLen process.sizeT maxRegion
  let called := { globals with mallocs := globals.mallocs + 1 }
  if !process.malloc globals.mallocs then
    return (-1, called)
  match globals.gImageLocation with
  | some old =>
      let copied ← locationLen process.sizeT globals.gImageMaxRegion
      if len < copied ∨ old.bytes < copied ∨
          copied < sizeofHeader + sizeofRegion * old.location.regions.length then
        .error .outOfBounds
      else
        return (0, { called with
          gImageLocation := some ⟨old.location, len⟩
          gImageMaxRegion := maxRegion })
  | none =>
      if len < sizeofHeader then
        .error .outOfBounds
      else
        return (0, { called with
          gImageLocation := some ⟨⟨ventoyGuid, 2048, 512, []⟩, len⟩
          gImageMaxRegion := maxRegion })

def storeRegion (globals : Globals) (region : VentoyImageLocation → Run VentoyImageDiskRegion) :
    Run Globals :=
  match globals.gImageLocation with
  | none => .error .nullDeref
  | some block => do
      let stored ← region block.location
      if block.bytes < sizeofHeader + sizeofRegion * (block.location.regions.length + 1) then
        .error .outOfBounds
      else
        return { globals with
          gImageLocation := some { block with
            location := { block.location with
              regions := block.location.regions ++ [stored] } } }

/-- The region behind the last one of a table, for `size` bytes at `offset`. -/
def nextRegion (size offset : Nat) (location : VentoyImageLocation) :
    Run VentoyImageDiskRegion :=
  match location.regions.getLast? with
  | none => .error .outOfBounds
  | some last => .ok ⟨UInt32.ofNat (size / 2048),
      last.imageStartSector + last.imageSectorCount, UInt64.ofNat (offset / 512)⟩

def exfatAddDiskRegion (process : Process) (globals : Globals) (size offset : Nat) :
    Run (Int × Globals) :=
  if size = 0 then .ok (0, globals)
  else
    match globals.gImageLocation with
    | none => .error .nullDeref
    | some block =>
        match block.location.regions.getLast? with
        | none => do
            let stored ← storeRegion globals fun _ =>
              .ok ⟨UInt32.ofNat (size / 2048), 0, UInt64.ofNat (offset / 512)⟩
            return (process.sizeT.signed size, stored)
        | some last =>
            if diskStop last = UInt64.ofNat (offset / 512) then
              .ok (process.sizeT.signed size, { globals with
                gImageLocation := some { block with
                  location := { block.location with
                    regions := block.location.regions.dropLast ++
                      [{ last with
                        imageSectorCount :=
                          last.imageSectorCount + UInt32.ofNat (size / 2048) }] } } })
            else if (block.location.regions.length : Int) = globals.gImageMaxRegion then do
              let doubled ← checkInt (globals.gImageMaxRegion * 2)
              let (rc, grown) ← reallocImageLocation process globals doubled
              if rc ≠ 0 then
                return (-1, grown)
              let stored ← storeRegion grown (nextRegion size offset)
              return (process.sizeT.signed size, stored)
            else do
              let stored ← storeRegion globals (nextRegion size offset)
              return (process.sizeT.signed size, stored)

end Exfat

end Vtoydump
