import Vtoydump.Exfat.Coverage

/-!
# Word size

The loop counts bytes in `off_t`, `exfat_add_disk_region` takes them in
`size_t`, and the table holds image sectors in `uint32_t`.  A run of 4 GiB does
not survive the first conversion in the 32-bit build; an image sector from 2^32
on does not fit into the table of any build.
-/

namespace Vtoydump.Exfat

open CRun Layout

def tableRegions (globals : Globals) : List VentoyImageDiskRegion :=
  match globals.gImageLocation with
  | none => []
  | some block => block.location.regions

section Tables

variable {sizeT : SizeT}

end Tables

section Necessary

end Necessary

section Exactness

end Exactness

section Builds

variable {volume : Volume} {node : ExfatNode}

theorem regionsNeeded_le_of_returned {sizeT : SizeT} (nonempty : 0 < node.size.toNat)
    (sized : node.size.toNat ≤
      volume.sb.clusterCount.toNat * clusterSize volume.sb.toExfatSuperBlock)
    {result : Int × Globals}
    (returned : exfatGetImageLocation (.allocating sizeT) volume node .fresh = .ok result) :
    regionsNeeded sizeT volume node ≤ maxRegions sizeT := by
  by_contra exceeds
  obtain ⟨fault, overflow⟩ := exfatGetImageLocation_allocating_overflow sizeT nonempty sized
    (Nat.lt_of_not_le exceeds)
  rw [overflow] at returned
  cases returned

end Builds

end Vtoydump.Exfat
