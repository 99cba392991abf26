import Vtoydump.Linux.Main
import Vtoydump.Windows.Main

/-!
# The runtime data that is acted on

Both programs search the disk with runtime data that passed the check, with two
exceptions on Windows: the path of the image is converted behind the check, and
what the EFI variable holds is not checked.
-/

namespace Vtoydump

open CRun

/-- On Linux the data is as it was accepted.  On Windows it is what became of accepted
data when the path was converted, unless it comes from the EFI variable. -/
theorem runtimeData_validated (linux : Linux.System) (chars : List Char)
    (windows : Windows.System) (args : List (List Char)) :
    (∀ options param, Linux.prepare linux chars = .ok (options, param) → param.Valid) ∧
      ∀ request param, Windows.prepare windows args = .ok (.ok (request, param)) →
        ¬ Windows.FromEfivar windows request.fromfile →
          ∃ loaded : OsParam, loaded.Valid ∧ Windows.convertImgPath loaded = .ok param := by
  constructor
  · intro options param prepared
    exact Linux.valid_of_prepare prepared
  · intro request param prepared elsewhere
    obtain ⟨-, loaded, loads, converts⟩ := Windows.prepare_eq_ok_iff.mp prepared
    exact ⟨loaded, Windows.valid_of_loadOsParam elsewhere loads, converts⟩

/-- A system whose EFI variable holds nothing but zeros. -/
def efiSystem : Windows.System :=
  { Windows.System.bare with
    dummyVariable := fun _ => 203
    efivar := List.replicate sizeofOsParam 0 }

/-- The data of a VTOY table with a `/` in the path is not valid any more when the disk is
searched, and the zeros of a variable are searched with as they are. -/
theorem not_runtimeData_validated :
    (Windows.prepare Windows.isoSystem ["-m=0x8".toList] =
        .ok (.ok (⟨true, '\x00', none⟩, Windows.isoParam)) ∧
      ¬ Windows.FromEfivar Windows.isoSystem none ∧ ¬ Windows.isoParam.Valid) ∧
    ∃ param : OsParam, Windows.prepare efiSystem [] = .ok (.ok (⟨false, '\x00', none⟩, param)) ∧
      Windows.FromEfivar efiSystem none ∧ ¬ param.Valid := by
  refine ⟨⟨Windows.prepare_iso, ?_, by decide +kernel⟩, .zero, by decide +kernel,
    ⟨rfl, rfl, by decide +kernel⟩, by decide +kernel⟩
  rintro ⟨-, efi, -⟩
  cases efi

end Vtoydump
