import Vtoydump.Basis.Bits
import Vtoydump.Basis.Scan
import Vtoydump.Windows.System

/-!
# Free drive letters

`vtoy_find_free_drive` goes from Z down to A and takes the first letter that is
asked for and not in use; `0` stands for no letter.
-/

namespace Vtoydump.Windows

open CRun

def driveLetter (index : Nat) : Char := Char.ofNat (65 + index)

/-- The loop of `vtoy_find_free_drive`, over the numbers below a bound. -/
def findFreeDriveLoop (driveBits drives : UInt32) : Nat → Char
  | 0 => '\x00'
  | index + 1 =>
      let mask : UInt32 := 1 <<< UInt32.ofNat index
      if 0 < driveBits &&& mask ∧ drives &&& mask = 0 then driveLetter index
      else findFreeDriveLoop driveBits drives index

def vtoyFindFreeDrive (system : System) (driveBits : UInt32) : Char :=
  findFreeDriveLoop driveBits system.logicalDrives 26

/-- The letter of that number is asked for and not in use. -/
def freeDrive (system : System) (driveBits : UInt32) (index : Nat) : Bool :=
  driveBits.toNat.testBit index && !system.logicalDrives.toNat.testBit index

theorem and_mask_eq_zero_iff {bits : UInt32} {index : Nat} (inside : index < 32) :
    bits &&& (1 <<< UInt32.ofNat index) = 0 ↔ bits.toNat.testBit index = false := by
  rw [← Bool.not_eq_true]
  exact and_bitMask_eq_zero_iff inside

/-- The search gives the highest letter that is free. -/
theorem vtoyFindFreeDrive_eq (system : System) (driveBits : UInt32) :
    vtoyFindFreeDrive system driveBits =
      match highest (freeDrive system driveBits) 26 with
      | some index => driveLetter index
      | none => '\x00' := by
  have loop : ∀ bound ≤ 32, findFreeDriveLoop driveBits system.logicalDrives bound =
      match highest (freeDrive system driveBits) bound with
      | some index => driveLetter index
      | none => '\x00' := by
    intro bound
    induction bound with
    | zero =>
        intro _
        rfl
    | succ index inductionHypothesis =>
        intro inside
        have asked := @and_mask_eq_zero_iff driveBits index inside
        have used := @and_mask_eq_zero_iff system.logicalDrives index inside
        rw [findFreeDriveLoop, highest, freeDrive]
        simp only [UInt32.pos_iff_ne_zero, ne_eq, asked, used, Bool.and_eq_true,
          Bool.not_eq_true', Bool.not_eq_false]
        split_ifs with free
        · rfl
        · exact inductionHypothesis (Nat.le_of_succ_le inside)
  exact loop 26 (by decide)

theorem toNat_driveLetter {index : Nat} (inside : index < 26) :
    (driveLetter index).toNat = 65 + index := by
  revert index
  decide

theorem driveLetter_ne_zero {index : Nat} (inside : index < 26) :
    driveLetter index ≠ '\x00' := by
  revert index
  decide

end Vtoydump.Windows
