import Mathlib.Tactic.Common

/-!
# Computations that may fault

A C function either returns or runs into one of the faults below.  A faulting
run has no result: nothing is said about what the process does afterwards.
Signed arithmetic is checked (its overflow is undefined), conversions to an
unsigned type reduce modulo the width.
-/

namespace CRun

/-- The ways in which a run leaves the semantics of C, or stops for good. -/
inductive Fault where
  | nullDeref
  | outOfBounds
  | uninitialized
  | intOverflow
  | divByZero
  | abort
  | diverges
  deriving DecidableEq, Repr

abbrev Run (Value : Type) := Except Fault Value

variable {First Second : Type}

@[simp] theorem ok_bind (value : First) (next : First → Run Second) :
    ((Except.ok value : Run First) >>= next) = next value := rfl

@[simp] theorem error_bind (fault : Fault) (next : First → Run Second) :
    ((Except.error fault : Run First) >>= next) = .error fault := rfl

@[simp] theorem pure_eq_ok (value : First) : (pure value : Run First) = .ok value := rfl

theorem bind_eq_ok_iff {run : Run First} {next : First → Run Second} {result : Second} :
    (run >>= next) = .ok result ↔ ∃ value, run = .ok value ∧ next value = .ok result := by
  cases run with
  | error fault => simp
  | ok value => simp

def intMax : Int := 2147483647

/-- The values of a 32-bit `int`. -/
def InInt (value : Int) : Prop := -intMax - 1 ≤ value ∧ value ≤ intMax

instance (value : Int) : Decidable (InInt value) := inferInstanceAs (Decidable (_ ∧ _))

/-- The result of a signed operation, a fault when an `int` cannot hold it. -/
def checkInt (value : Int) : Run Int :=
  if InInt value then .ok value else .error .intOverflow

theorem checkInt_of_inInt {value : Int} (range : InInt value) : checkInt value = .ok value :=
  if_pos range

theorem checkInt_of_not_inInt {value : Int} (range : ¬ InInt value) :
    checkInt value = .error .intOverflow := if_neg range

/-- The two widths of `size_t` a program is built for. -/
inductive SizeT where
  | bits32
  | bits64
  deriving DecidableEq, Repr

namespace SizeT

/-- One more than the largest `size_t`. -/
def modulus : SizeT → Nat
  | .bits32 => 4294967296
  | .bits64 => 18446744073709551616

def trunc (width : SizeT) (value : Nat) : Nat := value % width.modulus

def ofInt (width : SizeT) (value : Int) : Nat := (value % width.modulus).toNat

/-- Conversion of a `size_t` to `ssize_t`. -/
def signed (width : SizeT) (value : Nat) : Int :=
  if 2 * value < width.modulus then value else (value : Int) - width.modulus

theorem modulus_pos (width : SizeT) : 0 < width.modulus := by
  cases width <;> simp [modulus]

theorem trunc_le (width : SizeT) (value : Nat) : width.trunc value ≤ value :=
  Nat.mod_le _ _

theorem trunc_of_lt {width : SizeT} {value : Nat} (small : value < width.modulus) :
    width.trunc value = value := Nat.mod_eq_of_lt small

theorem ofInt_of_lt {width : SizeT} {value : Nat} (small : value < width.modulus) :
    width.ofInt value = value := by
  unfold ofInt
  rw [Int.emod_eq_of_lt (Int.natCast_nonneg _) (by exact_mod_cast small)]
  simp

end SizeT

end CRun
