import Mathlib.Tactic.Common

/-!
# Programs that read through a callback

A library that reads sectors sees of the medium only what its callback answers:
a code, and the bytes of the buffer.  Two callbacks that answer the reads of a run
alike give the same run.
-/

namespace CRun

inductive MediaOp (Value : Type) where
  | done (value : Value)
  | read (sector count : UInt32) (next : Int → List UInt8 → MediaOp Value)

/-- The answer to the read with this number, of so many sectors. -/
abbrev Callback := Nat → UInt32 → UInt32 → Int × List UInt8

namespace MediaOp

variable {First Second : Type}

def bind : MediaOp First → (First → MediaOp Second) → MediaOp Second
  | .done value, next => next value
  | .read sector count answer, next =>
      .read sector count fun code buffer => (answer code buffer).bind next

instance : Monad MediaOp where
  pure := .done
  bind := bind

/-- The result, and the number of the next read. -/
def run (callback : Callback) : MediaOp First → Nat → First × Nat
  | .done value, number => (value, number)
  | .read sector count next, number =>
      (next (callback number sector count).1 (callback number sector count).2).run callback
        (number + 1)

/-- Every read of a run is of this kind. -/
def Reads (callback : Callback) (kind : Nat → UInt32 → UInt32 → Prop) :
    MediaOp First → Nat → Prop
  | .done _, _ => True
  | .read sector count next, number =>
      kind number sector count ∧
        (next (callback number sector count).1 (callback number sector count).2).Reads callback
          kind (number + 1)

section Run

variable {callback other : Callback} {kind another : Nat → UInt32 → UInt32 → Prop}

theorem run_bind (op : MediaOp First) (next : First → MediaOp Second) (number : Nat) :
    (op >>= next).run callback number =
      (next (op.run callback number).1).run callback (op.run callback number).2 := by
  induction op generalizing number with
  | done value => rfl
  | read sector count answer inductionHypothesis =>
      exact inductionHypothesis _ _ (number + 1)

theorem Reads.mono {op : MediaOp First} {number : Nat} (reads : op.Reads callback kind number)
    (implies : ∀ number sector count, kind number sector count → another number sector count) :
    op.Reads callback another number := by
  induction op generalizing number with
  | done value => trivial
  | read sector count answer inductionHypothesis =>
      exact ⟨implies _ _ _ reads.1, inductionHypothesis _ _ reads.2⟩

theorem run_congr {op : MediaOp First} {number : Nat}
    (alike : op.Reads callback
      (fun number sector count => callback number sector count = other number sector count)
      number) :
    op.run callback number = op.run other number := by
  induction op generalizing number with
  | done value => rfl
  | read sector count answer inductionHypothesis =>
      obtain ⟨here, later⟩ := alike
      rw [run, run, ← here]
      exact inductionHypothesis _ _ later

end Run

end MediaOp

end CRun
