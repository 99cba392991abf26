import Mathlib.Logic.Function.Iterate
import Mathlib.Tactic.Common

/-!
# A remembered position in a linked chain

The cells of a chain follow from its first one by `next`.  A reader remembers
the cell it saw last and continues from there when it is not yet past its
target.  A walk that meets a broken cell stops there, and the position is
recorded all the same.
-/

namespace Cursor

variable {Cell : Type} {next : Cell → Cell} {broken : Cell → Bool} {start : Cell}

/-- Some steps along the chain; a broken cell ends the walk. -/
def walk (next : Cell → Cell) (broken : Cell → Bool) : Nat → Cell → Cell
  | 0, cell => cell
  | steps + 1, cell =>
      if broken (next cell) then next cell else walk next broken steps (next cell)

/-- The cells before an index are not broken. -/
def Intact (next : Cell → Cell) (broken : Cell → Bool) (start : Cell) (index : Nat) : Prop :=
  ∀ before < index, broken (next^[before] start) = false

/-- What is known of a remembered cell: it is the one at its index, unless the
chain is broken before. -/
def Tracks (next : Cell → Cell) (broken : Cell → Bool) (start : Cell) (index : Nat)
    (cell : Cell) : Prop :=
  Intact next broken start index → cell = next^[index] start

theorem tracks_start : Tracks next broken start 0 start := fun _ => rfl

theorem Intact.mono {low high : Nat} (intact : Intact next broken start high)
    (ordered : low ≤ high) : Intact next broken start low :=
  fun before below => intact before (Nat.lt_of_lt_of_le below ordered)

/-- A walk from the cell at an index, when nothing before its end is broken. -/
theorem walk_iterate {steps index : Nat}
    (intact : Intact next broken start (index + steps)) :
    walk next broken steps (next^[index] start) = next^[index + steps] start := by
  induction steps generalizing index with
  | zero => rfl
  | succ steps inductionHypothesis =>
      have shifted : index + (steps + 1) = index + 1 + steps := by omega
      rw [shifted] at intact ⊢
      rw [walk, ← Function.iterate_succ_apply' next index start]
      cases steps with
      | zero => split_ifs <;> rfl
      | succ steps =>
          rw [if_neg, inductionHypothesis intact]
          · have here := intact (index + 1) (by omega)
            rw [Nat.succ_eq_add_one, here]
            exact Bool.false_ne_true

/-- A walk of any length keeps what is known of the position. -/
theorem Tracks.walk {index : Nat} {cell : Cell}
    (tracks : Tracks next broken start index cell) (steps : Nat) :
    Tracks next broken start (index + steps) (walk next broken steps cell) := by
  intro intact
  rw [tracks (intact.mono (Nat.le_add_right _ _)), walk_iterate intact]

/-- How many steps, of so many, are taken before the first that is bad. -/
def leading (bad : Nat → Bool) : Nat → Nat
  | 0 => 0
  | count + 1 =>
      if leading bad count = count ∧ bad count = false then count + 1 else leading bad count

theorem leading_le (bad : Nat → Bool) (count : Nat) : leading bad count ≤ count := by
  induction count with
  | zero => exact Nat.le_refl _
  | succ count inductionHypothesis =>
      rw [leading]
      split_ifs
      · exact Nat.le_refl _
      · exact Nat.le_succ_of_le inductionHypothesis

theorem le_leading_iff {bad : Nat → Bool} {steps count : Nat} (within : steps ≤ count) :
    steps ≤ leading bad count ↔ ∀ before < steps, bad before = false := by
  induction count generalizing steps with
  | zero =>
      obtain rfl := Nat.le_zero.mp within
      exact ⟨fun _ before below => absurd below (Nat.not_lt_zero _), fun _ => Nat.zero_le _⟩
  | succ count inductionHypothesis =>
      have bounded := leading_le bad count
      rw [leading]
      split_ifs with further
      · obtain ⟨all, last⟩ := further
        have before := (inductionHypothesis (Nat.le_refl count)).mp (Nat.le_of_eq all.symm)
        refine ⟨fun _ index below => ?_, fun _ => within⟩
        rcases Nat.lt_succ_iff_lt_or_eq.mp (Nat.lt_of_lt_of_le below within) with earlier | rfl
        · exact before index earlier
        · exact last
      · rcases Nat.lt_succ_iff_lt_or_eq.mp (Nat.lt_succ_of_le within) with earlier | rfl
        · exact inductionHypothesis (Nat.le_of_lt_succ earlier)
        · constructor
          · intro beyond
            omega
          · intro valid
            refine absurd ⟨?_, valid count (Nat.lt_succ_self _)⟩ further
            have all := (inductionHypothesis (Nat.le_refl count)).mpr fun before below =>
              valid before (Nat.lt_succ_of_lt below)
            exact Nat.le_antisymm bounded all

end Cursor
