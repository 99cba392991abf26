import Mathlib.Data.List.Chain
import Mathlib.Data.List.Nodup
import Mathlib.Tactic.Common

/-!
# Linked cells

Each cell of a list but the last names the one behind it.  What the last cell names does
not matter, so a list grows by a change of that cell alone.
-/

namespace Chain

variable {Cell : Type} {next other : Cell → Cell} {cells rest : List Cell} {cell : Cell}

def Linked (next : Cell → Cell) (cells : List Cell) : Prop :=
  cells.IsChain fun cell follower => next cell = follower

theorem linked_nil : Linked next [] := List.IsChain.nil

theorem linked_singleton (cell : Cell) : Linked next [cell] := List.IsChain.singleton cell

theorem Linked.follower {index : Nat} {follower : Cell} (linked : Linked next cells)
    (here : cells[index]? = some cell) (behind : cells[index + 1]? = some follower) :
    next cell = follower := by
  obtain ⟨inside, rfl⟩ := List.getElem?_eq_some_iff.mp here
  obtain ⟨insideToo, rfl⟩ := List.getElem?_eq_some_iff.mp behind
  exact List.isChain_iff_getElem.mp linked index insideToo

theorem Linked.take (linked : Linked next cells) (count : Nat) :
    Linked next (cells.take count) := List.IsChain.take linked count

theorem Linked.drop (linked : Linked next cells) (count : Nat) :
    Linked next (cells.drop count) := List.IsChain.drop linked count

theorem Linked.tail (linked : Linked next (cell :: cells)) : Linked next cells :=
  List.IsChain.tail linked

theorem Linked.concat (linked : Linked next cells)
    (last : ∀ before ∈ cells.getLast?, next before = cell) : Linked next (cells ++ [cell]) := by
  refine List.isChain_append.mpr ⟨linked, List.IsChain.singleton cell, ?_⟩
  intro before isLast follower isFirst
  cases isFirst
  exact last before isLast

/-- The links of all cells but the last are the same. -/
theorem Linked.congr (linked : Linked next cells)
    (same : ∀ cell ∈ cells.dropLast, other cell = next cell) : Linked other cells := by
  rw [Linked, List.isChain_iff_getElem] at linked ⊢
  intro index inside
  rw [same]
  · exact linked index inside
  · apply List.mem_iff_getElem.mpr
    refine ⟨index, by rw [List.length_dropLast]; omega, ?_⟩
    rw [List.getElem_dropLast]

theorem Linked.congr_all (linked : Linked next cells)
    (same : ∀ cell ∈ cells, other cell = next cell) : Linked other cells :=
  linked.congr fun cell membership => same cell ((List.dropLast_sublist cells).mem membership)

/-- The cells before the last are other cells. -/
theorem ne_of_mem_dropLast (nodup : cells.Nodup) (last : cells.getLast? = some cell) {before : Cell}
    (membership : before ∈ cells.dropLast) : before ≠ cell := by
  rintro rfl
  have whole := List.dropLast_append_getLast? before last
  rw [← whole] at nodup
  exact List.disjoint_of_nodup_append nodup membership (List.mem_singleton.mpr rfl)

end Chain
