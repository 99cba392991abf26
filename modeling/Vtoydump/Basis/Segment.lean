import Mathlib.Data.Nat.ModEq
import Vtoydump.Basis.Layout

/-!
# Numbered segments of a layout

A table that carries the position of each extent besides the extent itself is
the layout `place`d from its first position on.  Such a table answers the same
queries as the layout: one segment holds a position, and it leads to the same
place.  Layouts measured in a coarser unit are covered by `scale`.
-/

namespace Layout

/-- An extent together with the position of the object it holds first. -/
structure Segment where
  start : Nat
  extent : Extent
  deriving DecidableEq, Repr

def Segment.Holds (segment : Segment) (position : Nat) : Prop :=
  segment.start ≤ position ∧ position < segment.start + segment.extent.size

instance (segment : Segment) (position : Nat) : Decidable (segment.Holds position) :=
  inferInstanceAs (Decidable (_ ∧ _))

/-- Number the extents of a layout consecutively. -/
def place (start : Nat) : List Extent → List Segment
  | [] => []
  | extent :: layout => ⟨start, extent⟩ :: place (start + extent.size) layout

@[simp] theorem place_nil (start : Nat) : place start [] = [] := rfl

@[simp] theorem place_cons (start : Nat) (extent : Extent) (layout : List Extent) :
    place start (extent :: layout) = ⟨start, extent⟩ :: place (start + extent.size) layout := rfl

theorem place_getElem? (start : Nat) (layout : List Extent) (index : Nat) :
    (place start layout)[index]? =
      layout[index]?.map fun extent => ⟨start + total (layout.take index), extent⟩ := by
  induction layout generalizing start index with
  | nil => simp
  | cons extent layout inductionHypothesis =>
      cases index with
      | zero => simp
      | succ index => simp [inductionHypothesis, Nat.add_assoc]

theorem locate_of_holds {start index position : Nat} {layout : List Extent} {segment : Segment}
    (found : (place start layout)[index]? = some segment) (holds : segment.Holds position) :
    locate layout (position - start) =
      some (segment.extent.offset + (position - segment.start)) := by
  rw [place_getElem?] at found
  obtain ⟨extent, extentFound, rfl⟩ := Option.map_eq_some_iff.mp found
  obtain ⟨lower, upper⟩ := holds
  simp only at lower upper ⊢
  have inside : position - (start + total (layout.take index)) < extent.size := by omega
  rw [← locate_of_getElem? extentFound inside]
  congr 1
  omega

theorem exists_holds {start position : Nat} {layout : List Extent}
    (lower : start ≤ position) (upper : position < start + total layout) :
    ∃ (index : Nat) (segment : Segment),
      (place start layout)[index]? = some segment ∧ segment.Holds position := by
  induction layout generalizing start with
  | nil => simp only [total_nil] at upper; omega
  | cons extent layout inductionHypothesis =>
      by_cases inside : position < start + extent.size
      · exact ⟨0, ⟨start, extent⟩, rfl, lower, inside⟩
      · rw [total_cons, ← Nat.add_assoc] at upper
        obtain ⟨index, segment, found, holds⟩ :=
          inductionHypothesis (Nat.le_of_not_lt inside) upper
        exact ⟨index + 1, segment, found, holds⟩

theorem start_le_of_mem_place {start : Nat} {layout : List Extent} {segment : Segment}
    (membership : segment ∈ place start layout) : start ≤ segment.start := by
  induction layout generalizing start with
  | nil => simp at membership
  | cons extent layout inductionHypothesis =>
      rcases List.mem_cons.mp membership with rfl | membership
      · exact le_rfl
      · exact (Nat.le_add_right _ _).trans (inductionHypothesis membership)

theorem holds_index_unique {start position : Nat} {layout : List Extent}
    {first second : Nat} {left right : Segment}
    (foundLeft : (place start layout)[first]? = some left)
    (foundRight : (place start layout)[second]? = some right)
    (holdsLeft : left.Holds position) (holdsRight : right.Holds position) : first = second := by
  induction layout generalizing start first second with
  | nil => simp at foundLeft
  | cons extent layout inductionHypothesis =>
      simp only [place_cons] at foundLeft foundRight
      unfold Segment.Holds at holdsLeft holdsRight
      cases first with
      | zero =>
          cases second with
          | zero => rfl
          | succ second =>
              simp only [List.getElem?_cons_zero, Option.some.injEq] at foundLeft
              subst left
              have := start_le_of_mem_place (List.mem_of_getElem? foundRight)
              simp only at holdsLeft
              omega
      | succ first =>
          cases second with
          | zero =>
              simp only [List.getElem?_cons_zero, Option.some.injEq] at foundRight
              subst right
              have := start_le_of_mem_place (List.mem_of_getElem? foundLeft)
              simp only at holdsRight
              omega
          | succ second =>
              exact congrArg (· + 1)
                (inductionHypothesis foundLeft foundRight)

/-- One segment holds each position of the object. -/
theorem existsUnique_holds {start position : Nat} {layout : List Extent}
    (lower : start ≤ position) (upper : position < start + total layout) :
    ∃! index : Nat, ∃ segment : Segment,
      (place start layout)[index]? = some segment ∧ segment.Holds position := by
  obtain ⟨index, segment, found, holds⟩ := exists_holds lower upper
  refine ⟨index, ⟨segment, found, holds⟩, ?_⟩
  rintro other ⟨right, foundRight, holdsRight⟩
  exact holds_index_unique foundRight found holdsRight holds

/-- The segments follow one another from a position on. -/
def Tiles : Nat → List Segment → Prop
  | _, [] => True
  | start, segment :: segments =>
      segment.start = start ∧ Tiles (start + segment.extent.size) segments

theorem Tiles.eq_place {start : Nat} {segments : List Segment} (tiles : Tiles start segments) :
    segments = place start (segments.map Segment.extent) := by
  induction segments generalizing start with
  | nil => rfl
  | cons segment segments inductionHypothesis =>
      obtain ⟨rfl, rest⟩ := tiles
      rw [List.map_cons, place_cons]
      exact congrArg _ (inductionHypothesis rest)

/-- Segments that tile an object hold each of its positions once. -/
theorem Tiles.existsUnique_holds {start position : Nat} {segments : List Segment}
    (tiles : Tiles start segments) (lower : start ≤ position)
    (upper : position < start + total (segments.map Segment.extent)) :
    ∃! index : Nat, ∃ segment : Segment,
      segments[index]? = some segment ∧ segment.Holds position := by
  rw [tiles.eq_place]
  exact Layout.existsUnique_holds lower upper

/-- The extent measured in a coarser unit. -/
def Extent.scale (unit : Nat) (extent : Extent) : Extent :=
  ⟨extent.offset / unit, extent.size / unit⟩

def Extent.Aligned (unit : Nat) (extent : Extent) : Prop :=
  unit ∣ extent.offset ∧ unit ∣ extent.size

theorem total_map_scale {unit : Nat} {layout : List Extent}
    (aligned : ∀ extent ∈ layout, unit ∣ extent.size) :
    total (layout.map (Extent.scale unit)) = total layout / unit := by
  induction layout with
  | nil => simp
  | cons extent layout inductionHypothesis =>
      rw [List.map_cons, total_cons, total_cons,
        inductionHypothesis fun extent membership => aligned extent (by simp [membership]),
        Nat.add_div_of_dvd_right (aligned extent (by simp))]
      rfl

/-- Aligned layouts mean the same function in the coarser unit. -/
theorem locate_map_scale {unit : Nat} (positive : 0 < unit) {layout : List Extent}
    (aligned : ∀ extent ∈ layout, extent.Aligned unit) (position : Nat) :
    locate (layout.map (Extent.scale unit)) position =
      (locate layout (position * unit)).map (· / unit) := by
  induction layout generalizing position with
  | nil => rfl
  | cons extent layout inductionHypothesis =>
      obtain ⟨⟨offset, offsetEquality⟩, size, sizeEquality⟩ := aligned extent (by simp)
      have scaled : extent.scale unit = ⟨offset, size⟩ := by
        rw [Extent.scale, offsetEquality, sizeEquality, Nat.mul_div_cancel_left _ positive,
          Nat.mul_div_cancel_left _ positive]
      have rest :=
        inductionHypothesis fun extent membership => aligned extent (by simp [membership])
      rw [List.map_cons, scaled]
      by_cases inside : position < size
      · have scaledInside : position * unit < extent.size := by
          rw [sizeEquality, Nat.mul_comm]
          exact Nat.mul_lt_mul_of_pos_left inside positive
        rw [locate_cons_of_lt inside, locate_cons_of_lt scaledInside, offsetEquality,
          Nat.mul_comm position, ← Nat.mul_add, Option.map_some, Nat.mul_div_cancel_left _ positive]
      · obtain ⟨inner, rfl⟩ := Nat.exists_eq_add_of_le (Nat.le_of_not_lt inside)
        have outer : (size + inner) * unit = extent.size + inner * unit := by
          rw [sizeEquality, Nat.add_mul, Nat.mul_comm size]
        rw [outer, locate_cons_add extent, ← rest]
        exact locate_cons_add ⟨offset, size⟩ _ inner

end Layout
