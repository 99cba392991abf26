import Mathlib.Data.List.Basic
import Mathlib.Data.List.Chain
import Mathlib.Algebra.BigOperators.Ring.List
import Mathlib.Algebra.Order.BigOperators.Group.List
import Mathlib.Algebra.Order.Ring.Nat
import Mathlib.Tactic.Common

/-!
# Layouts of extents

A layout lists the extents that hold consecutive parts of an object.  It means
the partial function `locate`, which sends a position of the object to the
place that holds it.  Joining an extent to the next one when it ends where the
next begins (`coalesce`) keeps that function.
-/

namespace Layout

/-- `size` consecutive places from `offset` on. -/
structure Extent where
  offset : Nat
  size : Nat
  deriving DecidableEq, Repr

namespace Extent

def stop (extent : Extent) : Nat := extent.offset + extent.size

/-- The second extent begins where the first one ends. -/
def Meets (first second : Extent) : Prop := first.stop = second.offset

instance (first second : Extent) : Decidable (first.Meets second) :=
  inferInstanceAs (Decidable (_ = _))

/-- One extent for two that meet. -/
def join (first second : Extent) : Extent := ⟨first.offset, first.size + second.size⟩

@[simp] theorem join_offset (first second : Extent) :
    (first.join second).offset = first.offset := rfl

@[simp] theorem join_size (first second : Extent) :
    (first.join second).size = first.size + second.size := rfl

/-- Every place of the first extent is a place of the second. -/
def Within (inner outer : Extent) : Prop :=
  outer.offset ≤ inner.offset ∧ inner.stop ≤ outer.stop

theorem Within.refl (extent : Extent) : extent.Within extent := ⟨le_rfl, le_rfl⟩

theorem Within.trans {inner middle outer : Extent}
    (first : inner.Within middle) (second : middle.Within outer) : inner.Within outer :=
  ⟨second.1.trans first.1, first.2.trans second.2⟩

theorem within_join_left (first second : Extent) : first.Within (first.join second) := by
  simp only [Within, stop, join]
  omega

theorem within_join_right {first second : Extent} (meets : first.Meets second) :
    second.Within (first.join second) := by
  simp only [Within, Meets, stop, join] at *
  omega

end Extent

def total (layout : List Extent) : Nat := (layout.map Extent.size).sum

@[simp] theorem total_nil : total [] = 0 := rfl

@[simp] theorem total_cons (extent : Extent) (layout : List Extent) :
    total (extent :: layout) = extent.size + total layout := by
  simp [total]

@[simp] theorem total_append (first second : List Extent) :
    total (first ++ second) = total first + total second := by
  simp [total]

theorem size_le_total {extent : Extent} {layout : List Extent} (membership : extent ∈ layout) :
    extent.size ≤ total layout :=
  List.le_sum_of_mem (List.mem_map_of_mem membership)

/-- The place that holds a position of the object. -/
def locate : List Extent → Nat → Option Nat
  | [], _ => none
  | extent :: layout, position =>
      if position < extent.size then some (extent.offset + position)
      else locate layout (position - extent.size)

theorem locate_cons_of_lt {extent : Extent} {position : Nat} (inside : position < extent.size)
    (layout : List Extent) :
    locate (extent :: layout) position = some (extent.offset + position) := if_pos inside

theorem locate_cons_add (extent : Extent) (layout : List Extent) (position : Nat) :
    locate (extent :: layout) (extent.size + position) = locate layout position := by
  simp [locate]

theorem locate_of_getElem? {layout : List Extent} {index : Nat} {extent : Extent}
    (found : layout[index]? = some extent) {inner : Nat} (inside : inner < extent.size) :
    locate layout (total (layout.take index) + inner) = some (extent.offset + inner) := by
  induction layout generalizing index with
  | nil => simp at found
  | cons head layout inductionHypothesis =>
      cases index with
      | zero =>
          simp only [List.getElem?_cons_zero, Option.some.injEq] at found
          subst head
          simpa using locate_cons_of_lt inside layout
      | succ index =>
          rw [List.getElem?_cons_succ] at found
          rw [List.take_succ_cons, total_cons, Nat.add_assoc, locate_cons_add]
          exact inductionHypothesis found

/-- Join the pending extent to the extents behind it as long as they meet. -/
def coalesceFrom (pending : Extent) : List Extent → List Extent
  | [] => [pending]
  | extent :: layout =>
      if pending.Meets extent then coalesceFrom (pending.join extent) layout
      else pending :: coalesceFrom extent layout

/-- The maximal runs of a layout. -/
def coalesce : List Extent → List Extent
  | [] => []
  | extent :: layout => coalesceFrom extent layout

theorem coalesceFrom_cons_of_meets {pending extent : Extent} (meets : pending.Meets extent)
    (layout : List Extent) :
    coalesceFrom pending (extent :: layout) = coalesceFrom (pending.join extent) layout :=
  if_pos meets

theorem coalesceFrom_cons_of_not_meets {pending extent : Extent} (apart : ¬ pending.Meets extent)
    (layout : List Extent) :
    coalesceFrom pending (extent :: layout) = pending :: coalesceFrom extent layout :=
  if_neg apart

theorem coalesceFrom_origin (extent : Extent) (layout : List Extent) :
    coalesceFrom ⟨0, 0⟩ (extent :: layout) = coalesce (extent :: layout) ∨
      coalesceFrom ⟨0, 0⟩ (extent :: layout) = ⟨0, 0⟩ :: coalesce (extent :: layout) := by
  by_cases meets : (⟨0, 0⟩ : Extent).Meets extent
  · left
    have joined : (⟨0, 0⟩ : Extent).join extent = extent := by
      cases extent
      simp_all [Extent.Meets, Extent.stop, Extent.join]
    rw [coalesceFrom_cons_of_meets meets, joined]
    rfl
  · exact .inr (coalesceFrom_cons_of_not_meets meets layout)

theorem coalesceFrom_head (pending : Extent) (layout : List Extent) :
    ∃ size rest, coalesceFrom pending layout = ⟨pending.offset, size⟩ :: rest ∧
      pending.size ≤ size := by
  induction layout generalizing pending with
  | nil => exact ⟨pending.size, [], rfl, le_rfl⟩
  | cons extent layout inductionHypothesis =>
      by_cases meets : pending.Meets extent
      · rw [coalesceFrom_cons_of_meets meets]
        obtain ⟨size, rest, equality, bound⟩ := inductionHypothesis (pending.join extent)
        exact ⟨size, rest, equality, (Nat.le_add_right _ _).trans bound⟩
      · rw [coalesceFrom_cons_of_not_meets meets]
        exact ⟨pending.size, _, rfl, le_rfl⟩

theorem coalesceFrom_ne_nil (pending : Extent) (layout : List Extent) :
    coalesceFrom pending layout ≠ [] := by
  obtain ⟨size, rest, equality, -⟩ := coalesceFrom_head pending layout
  simp [equality]

theorem coalesce_ne_nil (extent : Extent) (layout : List Extent) :
    coalesce (extent :: layout) ≠ [] := coalesceFrom_ne_nil extent layout

/-- An induction rule: what holds of the pending extent and of the others, and
of the join of two extents that meet, holds of every run. -/
theorem forall_mem_coalesceFrom {property : Extent → Prop} {pending : Extent}
    {layout : List Extent} (first : property pending) (others : ∀ extent ∈ layout, property extent)
    (joins : ∀ left right, property left → property right → left.Meets right →
      property (left.join right)) :
    ∀ run ∈ coalesceFrom pending layout, property run := by
  induction layout generalizing pending with
  | nil => simpa [coalesceFrom] using first
  | cons extent layout inductionHypothesis =>
      have here : property extent := others extent (by simp)
      have rest : ∀ extent ∈ layout, property extent :=
        fun extent membership => others extent (by simp [membership])
      by_cases meets : pending.Meets extent
      · rw [coalesceFrom_cons_of_meets meets]
        exact inductionHypothesis (joins _ _ first here meets) rest
      · rw [coalesceFrom_cons_of_not_meets meets]
        intro run membership
        rcases List.mem_cons.mp membership with rfl | membership
        · exact first
        · exact inductionHypothesis here rest run membership

theorem forall_mem_dropLast_coalesceFrom {property : Extent → Prop} {pending : Extent}
    {layout : List Extent} (others : ∀ extent ∈ (pending :: layout).dropLast, property extent)
    (joins : ∀ left right, property left → property right → left.Meets right →
      property (left.join right)) :
    ∀ run ∈ (coalesceFrom pending layout).dropLast, property run := by
  induction layout generalizing pending with
  | nil => simp [coalesceFrom]
  | cons extent layout inductionHypothesis =>
      have first : property pending := others pending (by simp)
      by_cases meets : pending.Meets extent
      · rw [coalesceFrom_cons_of_meets meets]
        apply inductionHypothesis
        cases layout with
        | nil => simp
        | cons next layout =>
            intro run membership
            simp only [List.dropLast_cons_cons, List.mem_cons] at others membership
            rcases membership with rfl | membership
            · exact joins _ _ first (others extent (by simp)) meets
            · exact others run (by simp [membership])
      · rw [coalesceFrom_cons_of_not_meets meets,
          List.dropLast_cons_of_ne_nil (coalesceFrom_ne_nil _ _)]
        intro run membership
        rcases List.mem_cons.mp membership with rfl | membership
        · exact first
        · refine inductionHypothesis (fun other inside => others other ?_) run membership
          rw [List.dropLast_cons_cons]
          exact List.mem_cons_of_mem _ inside

theorem total_coalesceFrom (pending : Extent) (layout : List Extent) :
    total (coalesceFrom pending layout) = pending.size + total layout := by
  induction layout generalizing pending with
  | nil => simp [coalesceFrom]
  | cons extent layout inductionHypothesis =>
      by_cases meets : pending.Meets extent
      · rw [coalesceFrom_cons_of_meets meets, inductionHypothesis]
        simp [Nat.add_assoc]
      · rw [coalesceFrom_cons_of_not_meets meets]
        simp [inductionHypothesis]

theorem dvd_size_of_dvd_total {unit : Nat} {layout : List Extent}
    (inner : ∀ extent ∈ layout.dropLast, unit ∣ extent.size) (whole : unit ∣ total layout) :
    ∀ extent ∈ layout, unit ∣ extent.size := by
  induction layout with
  | nil => simp
  | cons extent layout inductionHypothesis =>
      cases layout with
      | nil => simpa using whole
      | cons next layout =>
          rw [List.dropLast_cons_cons, List.forall_mem_cons] at inner
          rw [total_cons, Nat.dvd_add_right inner.1] at whole
          exact List.forall_mem_cons.mpr ⟨inner.1, inductionHypothesis inner.2 whole⟩

theorem isChain_coalesceFrom (pending : Extent) (layout : List Extent) :
    (coalesceFrom pending layout).IsChain (fun left right => ¬ left.Meets right) := by
  induction layout generalizing pending with
  | nil => simp [coalesceFrom]
  | cons extent layout inductionHypothesis =>
      by_cases meets : pending.Meets extent
      · rw [coalesceFrom_cons_of_meets meets]
        exact inductionHypothesis _
      · rw [coalesceFrom_cons_of_not_meets meets]
        have tail := inductionHypothesis extent
        obtain ⟨size, rest, equality, -⟩ := coalesceFrom_head extent layout
        rw [equality] at tail ⊢
        exact List.isChain_cons_cons.mpr ⟨meets, tail⟩

theorem coalesce_of_isChain {layout : List Extent}
    (apart : layout.IsChain fun left right => ¬ left.Meets right) : coalesce layout = layout := by
  cases layout with
  | nil => rfl
  | cons extent layout =>
      rw [coalesce]
      induction layout generalizing extent with
      | nil => rfl
      | cons next layout inductionHypothesis =>
          obtain ⟨first, rest⟩ := List.isChain_cons_cons.mp apart
          rw [coalesceFrom_cons_of_not_meets first, inductionHypothesis next rest]

theorem exists_within_coalesceFrom {pending extent : Extent} {layout : List Extent}
    (membership : extent ∈ pending :: layout) :
    ∃ run ∈ coalesceFrom pending layout, extent.Within run := by
  induction layout generalizing pending with
  | nil =>
      obtain rfl := List.mem_singleton.mp membership
      exact ⟨extent, by simp [coalesceFrom], .refl _⟩
  | cons next layout inductionHypothesis =>
      by_cases meets : pending.Meets next
      · rw [coalesceFrom_cons_of_meets meets]
        obtain ⟨size, rest, equality, bound⟩ := coalesceFrom_head (pending.join next) layout
        have joined : (pending.join next).Within ⟨pending.offset, size⟩ :=
          ⟨le_rfl, Nat.add_le_add_left bound _⟩
        have first : (⟨pending.offset, size⟩ : Extent) ∈
            coalesceFrom (pending.join next) layout := by simp [equality]
        simp only [List.mem_cons] at membership
        rcases membership with rfl | rfl | membership
        · exact ⟨_, first, (Extent.within_join_left _ _).trans joined⟩
        · exact ⟨_, first, (Extent.within_join_right meets).trans joined⟩
        · exact inductionHypothesis (List.mem_cons_of_mem _ membership)
      · rw [coalesceFrom_cons_of_not_meets meets]
        rcases List.mem_cons.mp membership with rfl | membership
        · exact ⟨extent, by simp, .refl _⟩
        · obtain ⟨run, inside, within⟩ := inductionHypothesis membership
          exact ⟨run, by simp [inside], within⟩

theorem locate_join {first second : Extent} (meets : first.Meets second)
    (layout : List Extent) (position : Nat) :
    locate (first.join second :: layout) position =
      locate (first :: second :: layout) position := by
  simp only [Extent.Meets, Extent.stop] at meets
  by_cases inFirst : position < first.size
  · rw [locate_cons_of_lt inFirst, locate_cons_of_lt (by simp only [Extent.join_size]; omega)]
    rfl
  · obtain ⟨inner, rfl⟩ := Nat.exists_eq_add_of_le (Nat.le_of_not_lt inFirst)
    rw [locate_cons_add]
    by_cases inSecond : inner < second.size
    · rw [locate_cons_of_lt inSecond, locate_cons_of_lt (by simp only [Extent.join_size]; omega)]
      simp only [Extent.join_offset, Option.some.injEq]
      omega
    · obtain ⟨rest, rfl⟩ := Nat.exists_eq_add_of_le (Nat.le_of_not_lt inSecond)
      rw [locate_cons_add, ← Nat.add_assoc, ← Extent.join_size, locate_cons_add]

/-- Coalescing keeps the meaning of the layout. -/
theorem locate_coalesceFrom (pending : Extent) (layout : List Extent) (position : Nat) :
    locate (coalesceFrom pending layout) position = locate (pending :: layout) position := by
  induction layout generalizing pending position with
  | nil => rfl
  | cons extent layout inductionHypothesis =>
      by_cases meets : pending.Meets extent
      · rw [coalesceFrom_cons_of_meets meets, inductionHypothesis, locate_join meets]
      · rw [coalesceFrom_cons_of_not_meets meets]
        simp only [locate, inductionHypothesis]

end Layout
