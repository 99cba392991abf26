import Mathlib.Data.List.DropRight
import Mathlib.Tactic.Common

/-!
# Components of a path

A path is split at its separators; empty components do not count.  A scanner
that skips separators, takes what follows and continues behind it meets the
components one after the other.
-/

namespace Path

variable {Char : Type} (separator : Char → Bool)

/-- The components between separators. -/
def components (path : List Char) : List (List Char) :=
  (path.splitOnP separator).filter (· ≠ [])

/-- The first component, and the path behind it. -/
def scan (path : List Char) : List Char × List Char :=
  ((path.dropWhile separator).takeWhile (!separator ·),
    (path.dropWhile separator).dropWhile (!separator ·))

variable {separator}

theorem components_cons_separator {char : Char} (marks : separator char = true)
    (path : List Char) : components separator (char :: path) = components separator path := by
  rw [components, List.splitOnP_cons_eq_if_modifyHead, if_pos marks,
    List.filter_cons_of_neg (by simp), components]

/-- Separators at the beginning do not count. -/
theorem components_dropWhile (path : List Char) :
    components separator (path.dropWhile separator) = components separator path := by
  induction path with
  | nil => rfl
  | cons char path inductionHypothesis =>
      cases marks : separator char with
      | true =>
          rw [List.dropWhile_cons_of_pos marks, components_cons_separator marks,
            inductionHypothesis]
      | false => rw [List.dropWhile_cons_of_neg (by simp [marks])]

/-- A component in front of a separator, or of the end. -/
theorem components_append {name rest : List Char} (plain : ∀ char ∈ name, separator char = false)
    (some : name ≠ []) (ends : rest.dropWhile (!separator ·) = rest) :
    components separator (name ++ rest) = name :: components separator rest := by
  cases rest with
  | nil =>
      rw [List.append_nil, components, List.splitOnP_eq_singleton plain,
        List.filter_cons_of_pos (by simpa using some)]
      rfl
  | cons char rest =>
      have marks : separator char = true := by
        by_contra plainChar
        rw [Bool.not_eq_true] at plainChar
        rw [List.dropWhile_cons_of_pos (by simp [plainChar])] at ends
        have shorter := (@List.dropWhile_suffix _ rest (!separator ·)).length_le
        rw [ends, List.length_cons] at shorter
        omega
      rw [components, List.splitOnP_append_cons_of_forall_mem plain char marks,
        List.filter_cons_of_pos (by simpa using some), components_cons_separator marks,
        components]

/-- What a scanner finds first, and the path that it leaves. -/
theorem components_eq_scan (path : List Char) :
    components separator path =
      if (scan separator path).1 = [] then []
      else (scan separator path).1 :: components separator (scan separator path).2 := by
  rw [← components_dropWhile path]
  have parts := @List.takeWhile_append_dropWhile _ (!separator ·) (path.dropWhile separator)
  split_ifs with none
  · -- behind the separators stands no other one, so nothing is left at all
    rw [scan] at none
    dsimp only at none
    cases rest : path.dropWhile separator with
    | nil => rfl
    | cons char rest' =>
        have some : path.dropWhile separator ≠ [] := by
          rw [rest]
          exact List.cons_ne_nil _ _
        have head := List.head_dropWhile_not separator some
        rw [rest] at none
        simp only [rest, List.head_cons] at head
        rw [List.takeWhile_cons_of_pos (by simp [head])] at none
        cases none
  · conv_lhs => rw [← parts]
    apply components_append
    · intro char membership
      have kept := List.mem_takeWhile_imp membership
      simpa using kept
    · exact none
    · exact List.dropWhile_idempotent _ _

theorem scan_shorter {path : List Char} (some : (scan separator path).1 ≠ []) :
    (scan separator path).2.length < path.length := by
  have parts := congrArg List.length
    (@List.takeWhile_append_dropWhile _ (!separator ·) (path.dropWhile separator))
  have less := (@List.dropWhile_suffix _ path separator).length_le
  have positive := List.length_pos_iff.mpr some
  rw [List.length_append] at parts
  unfold scan at positive ⊢
  dsimp only at positive ⊢
  omega

end Path
