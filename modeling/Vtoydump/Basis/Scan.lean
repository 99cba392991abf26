import Mathlib.Data.List.Perm.Basic
import Vtoydump.Basis.Fault

/-!
# Counting scans

A scan tests the elements of a list one after another, counts those that pass
and remembers the last one.  The count does not depend on the order of the
list, and neither does the remembered element when it is the only one.  A
search that stops reaches the elements up to the first that it wants.  A
descending search finds the highest number that passes a test.
-/

namespace CRun

variable {Alpha : Type}

/-- Scan the elements behind a count and a remembered element. -/
def scan (test : Alpha → Run Bool) : List Alpha → Int → Option Alpha → Run (Int × Option Alpha)
  | [], count, last => .ok (count, last)
  | element :: elements, count, last => do
      let passed ← test element
      if passed then
        let next ← checkInt (count + 1)
        scan test elements next (some element)
      else scan test elements count last

def passes (test : Alpha → Run Bool) (element : Alpha) : Bool :=
  match test element with
  | .error _ => false
  | .ok passed => passed

section Scan

variable {test : Alpha → Run Bool}

theorem passes_of_eq_ok {element : Alpha} {passed : Bool} (tested : test element = .ok passed) :
    passes test element = passed := by
  rw [passes, tested]

theorem getLast?_cons_or (element : Alpha) (elements : List Alpha) (last : Option Alpha) :
    (element :: elements).getLast?.or last = elements.getLast?.or (some element) := by
  rw [List.getLast?_cons]
  cases elements.getLast? <;> rfl

theorem scan_eq_ok_iff {elements : List Alpha} {count total : Int} {last found : Option Alpha}
    (positive : 0 ≤ count) (small : count ≤ intMax) :
    scan test elements count last = .ok (total, found) ↔
      (∀ element ∈ elements, ∃ passed, test element = .ok passed) ∧
      total = count + (elements.filter (passes test)).length ∧ total ≤ intMax ∧
      found = (elements.filter (passes test)).getLast?.or last := by
  induction elements generalizing count last with
  | nil =>
      rw [scan]
      constructor
      · intro returned
        cases returned
        exact ⟨by simp, (Int.add_zero _).symm, small, rfl⟩
      · rintro ⟨-, rfl, -, rfl⟩
        exact congrArg (fun same => Except.ok (same, _)) (Int.add_zero count).symm
  | cons element elements inductionHypothesis =>
      rw [scan, List.forall_mem_cons]
      cases tested : test element with
      | error fault => simp
      | ok passed =>
          have outcome := passes_of_eq_ok tested
          cases passed with
          | false =>
              rw [List.filter_cons_of_neg (Bool.eq_false_iff.mp outcome)]
              simpa using inductionHypothesis positive small
          | true =>
              rw [List.filter_cons_of_pos outcome, List.length_cons, getLast?_cons_or]
              by_cases range : InInt (count + 1)
              · have rest := @inductionHypothesis (count + 1) (some element)
                  (Int.add_nonneg positive (by decide)) range.2
                have moved : count + 1 + ((elements.filter (passes test)).length : Int) =
                    count + ((elements.filter (passes test)).length + 1 : Nat) := by
                  push_cast
                  omega
                rw [moved] at rest
                simpa [checkInt_of_inInt range] using rest
              · have large : ¬ count + 1 ≤ intMax := by
                  intro bound
                  exact range ⟨by unfold intMax at small ⊢; omega, bound⟩
                simp only [ok_bind, if_true, checkInt_of_not_inInt range, error_bind, reduceCtorEq,
                  false_iff, not_and]
                intro _ counted bound
                exfalso
                apply large
                omega

theorem exists_scan {elements : List Alpha} {last : Option Alpha}
    (tested : ∀ element ∈ elements, ∃ passed, test element = .ok passed)
    (short : elements.length ≤ 2147483647) :
    ∃ total found, scan test elements 0 last = .ok (total, found) := by
  refine ⟨_, _, (scan_eq_ok_iff (Int.le_refl 0) (by decide)).mpr ⟨tested, rfl, ?_, rfl⟩⟩
  have passing := List.length_filter_le (passes test) elements
  rw [intMax, Int.zero_add]
  exact Int.ofNat_le.mpr (Nat.le_trans passing short)

/-- The order of the elements decides neither the count nor a single find. -/
theorem scan_perm {first second : List Alpha} {last other found : Option Alpha} {total : Int}
    (order : first.Perm second) (scanned : scan test first 0 last = .ok (total, found)) :
    ∃ again, scan test second 0 other = .ok (total, again) ∧ (total = 1 → again = found) := by
  obtain ⟨tested, counted, bound, rfl⟩ := (scan_eq_ok_iff (Int.le_refl 0) (by decide)).mp scanned
  have passing := order.filter (passes test)
  refine ⟨_, (scan_eq_ok_iff (Int.le_refl 0) (by decide)).mpr ⟨?_, ?_, bound, rfl⟩, ?_⟩
  · intro element membership
    exact tested element (order.mem_iff.mpr membership)
  · rw [← passing.length_eq]
    exact counted
  · intro one
    have single : (first.filter (passes test)).length = 1 := by omega
    obtain ⟨element, only⟩ := List.length_eq_one_iff.mp single
    rw [only] at passing
    rw [only, List.perm_singleton.mp passing.symm]
    rfl

theorem scan_eq_one {elements : List Alpha} {last found : Option Alpha}
    (scanned : scan test elements 0 last = .ok (1, found)) :
    ∃ element, found = some element ∧ elements.filter (passes test) = [element] := by
  obtain ⟨-, counted, -, rfl⟩ := (scan_eq_ok_iff (Int.le_refl 0) (by decide)).mp scanned
  have single : (elements.filter (passes test)).length = 1 := by omega
  obtain ⟨element, only⟩ := List.length_eq_one_iff.mp single
  rw [only]
  exact ⟨element, rfl, rfl⟩

end Scan

section Reaches

/-- A search that stops at the first wanted element looks at this one. -/
def Reaches (wanted : Alpha → Prop) (elements : List Alpha) (element : Alpha) : Prop :=
  ∃ before after, elements = before ++ element :: after ∧ ∀ other ∈ before, ¬ wanted other

variable {wanted : Alpha → Prop} {first element : Alpha} {elements : List Alpha}

theorem Reaches.mem (reached : Reaches wanted elements element) : element ∈ elements := by
  obtain ⟨before, after, rfl, -⟩ := reached
  exact List.mem_append_right before List.mem_cons_self

theorem not_reaches_nil : ¬ Reaches wanted [] element := by
  intro reached
  cases reached.mem

theorem reaches_cons_iff :
    Reaches wanted (first :: elements) element ↔
      element = first ∨ ¬ wanted first ∧ Reaches wanted elements element := by
  constructor
  · rintro ⟨before, after, split, refused⟩
    cases before with
    | nil =>
        exact .inl (List.cons.inj split).1.symm
    | cons other before =>
        obtain ⟨rfl, rest⟩ := List.cons.inj split
        obtain ⟨here, earlier⟩ := List.forall_mem_cons.mp refused
        exact .inr ⟨here, before, after, rest, earlier⟩
  · rintro (rfl | ⟨here, before, after, rfl, earlier⟩)
    · exact ⟨[], elements, rfl, by simp⟩
    · exact ⟨first :: before, after, rfl, List.forall_mem_cons.mpr ⟨here, earlier⟩⟩

theorem reaches_of_forall_not (refused : ∀ other ∈ elements, ¬ wanted other)
    (membership : element ∈ elements) : Reaches wanted elements element := by
  obtain ⟨before, after, rfl⟩ := List.append_of_mem membership
  exact ⟨before, after, rfl, fun other earlier => refused other (List.mem_append_left _ earlier)⟩

/-- A list with a wanted element has a first one. -/
theorem exists_reaches_of_mem (membership : element ∈ elements) (want : wanted element) :
    ∃ first, Reaches wanted elements first ∧ wanted first := by
  induction elements with
  | nil => cases membership
  | cons head elements inductionHypothesis =>
      by_cases here : wanted head
      · exact ⟨head, reaches_cons_iff.mpr (.inl rfl), here⟩
      · rcases List.mem_cons.mp membership with rfl | behind
        · exact absurd want here
        · obtain ⟨first, reached, passed⟩ := inductionHypothesis behind
          exact ⟨first, reaches_cons_iff.mpr (.inr ⟨here, reached⟩), passed⟩

/-- In an ascending list nothing is reached behind a wanted element. -/
theorem Reaches.le {numbers : List Nat} {wanted : Nat → Prop} {number other : Nat}
    (reached : Reaches wanted numbers number) (ascending : numbers.Pairwise (· < ·))
    (membership : other ∈ numbers) (want : wanted other) : number ≤ other := by
  obtain ⟨before, after, rfl, refused⟩ := reached
  rcases List.mem_append.mp membership with earlier | here
  · exact absurd want (refused other earlier)
  · rcases List.mem_cons.mp here with rfl | later
    · exact Nat.le_refl other
    · have behind := (List.pairwise_append.mp ascending).2.1
      exact Nat.le_of_lt ((List.pairwise_cons.mp behind).1 other later)

end Reaches

section Highest

variable (accepts : Nat → Bool)

/-- The highest number below a bound that accepts. -/
def highest : Nat → Option Nat
  | 0 => none
  | bound + 1 => if accepts bound then some bound else highest bound

variable {accepts} {bound : Nat}

theorem highest_eq_some_iff {index : Nat} :
    highest accepts bound = some index ↔
      index < bound ∧ accepts index = true ∧
        ∀ other, index < other → other < bound → accepts other = false := by
  induction bound with
  | zero => simp [highest]
  | succ bound inductionHypothesis =>
      rw [highest]
      split_ifs with here
      · constructor
        · rintro ⟨⟩
          refine ⟨Nat.lt_succ_self _, here, ?_⟩
          intro other above below
          exact absurd (Nat.lt_succ_iff.mp below) (Nat.not_le_of_lt above)
        · rintro ⟨inside, -, none_above⟩
          rcases Nat.lt_succ_iff_lt_or_eq.mp inside with below | rfl
          · have refused := none_above bound below (Nat.lt_succ_self bound)
            rw [here] at refused
            cases refused
          · rfl
      · rw [inductionHypothesis]
        constructor
        · rintro ⟨inside, passed, none_above⟩
          refine ⟨Nat.lt_succ_of_lt inside, passed, ?_⟩
          intro other above below
          rcases Nat.lt_succ_iff_lt_or_eq.mp below with lower | rfl
          · exact none_above other above lower
          · exact Bool.eq_false_iff.mpr here
        · rintro ⟨inside, passed, none_above⟩
          rcases Nat.lt_succ_iff_lt_or_eq.mp inside with below | rfl
          · exact ⟨below, passed, fun other above lower =>
              none_above other above (Nat.lt_succ_of_lt lower)⟩
          · exact absurd passed here

theorem highest_eq_none_iff :
    highest accepts bound = none ↔ ∀ index < bound, accepts index = false := by
  induction bound with
  | zero => simp [highest]
  | succ bound inductionHypothesis =>
      rw [highest]
      split_ifs with here
      · constructor
        · rintro ⟨⟩
        · intro refused
          rw [refused bound (Nat.lt_succ_self bound)] at here
          cases here
      · rw [inductionHypothesis]
        constructor
        · intro refused index inside
          rcases Nat.lt_succ_iff_lt_or_eq.mp inside with below | rfl
          · exact refused index below
          · exact Bool.eq_false_iff.mpr here
        · intro refused index below
          exact refused index (Nat.lt_succ_of_lt below)

end Highest

end CRun
