import Mathlib.Algebra.BigOperators.Group.Finset.Basic
import Vtoydump.Basis.Content

/-!
# A store of files as lists of bytes

What a store of files is for.  A file is a list of bytes and takes up space by its length.
A call that succeeds changes one file; one that finds too little space does not change what
the file held; after a call that the device fails the file is lost, and no other is.
-/

namespace ByteStore

open Blocks

universe u

inductive Request where
  | truncate (size : Nat) (erase : Bool)
  | write (data : List UInt8) (offset : Nat)
  | read (buffer : List UInt8) (offset : Nat)

/-- What a call answers: a number, and a buffer that was filled. -/
structure Answer where
  rc : Int
  buffer : List UInt8

/-- The length that a file of some length must have for a request. -/
def Request.reach : Request → Nat → Nat
  | .truncate size _, _ => size
  | .write data offset, old => max old (offset + data.length)
  | .read _ _, old => old

/-- What a request that succeeds answers, and leaves in the file. -/
def Request.Done : Request → List UInt8 → Answer → List UInt8 → Prop
  | .truncate size erase, bytes, answer, after =>
      answer.rc = 0 ∧ after.length = size ∧ after.take bytes.length = bytes.take size ∧
        (erase = true → after = (extend bytes size).take size)
  | .write data offset, bytes, answer, after =>
      answer.rc = data.length ∧ after = overwrite (extend bytes offset) offset data
  | .read buffer offset, bytes, answer, after =>
      answer.rc = ((bytes.drop offset).take buffer.length).length ∧
        answer.buffer = overwrite buffer 0 ((bytes.drop offset).take buffer.length) ∧
        after = bytes

/-- What a request leaves that finds too little space. -/
def Request.Unchanged : Request → List UInt8 → List UInt8 → Prop
  | .truncate _ _, bytes, after => after = bytes
  | .write _ offset, bytes, after => after = bytes ∨ after = extend bytes offset
  | .read _ _, _, _ => False

/-- The files, of which some may be lost, and how much space is free. -/
structure Store (Id : Type u) where
  content : Id → Option (List UInt8)
  free : Nat

/-- A call and its answer, and whether the device did not fail it. -/
structure Event (Id : Type u) where
  file : Id
  request : Request
  reliable : Prop
  answer : Answer

variable {Id : Type u} [DecidableEq Id]

def Store.set (store : Store Id) (file : Id) (bytes : Option (List UInt8)) (free : Nat) :
    Store Id := ⟨Function.update store.content file bytes, free⟩

/-- What one call does; `cost` is the space that so many bytes take up. -/
inductive Effect (cost : Nat → Nat) (full : Int) (event : Event Id) (store : Store Id) :
    Store Id → Prop where
  | done {bytes after : List UInt8} {free : Nat} (held : store.content event.file = some bytes)
      (done : event.request.Done bytes event.answer after)
      (counted : free + cost after.length = store.free + cost bytes.length) :
      Effect cost full event store (store.set event.file (some after) free)
  | full {bytes after : List UInt8} {free : Nat} (held : store.content event.file = some bytes)
      (unchanged : event.request.Unchanged bytes after) (code : event.answer.rc = full)
      (short : store.free + cost bytes.length < cost (event.request.reach bytes.length))
      (counted : free + cost after.length = store.free + cost bytes.length) :
      Effect cost full event store (store.set event.file (some after) free)
  | failed {free : Nat} (code : event.answer.rc < 0) (unreliable : ¬ event.reliable) :
      Effect cost full event store (store.set event.file none free)

/-- Calls one after the other. -/
inductive Trace (cost : Nat → Nat) (full : Int) : Store Id → List (Event Id) → Store Id → Prop
  | nil (store : Store Id) : Trace cost full store [] store
  | cons {store next after : Store Id} {event : Event Id} {events : List (Event Id)}
      (effect : Effect cost full event store next) (rest : Trace cost full next events after) :
      Trace cost full store (event :: events) after

section Facts

variable {cost : Nat → Nat} {full : Int} {event : Event Id} {events : List (Event Id)}
  {store after : Store Id} {file : Id}

theorem Store.set_content_self (store : Store Id) (file : Id) (bytes : Option (List UInt8))
    (free : Nat) : (store.set file bytes free).content file = bytes := by
  simp [Store.set]

theorem Store.set_content_of_ne (store : Store Id) {file other : Id} (apart : other ≠ file)
    (bytes : Option (List UInt8)) (free : Nat) :
    (store.set file bytes free).content other = store.content other := by
  simp [Store.set, apart]

/-- What a call does that is not failed by the device does not depend on the device. -/
theorem Effect.of_reliable (effect : Effect cost full event store after)
    (reliable : event.reliable) (other : Prop) :
    Effect cost full { event with reliable := other } store after := by
  cases effect with
  | done held done counted => exact .done held done counted
  | full held unchanged code short counted => exact .full held unchanged code short counted
  | failed _ unreliable => exact absurd reliable unreliable

/-- Of a call that the device fails nothing more is known. -/
theorem Effect.of_unreliable (effect : Effect cost full event store after) {other : Prop}
    (unreliable : ¬ other) : Effect cost full { event with reliable := other } store after := by
  cases effect with
  | done held done counted => exact .done held done counted
  | full held unchanged code short counted => exact .full held unchanged code short counted
  | failed code _ => exact .failed code unreliable

/-- A call changes no file but the one it names. -/
theorem Effect.content_of_ne (effect : Effect cost full event store after)
    (apart : file ≠ event.file) : after.content file = store.content file := by
  cases effect with
  | done => exact store.set_content_of_ne apart _ _
  | full => exact store.set_content_of_ne apart _ _
  | failed => exact store.set_content_of_ne apart _ _

/-- Only a call that the device fails loses a file. -/
theorem Effect.lost (effect : Effect cost full event store after)
    (gone : after.content file = none) :
    store.content file = none ∨
      file = event.file ∧ event.answer.rc < 0 ∧ ¬ event.reliable := by
  by_cases same : file = event.file
  · subst same
    cases effect with
    | done =>
        rw [Store.set_content_self] at gone
        cases gone
    | full =>
        rw [Store.set_content_self] at gone
        cases gone
    | failed code unreliable => exact Or.inr ⟨rfl, code, unreliable⟩
  · rw [effect.content_of_ne same] at gone
    exact Or.inl gone

/-- What no call names, no call changes. -/
theorem Trace.content_of_unnamed (trace : Trace cost full store events after)
    (unnamed : ∀ event ∈ events, event.file ≠ file) :
    after.content file = store.content file := by
  induction trace with
  | nil => rfl
  | cons effect rest inductionHypothesis =>
      rw [inductionHypothesis fun event membership =>
        unnamed event (List.mem_cons_of_mem _ membership)]
      exact effect.content_of_ne (unnamed _ List.mem_cons_self).symm

/-- The space that a file takes up. -/
def Store.taken (store : Store Id) (cost : Nat → Nat) (file : Id) : Nat :=
  ((store.content file).map fun bytes => cost bytes.length).getD 0

/-- A file that takes up other space leaves the rest of it free. -/
theorem Store.balance_set {bytes next : List UInt8} {free : Nat} {files : Finset Id}
    (held : store.content file = some bytes)
    (counted : free + cost next.length = store.free + cost bytes.length) (named : file ∈ files) :
    free + ∑ other ∈ files, (store.set file (some next) free).taken cost other =
      store.free + ∑ other ∈ files, store.taken cost other := by
  have others : ∑ other ∈ files.erase file, (store.set file (some next) free).taken cost other =
      ∑ other ∈ files.erase file, store.taken cost other := by
    apply Finset.sum_congr rfl
    intro other membership
    rw [Store.taken, store.set_content_of_ne (Finset.ne_of_mem_erase membership), Store.taken]
  have mine : (store.set file (some next) free).taken cost file = cost next.length := by
    rw [Store.taken, store.set_content_self]
    rfl
  have before : store.taken cost file = cost bytes.length := by
    rw [Store.taken, held]
    rfl
  rw [← Finset.add_sum_erase _ _ named, ← Finset.add_sum_erase _ _ named, others, mine, before]
  omega

theorem Store.content_set_eq_none {next : List UInt8} {free : Nat} {other : Id}
    (none : (store.set file (some next) free).content other = none) :
    store.content other = .none := by
  by_cases same : other = file
  · rw [same, store.set_content_self] at none
    cases none
  · rw [store.set_content_of_ne same] at none
    exact none

/-- A device that does not fail loses no file and no space. -/
theorem Effect.balance (effect : Effect cost full event store after) (reliable : event.reliable)
    {files : Finset Id} (named : event.file ∈ files) :
    (∀ file, after.content file = none → store.content file = none) ∧
      after.free + ∑ file ∈ files, after.taken cost file =
        store.free + ∑ file ∈ files, store.taken cost file := by
  cases effect with
  | done held _ counted =>
      exact ⟨fun _ => Store.content_set_eq_none, Store.balance_set held counted named⟩
  | full held _ _ _ counted =>
      exact ⟨fun _ => Store.content_set_eq_none, Store.balance_set held counted named⟩
  | failed _ unreliable => exact absurd reliable unreliable

/-- On a device that does not fail, the free space and the space of the files are together
always the same. -/
theorem Trace.balance (trace : Trace cost full store events after)
    (reliable : ∀ event ∈ events, event.reliable) {files : Finset Id}
    (named : ∀ event ∈ events, event.file ∈ files) :
    (∀ file, after.content file = none → store.content file = none) ∧
      after.free + ∑ file ∈ files, after.taken cost file =
        store.free + ∑ file ∈ files, store.taken cost file := by
  induction trace with
  | nil => exact ⟨fun _ none => none, rfl⟩
  | cons effect rest inductionHypothesis =>
      obtain ⟨first, balance⟩ := effect.balance (reliable _ List.mem_cons_self)
        (named _ List.mem_cons_self)
      obtain ⟨rest, balanceRest⟩ := inductionHypothesis
        (fun event membership => reliable event (List.mem_cons_of_mem _ membership))
        (fun event membership => named event (List.mem_cons_of_mem _ membership))
      exact ⟨fun file none => first file (rest file none), balanceRest.trans balance⟩

end Facts

end ByteStore
