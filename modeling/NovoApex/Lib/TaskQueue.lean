import Mathlib.Logic.Function.Basic

/-!
# Task queues

A task queue of the asynq kind: a task id names at most one task, an enqueue under
an id in use is dropped, a finished task frees its id and a failed one is retried
until its retries are used up, after which it keeps the id as an archived task.
`accepted` is the history of the tasks taken in; nothing reads it.
-/

namespace NovoApex.Lib
set_option autoImplicit false

/-- What a queue holds under a task id. -/
inductive Slot (P : Type) where
  | free
  /-- Scheduled, pending, active or waiting for a retry. -/
  | live (payload : P) (retried : Nat)
  | archived
  deriving DecidableEq

structure TaskQueue (P : Type) where
  slot : String → Slot P
  accepted : List (String × P)

namespace TaskQueue

variable {P : Type}

/-- No task under any id. -/
def empty : TaskQueue P := ⟨fun _ => .free, []⟩

/-- Enqueue under a fixed task id. -/
def enqueue (q : TaskQueue P) (id : String) (payload : P) : TaskQueue P :=
  match q.slot id with
  | .free => ⟨Function.update q.slot id (.live payload 0), q.accepted ++ [(id, payload)]⟩
  | _ => q

/-- The task under the id succeeded; without retention its id is free again. -/
def complete (q : TaskQueue P) (id : String) : TaskQueue P := { q with slot := Function.update q.slot id .free }

/-- The task under the id failed after `retried` retries. -/
def fail (q : TaskQueue P) (maxRetry : Nat) (id : String) (payload : P) (retried : Nat) : TaskQueue P :=
  { q with
    slot := Function.update q.slot id (if retried < maxRetry then .live payload (retried + 1) else .archived) }

theorem enqueue_cases (q : TaskQueue P) (id : String) (payload : P) :
    (q.slot id = .free ∧
        q.enqueue id payload = ⟨Function.update q.slot id (.live payload 0), q.accepted ++ [(id, payload)]⟩) ∨
      (q.slot id ≠ .free ∧ q.enqueue id payload = q) := by
  unfold enqueue
  cases h : q.slot id with
  | free => exact .inl ⟨rfl, rfl⟩
  | live payload retried => exact .inr ⟨(nomatch ·), rfl⟩
  | archived => exact .inr ⟨(nomatch ·), rfl⟩

theorem enqueue_slot_of_ne (q : TaskQueue P) {id id' : String} (payload : P) (other : id' ≠ id) :
    (q.enqueue id payload).slot id' = q.slot id' := by
  rcases q.enqueue_cases id payload with ⟨-, taken⟩ | ⟨-, dropped⟩
  · rw [taken]
    exact Function.update_of_ne other _ _
  · rw [dropped]

theorem enqueue_slot_of_free (q : TaskQueue P) {id : String} (payload : P) (free : q.slot id = .free) :
    (q.enqueue id payload).slot id = .live payload 0 := by
  rcases q.enqueue_cases id payload with ⟨-, taken⟩ | ⟨inUse, -⟩
  · rw [taken]
    exact Function.update_self ..
  · exact (inUse free).elim

/-- An enqueue neither archives nor frees an id. -/
theorem enqueue_archived (q : TaskQueue P) (id id' : String) (payload : P) :
    (q.enqueue id payload).slot id' = .archived ↔ q.slot id' = .archived := by
  by_cases same : id' = id
  · subst same
    rcases q.enqueue_cases id' payload with ⟨free, -⟩ | ⟨-, dropped⟩
    · rw [q.enqueue_slot_of_free payload free, free]
      exact ⟨(nomatch ·), (nomatch ·)⟩
    · rw [dropped]
  · rw [q.enqueue_slot_of_ne payload same]

/-- Under the id of an enqueue there is a task, old or new. -/
theorem enqueue_slot_ne_free (q : TaskQueue P) (id : String) (payload : P) : (q.enqueue id payload).slot id ≠ .free := by
  rcases q.enqueue_cases id payload with ⟨free, -⟩ | ⟨inUse, dropped⟩
  · rw [q.enqueue_slot_of_free payload free]
    exact (nomatch ·)
  · rw [dropped]
    exact inUse

theorem enqueue_keeps_used (q : TaskQueue P) {id id' : String} (payload : P) (inUse : q.slot id' ≠ .free) :
    (q.enqueue id payload).slot id' ≠ .free := by
  by_cases same : id' = id
  · rw [same]
    exact q.enqueue_slot_ne_free id payload
  · rw [q.enqueue_slot_of_ne payload same]
    exact inUse

@[simp] theorem complete_slot (q : TaskQueue P) (id : String) : (q.complete id).slot id = .free :=
  Function.update_self id _ _

@[simp] theorem fail_slot (q : TaskQueue P) (maxRetry : Nat) (id : String) (payload : P) (retried : Nat) :
    (q.fail maxRetry id payload retried).slot id = if retried < maxRetry then .live payload (retried + 1) else .archived :=
  Function.update_self id _ _

theorem complete_slot_of_ne (q : TaskQueue P) {id id' : String} (other : id' ≠ id) : (q.complete id).slot id' = q.slot id' :=
  Function.update_of_ne other _ _

theorem fail_slot_of_ne (q : TaskQueue P) (maxRetry : Nat) (payload : P) (retried : Nat) {id id' : String} (other : id' ≠ id) :
    (q.fail maxRetry id payload retried).slot id' = q.slot id' :=
  Function.update_of_ne other _ _

/-- A task that is live after a task finished or failed was live before, under the same id. -/
theorem live_of_complete {q : TaskQueue P} {id id' : String} {payload : P} {retried : Nat}
    (h : (q.complete id).slot id' = .live payload retried) : q.slot id' = .live payload retried := by
  by_cases same : id' = id
  · rw [same, complete_slot] at h
    cases h
  · rwa [complete_slot_of_ne q same] at h

theorem live_of_fail {q : TaskQueue P} {maxRetry retried n : Nat} {id id' : String} {payload payload' : P}
    (live : q.slot id = .live payload retried) (h : (q.fail maxRetry id payload retried).slot id' = .live payload' n) :
    ∃ m, q.slot id' = .live payload' m := by
  by_cases same : id' = id
  · rw [same, fail_slot] at h
    split at h
    · cases h
      exact ⟨retried, same ▸ live⟩
    · cases h
  · rw [fail_slot_of_ne q maxRetry payload retried same] at h
    exact ⟨n, h⟩

end TaskQueue

end NovoApex.Lib
