import NovoApex.Events.AtLeastOnce
import NovoApex.Lib.Attempts
import Mathlib.Algebra.Order.BigOperators.Group.List

/-!
# The backlog of events is worked off

With no new events every committed drain that finds a pending event makes the backlog
smaller: the number of attempts the pending events have left, and at least one for each.
An attempt at a drain may fail or stop anywhere; a drain that is not committed leaves the
events as they are. So the oldest events cannot fill every batch for ever, however often
their publishes fail.
-/

namespace NovoApex.Events
set_option autoImplicit false
open Lib Program Db

/-- The attempts that are left to a pending event, and at least one. -/
def remaining (d : Dispatcher) (r : EventRow) : Nat := if r.status = .pending then (max 1 (d.maxAttempts - r.attempts)).toNat else 0

/-- The sum over the pending events. -/
def backlog (d : Dispatcher) (w : EventWorld) : Nat := (w.events.rows.map (remaining d)).sum

/-- Some event is pending. -/
def Pending (w : EventWorld) : Prop := ∃ row ∈ w.events.rows, row.status = .pending

/-- A drain's write about an event it has read. -/
def Records (d : Dispatcher) (ev : PendingEvent) (write : EventWrite) : Prop :=
  write.id = ev.id ∧ (write.outcome = .published ∨
    ∃ text, write.outcome = .failed (ev.attempts + 1) text (failedStatus d (ev.attempts + 1)))

section Backlog

variable {d : Dispatcher} {w w' : EventWorld} {row : EventRow}

theorem remaining_pos (pending : row.status = .pending) : 0 < remaining d row := by
  unfold remaining
  rw [if_pos pending]
  omega

theorem backlog_eq_zero : backlog d w = 0 ↔ ¬ Pending w := by
  unfold backlog
  rw [List.sum_eq_zero_iff]
  constructor
  · intro none
    rintro ⟨row, stored, pending⟩
    exact (remaining_pos pending).ne' (none (remaining d row) (List.mem_map_of_mem stored))
  · intro settled n mem
    obtain ⟨row, stored, rfl⟩ := List.mem_map.1 mem
    exact if_neg fun pending => settled ⟨row, stored, pending⟩

/-- Whatever is recorded, an attempt is used up. -/
theorem remaining_apply {write : EventWrite} (pending : row.status = .pending) (records : Records d row.scan write) (now : Int) :
    remaining d (write.outcome.apply now row) < remaining d row := by
  obtain ⟨-, published | ⟨text, failed⟩⟩ := records
  · rw [published]
    exact remaining_pos pending
  · have attempts : row.scan.attempts = row.attempts := rfl
    rw [failed, attempts]
    unfold remaining
    rw [if_pos pending]
    unfold EventOutcome.apply failedStatus
    simp only
    by_cases last : d.maxAttempts ≤ row.attempts + 1
    · rw [if_pos last, if_neg (by decide)]
      omega
    · rw [if_neg last, if_pos rfl]
      omega

/-- The writes about the events so far, each of them a pending row of the table. -/
structure Recorded (d : Dispatcher) (events : Table EventRow.id) (done : List PendingEvent) (writes : List EventWrite) : Prop where
  ids : writes.map EventWrite.id = done.map PendingEvent.id
  sound : ∀ write ∈ writes, ∃ row ∈ events.rows, row.status = .pending ∧ Records d row.scan write

theorem Recorded.next {events : Table EventRow.id} {done : List PendingEvent} {writes : List EventWrite} {write : EventWrite}
    (h : Recorded d events done writes) (stored : row ∈ events.rows) (pending : row.status = .pending) (records : Records d row.scan write) :
    Recorded d events (done ++ [row.scan]) (writes ++ [write]) := by
  constructor
  · rw [List.map_append, List.map_append, h.ids, List.map_singleton, List.map_singleton, records.1]
  · intro write' mem
    rcases List.mem_append.1 mem with before | new
    · exact h.sound write' before
    · rw [List.mem_singleton.1 new]
      exact ⟨row, stored, pending, records⟩

/-- The commit of what was recorded: every row written had an attempt left and has used it up. -/
theorem Recorded.settle_le {done : List PendingEvent} {writes : List EventWrite} (h : Recorded d w.events done writes)
    (stored : row ∈ w.events.rows) (now : Int) : remaining d (settle now writes row) ≤ remaining d row ∧
      ((∃ write ∈ writes, write.id = row.id) → remaining d (settle now writes row) < remaining d row) := by
  unfold settle
  cases found : writes.find? fun write => decide (write.id = row.id) with
  | none =>
    refine ⟨le_rfl, ?_⟩
    rintro ⟨write, mem, named⟩
    exact absurd (decide_eq_true named) (List.find?_eq_none.1 found write mem)
  | some write =>
    have named : write.id = row.id := by simpa using List.find?_some found
    obtain ⟨row', hrow', pending, records⟩ := h.sound write (List.mem_of_find?_eq_some found)
    obtain rfl := Table.eq_of_key hrow' stored (records.1.symm.trans named)
    have less := remaining_apply pending records now
    exact ⟨less.le, fun _ => less⟩

/-- The commit of a drain: the backlog does not grow, and it shrinks if there was something to record. -/
theorem Recorded.backlog_applyWrites {done : List PendingEvent} {writes : List EventWrite} (h : Recorded d w.events done writes)
    (nodup : (done.map PendingEvent.id).Nodup) {now : Int} (applied : w'.events = applyWrites now writes w.events) :
    backlog d w' ≤ backlog d w ∧ (done ≠ [] → backlog d w' < backlog d w) := by
  have rows : w'.events.rows = w.events.rows.map (settle now writes) := by
    rw [applied]
    exact applyWrites_rows (h.ids ▸ nodup)
  have settled : backlog d w' = (w.events.rows.map fun row => remaining d (settle now writes row)).sum := by
    unfold backlog
    rw [rows, List.map_map]
    rfl
  rw [settled]
  unfold backlog
  refine ⟨List.sum_le_sum fun row mem => (h.settle_le mem now).1, fun some => ?_⟩
  have written : writes ≠ [] := by
    rintro rfl
    exact some (List.map_eq_nil_iff.1 h.ids.symm)
  obtain ⟨write, mem⟩ := List.exists_mem_of_ne_nil writes written
  obtain ⟨row, stored, -, records⟩ := h.sound write mem
  exact List.sum_lt_sum _ _ (fun row mem => (h.settle_le mem now).1) ⟨row, stored, (h.settle_le stored now).2 ⟨write, mem, records.1⟩⟩

end Backlog

/-! ## One drain -/

/-- Whether a statement commits. -/
def isCommit : EventStmt → Bool
  | .commit _ => true
  | _ => false

/-- A store with the number of commits that were executed. -/
abbrev Counted : Type := EventWorld × Nat

/-- Execute one statement, and count the commits. -/
abbrev countedExec : eventStore.Exec Counted := counting (I := eventStore) eventExec isCommit

/-- The rows are still there, in whatever status. -/
def SameEvents (w w' : EventWorld) : Prop := w'.events.rows.map EventRow.id = w.events.rows.map EventRow.id

/-- Nothing is committed yet. -/
def Untouched (w t : Counted) : Prop := t.1.events = w.1.events ∧ t.2 = w.2

/-- What a drain may leave: at most one commit, the same rows and no larger backlog, and a smaller one after a commit. -/
structure NoWorse (d : Dispatcher) (w t : Counted) : Prop where
  same : SameEvents w.1 t.1
  once : w.2 ≤ t.2 ∧ t.2 ≤ w.2 + 1
  backlog : backlog d t.1 ≤ backlog d w.1
  progress : w.2 < t.2 → Pending w.1 → Events.backlog d t.1 < Events.backlog d w.1

/-- The transaction is open, `done` is recorded in it, and the table is as it was. -/
structure Within (d : Dispatcher) (tx : String) (w : Counted) (done : List PendingEvent) (t : Counted) : Prop where
  untouched : Untouched w t
  drain : ∃ tr, openDrain tx t.1 = some tr ∧ Recorded d w.1.events done tr.writes

section Drain

variable {d : Dispatcher} {tx : String} {w t : Counted} {C : Counted → Prop} {done : List PendingEvent}

theorem Untouched.noWorse (h : Untouched w t) : NoWorse d w t := by
  obtain ⟨table, count⟩ := h
  refine ⟨?_, by omega, ?_, fun more => by omega⟩
  · unfold SameEvents
    rw [table]
  · unfold backlog
    rw [table]

theorem always_wrapError {α : Type} {text : String} {p : EventHandler α} {A : α → Counted → Prop} {B : Counted → Prop}
    (h : p.Always countedExec C (Replied A B) w) : (wrapError text p).Always countedExec C (Replied A B) w := by
  unfold wrapError
  refine Always.bind (Always.attempt (h.mono fun r t after => ?_))
  cases r with
  | ok a => exact after
  | error e => exact after

/-- A statement of the transaction that leaves the table alone. -/
theorem within_statement {op : EventStmt} {A : eventStore.Reply op → Counted → Prop}
    {body : EventWorld → DrainTx → Except EventErr (eventStore.Reply op) × EventWorld} (runs : ∀ t, eventExec op t = withinDrain tx t (body t))
    (uncommitted : isCommit op = false) (h : Within d tx w done t)
    (executed : ∀ tr, openDrain tx t.1 = some tr → Recorded d w.1.events done tr.writes →
      (body t.1 tr).2.events = t.1.events ∧ ∀ reply, (body t.1 tr).1 = .ok reply → A reply ((body t.1 tr).2, t.2)) :
    (call (I := eventStore) op).Always countedExec (Untouched w) (Replied A (Untouched w)) t := by
  obtain ⟨tr, isOpen, recorded⟩ := h.drain
  obtain ⟨same, replied⟩ := executed tr isOpen recorded
  have run : countedExec op t = ((body t.1 tr).1, (body t.1 tr).2, t.2) := by
    unfold countedExec counting
    rw [runs t.1, withinDrain, isOpen, uncommitted]
    rfl
  have after : Untouched w (countedExec op t).2 := by
    rw [run]
    exact ⟨same.trans h.untouched.1, h.untouched.2⟩
  refine Always.call h.untouched ?_ after h.untouched
  rw [run] at after ⊢
  cases reply : (body t.1 tr).1 with
  | ok a => exact replied a reply
  | error e => exact after

/-- A publish touches the queue only. -/
theorem within_publish (h : Within d tx w done t) (ev : PendingEvent) :
    (publish d ev.id ev.eventType ev.payload).Always countedExec (Untouched w) (fun _ => Within d tx w done) t := by
  have sends : ∀ (payload : String) (subs : List Subscription) (t : Counted), Within d tx w done t →
      (enqueueAll ev.id ev.eventType payload subs).Always countedExec (Untouched w) (fun _ => Within d tx w done) t := by
    intro payload subs
    induction subs with
    | nil => exact fun t h => h
    | cons sub subs ih =>
      intro t h
      have logged : Within d tx w done ({ t.1 with log := t.1.log ++ [.enqueued ev.id sub payload] }, t.2) := ⟨h.untouched, h.drain⟩
      have sent : (call (I := eventStore) (.enqueue ev.id sub payload)).Always countedExec (Untouched w)
          (Replied (fun _ => Within d tx w done) (Within d tx w done)) t := Always.call h.untouched logged logged h
      refine Always.bind ((always_wrapError sent).mono fun r u after => ?_)
      cases r with
      | ok _ => exact ih u after
      | error e => exact after
  unfold publish
  simp only
  split
  · exact h
  · split
    · exact h
    · split
      · exact h
      · exact sends _ _ t h

/-- A write of the transaction about a pending row. -/
theorem within_write {row : EventRow} {outcome : EventOutcome} (h : Within d tx w done t) (stored : row ∈ w.1.events.rows)
    (pending : row.status = .pending) (records : Records d row.scan ⟨row.id, outcome⟩) :
    Within d tx w (done ++ [row.scan]) (writeEvent tx ⟨row.id, outcome⟩ t.1, t.2) := by
  obtain ⟨tr, isOpen, recorded⟩ := h.drain
  obtain ⟨mem, named, alive⟩ := openDrain_eq.1 isOpen
  refine ⟨h.untouched, { tr with writes := tr.writes ++ [⟨row.id, outcome⟩] }, ?_, recorded.next stored pending records⟩
  exact openDrain_eq.2 ⟨mem_setDrain.2 (.inr ⟨tr, mem, named, rfl⟩), named, alive⟩

/-- One event: something is recorded about it, or the drain fails. -/
theorem within_drainEvent {row : EventRow} (h : Within d tx w done t) (stored : row ∈ w.1.events.rows) (pending : row.status = .pending) :
    (drainEvent d tx row.scan).Always countedExec (Untouched w) (Replied (fun _ => Within d tx w (done ++ [row.scan])) (Untouched w)) t := by
  unfold drainEvent
  refine Always.bind (Always.attempt ((within_publish h row.scan).mono fun published u within => ?_))
  cases published with
  | error e =>
    have written : (call (I := eventStore)
        (.recordFailed tx row.scan.id (row.scan.attempts + 1) e.text (failedStatus d (row.scan.attempts + 1)))).Always countedExec
        (Untouched w) (Replied (fun _ => Within d tx w (done ++ [row.scan])) (Untouched w)) u := by
      refine within_statement (fun _ => rfl) rfl within fun tr _ _ => ?_
      split
      · refine ⟨rfl, fun reply absurd => ?_⟩
        cases absurd
      · exact ⟨rfl, fun _ _ => within_write within stored pending ⟨rfl, .inr ⟨e.text, rfl⟩⟩⟩
    refine Always.bind ((always_wrapError written).mono fun r v after => ?_)
    cases r with
    | ok _ => exact after
    | error e => exact after
  | ok _ =>
    have written : (call (I := eventStore) (.markPublished tx row.scan.id)).Always countedExec (Untouched w)
        (Replied (fun _ => Within d tx w (done ++ [row.scan])) (Untouched w)) u := by
      refine within_statement (fun _ => rfl) rfl within fun tr _ _ => ?_
      exact ⟨rfl, fun _ _ => within_write within stored pending ⟨rfl, .inl rfl⟩⟩
    refine Always.bind ((always_wrapError written).mono fun r v after => ?_)
    cases r with
    | ok _ => exact after
    | error e => exact after

/-- The loop over the events: at its end each of them is recorded. -/
theorem within_drainEvents (evs : List PendingEvent) (published : Nat) (h : Within d tx w done t)
    (read : ∀ ev ∈ evs, ∃ row ∈ w.1.events.rows, row.scan = ev ∧ row.status = .pending) :
    (drainEvents d tx published evs).Always countedExec (Untouched w) (Replied (fun _ => Within d tx w (done ++ evs)) (Untouched w)) t := by
  induction evs generalizing published done t with
  | nil =>
    rw [List.append_nil]
    exact h
  | cons ev evs ih =>
    obtain ⟨row, stored, rfl, pending⟩ := read ev List.mem_cons_self
    unfold drainEvents
    refine Always.bind ((within_drainEvent h stored pending).mono fun r u after => ?_)
    cases r with
    | error e => exact after
    | ok published' =>
      have next := ih (if published' then published + 1 else published) after fun ev mem => read ev (List.mem_cons_of_mem _ mem)
      rwa [List.append_assoc] at next

/-- The commit of what was recorded. -/
theorem within_commit (h : Within d tx w done t) (nodup : (done.map PendingEvent.id).Nodup) (all : Pending w.1 → done ≠ []) :
    (call (I := eventStore) (.commit tx)).Always countedExec (NoWorse d w)
      (Replied (fun _ u => NoWorse d w u ∧ w.2 < u.2) (NoWorse d w)) t := by
  obtain ⟨tr, isOpen, recorded⟩ := h.drain
  obtain ⟨table, count⟩ := h.untouched
  have ran : countedExec (.commit tx) t = (.ok (),
      endDrain tx { t.1 with events := applyWrites tr.now tr.writes t.1.events, log := t.1.log ++ failuresOf tx tr.writes }, t.2 + 1) := by
    unfold countedExec counting eventExec withinDrain
    simp only [isOpen]
    rfl
  have applied : (countedExec (.commit tx) t).2.1.events = applyWrites tr.now tr.writes w.1.events := by
    rw [ran, ← table]
    rfl
  obtain ⟨kept, shrinks⟩ := recorded.backlog_applyWrites nodup applied
  have counted : (countedExec (.commit tx) t).2.2 = w.2 + 1 := by
    rw [ran, ← count]
  have rows : SameEvents w.1 (countedExec (.commit tx) t).2.1 := by
    unfold SameEvents
    rw [applied, applyWrites_rows (recorded.ids ▸ nodup), List.map_map]
    exact List.map_congr_left fun row _ => settle_id
  have after : NoWorse d w (countedExec (.commit tx) t).2 := ⟨rows, by omega, kept, fun _ some => shrinks (all some)⟩
  have more : w.2 < (countedExec (.commit tx) t).2.2 := by omega
  refine Always.call h.untouched.noWorse ?_ after h.untouched.noWorse
  rw [ran] at after more ⊢
  exact ⟨after, more⟩

/-- A batch is empty only when nothing is pending. -/
theorem pendingRows_ne_nil {w : EventWorld} {limit : Nat} (positive : 0 < limit) (some : Pending w) :
    (pendingRows limit w).map EventRow.scan ≠ [] := by
  obtain ⟨row, stored, pending⟩ := some
  intro none
  unfold pendingRows at none
  rw [List.map_eq_nil_iff, List.take_eq_nil_iff] at none
  have listed : row ∈ (w.events.rows.filter fun r => decide (r.status = .pending)).insertionSort fun a b => a.occurredAt ≤ b.occurredAt := by
    rw [List.mem_insertionSort, List.mem_filter]
    exact ⟨stored, decide_eq_true pending⟩
  rcases none with zero | empty
  · omega
  · rw [empty] at listed
    cases listed

theorem batchSize_pos (d : Dispatcher) : 0 < d.batchSize := by
  unfold Dispatcher.batchSize defaultBatchSize
  split <;> omega

/-- The body of the transaction. -/
theorem within_drainWithin (h : Within d tx w [] t) :
    (drainWithin d tx).Always countedExec (NoWorse d w) (Replied (fun _ u => NoWorse d w u ∧ w.2 < u.2) (NoWorse d w)) t := by
  have locked : (call (I := eventStore) (.lockDispatcher tx)).Always countedExec (Untouched w)
      (Replied (fun _ => Within d tx w []) (Untouched w)) t := by
    refine within_statement (fun _ => rfl) rfl h fun tr isOpen recorded => ?_
    obtain ⟨mem, named, alive⟩ := openDrain_eq.1 isOpen
    have still : openDrain tx (setDrain tx (fun t => { t with locked := true }) (fun _ => rfl) t.1) = some { tr with locked := true } :=
      openDrain_eq.2 ⟨mem_setDrain.2 (.inr ⟨tr, mem, named, rfl⟩), named, alive⟩
    exact ⟨rfl, fun _ _ => ⟨h.untouched, { tr with locked := true }, still, recorded⟩⟩
  unfold drainWithin
  refine Always.bind (((always_wrapError locked).stops fun _ => Untouched.noWorse).mono fun r u after => ?_)
  cases r with
  | error e => exact Untouched.noWorse after
  | ok _ =>
    have within : Within d tx w [] u := after
    have read : (call (I := eventStore) (.queryPending tx d.batchSize.toNat)).Always countedExec (Untouched w)
        (Replied (fun evs v => Within d tx w [] v ∧ evs = (pendingRows d.batchSize.toNat w.1).map EventRow.scan) (Untouched w)) u := by
      have plain : isCommit (.queryPending tx d.batchSize.toNat) = false := rfl
      refine within_statement (fun _ => rfl) plain within fun tr _ _ => ?_
      refine ⟨rfl, fun evs answered => ⟨within, ?_⟩⟩
      have answered : (pendingRows d.batchSize.toNat u.1).map EventRow.scan = evs := Except.ok.inj answered
      rw [← answered]
      unfold pendingRows
      rw [within.untouched.1]
    refine Always.bind (((always_wrapError read).stops fun _ => Untouched.noWorse).mono fun evs v after => ?_)
    cases evs with
    | error e => exact Untouched.noWorse after
    | ok evs =>
      obtain ⟨within, rfl⟩ := after
      have batch := batchSize_pos d
      have found : Pending w.1 → (pendingRows d.batchSize.toNat w.1).map EventRow.scan ≠ [] := pendingRows_ne_nil (by omega)
      simp only
      split
      · rename_i none
        refine Always.bind ((within_commit within List.nodup_nil fun some => absurd none (found some)).mono fun r x after => ?_)
        cases r with
        | ok _ => exact after
        | error e => exact after
      · have worked := within_drainEvents ((pendingRows d.batchSize.toNat w.1).map EventRow.scan) 0 within fun ev => read_pendingRows
        refine Always.bind ((worked.stops fun _ => Untouched.noWorse).mono fun r x after => ?_)
        cases r with
        | error e => exact Untouched.noWorse after
        | ok published =>
          have commits := within_commit after (nodup_pendingRows d.batchSize.toNat w.1) found
          refine Always.bind ((always_wrapError commits).mono fun r y after => ?_)
          cases r with
          | ok _ => exact after
          | error e => exact after

/-- The drain: wherever it stops the backlog is no larger, and smaller once it is committed; one that returns is committed. -/
theorem always_drain (d : Dispatcher) (tx : String) (now : Int) (w : Counted) :
    (drain d tx now).Always countedExec (NoWorse d w) (Replied (fun _ u => NoWorse d w u ∧ w.2 < u.2) (NoWorse d w)) w := by
  have start : Untouched w w := ⟨rfl, rfl⟩
  have begins : (call (I := eventStore) (.begin tx now)).Always countedExec (NoWorse d w)
      (Replied (fun _ => Within d tx w []) (NoWorse d w)) w := by
    cases inserted : w.1.drains.insert ⟨tx, false, false, now, []⟩ with
    | none =>
      have ran : countedExec (.begin tx now) w = (.error .txClosed, w) := by
        unfold countedExec counting eventExec
        simp only [inserted]
        rfl
      refine Always.call start.noWorse ?_ ?_ start.noWorse
      · rw [ran]
        exact start.noWorse
      · rw [ran]
        exact start.noWorse
    | some drains =>
      have ran : countedExec (.begin tx now) w = (.ok (), { w.1 with drains := drains }, w.2) := by
        unfold countedExec counting eventExec
        simp only [inserted]
        rfl
      have untouched : Untouched w ({ w.1 with drains := drains }, w.2) := ⟨rfl, rfl⟩
      refine Always.call start.noWorse ?_ ?_ start.noWorse
      · rw [ran]
        obtain ⟨-, rows⟩ := Table.insert_eq_some.1 inserted
        have listed : (⟨tx, false, false, now, []⟩ : DrainTx) ∈ drains.rows := by
          rw [rows]
          exact List.mem_append_right _ (List.mem_singleton_self _)
        exact ⟨untouched, _, openDrain_eq.2 ⟨listed, rfl, rfl⟩, rfl, fun _ absurd => (nomatch absurd)⟩
      · rw [ran]
        exact untouched.noWorse
  unfold drain
  refine Always.bind ((always_wrapError begins).mono fun r t after => ?_)
  cases r with
  | error e => exact after
  | ok _ =>
    refine Always.bind (Always.attempt ((within_drainWithin after).mono fun drained u after => ?_))
    cases drained with
    | ok published => exact after
    | error e =>
      have after : NoWorse d w u := after
      have rolled : NoWorse d w (endDrain tx u.1, u.2) := ⟨after.same, after.once, after.backlog, after.progress⟩
      exact Always.bind (Always.bind (Always.attempt (Always.call after rolled rolled after)))

end Drain

/-! ## Drain after drain -/

/-- Attempts at drains, one after another, as the lock has them, with the number of their commits; a server may also end the
transaction of one that is gone. Nobody inserts events. -/
inductive Drains (d : Dispatcher) (u : EventWorld) : Counted → Prop where
  | start : Drains d u (u, 0)
  | drain {v w r} (before : Drains d u v) (tx now) (tries : (drain d tx now).Tries countedExec v r w) : Drains d u w
  | rollback {v} (before : Drains d u v) (tx) : Drains d u (endDrain tx v.1, v.2)

/-- An attempt at a drain. -/
theorem noWorse_of_tries {d : Dispatcher} {tx : String} {now : Int} {v w : Counted} {r : Option (Except EventErr Nat)}
    (tries : (drain d tx now).Tries countedExec v r w) : NoWorse d v w ∧ ∀ published, r = some (.ok published) → v.2 < w.2 := by
  have after := (always_drain d tx now v).tries tries
  rcases r with _ | e | published
  · exact ⟨after, fun _ absurd => nomatch absurd⟩
  · exact ⟨after, fun _ absurd => nomatch absurd⟩
  · exact ⟨after.1, fun _ _ => after.2⟩

/-- What is left of the backlog. -/
theorem Drains.backlog_le {d : Dispatcher} {u : EventWorld} {w : Counted} (run : Drains d u w) :
    SameEvents u w.1 ∧ backlog d w.1 ≤ backlog d u - w.2 := by
  induction run with
  | start => exact ⟨rfl, le_rfl⟩
  | @drain v w r before tx now tries ih =>
    obtain ⟨same, left⟩ := ih
    obtain ⟨after, -⟩ := noWorse_of_tries tries
    have once := after.once
    have kept := after.backlog
    refine ⟨Eq.trans after.same same, ?_⟩
    by_cases more : v.2 < w.2
    · by_cases some : Pending v.1
      · have less := after.progress more some
        omega
      · have zero : backlog d v.1 = 0 := backlog_eq_zero.2 some
        omega
    · omega
  | @rollback v before tx ih => exact ih

/-- A drain that returns has committed. A committed drain that finds a pending event makes the backlog smaller, and no attempt makes
it larger, so that after as many commits as it was large, whatever failed in between, no event is pending. -/
theorem drains_finish (d : Dispatcher) :
    (∀ tx now w w' r, (drain d tx now).Tries countedExec w r w' →
      (∀ published, r = some (.ok published) → w.2 < w'.2) ∧ (w.2 < w'.2 → Pending w.1 → backlog d w'.1 < backlog d w.1)) ∧
    ∀ u w, Drains d u w → backlog d u ≤ w.2 → SameEvents u w.1 ∧ ∀ row ∈ w.1.events.rows, row.status ≠ .pending := by
  constructor
  · intro tx now w w' r tries
    obtain ⟨after, returned⟩ := noWorse_of_tries tries
    exact ⟨returned, after.progress⟩
  · intro u w run enough
    obtain ⟨same, left⟩ := run.backlog_le
    have zero : backlog d w.1 = 0 := by omega
    exact ⟨same, fun row mem pending => backlog_eq_zero.1 zero ⟨row, mem, pending⟩⟩

/-- The same dispatcher with one attempt for each event. -/
def impatient : Dispatcher := { invoicing with maxAttemptsSetting := 1 }

/-- What its drain leaves of one event. -/
def drainedOnce : Option (Except EventErr Nat) × Counted :=
  (some ((drain impatient "tx" 1).run countedExec (produced, 0)).1, ((drain impatient "tx" 1).run countedExec (produced, 0)).2)

/-- The event is worked off by one drain. -/
theorem drained_once_finished : backlog impatient drainedOnce.2.1 < backlog impatient produced ∧
    ∀ row ∈ drainedOnce.2.1.events.rows, row.status ≠ .pending := by
  obtain ⟨one, all⟩ := drains_finish impatient
  have tries : (drain impatient "tx" 1).Tries countedExec (produced, 0) drainedOnce.1 drainedOnce.2 := .run countedExec _ _
  have run : Drains impatient produced drainedOnce.2 := .drain .start "tx" 1 tries
  have commits : backlog impatient produced ≤ drainedOnce.2.2 := by decide +kernel
  have some : Pending produced := ⟨produced.events.rows.head (by decide +kernel), List.head_mem _, by decide +kernel⟩
  exact ⟨(one "tx" 1 _ _ _ tries).2 (by decide +kernel) some, (all produced _ run commits).2⟩

end NovoApex.Events
