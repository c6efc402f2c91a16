import NovoApex.Events.Dispatcher

/-!
# No event is lost

Drains of any number of replicas, with failing calls of `Enqueue`, crashes and roll
backs at every point: an event is PUBLISHED only after `Enqueue` succeeded for each of
its subscriptions, it is DEAD only after as many committed drains recorded a failure as
the dispatcher allows, both are final, and every other committed event is PENDING.
A drain that has the lock is the only one that writes, so what it read is still there
when it commits.
-/

namespace NovoApex.Events
set_option autoImplicit false
open Lib Program Db

/-- The committed drains that recorded a failed publish of the event. -/
def failuresIn (id : String) (log : List EventEntry) : List String :=
  log.filterMap fun entry =>
    match entry with
    | .failed id' tx => if id' = id then some tx else none
    | _ => none

/-- `Enqueue` succeeded for every subscription of the event, after it was committed. -/
def Enqueued (d : Dispatcher) (log : List EventEntry) (id eventType payload : String) : Prop :=
  ∀ sub ∈ d.subscriptions eventType, ∃ v, d.decodePayload payload = .ok v ∧
    [EventEntry.committed id, EventEntry.enqueued id sub v].Sublist log

theorem Enqueued.mono {d : Dispatcher} {log log' : List EventEntry} {id eventType payload : String}
    (h : Enqueued d log id eventType payload) (grows : log.Sublist log') : Enqueued d log' id eventType payload := by
  intro sub mem
  obtain ⟨v, decoded, before⟩ := h sub mem
  exact ⟨v, decoded, before.trans grows⟩

/-! ## The protocol -/

/-- The table agrees with the log. -/
structure EventsSound (d : Dispatcher) (w : EventWorld) : Prop where
  stored : ∀ row ∈ w.events.rows, .committed row.id ∈ w.log
  kept : ∀ id, .committed id ∈ w.log → ∃ row ∈ w.events.rows, row.id = id
  known : ∀ id, failuresIn id w.log ≠ [] → ∃ row ∈ w.events.rows, row.id = id
  published : ∀ row ∈ w.events.rows, row.status = .published → Enqueued d w.log row.id row.eventType row.payload
  counted : ∀ row ∈ w.events.rows, row.attempts = (failuresIn row.id w.log).length
  dead : ∀ row ∈ w.events.rows, row.status = .dead → d.maxAttempts ≤ row.attempts
  once : ∀ id, (failuresIn id w.log).Nodup

/-- A write of an open drain is about a pending row, and what it states is true. -/
def WriteSound (d : Dispatcher) (w : EventWorld) (write : EventWrite) : Prop :=
  ∃ row ∈ w.events.rows, row.id = write.id ∧ row.status = .pending ∧
    match write.outcome with
    | .failed attempts _ status => attempts = row.attempts + 1 ∧ (status = .pending ∨ status = .dead ∧ d.maxAttempts ≤ attempts)
    | .published => Enqueued d w.log row.id row.eventType row.payload

/-- An open drain writes under the lock, about each event once. -/
structure DrainSound (d : Dispatcher) (w : EventWorld) (t : DrainTx) : Prop where
  locked : t.writes ≠ [] → t.locked = true
  nodup : (t.writes.map EventWrite.id).Nodup
  sound : ∀ write ∈ t.writes, WriteSound d w write

/-- The invariant of the dispatcher. -/
structure Dispatching (d : Dispatcher) (w : EventWorld) : Prop where
  events : EventsSound d w
  drains : ∀ t ∈ w.drains.rows, t.ended = false → DrainSound d w t
  exclusive : ∀ t ∈ w.drains.rows, ∀ t' ∈ w.drains.rows, t.ended = false → t'.ended = false → t.locked = true → t'.locked = true → t.id = t'.id
  ended : ∀ id, ∀ tx ∈ failuresIn id w.log, ∃ t ∈ w.drains.rows, t.id = tx ∧ t.ended = true

/-- What a drain relies on: as long as its transaction is open nobody touches it, and under its lock nobody writes. -/
structure Undisturbed (tx : String) (w w' : EventWorld) : Prop where
  drain : ∀ t, openDrain tx w' = some t → openDrain tx w = some t
  rows : ∀ t, openDrain tx w' = some t → t.locked = true → ∀ row ∈ w.events.rows, row ∈ w'.events.rows
  log : w.log.Sublist w'.log

/-- What anybody sees: rows stay, and those that are PUBLISHED or DEAD are as they were. -/
def Settled (w w' : EventWorld) : Prop :=
  ∀ row ∈ w.events.rows, ∃ row' ∈ w'.events.rows, row'.id = row.id ∧ (row.status ≠ .pending → row' = row)

section Protocol

variable {d : Dispatcher} {tx : String} {u v w w' : EventWorld}

theorem Undisturbed.refl (tx : String) (w : EventWorld) : Undisturbed tx w w := ⟨fun _ h => h, fun _ _ _ _ h => h, .refl _⟩

theorem Undisturbed.trans (h : Undisturbed tx u v) (h' : Undisturbed tx v w) : Undisturbed tx u w := by
  refine ⟨fun t isOpen => h.drain t (h'.drain t isOpen), fun t isOpen locked row mem => ?_, h.log.trans h'.log⟩
  exact h'.rows t isOpen locked row (h.rows t (h'.drain t isOpen) locked row mem)

theorem Settled.refl (w : EventWorld) : Settled w w := fun row mem => ⟨row, mem, rfl, fun _ => rfl⟩

theorem Settled.trans (h : Settled u v) (h' : Settled v w) : Settled u w := by
  intro row mem
  obtain ⟨row', mem', named, same⟩ := h row mem
  obtain ⟨row'', mem'', named', same'⟩ := h' row' mem'
  refine ⟨row'', mem'', named'.trans named, fun final => ?_⟩
  obtain rfl := same final
  exact same' final

/-- What each name relies on. -/
def eventRely : EventName → EventWorld → EventWorld → Prop
  | .drain tx, w, w' => Undisturbed tx w w'
  | .observer, w, w' => Settled w w'
  | _, _, _ => True

/-- The protocol of the drains. -/
def eventProtocol (d : Dispatcher) : Protocol EventName EventWorld where
  inv := Dispatching d
  rely := eventRely
  refl i w := by
    cases i with
    | drain tx => exact .refl tx w
    | observer => exact .refl w
    | producer n => trivial
    | server n => trivial
  trans i u v w h h' := by
    cases i with
    | drain tx => exact Undisturbed.trans h h'
    | observer => exact Settled.trans h h'
    | producer n => trivial
    | server n => trivial

/-- A statement of `i` keeps the protocol. -/
structure KeepsEvents (d : Dispatcher) (i : EventName) (w w' : EventWorld) : Prop where
  inv : Dispatching d w'
  undisturbed : ∀ tx, i ≠ .drain tx → Undisturbed tx w w'
  settled : Settled w w'

theorem KeepsEvents.rely {i j : EventName} (h : KeepsEvents d i w w') (other : j ≠ i) : eventRely j w w' := by
  cases j with
  | drain tx => exact h.undisturbed tx (Ne.symm other)
  | observer => exact h.settled
  | producer n => trivial
  | server n => trivial

theorem Dispatching.same {i : EventName} (inv : Dispatching d w) : KeepsEvents d i w w := ⟨inv, fun tx _ => .refl tx w, .refl w⟩

/-! ## Transactions -/

theorem openDrain_eq {t : DrainTx} : openDrain tx w = some t ↔ t ∈ w.drains.rows ∧ t.id = tx ∧ t.ended = false := by
  unfold openDrain
  rw [Option.filter_eq_some_iff, Table.find?_eq_some, and_assoc]
  simp

theorem mem_setDrain {f : DrainTx → DrainTx} {keeps : ∀ t, (f t).id = t.id} {t : DrainTx} :
    t ∈ (setDrain tx f keeps w).drains.rows ↔ (t ∈ w.drains.rows ∧ t.id ≠ tx) ∨ ∃ old ∈ w.drains.rows, old.id = tx ∧ t = f old :=
  @Table.mem_update_keyed _ _ _ _ w.drains tx f keeps t

theorem openDrain_setDrain_ne {f : DrainTx → DrainTx} {keeps : ∀ t, (f t).id = t.id} {tx' : String} (other : tx' ≠ tx) :
    openDrain tx' (setDrain tx f keeps w) = openDrain tx' w := by
  unfold openDrain setDrain
  rw [Table.find?_update_of_ne _ f keeps other]

theorem openDrain_endDrain : openDrain tx (endDrain tx w) = none := by
  refine Option.eq_none_iff_forall_not_mem.2 fun t isOpen => ?_
  obtain ⟨mem, named, alive⟩ := openDrain_eq.1 isOpen
  rcases mem_setDrain.1 mem with ⟨-, other⟩ | ⟨old, -, -, rfl⟩
  · exact other named
  · cases alive

theorem DrainSound.mono {t : DrainTx} (h : DrainSound d w t) (rows : ∀ row ∈ w.events.rows, row ∈ w'.events.rows)
    (log : w.log.Sublist w'.log) : DrainSound d w' t := by
  refine ⟨h.locked, h.nodup, fun write mem => ?_⟩
  obtain ⟨row, hrow, named, pending, stated⟩ := h.sound write mem
  refine ⟨row, rows row hrow, named, pending, ?_⟩
  cases outcome : write.outcome with
  | failed attempts lastError status =>
    rw [outcome] at stated
    exact stated
  | published =>
    rw [outcome] at stated
    exact stated.mono log

theorem EventsSound.congr (h : EventsSound d w) (events : w'.events = w.events) (log : w'.log = w.log) : EventsSound d w' := by
  obtain ⟨stored, back, known, published, counted, dead, once⟩ := h
  rw [← events, ← log] at *
  exact ⟨stored, back, known, published, counted, dead, once⟩

/-- A statement on the transaction of `tx`: the table and the log are left alone. -/
theorem keepsEvents_drain (inv : Dispatching d w) {i : EventName} (events : w'.events = w.events) (log : w'.log = w.log)
    (owner : i = .drain tx ∨ openDrain tx w' = none)
    (others : ∀ t ∈ w'.drains.rows, t.id ≠ tx → t ∈ w.drains.rows) (kept : ∀ t ∈ w.drains.rows, ∃ t' ∈ w'.drains.rows, t'.id = t.id ∧
      (t.ended = true → t'.ended = true) ∧ (t.id ≠ tx → t' = t))
    (own : ∀ t ∈ w'.drains.rows, t.id = tx → t.ended = false → DrainSound d w t ∧
      (t.locked = true → ∀ t' ∈ w.drains.rows, t'.ended = false → t'.locked = true → t'.id = tx)) : KeepsEvents d i w w' := by
  refine ⟨⟨inv.events.congr events log, fun t mem alive => ?_, fun t mem t' mem' alive alive' locked locked' => ?_, fun id tx' listed => ?_⟩,
    fun tx' other => ?_, ?_⟩
  · have sound : DrainSound d w t := by
      by_cases same : t.id = tx
      · exact (own t mem same alive).1
      · exact inv.drains t (others t mem same) alive
    exact sound.mono (fun row hrow => events ▸ hrow) (log ▸ .refl _)
  · by_cases same : t.id = tx
    · by_cases same' : t'.id = tx
      · exact same.trans same'.symm
      · exact same.trans ((own t mem same alive).2 locked t' (others t' mem' same') alive' locked').symm
    · by_cases same' : t'.id = tx
      · exact ((own t' mem' same' alive').2 locked' t (others t mem same) alive locked).trans same'.symm
      · exact inv.exclusive t (others t mem same) t' (others t' mem' same') alive alive' locked locked'
  · rw [log] at listed
    obtain ⟨t, mem, named, ended⟩ := inv.ended id tx' listed
    obtain ⟨t', mem', named', ended', -⟩ := kept t mem
    exact ⟨t', mem', named'.trans named, ended' ended⟩
  · refine ⟨fun t isOpen => ?_, fun _ _ _ row mem => events ▸ mem, log ▸ .refl _⟩
    obtain ⟨mem, named, alive⟩ := openDrain_eq.1 isOpen
    by_cases same : tx' = tx
    · subst same
      rcases owner with rfl | closed
      · exact (other rfl).elim
      · rw [closed] at isOpen
        cases isOpen
    · exact openDrain_eq.2 ⟨others t mem (named ▸ same), named, alive⟩
  · intro row mem
    exact ⟨row, events ▸ mem, rfl, fun _ => rfl⟩

/-- The same, for a rewrite of the transaction. -/
theorem keepsEvents_setDrain (inv : Dispatching d w) {i : EventName} {f : DrainTx → DrainTx} {keeps : ∀ t, (f t).id = t.id}
    (ends : ∀ t, t.ended = true → (f t).ended = true) (owner : i = .drain tx ∨ openDrain tx (setDrain tx f keeps w) = none)
    (own : ∀ t ∈ w.drains.rows, t.id = tx → (f t).ended = false → DrainSound d w (f t) ∧
      ((f t).locked = true → ∀ t' ∈ w.drains.rows, t'.ended = false → t'.locked = true → t'.id = tx)) :
    KeepsEvents d i w (setDrain tx f keeps w) := by
  refine keepsEvents_drain inv rfl rfl owner (fun t mem other => ?_) (fun t mem => ?_) fun t mem named alive => ?_
  · rcases mem_setDrain.1 mem with ⟨mem, -⟩ | ⟨old, hold, same, rfl⟩
    · exact mem
    · exact (other ((keeps old).trans same)).elim
  · by_cases same : t.id = tx
    · exact ⟨f t, mem_setDrain.2 (.inr ⟨t, mem, same, rfl⟩), keeps t, ends t, fun other => (other same).elim⟩
    · exact ⟨t, mem_setDrain.2 (.inl ⟨mem, same⟩), rfl, fun h => h, fun _ => rfl⟩
  · rcases mem_setDrain.1 mem with ⟨-, other⟩ | ⟨old, hold, same, rfl⟩
    · exact (other named).elim
    · exact own old hold same alive

theorem keepsEvents_endDrain (inv : Dispatching d w) {i : EventName} : KeepsEvents d i w (endDrain tx w) :=
  keepsEvents_setDrain inv (fun _ _ => rfl) (.inr openDrain_endDrain) fun _ _ _ alive => nomatch alive

/-! ## The log -/

theorem failuresIn_append {id : String} {log log' : List EventEntry} : failuresIn id (log ++ log') = failuresIn id log ++ failuresIn id log' :=
  List.filterMap_append ..

/-- Nobody relies on the log to stand still. -/
theorem EventsSound.log {log : List EventEntry} (h : EventsSound d w) (grows : w.log.Sublist log)
    (committed : ∀ id, .committed id ∈ log → .committed id ∈ w.log) (failures : ∀ id, failuresIn id log = failuresIn id w.log) :
    EventsSound d { w with log := log } := by
  refine ⟨fun row mem => grows.mem (h.stored row mem), fun id mem => h.kept id (committed id mem), fun id some => ?_,
    fun row mem done => (h.published row mem done).mono grows, fun row mem => ?_, h.dead, fun id => ?_⟩
  · rw [failures id] at some
    exact h.known id some
  · rw [h.counted row mem, failures row.id]
  · rw [failures id]
    exact h.once id

/-- A call of `Enqueue` returns. -/
theorem keepsEvents_enqueue {i : EventName} {id payload : String} {sub : Subscription} (inv : Dispatching d w) :
    KeepsEvents d i w { w with log := w.log ++ [.enqueued id sub payload] } := by
  have failures : ∀ id', failuresIn id' (w.log ++ [.enqueued id sub payload]) = failuresIn id' w.log := by
    intro id'
    rw [failuresIn_append]
    exact List.append_nil _
  refine ⟨⟨inv.events.log (List.sublist_append_left ..) (fun id' mem => ?_) failures, fun t mem alive => ?_, inv.exclusive, fun id' tx' listed => ?_⟩,
    fun tx' _ => ⟨fun _ isOpen => isOpen, fun _ _ _ _ mem => mem, List.sublist_append_left ..⟩, .refl w⟩
  · rcases List.mem_append.1 mem with mem | mem
    · exact mem
    · exact nomatch List.mem_singleton.1 mem
  · exact (inv.drains t mem alive).mono (fun _ hrow => hrow) (List.sublist_append_left ..)
  · rw [failures id'] at listed
    exact inv.ended id' tx' listed

/-- A producer commits an event. -/
theorem keepsEvents_insertEvent {i : EventName} {row : EventRow} (inv : Dispatching d w) (fresh : row.status = .pending) (untried : row.attempts = 0) :
    KeepsEvents d i w (insertEvent row w).2 := by
  unfold insertEvent
  split
  · exact inv.same
  · split
    · rename_i events inserted
      obtain ⟨unused, rows⟩ := Table.insert_eq_some.1 inserted
      have kept : ∀ r ∈ w.events.rows, r ∈ events.rows := by
        intro r mem
        rw [rows]
        exact List.mem_append_left _ mem
      have added : ∀ r ∈ events.rows, r ∈ w.events.rows ∨ r = row := by
        intro r mem
        rwa [rows, List.mem_append, List.mem_singleton] at mem
      have failures : ∀ id, failuresIn id (w.log ++ [.committed row.id]) = failuresIn id w.log := by
        intro id
        rw [failuresIn_append]
        exact List.append_nil _
      have grows : w.log.Sublist (w.log ++ [.committed row.id]) := List.sublist_append_left ..
      have here : row ∈ events.rows := by
        rw [rows]
        exact List.mem_append_right _ (List.mem_singleton_self row)
      refine ⟨⟨⟨fun r mem => ?_, fun id mem => ?_, fun id some => ?_, fun r mem done => ?_, fun r mem => ?_, fun r mem gone => ?_, fun id => ?_⟩,
        fun t mem alive => (inv.drains t mem alive).mono kept grows, inv.exclusive, fun id tx' listed => ?_⟩,
        fun tx' _ => ⟨fun _ isOpen => isOpen, fun _ _ _ => kept, grows⟩, fun r mem => ⟨r, kept r mem, rfl, fun _ => rfl⟩⟩
      · rcases added r mem with mem | rfl
        · exact grows.mem (inv.events.stored r mem)
        · exact List.mem_append_right _ (List.mem_singleton_self _)
      · rcases List.mem_append.1 mem with mem | mem
        · obtain ⟨r, hr, named⟩ := inv.events.kept id mem
          exact ⟨r, kept r hr, named⟩
        · obtain ⟨rfl⟩ := List.mem_singleton.1 mem
          exact ⟨row, here, rfl⟩
      · rw [failures id] at some
        obtain ⟨r, hr, named⟩ := inv.events.known id some
        exact ⟨r, kept r hr, named⟩
      · rcases added r mem with mem | rfl
        · exact (inv.events.published r mem done).mono grows
        · rw [fresh] at done
          cases done
      · rw [failures r.id]
        rcases added r mem with mem | rfl
        · exact inv.events.counted r mem
        · have none' : failuresIn r.id w.log = [] := by
            by_contra some
            obtain ⟨r', hr', named⟩ := inv.events.known r.id some
            exact unused r' hr' named
          rw [none', untried]
          rfl
      · rcases added r mem with mem | rfl
        · exact inv.events.dead r mem gone
        · rw [fresh] at gone
          cases gone
      · rw [failures id]
        exact inv.events.once id
      · rw [failures id] at listed
        exact inv.ended id tx' listed
    · exact inv.same

/-! ## Commit -/

/-- The row after the writes of a drain. -/
def settle (now : Int) (writes : List EventWrite) (r : EventRow) : EventRow :=
  match writes.find? fun write => decide (write.id = r.id) with
  | some write => write.outcome.apply now r
  | none => r

theorem settle_id {now : Int} {writes : List EventWrite} {r : EventRow} : (settle now writes r).id = r.id := by
  unfold settle
  split
  · exact EventOutcome.apply_id ..
  · rfl

/-- Writes about different rows do not meet. -/
theorem applyWrites_rows {now : Int} {writes : List EventWrite} {events : Table EventRow.id} (nodup : (writes.map EventWrite.id).Nodup) :
    (applyWrites now writes events).rows = events.rows.map (settle now writes) := by
  induction writes generalizing events with
  | nil => exact (List.map_id _).symm
  | cons write rest ih =>
    rw [List.map_cons, List.nodup_cons] at nodup
    refine (ih nodup.2).trans ?_
    rw [Table.update_rows, List.map_map]
    refine List.map_congr_left fun r _ => ?_
    simp only [Function.comp_apply]
    by_cases same : r.id = write.id
    · have absent : rest.find? (fun write' => decide (write'.id = (write.outcome.apply now r).id)) = none := by
        refine List.find?_eq_none.2 fun write' mem' same' => nodup.1 ?_
        rw [← same, ← EventOutcome.apply_id now write.outcome r, ← of_decide_eq_true same']
        exact List.mem_map_of_mem mem'
      rw [Table.rewrite_of_pos (p := fun r : EventRow => decide (r.id = write.id)) (decide_eq_true same)]
      simp only [settle, absent, List.find?_cons, decide_eq_true same.symm]
    · rw [Table.rewrite_of_neg (p := fun r : EventRow => decide (r.id = write.id)) (decide_eq_false same)]
      simp only [settle, List.find?_cons, decide_eq_false (Ne.symm same)]

/-- The failure a write records. -/
def failureOf (tx : String) : EventOutcome → List String
  | .failed .. => [tx]
  | .published => []

/-- A drain records at most one failure of an event. -/
theorem failuresIn_failuresOf {tx id : String} {writes : List EventWrite} (nodup : (writes.map EventWrite.id).Nodup) :
    failuresIn id (failuresOf tx writes) = (writes.find? fun write => decide (write.id = id)).elim [] fun write => failureOf tx write.outcome := by
  induction writes with
  | nil => rfl
  | cons write rest ih =>
    rw [List.map_cons, List.nodup_cons] at nodup
    have next := ih nodup.2
    obtain ⟨id', outcome⟩ := write
    by_cases same : id' = id
    · subst same
      have absent : rest.find? (fun write => decide (write.id = id')) = none :=
        List.find?_eq_none.2 fun write' mem' same' => nodup.1 (List.mem_map.2 ⟨write', mem', of_decide_eq_true same'⟩)
      rw [absent] at next
      cases outcome with
      | failed attempts lastError status =>
        simp only [failuresIn, failuresOf, List.filterMap_cons, List.find?_cons, decide_true, if_true] at next ⊢
        rw [next]
        rfl
      | published =>
        simp only [failuresIn, failuresOf, List.filterMap_cons, List.find?_cons, decide_true] at next ⊢
        exact next
    · cases outcome with
      | failed attempts lastError status =>
        simp only [failuresIn, failuresOf, List.filterMap_cons, List.find?_cons, decide_eq_false same, if_neg same] at next ⊢
        exact next
      | published =>
        simp only [failuresIn, failuresOf, List.filterMap_cons, List.find?_cons, decide_eq_false same] at next ⊢
        exact next

/-- What the commit of a drain does to a row it has written. -/
theorem WriteSound.settled {write : EventWrite} {row : EventRow} {log : List EventEntry} {tx : String} (h : WriteSound d w write) (now : Int)
    (inv : EventsSound d w) (mem : row ∈ w.events.rows) (named : write.id = row.id) (grows : w.log.Sublist log)
    (failures : failuresIn row.id log = failuresIn row.id w.log ++ failureOf tx write.outcome) (unused : tx ∉ failuresIn row.id w.log) :
    row.status = .pending ∧
    ((write.outcome.apply now row).status = .published →
      Enqueued d log row.id (write.outcome.apply now row).eventType (write.outcome.apply now row).payload) ∧
    (write.outcome.apply now row).attempts = (failuresIn row.id log).length ∧
    ((write.outcome.apply now row).status = .dead → d.maxAttempts ≤ (write.outcome.apply now row).attempts) ∧
    (failuresIn row.id log).Nodup := by
  obtain ⟨row', hrow', named', pending, stated⟩ := h
  obtain rfl := Table.eq_of_key hrow' mem (named'.trans named)
  have counted := inv.counted row' mem
  have once := inv.once row'.id
  rw [failures]
  refine ⟨pending, ?_⟩
  cases outcome : write.outcome with
  | failed attempts lastError status =>
    rw [outcome] at stated
    obtain ⟨next, final⟩ := stated
    refine ⟨fun done => ?_, ?_, fun gone => ?_, List.nodup_append.2 ⟨once, List.nodup_singleton tx, fun a ha b hb same => ?_⟩⟩
    · have done : status = .published := done
      rcases final with same | ⟨same, -⟩ <;> rw [same] at done <;> cases done
    · show attempts = _
      rw [List.length_append, next, counted]
      rfl
    · have gone : status = .dead := gone
      rcases final with same | ⟨-, enough⟩
      · rw [same] at gone
        cases gone
      · exact enough
    · rw [List.mem_singleton.1 hb] at same
      exact unused (same ▸ ha)
  | published =>
    rw [outcome] at stated
    have nothing : failuresIn row'.id w.log ++ failureOf tx .published = failuresIn row'.id w.log := List.append_nil _
    rw [nothing]
    exact ⟨fun _ => stated.mono grows, counted, fun gone => (nomatch gone), once⟩

/-- A drain commits. -/
theorem keepsEvents_commit {t : DrainTx} (inv : Dispatching d w) (isOpen : openDrain tx w = some t) :
    KeepsEvents d (.drain tx) w
      (endDrain tx { w with events := applyWrites t.now t.writes w.events, log := w.log ++ failuresOf tx t.writes }) := by
  obtain ⟨mem, named, alive⟩ := openDrain_eq.1 isOpen
  have drain := inv.drains t mem alive
  have grows : w.log.Sublist (w.log ++ failuresOf tx t.writes) := List.sublist_append_left ..
  have rows : (applyWrites t.now t.writes w.events).rows = w.events.rows.map (settle t.now t.writes) :=
    applyWrites_rows drain.nodup
  have failures : ∀ id, failuresIn id (w.log ++ failuresOf tx t.writes) = failuresIn id w.log ++
      (t.writes.find? fun write => decide (write.id = id)).elim [] fun write => failureOf tx write.outcome := by
    intro id
    rw [failuresIn_append, failuresIn_failuresOf drain.nodup]
  have unused : ∀ id, tx ∉ failuresIn id w.log := by
    intro id listed
    obtain ⟨t', mem', named', ended⟩ := inv.ended id tx listed
    obtain rfl := Table.eq_of_key mem' mem (named'.trans named.symm)
    rw [alive] at ended
    cases ended
  -- a row is written by one of the writes, or left alone
  have settles : ∀ r ∈ w.events.rows, (settle t.now t.writes r = r ∧ failuresIn r.id (w.log ++ failuresOf tx t.writes) = failuresIn r.id w.log) ∨
      ∃ write, WriteSound d w write ∧ write.id = r.id ∧ settle t.now t.writes r = write.outcome.apply t.now r ∧
        failuresIn r.id (w.log ++ failuresOf tx t.writes) = failuresIn r.id w.log ++ failureOf tx write.outcome := by
    intro r _
    rw [failures r.id]
    unfold settle
    cases found : t.writes.find? fun write => decide (write.id = r.id) with
    | none => exact .inl ⟨rfl, List.append_nil _⟩
    | some write => exact .inr ⟨write, drain.sound write (List.mem_of_find?_eq_some found), by simpa using List.find?_some found, rfl, rfl⟩
  have sound : EventsSound d { w with events := applyWrites t.now t.writes w.events, log := w.log ++ failuresOf tx t.writes } := by
    refine ⟨fun r hr => ?_, fun id listed => ?_, fun id some => ?_, fun r hr done => ?_, fun r hr => ?_, fun r hr gone => ?_, fun id => ?_⟩
    · obtain ⟨old, hold, rfl⟩ := List.mem_map.1 (rows ▸ hr)
      rw [settle_id]
      exact grows.mem (inv.events.stored old hold)
    · have before : .committed id ∈ w.log := by
        rcases List.mem_append.1 listed with before | after
        · exact before
        · obtain ⟨write, -, same⟩ := List.mem_filterMap.1 after
          split at same <;> cases same
      obtain ⟨old, hold, same⟩ := inv.events.kept id before
      exact ⟨_, rows ▸ List.mem_map_of_mem hold, settle_id.trans same⟩
    · by_cases before : failuresIn id w.log = []
      · rw [failures id, before, List.nil_append] at some
        cases found : t.writes.find? fun write => decide (write.id = id) with
        | none =>
          rw [found] at some
          exact (some rfl).elim
        | some write =>
          obtain ⟨old, hold, same, -⟩ := drain.sound write (List.mem_of_find?_eq_some found)
          have about : write.id = id := by simpa using List.find?_some found
          exact ⟨_, rows ▸ List.mem_map_of_mem hold, settle_id.trans (same.trans about)⟩
      · obtain ⟨old, hold, same⟩ := inv.events.known id before
        exact ⟨_, rows ▸ List.mem_map_of_mem hold, settle_id.trans same⟩
    · obtain ⟨old, hold, rfl⟩ := List.mem_map.1 (rows ▸ hr)
      rw [settle_id]
      rcases settles old hold with ⟨same, -⟩ | ⟨write, writes, about, same, new⟩
      · rw [same] at done ⊢
        exact (inv.events.published old hold done).mono grows
      · rw [same] at done ⊢
        exact (writes.settled t.now inv.events hold about grows new (unused _)).2.1 done
    · obtain ⟨old, hold, rfl⟩ := List.mem_map.1 (rows ▸ hr)
      rw [settle_id]
      rcases settles old hold with ⟨same, new⟩ | ⟨write, writes, about, same, new⟩
      · rw [same, new]
        exact inv.events.counted old hold
      · rw [same]
        exact (writes.settled t.now inv.events hold about grows new (unused _)).2.2.1
    · obtain ⟨old, hold, rfl⟩ := List.mem_map.1 (rows ▸ hr)
      rcases settles old hold with ⟨same, -⟩ | ⟨write, writes, about, same, new⟩
      · rw [same] at gone ⊢
        exact inv.events.dead old hold gone
      · rw [same] at gone ⊢
        exact (writes.settled t.now inv.events hold about grows new (unused _)).2.2.2.1 gone
    · by_cases stored : ∃ old ∈ w.events.rows, old.id = id
      · obtain ⟨old, hold, rfl⟩ := stored
        rcases settles old hold with ⟨-, new⟩ | ⟨write, writes, about, -, new⟩
        · rw [new]
          exact inv.events.once old.id
        · exact (writes.settled t.now inv.events hold about grows new (unused _)).2.2.2.2
      · have nothing : t.writes.find? (fun write => decide (write.id = id)) = none := by
          refine List.find?_eq_none.2 fun write listed same => stored ?_
          obtain ⟨old, hold, about, -⟩ := drain.sound write listed
          exact ⟨old, hold, about.trans (of_decide_eq_true same)⟩
        rw [failures id, nothing]
        refine (List.append_nil _).symm ▸ inv.events.once id
  -- another drain with the lock means that this one wrote nothing
  have quiet : ∀ t' ∈ w.drains.rows, t'.id ≠ tx → t'.ended = false → t'.locked = true → t.writes = [] := by
    intro t' mem' other alive' locked'
    by_contra some
    exact other ((inv.exclusive t' mem' t mem alive' alive locked' (drain.locked some)).trans named)
  have unchanged : t.writes = [] → ∀ r ∈ w.events.rows, r ∈ (applyWrites t.now t.writes w.events).rows := by
    intro none' r hr
    rw [none']
    exact hr
  refine ⟨⟨sound.congr rfl rfl, fun t' mem' alive' => ?_, fun t₁ mem₁ t₂ mem₂ alive₁ alive₂ locked₁ locked₂ => ?_, fun id tx' listed => ?_⟩, fun tx' other => ?_,
    fun r hr => ?_⟩
  · rcases mem_setDrain.1 mem' with ⟨mem', other⟩ | ⟨old, -, -, rfl⟩
    · have before := inv.drains t' mem' alive'
      by_cases some : t'.writes = []
      · exact ⟨fun absurd => (absurd some).elim, before.nodup, fun write listed => nomatch some ▸ listed⟩
      · exact before.mono (unchanged (quiet t' mem' other alive' (before.locked some))) grows
    · cases alive'
  · rcases mem_setDrain.1 mem₁ with ⟨mem₁, -⟩ | ⟨old, -, -, rfl⟩
    · rcases mem_setDrain.1 mem₂ with ⟨mem₂, -⟩ | ⟨old, -, -, rfl⟩
      · exact inv.exclusive t₁ mem₁ t₂ mem₂ alive₁ alive₂ locked₁ locked₂
      · cases alive₂
    · cases alive₁
  · by_cases same : tx' = tx
    · exact ⟨_, mem_setDrain.2 (.inr ⟨t, mem, named, rfl⟩), named.trans same.symm, rfl⟩
    · have before : tx' ∈ failuresIn id w.log := by
        have listed : tx' ∈ failuresIn id (w.log ++ failuresOf tx t.writes) := listed
        rw [failures id] at listed
        rcases List.mem_append.1 listed with before | after
        · exact before
        · cases found : t.writes.find? fun write => decide (write.id = id) with
          | none =>
            rw [found] at after
            cases after
          | some write =>
            rw [found] at after
            have after : tx' ∈ failureOf tx write.outcome := after
            cases outcome : write.outcome with
            | failed attempts lastError status =>
              rw [outcome] at after
              exact (same (List.mem_singleton.1 after)).elim
            | published =>
              rw [outcome] at after
              cases after
      obtain ⟨t', mem', named', ended⟩ := inv.ended id tx' before
      exact ⟨t', mem_setDrain.2 (.inl ⟨mem', fun again => same (named'.symm.trans again)⟩), named', ended⟩
  · have other : tx' ≠ tx := fun same => other (same ▸ rfl)
    have sameDrain : openDrain tx' (endDrain tx { w with events := applyWrites t.now t.writes w.events, log := w.log ++ failuresOf tx t.writes }) =
        openDrain tx' w := openDrain_setDrain_ne other
    refine ⟨fun t' isOpen' => sameDrain ▸ isOpen', fun t' isOpen' locked' => ?_, grows⟩
    rw [sameDrain] at isOpen'
    obtain ⟨mem', named', alive'⟩ := openDrain_eq.1 isOpen'
    exact unchanged (quiet t' mem' (named' ▸ other) alive' locked')
  · refine ⟨_, rows ▸ List.mem_map_of_mem hr, settle_id, fun final => ?_⟩
    rcases settles r hr with ⟨same, -⟩ | ⟨write, writes, about, -, new⟩
    · exact same
    · exact (final (writes.settled t.now inv.events hr about grows new (unused _)).1).elim

end Protocol

/-! ## Drains -/

section Drains

variable {d : Dispatcher} {i : EventName} {tx : String} {w t : EventWorld}

/-- One statement. -/
theorem safe_event {op : EventStmt} {Q : Except EventErr op.Reply → EventWorld → Prop}
    (executed : ∀ t, eventRely i w t → Dispatching d t → eventProceeds t op →
      KeepsEvents d i t (eventExec op t).2 ∧ Q (eventExec op t).1 (eventExec op t).2 ∧ (¬ returnsNil op → Q (.error (.db .transient)) (eventExec op t).2))
    (failed : ∀ t, eventRely i w t → Q (.error (.db .transient)) t) :
    Safe (eventFlow d) (eventProtocol d) i Q (call (I := eventStore) op) w := by
  refine Safe.call (fun t rely inv may => ?_) (fun t rely _ _ => failed t rely) fun _ _ _ _ => trivial
  obtain ⟨keeps, replied, unreplied⟩ := executed t rely inv may
  exact ⟨keeps.inv, fun j other => keeps.rely other, replied, unreplied⟩

theorem safe_wrapError {α : Type} {text : String} {p : EventHandler α} {A : α → EventWorld → Prop} {B : EventWorld → Prop}
    (h : Safe (eventFlow d) (eventProtocol d) i (Replied A B) p w) : Safe (eventFlow d) (eventProtocol d) i (Replied A B) (wrapError text p) w := by
  unfold wrapError
  refine Safe.bind (Safe.attempt (h.mono fun r t after => ?_))
  cases r with
  | ok a => exact after
  | error e => exact after

/-- A statement of the drain on its transaction; nothing is known after an error. -/
theorem safe_within {op : EventStmt} {body : EventWorld → DrainTx → Except EventErr op.Reply × EventWorld} {A : op.Reply → EventWorld → Prop}
    (runs : ∀ t, eventExec op t = withinDrain tx t (body t))
    (executed : ∀ t tr, Undisturbed tx w t → Dispatching d t → eventProceeds t op → openDrain tx t = some tr →
      KeepsEvents d (.drain tx) t (body t tr).2 ∧ Replied A (fun _ => True) (body t tr).1 (body t tr).2) :
    Safe (eventFlow d) (eventProtocol d) (.drain tx) (Replied A fun _ => True) (call (I := eventStore) op) w := by
  refine safe_event (fun t rely inv may => ?_) fun _ _ => trivial
  rw [runs t, withinDrain]
  cases isOpen : openDrain tx t with
  | none => exact ⟨inv.same, trivial, fun _ => trivial⟩
  | some tr =>
    obtain ⟨keeps, after⟩ := executed t tr rely inv may isOpen
    exact ⟨keeps, after, fun _ => trivial⟩

/-- As long as the transaction is open it has the lock and has written nothing about `rest`, and these are pending as they
were read; they were committed in any case. -/
structure Draining (tx : String) (rest : List PendingEvent) (w : EventWorld) : Prop where
  committed : ∀ ev ∈ rest, .committed ev.id ∈ w.log
  nodup : (rest.map PendingEvent.id).Nodup
  locked : ∀ tr, openDrain tx w = some tr → tr.locked = true
  unwritten : ∀ tr, openDrain tx w = some tr → ∀ ev ∈ rest, ev.id ∉ tr.writes.map EventWrite.id
  read : ∀ tr, openDrain tx w = some tr → ∀ ev ∈ rest, ∃ row ∈ w.events.rows, row.scan = ev ∧ row.status = .pending

variable {ev : PendingEvent} {rest : List PendingEvent}

theorem Draining.relies (h : Draining tx rest w) (rely : Undisturbed tx w t) : Draining tx rest t := by
  refine ⟨fun ev mem => rely.log.mem (h.committed ev mem), h.nodup, fun tr isOpen => h.locked tr (rely.drain tr isOpen),
    fun tr isOpen => h.unwritten tr (rely.drain tr isOpen), fun tr isOpen ev mem => ?_⟩
  have before := rely.drain tr isOpen
  obtain ⟨row, hrow, scanned, pending⟩ := h.read tr before ev mem
  exact ⟨row, rely.rows tr isOpen (h.locked tr before) row hrow, scanned, pending⟩

/-- The log may grow. -/
theorem Draining.log {log : List EventEntry} (h : Draining tx rest w) (grows : w.log.Sublist log) : Draining tx rest { w with log := log } :=
  ⟨fun ev mem => grows.mem (h.committed ev mem), h.nodup, h.locked, h.unwritten, h.read⟩

/-- The subscribers so far have the event. -/
def Fanned (d : Dispatcher) (ev : PendingEvent) (payload : String) (rest : List Subscription) (w : EventWorld) : Prop :=
  d.decodePayload ev.payload = .ok payload ∧ .committed ev.id ∈ w.log ∧
    ∀ sub ∈ d.subscriptions ev.eventType, sub ∈ rest ∨ [EventEntry.committed ev.id, EventEntry.enqueued ev.id sub payload].Sublist w.log

theorem Fanned.mono {payload : String} {subs : List Subscription} {w' : EventWorld} (h : Fanned d ev payload subs w) (grows : w.log.Sublist w'.log) :
    Fanned d ev payload subs w' :=
  ⟨h.1, grows.mem h.2.1, fun sub mem => (h.2.2 sub mem).imp_right fun before => before.trans grows⟩

theorem Fanned.next {payload : String} {sub : Subscription} {subs : List Subscription} (h : Fanned d ev payload (sub :: subs) w) :
    Fanned d ev payload subs { w with log := w.log ++ [.enqueued ev.id sub payload] } := by
  obtain ⟨decoded, committed, fanned⟩ := h
  refine ⟨decoded, List.mem_append_left _ committed, fun sub' mem => ?_⟩
  rcases fanned sub' mem with next | before
  · rcases List.mem_cons.1 next with rfl | later
    · exact .inr (List.Sublist.append (List.singleton_sublist.2 committed) (.refl _))
    · exact .inl later
  · exact .inr (before.trans (List.sublist_append_left ..))

/-- The loop over the subscribers. -/
theorem safe_enqueueAll {payload : String} (subs : List Subscription) (drains : Draining tx rest w) (fanned : Fanned d ev payload subs w) :
    Safe (eventFlow d) (eventProtocol d) (.drain tx)
      (Replied (fun _ t => Draining tx rest t ∧ Enqueued d t.log ev.id ev.eventType ev.payload) (Draining tx rest))
      (enqueueAll ev.id ev.eventType payload subs) w := by
  induction subs generalizing w with
  | nil => exact ⟨drains, fun sub mem => ⟨payload, fanned.1, (fanned.2.2 sub mem).resolve_left List.not_mem_nil⟩⟩
  | cons sub subs ih =>
    have sends : Safe (eventFlow d) (eventProtocol d) (.drain tx)
        (Replied (fun _ t => Draining tx rest t ∧ Fanned d ev payload subs t) (Draining tx rest))
        (call (I := eventStore) (.enqueue ev.id sub payload)) w := by
      refine safe_event (fun t rely inv _ => ⟨keepsEvents_enqueue inv, ?_, fun lost => (lost trivial).elim⟩) fun t rely => drains.relies rely
      exact ⟨(drains.relies rely).log (List.sublist_append_left ..), (fanned.mono rely.log).next⟩
    refine Safe.bind ((safe_wrapError sends).mono fun r t after => ?_)
    cases r with
    | ok _ => exact ih after.1 after.2
    | error e => exact after

/-- Whether the event was published: its subscribers have it then. -/
theorem safe_publish (drains : Draining tx (ev :: rest) w) :
    Safe (eventFlow d) (eventProtocol d) (.drain tx)
      (Replied (fun _ t => Draining tx (ev :: rest) t ∧ Enqueued d t.log ev.id ev.eventType ev.payload) (Draining tx (ev :: rest)))
      (publish d ev.id ev.eventType ev.payload) w := by
  unfold publish
  by_cases unsubscribed : d.subscriptions ev.eventType = []
  · simp only [unsubscribed, if_true]
    refine ⟨drains, fun sub mem => ?_⟩
    rw [unsubscribed] at mem
    cases mem
  · simp only [if_neg unsubscribed]
    split
    · exact drains
    · cases decoded : d.decodePayload ev.payload with
      | error e => exact drains
      | ok payload =>
        exact safe_enqueueAll _ drains ⟨decoded, drains.committed ev List.mem_cons_self, fun sub mem => .inl mem⟩

/-- A drain writes what is true of an event it has read. -/
theorem Draining.write {tr : DrainTx} {outcome : EventOutcome} (h : Draining tx (ev :: rest) w) (inv : Dispatching d w)
    (isOpen : openDrain tx w = some tr) (sound : WriteSound d w ⟨ev.id, outcome⟩) :
    KeepsEvents d (.drain tx) w (writeEvent tx ⟨ev.id, outcome⟩ w) ∧ Draining tx rest (writeEvent tx ⟨ev.id, outcome⟩ w) := by
  obtain ⟨mem, named, alive⟩ := openDrain_eq.1 isOpen
  have drain := inv.drains tr mem alive
  have unwritten := h.unwritten tr isOpen ev List.mem_cons_self
  have written : openDrain tx (writeEvent tx ⟨ev.id, outcome⟩ w) = some { tr with writes := tr.writes ++ [⟨ev.id, outcome⟩] } :=
    openDrain_eq.2 ⟨mem_setDrain.2 (.inr ⟨tr, mem, named, rfl⟩), named, alive⟩
  have nodup := h.nodup
  rw [List.map_cons, List.nodup_cons] at nodup
  constructor
  · refine keepsEvents_setDrain inv (fun _ ended => ended) (.inl rfl) fun old hold same _ => ?_
    obtain rfl := Table.eq_of_key hold mem (same.trans named.symm)
    refine ⟨⟨fun _ => h.locked old isOpen, ?_, fun write listed => ?_⟩, fun locked t' mem' alive' locked' => ?_⟩
    · rw [List.map_append, List.map_singleton]
      refine List.nodup_append.2 ⟨drain.nodup, List.nodup_singleton _, fun a ha b hb same => unwritten ?_⟩
      have own : a = ev.id := same.trans (List.mem_singleton.1 hb)
      exact own ▸ ha
    · rcases List.mem_append.1 listed with before | new
      · exact drain.sound write before
      · exact List.mem_singleton.1 new ▸ sound
    · exact (inv.exclusive t' mem' old hold alive' alive locked' locked).trans named
  · refine ⟨fun ev' listed => h.committed ev' (List.mem_cons_of_mem _ listed), nodup.2, fun tr' isOpen' => ?_, fun tr' isOpen' ev' listed => ?_,
      fun _ _ ev' listed => h.read tr isOpen ev' (List.mem_cons_of_mem _ listed)⟩
    · obtain rfl := Option.some.inj (written.symm.trans isOpen')
      exact h.locked tr isOpen
    · obtain rfl := Option.some.inj (written.symm.trans isOpen')
      rw [List.map_append, List.map_singleton, List.mem_append, List.mem_singleton]
      rintro (before | same)
      · exact h.unwritten tr isOpen ev' (List.mem_cons_of_mem _ listed) before
      · exact nodup.1 (List.mem_map.2 ⟨ev', listed, same⟩)

/-- One event. -/
theorem safe_drainEvent (drains : Draining tx (ev :: rest) w) :
    Safe (eventFlow d) (eventProtocol d) (.drain tx) (Replied (fun _ => Draining tx rest) fun _ => True) (drainEvent d tx ev) w := by
  unfold drainEvent
  refine Safe.bind (Safe.attempt ((safe_publish drains).mono fun published t after => ?_))
  cases published with
  | error e =>
    have records : Safe (eventFlow d) (eventProtocol d) (.drain tx) (Replied (fun _ => Draining tx rest) fun _ => True)
        (call (I := eventStore) (.recordFailed tx ev.id (ev.attempts + 1) e.text (failedStatus d (ev.attempts + 1)))) t := by
      refine safe_within (fun _ => rfl) fun u tr rely inv _ isOpen => ?_
      have drains := Draining.relies after rely
      split
      · exact ⟨inv.same, trivial⟩
      · refine drains.write inv isOpen ?_
        obtain ⟨row, hrow, rfl, pending⟩ := drains.read tr isOpen ev List.mem_cons_self
        refine ⟨row, hrow, rfl, pending, rfl, ?_⟩
        unfold failedStatus
        split
        · rename_i enough
          exact .inr ⟨rfl, enough⟩
        · exact .inl rfl
    refine Safe.bind ((safe_wrapError records).mono fun r u after => ?_)
    cases r with
    | ok _ => exact after
    | error e => exact trivial
  | ok _ =>
    obtain ⟨drains, enqueued⟩ := after
    have marks : Safe (eventFlow d) (eventProtocol d) (.drain tx) (Replied (fun _ => Draining tx rest) fun _ => True)
        (call (I := eventStore) (.markPublished tx ev.id)) t := by
      refine safe_within (fun _ => rfl) fun u tr rely inv _ isOpen => ?_
      have drains := drains.relies rely
      refine drains.write inv isOpen ?_
      obtain ⟨row, hrow, rfl, pending⟩ := drains.read tr isOpen ev List.mem_cons_self
      exact ⟨row, hrow, rfl, pending, enqueued.mono rely.log⟩
    refine Safe.bind ((safe_wrapError marks).mono fun r u after => ?_)
    cases r with
    | ok _ => exact after
    | error e => exact trivial

/-- The loop over the events. -/
theorem safe_drainEvents (events : List PendingEvent) (published : Nat) (drains : Draining tx events w) :
    Safe (eventFlow d) (eventProtocol d) (.drain tx) (fun _ _ => True) (drainEvents d tx published events) w := by
  induction events generalizing published w with
  | nil => exact trivial
  | cons ev rest ih =>
    refine Safe.bind ((safe_drainEvent drains).mono fun r t after => ?_)
    cases r with
    | ok done => exact ih _ after
    | error e => exact trivial

/-- A drain reads pending rows, -/
theorem read_pendingRows {limit : Nat} (mem : ev ∈ (pendingRows limit w).map EventRow.scan) :
    ∃ row ∈ w.events.rows, row.scan = ev ∧ row.status = .pending := by
  obtain ⟨row, mem, scanned⟩ := List.mem_map.1 mem
  have mem := List.mem_of_mem_take mem
  rw [List.mem_insertionSort, List.mem_filter] at mem
  exact ⟨row, mem.1, scanned, of_decide_eq_true mem.2⟩

/-- each of them once. -/
theorem nodup_pendingRows (limit : Nat) (w : EventWorld) : (((pendingRows limit w).map EventRow.scan).map PendingEvent.id).Nodup := by
  rw [List.map_map]
  have sorted : (((w.events.rows.filter fun r => decide (r.status = .pending)).insertionSort fun a b => a.occurredAt ≤ b.occurredAt).map
      EventRow.id).Nodup := by
    rw [((List.perm_insertionSort _ _).map EventRow.id).nodup_iff]
    exact w.events.unique.sublist (List.filter_sublist.map _)
  exact sorted.sublist ((List.take_sublist ..).map _)

/-- What a drain reads under the lock. -/
theorem draining_pendingRows {limit : Nat} (inv : Dispatching d w) (fresh : ∀ tr, openDrain tx w = some tr → tr.locked = true ∧ tr.writes = []) :
    Draining tx ((pendingRows limit w).map EventRow.scan) w := by
  refine ⟨fun ev mem => ?_, nodup_pendingRows limit w, fun tr isOpen => (fresh tr isOpen).1, fun tr isOpen ev _ written => ?_,
    fun _ _ ev => read_pendingRows⟩
  · obtain ⟨row, hrow, rfl, -⟩ := read_pendingRows mem
    exact inv.events.stored row hrow
  · rw [(fresh tr isOpen).2] at written
    cases written

/-- The transaction is new: it has written nothing. -/
def Unwritten (tx : String) (w : EventWorld) : Prop := ∀ tr, openDrain tx w = some tr → tr.writes = []

theorem safe_commit : Safe (eventFlow d) (eventProtocol d) (.drain tx) (Replied (fun _ _ => True) fun _ => True)
    (call (I := eventStore) (.commit tx)) w :=
  safe_within (fun _ => rfl) fun _ _ _ inv _ isOpen => ⟨keepsEvents_commit inv isOpen, trivial⟩

theorem safe_drainWithin (unwritten : Unwritten tx w) :
    Safe (eventFlow d) (eventProtocol d) (.drain tx) (fun _ _ => True) (drainWithin d tx) w := by
  unfold drainWithin
  have locks : Safe (eventFlow d) (eventProtocol d) (.drain tx)
      (Replied (fun _ t => ∀ tr, openDrain tx t = some tr → tr.locked = true ∧ tr.writes = []) fun _ => True)
      (call (I := eventStore) (.lockDispatcher tx)) w := by
    refine safe_within (fun _ => rfl) fun t tr rely inv free isOpen => ?_
    obtain ⟨mem, named, alive⟩ := openDrain_eq.1 isOpen
    have nothing := unwritten tr (rely.drain tr isOpen)
    refine ⟨keepsEvents_setDrain inv (fun _ ended => ended) (.inl rfl) fun old hold same _ => ?_, fun tr' isOpen' => ?_⟩
    · obtain rfl := Table.eq_of_key hold mem (same.trans named.symm)
      refine ⟨⟨fun _ => rfl, (inv.drains old hold alive).nodup, (inv.drains old hold alive).sound⟩, fun _ t' mem' alive' locked' => ?_⟩
      by_contra other
      have unlocked := free t' mem' other alive'
      rw [locked'] at unlocked
      cases unlocked
    · obtain ⟨mem', named', -⟩ := openDrain_eq.1 isOpen'
      rcases mem_setDrain.1 mem' with ⟨-, other⟩ | ⟨old, hold, same, rfl⟩
      · exact (other named').elim
      · obtain rfl := Table.eq_of_key hold mem (same.trans named.symm)
        exact ⟨rfl, nothing⟩
  refine Safe.bind ((safe_wrapError locks).mono fun locked t after => ?_)
  cases locked with
  | error e => exact trivial
  | ok _ =>
    have reads : Safe (eventFlow d) (eventProtocol d) (.drain tx) (Replied (fun events => Draining tx events) fun _ => True)
        (call (I := eventStore) (.queryPending tx d.batchSize.toNat)) t :=
      safe_within (fun _ => rfl) fun u tr rely inv _ _ =>
        ⟨inv.same, draining_pendingRows inv fun tr' isOpen' => after tr' (rely.drain tr' isOpen')⟩
    refine Safe.bind ((safe_wrapError reads).mono fun events u drains => ?_)
    cases events with
    | error e => exact trivial
    | ok events =>
      simp only
      split
      · refine Safe.bind (safe_commit.mono fun r _ _ => ?_)
        cases r <;> exact trivial
      · refine Safe.bind ((safe_drainEvents events 0 drains).mono fun published v _ => ?_)
        cases published with
        | error e => exact trivial
        | ok published =>
          refine Safe.bind ((safe_wrapError safe_commit).mono fun r _ _ => ?_)
          cases r <;> exact trivial

theorem safe_drain {now : Int} : Safe (eventFlow d) (eventProtocol d) (.drain tx) (fun _ _ => True) (drain d tx now) w := by
  unfold drain
  have begins : Safe (eventFlow d) (eventProtocol d) (.drain tx) (Replied (fun _ => Unwritten tx) fun _ => True)
      (call (I := eventStore) (.begin tx now)) w := by
    refine safe_event (fun t _ inv _ => ?_) fun _ _ => trivial
    simp only [eventExec]
    split
    · rename_i drains inserted
      obtain ⟨unused, rows⟩ := Table.insert_eq_some.1 inserted
      have added : ∀ tr ∈ drains.rows, tr ∈ t.drains.rows ∨ tr = ⟨tx, false, false, now, []⟩ := by
        intro tr mem
        rwa [rows, List.mem_append, List.mem_singleton] at mem
      refine ⟨keepsEvents_drain inv rfl rfl (.inl rfl) (fun tr mem other => (added tr mem).resolve_right fun same => other (same ▸ rfl))
        (fun tr mem => ⟨tr, rows ▸ List.mem_append_left _ mem, rfl, fun h => h, fun _ => rfl⟩) (fun tr mem named _ => ?_), fun tr isOpen => ?_,
        fun _ => trivial⟩
      · rcases added tr mem with mem | rfl
        · exact (unused tr mem named).elim
        · exact ⟨⟨fun some => (some rfl).elim, List.nodup_nil, fun _ listed => nomatch listed⟩, fun locked => nomatch locked⟩
      · obtain ⟨mem, named, -⟩ := openDrain_eq.1 isOpen
        rcases added tr mem with mem | rfl
        · exact (unused tr mem named).elim
        · rfl
    · exact ⟨inv.same, trivial, fun _ => trivial⟩
  refine Safe.bind ((safe_wrapError begins).mono fun began t after => ?_)
  cases began with
  | error e => exact trivial
  | ok _ =>
    refine Safe.bind (Safe.attempt ((safe_drainWithin after).mono fun drained u _ => ?_))
    cases drained with
    | ok published => exact trivial
    | error e =>
      refine Safe.bind (Safe.bind (Safe.attempt ?_))
      exact safe_event (fun v _ inv _ => ⟨keepsEvents_endDrain inv, trivial, fun _ => trivial⟩) fun _ _ => trivial

end Drains

/-! ## Runs -/

/-- Every job keeps the protocol wherever it starts. -/
theorem safe_eventJob {d : Dispatcher} {i : EventName} {p : EventHandler Unit} {w : EventWorld} (may : (eventFlow d).job i p) :
    Safe (eventFlow d) (eventProtocol d) i (fun _ => (eventProtocol d).idle i) p w := by
  cases may with
  | drain tx now =>
    refine Safe.bind (safe_drain.mono fun r t _ => ?_)
    cases r <;> exact trivial
  | produce n id aggregateType aggregateID eventType payload now =>
    refine Safe.bind (safe_event (fun t _ inv _ => ⟨keepsEvents_insertEvent inv rfl rfl, ?_, fun _ => trivial⟩) fun _ _ => trivial)
    split <;> exact trivial
  | rollback n tx => exact safe_event (fun t _ inv _ => ⟨keepsEvents_endDrain inv, trivial, fun _ => trivial⟩) fun _ _ => trivial

/-- No event yet. -/
def noEvents : EventWorld := ⟨Table.empty, Table.empty, []⟩

theorem dispatching_noEvents (d : Dispatcher) : Dispatching d noEvents where
  events := {
    stored := fun _ mem => nomatch mem
    kept := fun _ mem => nomatch mem
    known := fun _ some => (some rfl).elim
    published := fun _ mem => nomatch mem
    counted := fun _ mem => nomatch mem
    dead := fun _ mem => nomatch mem
    once := fun _ => List.nodup_nil }
  drains _ mem := nomatch mem
  exclusive _ mem := nomatch mem
  ended _ _ mem := nomatch mem

/-- In every run of producers and drains: a PUBLISHED event has had `Enqueue` succeed for each of its subscriptions after it was
committed; PUBLISHED and DEAD rows stay as they are; a DEAD event has that many committed drains that recorded a failure; and every
committed event that is neither is PENDING. -/
theorem events_delivered {d : Dispatcher} {a b : Crew eventStore EventName EventWorld} (reach : (eventFlow d).Reach ⟨noEvents, []⟩ a)
    (later : (eventFlow d).Reach a b) :
    (∀ row ∈ b.state.events.rows, row.status = .published → Enqueued d b.state.log row.id row.eventType row.payload) ∧
    (∀ row ∈ a.state.events.rows, row.status = .published ∨ row.status = .dead → row ∈ b.state.events.rows) ∧
    (∀ row ∈ b.state.events.rows, row.status = .dead →
      (failuresIn row.id b.state.log).Nodup ∧ d.maxAttempts ≤ (failuresIn row.id b.state.log).length) ∧
    ∀ id, .committed id ∈ b.state.log →
      ∃ row ∈ b.state.events.rows, row.id = id ∧ (row.status ≠ .published → row.status ≠ .dead → row.status = .pending) := by
  have start : ∀ i p s, (eventFlow d).job i p → (eventProtocol d).inv s → (eventProtocol d).idle i s →
      Safe (eventFlow d) (eventProtocol d) i (fun _ => (eventProtocol d).idle i) p s := fun i p s may _ _ => safe_eventJob may
  have idle : ∀ i, (eventProtocol d).idle i noEvents := fun _ => trivial
  have inv : Dispatching d b.state := Protocol.invariant start (reach.trans later) (dispatching_noEvents d) idle
  have outside : ∀ p, ¬ (eventFlow d).job .observer p := fun p may => nomatch may
  have settled : Settled a.state b.state :=
    Protocol.observed Protocol.promise_idle start reach later (dispatching_noEvents d) idle outside
  refine ⟨inv.events.published, fun row mem final => ?_, fun row mem gone => ⟨inv.events.once row.id, ?_⟩, fun id committed => ?_⟩
  · obtain ⟨row', mem', -, same⟩ := settled row mem
    have notPending : row.status ≠ .pending := by
      intro pending
      rw [pending] at final
      rcases final with absurd | absurd <;> cases absurd
    exact same notPending ▸ mem'
  · rw [← inv.events.counted row mem]
    exact inv.events.dead row mem gone
  · obtain ⟨row, mem, named⟩ := inv.events.kept id committed
    refine ⟨row, mem, named, fun notPublished notDead => ?_⟩
    cases status : row.status with
    | pending => rfl
    | published => exact (notPublished status).elim
    | dead => exact (notDead status).elim

/-- A dispatcher with one subscriber of created orders. -/
def invoicing : Dispatcher where
  publisher := true
  subscriptions := fun eventType => if eventType = "order.created" then [⟨"payment-init", "payment-init"⟩] else []
  maxAttemptsSetting := 0
  batchSizeSetting := 0
  decodePayload := .ok

/-- An event is committed, and then drained. -/
def produced : EventWorld :=
  (eventExec (.insertEvent "e1" "order" "o1" "order.created" "\x7b\"orderId\":\"o1\"\x7d" 0) noEvents).2

/-- The event is PUBLISHED, and its subscriber has it. -/
theorem events_delivered_invoicing :
    ∃ a b : Crew eventStore EventName EventWorld, (eventFlow invoicing).Reach ⟨noEvents, []⟩ a ∧ (eventFlow invoicing).Reach a b ∧
      ∃ row ∈ b.state.events.rows, row.id = "e1" ∧ row.status = .published ∧
        Enqueued invoicing b.state.log row.id row.eventType row.payload := by
  have first := (eventFlow invoicing).reach_job (i := .producer 0) (s := noEvents)
    (.produce 0 "e1" "order" "o1" "order.created" "\x7b\"orderId\":\"o1\"\x7d" 0) (by decide +kernel)
  have second := (eventFlow invoicing).reach_job (i := .drain "tx") (s := produced) (.drain "tx" 1) (by decide +kernel)
  obtain ⟨published, -⟩ := events_delivered first second
  refine ⟨_, _, first, second, ?_⟩
  have row : ∃ row ∈ ((ignore (drain invoicing "tx" 1)).run eventExec produced).2.events.rows, row.id = "e1" ∧ row.status = .published := by
    decide +kernel
  obtain ⟨row, mem, named, done⟩ := row
  exact ⟨row, mem, named, done, published row mem done⟩

end NovoApex.Events
