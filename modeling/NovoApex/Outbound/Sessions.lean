import NovoApex.Outbound.Outline

/-!
# Connections, backlogs and rows

What the statements of the outbound queue do to the connections and to the rows they
name, for the protocols of the deliveries.
-/

namespace NovoApex.Outbound
set_option autoImplicit false
open Lib Program Db Workers

/-- The rows an open connection has read as its backlog and not recorded. -/
def backlogOf (c : OutboundCall) (w : OutboundWorld) : Option (List String) := (openConnection c w).map Connection.backlog

/-- What was handed to the sender for a row. -/
def sendsOf (id : String) (w : OutboundWorld) : List Sending := w.sends.filter fun s => decide (s.id = id)

section Connections

variable {c j : OutboundCall} {w : OutboundWorld}

theorem openConnection_setConnection_ne {f : Connection → Connection} {keeps : ∀ x, (f x).id = x.id} (other : j ≠ c) :
    openConnection j (setConnection c f keeps w) = openConnection j w := by
  unfold openConnection setConnection
  rw [Table.find?_update_of_ne _ f keeps other]

theorem backlogOf_setConnection_ne {f : Connection → Connection} {keeps : ∀ x, (f x).id = x.id} (other : j ≠ c) :
    backlogOf j (setConnection c f keeps w) = backlogOf j w := by
  unfold backlogOf
  rw [openConnection_setConnection_ne other]

/-- Rewriting the backlog of a connection. -/
theorem backlogOf_setConnection {g : List String → List String} :
    backlogOf c (setConnection c (fun x => { x with backlog := g x.backlog }) (fun _ => rfl) w) = (backlogOf c w).map g := by
  unfold backlogOf openConnection setConnection
  rw [Table.find?_update_keyed]
  cases w.connections.find? c with
  | none => rfl
  | some x =>
    obtain ⟨id, closed, backlog⟩ := x
    cases closed <;> rfl

theorem backlogOf_closeConnection_ne (other : j ≠ c) : backlogOf j (closeConnection c w) = backlogOf j w := by
  have same : backlogOf j (setConnection c (fun x => { x with closed := true, backlog := [] }) (fun _ => rfl) w) = backlogOf j w :=
    backlogOf_setConnection_ne other
  exact same

theorem backlogOf_closeConnection : backlogOf c (closeConnection c w) = none := by
  have closes : openConnection c (closeConnection c w) = none := by
    unfold openConnection closeConnection setConnection
    rw [Table.find?_update_keyed]
    cases w.connections.find? c <;> rfl
  rw [backlogOf, closes]
  rfl

theorem backlogOf_recorded_ne {on : Option OutboundCall} {id : String} (mine : on = none ∨ on = some c) (other : j ≠ c) :
    backlogOf j (recorded on id w) = backlogOf j w := by
  rcases mine with rfl | rfl
  · rfl
  · exact backlogOf_setConnection_ne other

theorem backlogOf_recorded {id : String} : backlogOf c (recorded (some c) id w) = (backlogOf c w).map fun ids => ids.erase id :=
  backlogOf_setConnection (g := fun ids => ids.erase id)

theorem recorded_messages {on : Option OutboundCall} {id : String} : (recorded on id w).messages = w.messages := by
  cases on <;> rfl

theorem recorded_sends {on : Option OutboundCall} {id : String} : (recorded on id w).sends = w.sends := by
  cases on <;> rfl

theorem recorded_transactions {on : Option OutboundCall} {id : String} : (recorded on id w).transactions = w.transactions := by
  cases on <;> rfl

theorem recorded_locks {on : Option OutboundCall} {id : String} : (recorded on id w).locks = w.locks := by
  cases on <;> rfl

theorem recorded_tasks {on : Option OutboundCall} {id : String} : (recorded on id w).tasks = w.tasks := by
  cases on <;> rfl

theorem recorded_businesses {on : Option OutboundCall} {id : String} : (recorded on id w).businesses = w.businesses := by
  cases on <;> rfl

theorem backlogOf_acquired_ne {connections : Table Connection.id} (h : w.connections.insert ⟨c, false, []⟩ = some connections)
    (other : j ≠ c) : backlogOf j { w with connections := connections } = backlogOf j w := by
  unfold backlogOf openConnection
  simp only
  rw [Table.find?_insert_of_ne h other]

theorem backlogOf_acquired {connections : Table Connection.id} (h : w.connections.insert ⟨c, false, []⟩ = some connections) :
    backlogOf c { w with connections := connections } = some [] := by
  unfold backlogOf openConnection
  simp only
  rw [show connections.find? c = some ⟨c, false, []⟩ from Table.find?_insert h]
  rfl

theorem openConnection_of_backlogOf {ids : List String} (h : backlogOf c w = some ids) :
    ∃ x, openConnection c w = some x ∧ x.backlog = ids := by
  unfold backlogOf at h
  cases found : openConnection c w with
  | none =>
    rw [found] at h
    cases h
  | some x =>
    rw [found] at h
    exact ⟨x, rfl, Option.some.inj h⟩

theorem openConnection_mem {x : Connection} (h : openConnection c w = some x) :
    x ∈ w.connections.rows ∧ x.closed = false := by
  unfold openConnection at h
  obtain ⟨found, isOpen⟩ := Option.filter_eq_some_iff.1 h
  refine ⟨(Table.find?_eq_some.1 found).1, ?_⟩
  simpa using isOpen

/-- A statement on a connection is executed, or the connection is closed and nothing happens. -/
theorem onConnection_cases {α : Type} (on : Option OutboundCall) (f : Except OutboundErr α × OutboundWorld) :
    (onConnection on w f = f ∧ ∀ c, on = some c → ∃ ids, backlogOf c w = some ids) ∨
      (onConnection on w f = (.error .connClosed, w) ∧ ∃ c, on = some c ∧ backlogOf c w = none) := by
  unfold onConnection
  cases on with
  | none => exact .inl ⟨rfl, fun c h => nomatch h⟩
  | some c =>
    cases found : openConnection c w with
    | none => exact .inr ⟨by simp only [found], c, rfl, by rw [backlogOf, found]; rfl⟩
    | some x =>
      refine .inl ⟨by simp only [found], fun j same => ?_⟩
      cases same
      exact ⟨x.backlog, by rw [backlogOf, found]; rfl⟩

end Connections

/-! ## Locks -/

section Locks

variable {c : OutboundCall} {w w' : OutboundWorld}

/-- What a call sees of its session: nobody takes its locks or its backlog, except that the connection may be lost once
the backlog is recorded. -/
def Session (c : OutboundCall) (w w' : OutboundWorld) : Prop :=
  (backlogOf c w' = backlogOf c w ∧ ∀ k, w'.locks k = some c ↔ w.locks k = some c) ∨
    (backlogOf c w = some [] ∧ backlogOf c w' = none ∧ ∀ k, w'.locks k ≠ some c)

theorem Session.refl (c : OutboundCall) (w : OutboundWorld) : Session c w w := .inl ⟨rfl, fun _ => Iff.rfl⟩

theorem Session.trans {u v : OutboundWorld} (h : Session c u v) (h' : Session c v w) : Session c u w := by
  rcases h with ⟨backlog, locks⟩ | ⟨empty, lost, gone⟩
  · rcases h' with ⟨backlog', locks'⟩ | ⟨empty', lost', gone'⟩
    · exact .inl ⟨backlog'.trans backlog, fun k => (locks' k).trans (locks k)⟩
    · exact .inr ⟨backlog.symm.trans empty', lost', gone'⟩
  · rcases h' with ⟨backlog', locks'⟩ | ⟨empty', -, -⟩
    · exact .inr ⟨empty, backlog'.trans lost, fun k held => gone k ((locks' k).1 held)⟩
    · rw [lost] at empty'
      cases empty'

/-- A lock the call holds was its own before. -/
theorem Session.before (h : Session c w w') {k : String} (held : w'.locks k = some c) : w.locks k = some c := by
  rcases h with ⟨-, locks⟩ | ⟨-, -, gone⟩
  · exact (locks k).1 held
  · exact (gone k held).elim

/-- A call with a row to record keeps its backlog and its locks. -/
theorem Session.holds (h : Session c w w') {ids : List String} {id : String} (read : backlogOf c w = some ids) (listed : id ∈ ids) :
    backlogOf c w' = some ids ∧ ∀ k, w'.locks k = some c ↔ w.locks k = some c := by
  rcases h with ⟨backlog, locks⟩ | ⟨empty, -, -⟩
  · exact ⟨backlog.trans read, locks⟩
  · rw [read] at empty
    cases empty
    cases listed

/-- A statement of the call on its own session. -/
structure SessionStep (c : OutboundCall) (w w' : OutboundWorld) : Prop where
  messages : w'.messages = w.messages
  businesses : w'.businesses = w.businesses
  sends : w'.sends = w.sends
  tasks : w'.tasks = w.tasks
  others : ∀ j, j ≠ c → backlogOf j w' = backlogOf j w ∧ ∀ k, w'.locks k = some j ↔ w.locks k = some j
  /-- A lock that is new was free. -/
  own : ∀ k, w'.locks k = some c → w.locks k = some c ∨ w.locks k = none

theorem SessionStep.session (h : SessionStep c w w') {j : OutboundCall} (other : j ≠ c) : Session j w w' := .inl (h.others j other)

theorem sessionStep_refl : SessionStep c w w := ⟨rfl, rfl, rfl, rfl, fun _ _ => ⟨rfl, fun _ => Iff.rfl⟩, fun _ => .inl⟩

theorem sessionStep_onConnection {α : Type} {on : Option OutboundCall} {r : Except OutboundErr α} (h : SessionStep c w w') :
    SessionStep c w (onConnection on w (r, w')).2 := by
  rcases onConnection_cases on (r, w') with ⟨runs, -⟩ | ⟨runs, -⟩
  · rw [runs]
    exact h
  · rw [runs]
    exact sessionStep_refl

theorem sessionStep_acquire : SessionStep c w (outboundExec (.acquire c) w).2 := by
  simp only [outboundExec]
  split
  · rename_i connections inserted
    exact ⟨rfl, rfl, rfl, rfl, fun j other => ⟨backlogOf_acquired_ne inserted other, fun _ => Iff.rfl⟩, fun _ => .inl⟩
  · exact sessionStep_refl

theorem sessionStep_lock {key : String} (free : w.locks key = none) : SessionStep c w (outboundExec (.lockConversation c key) w).2 := by
  refine sessionStep_onConnection ⟨rfl, rfl, rfl, rfl, fun j other => ⟨rfl, fun k => ?_⟩, fun k held => ?_⟩
  · by_cases same : k = key
    · subst same
      simp only [Function.update_self, free]
      constructor
      · intro h
        cases h
        exact (other rfl).elim
      · intro h
        cases h
    · simp only [Function.update_of_ne same]
  · by_cases same : k = key
    · exact .inr (same ▸ free)
    · simp only [Function.update_of_ne same] at held
      exact .inl held

theorem sessionStep_loadBacklog (conversation : String) (seq : Int) :
    SessionStep c w (outboundExec (.loadBacklog c conversation seq) w).2 :=
  sessionStep_onConnection ⟨rfl, rfl, rfl, rfl, fun _ other => ⟨backlogOf_setConnection_ne other, fun _ => Iff.rfl⟩, fun _ => .inl⟩

theorem sessionStep_unlock {key : String} : SessionStep c w (outboundExec (.unlockConversation c key) w).2 := by
  refine sessionStep_onConnection ⟨rfl, rfl, rfl, rfl, fun j other => ⟨backlogOf_setConnection_ne other, fun k => ?_⟩, fun k held => ?_⟩
  · show (if k = key ∧ w.locks k = some c then none else w.locks k) = some j ↔ _
    split
    · rename_i mine
      rw [mine.2]
      constructor
      · intro h
        cases h
      · intro h
        cases h
        exact (other rfl).elim
    · exact Iff.rfl
  · have held : (if k = key ∧ w.locks k = some c then none else w.locks k) = some c := held
    split at held
    · cases held
    · exact .inl held

theorem closeConnection_locks {k : String} : (closeConnection c w).locks k = if w.locks k = some c then none else w.locks k := rfl

theorem sessionStep_close : SessionStep c w (closeConnection c w) := by
  refine ⟨rfl, rfl, rfl, rfl, fun j other => ⟨backlogOf_closeConnection_ne other, fun k => ?_⟩, fun k held => ?_⟩
  · rw [closeConnection_locks]
    split
    · rename_i mine
      rw [mine]
      constructor
      · intro h
        cases h
      · intro h
        cases h
        exact (other rfl).elim
    · exact Iff.rfl
  · rw [closeConnection_locks] at held
    split at held
    · cases held
    · exact .inl held

/-- The server loses a connection whose backlog is recorded. -/
theorem session_lost {j : OutboundCall} (empty : backlogOf c w = some []) : Session j w (closeConnection c w) := by
  by_cases own : j = c
  · subst own
    refine .inr ⟨empty, backlogOf_closeConnection, fun k held => ?_⟩
    rw [closeConnection_locks] at held
    split at held
    · cases held
    · rename_i other
      exact other held
  · exact sessionStep_close.session own

end Locks

section Rows

variable {w : OutboundWorld}

theorem mem_setOutbound {id : String} {f : OutboundRow → OutboundRow} {keeps : ∀ r, (f r).id = r.id} {r : OutboundRow} :
    r ∈ (setOutbound id f keeps w).messages.rows ↔
      (r ∈ w.messages.rows ∧ r.id ≠ id) ∨ ∃ old ∈ w.messages.rows, old.id = id ∧ r = f old :=
  @Table.mem_update_keyed _ _ _ _ w.messages id f keeps r

theorem insertOutbound_ok {row : OutboundRow} {w' : OutboundWorld} (h : insertOutbound row w = .ok w') :
    ∃ messages, w.messages.insert row = some messages ∧ w' = { w with messages := messages } := by
  unfold insertOutbound at h
  split at h
  · cases h
  · split at h
    · rename_i messages inserted
      exact ⟨messages, inserted, (Except.ok.inj h).symm⟩
    · cases h

theorem mem_loadBacklog {conversation : String} {seq : Int} {m : QueuedMessage} :
    m ∈ loadBacklog conversation seq w ↔ ∃ row ∈ w.messages.rows, row.conversation = some conversation ∧ row.status = .pending ∧
      row.seq ≤ seq ∧ joined w row = some m := by
  unfold loadBacklog
  rw [List.mem_insertionSort, List.mem_filterMap]
  simp only [List.mem_filter, Bool.and_eq_true, decide_eq_true_eq, and_assoc]

/-- A backlog names each row once. -/
theorem loadBacklog_nodup {conversation : String} {seq : Int} : ((loadBacklog conversation seq w).map QueuedMessage.id).Nodup := by
  have perm := List.perm_insertionSort (fun a b : QueuedMessage => a.seq ≤ b.seq)
    ((w.messages.rows.filter fun r => decide (r.conversation = some conversation) && decide (r.status = .pending) &&
      decide (r.seq ≤ seq)).filterMap (joined w))
  rw [loadBacklog, (perm.map QueuedMessage.id).nodup_iff]
  have ids : ∀ rows : List OutboundRow, List.Sublist ((rows.filterMap (joined w)).map QueuedMessage.id) (rows.map OutboundRow.id) := by
    intro rows
    induction rows with
    | nil => exact .slnil
    | cons r rest ih =>
      cases scanned : joined w r with
      | none =>
        rw [List.filterMap_cons_none scanned]
        exact ih.cons _
      | some m =>
        rw [List.filterMap_cons_some scanned, List.map_cons, List.map_cons, (joined_eq scanned).1]
        exact ih.cons_cons _
  exact w.messages.unique.sublist ((ids _).trans (List.filter_sublist.map _))

end Rows

/-! ## A conversation -/

/-- A message that waits to be sent. -/
def invoice : OutboundRow where
  id := "m1"
  seq := 1
  messageType := "text"
  recipient := "0240000000"
  status := .pending
  textContent := some "Your invoice"
  imageURL := none
  templateName := none
  businessID := some "biz"
  conversation := some "conv"
  createdAt := 0
  whatsappMessageID := none
  metaResponse := none

/-- A conversation with messages that nobody delivers yet. -/
def conversationOf (rows : List OutboundRow) (unique : (rows.map OutboundRow.id).Nodup) : OutboundWorld where
  businesses := ⟨[⟨"biz", "phone-1"⟩], by decide⟩
  messages := ⟨rows, unique⟩
  connections := Table.empty
  locks _ := none
  transactions := Table.empty
  tasks := []
  sends := []

/-- WhatsApp accepts everything. -/
def accepting : Sender := fun _ _ => ⟨true, .ok ⟨[some "wamid.1"]⟩⟩

end NovoApex.Outbound
