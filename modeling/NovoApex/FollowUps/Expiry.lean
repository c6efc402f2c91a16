import NovoApex.FollowUps.Reminders

/-!
# Expired orders and their final reminder

The expiry sweep goes by `executed_at`, which the follow-up sweep sets when it claims a
row, before the reminder's task is enqueued, let alone run. An order that expires has had
its final reminder for a day as long as every scan finds the tasks of the claimed rows
succeeded by its cutoff, those tasks find the customer's conversation, and an order does
not become unpaid again once its final reminder's task has started.
-/

namespace NovoApex.FollowUps
set_option autoImplicit false
open Lib Program Db Workers

/-- The row of an id, with its payload. -/
def KnownRow (f : String) (p : FollowUpPayload) (w : FollowUpWorld) : Prop := ∃ row ∈ w.followUps.rows, row.id = f ∧ payloadOf row = p

/-- The order is not waiting for its payment. -/
def ClosedOrder (orderID : String) (w : FollowUpWorld) : Prop := ∃ o ∈ w.orders.rows, o.id = orderID ∧ o.status.isOpen = false

/-- The run is one of a final reminder. -/
def isFinalRun (run : FollowUpRun) (w : FollowUpWorld) : Bool :=
  (w.followUps.find? run.followUp).any fun f => decide (f.jobType = finalReminder)

/-- The task of the row has been started or has succeeded. -/
def Pursued (f : String) (w : FollowUpWorld) : Prop := (∃ r ∈ w.running, r.followUp = f) ∨ ∃ s ∈ w.succeeded, s.1 = f

instance (f : String) (w : FollowUpWorld) : Decidable (Pursued f w) :=
  inferInstanceAs (Decidable ((∃ r ∈ w.running, r.followUp = f) ∨ ∃ s ∈ w.succeeded, s.1 = f))

/-- The conversation of a final reminder is found, an order is not put back to unpaid once its final reminder is pursued, and a
scan finds the final reminders that are due succeeded by its cutoff. -/
def keepsPace (w : FollowUpWorld) : FollowUpStmt → Prop
  | .lookupConversation run businessID customerPhone =>
    (!isFinalRun run w || (lookupConversation businessID customerPhone w).isSome) = true
  | .setStatus orderID status => (!status.isOpen || (w.orders.find? orderID).any fun o => o.status.isOpen) = true ∨
    ∀ f ∈ w.followUps.rows, f.orderID ≠ orderID ∨ f.jobType ≠ finalReminder ∨ ¬ Pursued f.id w
  | .expiredOrders cutoff => ∀ o ∈ w.orders.rows, ∀ f ∈ w.followUps.rows, (o.status.isOpen && f.expires cutoff o) = false ∨
    ∃ s ∈ w.succeeded, s.1 = f.id ∧ (s.2 : Int) ≤ cutoff
  | _ => True

instance (w : FollowUpWorld) : DecidablePred (keepsPace w) := fun op => by
  unfold keepsPace
  split <;> infer_instance

/-- The runs in which final reminders keep pace. -/
def pacedFlow : Roster followUpStore FollowUpName FollowUpWorld where
  exec := followUpExec
  job := FollowUpJob
  allow w op := followUpProceeds w op ∧ keepsPace w op

instance (w : FollowUpWorld) (op : FollowUpStmt) : Decidable (pacedFlow.allow w op) :=
  inferInstanceAs (Decidable (followUpProceeds w op ∧ keepsPace w op))

/-! ## The protocol -/

/-- The follow-up was reminded of by then, or its order is not unpaid. -/
def Done (p : FollowUpPayload) (time : Nat) (w : FollowUpWorld) : Prop :=
  (∃ m ∈ w.reminders, m.payload = p ∧ m.createdAt ≤ time) ∨ ClosedOrder p.orderID w

/-- The order's final reminder was a day old by then. -/
def Covered (orderID : String) (time : Nat) (w : FollowUpWorld) : Prop :=
  ∃ m ∈ w.reminders, m.payload.orderID = orderID ∧ m.payload.jobType = finalReminder ∧ m.createdAt + checkoutExpiryGrace ≤ time

/-- The foreign keys of an order. -/
def Keyed (w : FollowUpWorld) (o : Order) : Prop :=
  (w.customers.find? o.customerID).isSome = true ∧ (w.businesses.find? o.businessID).isSome = true

/-- The invariant. -/
structure Finals (w : FollowUpWorld) : Prop where
  payloads : ∀ f p n, w.queue.slot (followUpTaskID f) = .live p n → KnownRow f p w
  orders : ∀ row ∈ w.followUps.rows, ∃ o ∈ w.orders.rows, o.id = row.orderID
  keys : ∀ o ∈ w.orders.rows, Keyed w o
  succeeded : ∀ s ∈ w.succeeded, ∃ p, KnownRow s.1 p w ∧ (p.jobType = finalReminder → Done p s.2 w)
  cancelled : ∀ x ∈ w.cancellations, x.reason = "checkout_expired" → Covered x.orderID x.time w

/-- What only grows. -/
structure Later (w w' : FollowUpWorld) : Prop where
  known : ∀ f p, KnownRow f p w → KnownRow f p w'
  reminders : ∀ m ∈ w.reminders, m ∈ w'.reminders
  clock : w.clock ≤ w'.clock

theorem Later.refl (w : FollowUpWorld) : Later w w := ⟨fun _ _ h => h, fun _ h => h, Nat.le_refl _⟩

theorem Later.trans {u v w : FollowUpWorld} (h : Later u v) (h' : Later v w) : Later u w :=
  ⟨fun f p known => h'.known f p (h.known f p known), fun m mem => h'.reminders m (h.reminders m mem), Nat.le_trans h.clock h'.clock⟩

theorem Later.covered {w w' : FollowUpWorld} (h : Later w w') {orderID : String} {time : Nat} (covered : Covered orderID time w) :
    Covered orderID time w' := by
  obtain ⟨m, mem, holds⟩ := covered
  exact ⟨m, h.reminders m mem, holds⟩

/-- An order that is pursued for its final payment stays closed. -/
def StaysClosed (f : String) (w w' : FollowUpWorld) : Prop :=
  ∀ p, KnownRow f p w → p.jobType = finalReminder → ClosedOrder p.orderID w → ClosedOrder p.orderID w'

/-- A run relies on staying active, and on its order. -/
structure FinalRely (i : FollowUpName) (w w' : FollowUpWorld) : Prop where
  later : Later w w'
  run : ∀ r, i = .run r → r ∈ w.running → r ∈ w'.running ∧ StaysClosed r.followUp w w'

/-- The protocol of the final reminders. -/
def finalProtocol : Protocol FollowUpName FollowUpWorld where
  inv := Finals
  rely := FinalRely
  refl i w := ⟨.refl w, fun _ _ active => ⟨active, fun _ _ _ closed => closed⟩⟩
  trans i u v w h h' := by
    refine ⟨h.later.trans h'.later, fun r own active => ?_⟩
    obtain ⟨active', stays⟩ := h.run r own active
    obtain ⟨active'', stays'⟩ := h'.run r own active'
    refine ⟨active'', fun p known isFinal closed => ?_⟩
    exact stays' p (h.later.known _ _ known) isFinal (stays p known isFinal closed)

/-- A statement of `i` keeps the protocol. -/
structure KeepsFinals (i : FollowUpName) (w w' : FollowUpWorld) : Prop where
  inv : Finals w'
  others : ∀ j, j ≠ i → FinalRely j w w'

/-! ## Statements -/

section Statements

variable {i : FollowUpName} {w w' : FollowUpWorld}

/-- What a statement may do to the tables and histories. -/
theorem keepsFinals (inv : Finals w) (later : Later w w') (rows : ∀ row ∈ w'.followUps.rows, ∃ o ∈ w'.orders.rows, o.id = row.orderID)
    (payloads : ∀ f p n, w'.queue.slot (followUpTaskID f) = .live p n → KnownRow f p w) (keys : ∀ o ∈ w'.orders.rows, Keyed w' o)
    (closed : ∀ f, Pursued f w → StaysClosed f w w')
    (succeeded : ∀ s ∈ w'.succeeded, s ∈ w.succeeded ∨ ∃ p, KnownRow s.1 p w' ∧ (p.jobType = finalReminder → Done p s.2 w'))
    (cancelled : ∀ x ∈ w'.cancellations, x ∈ w.cancellations ∨ (x.reason = "checkout_expired" → Covered x.orderID x.time w'))
    (running : ∀ r ∈ w.running, i ≠ .run r → r ∈ w'.running) : KeepsFinals i w w' := by
  refine ⟨⟨fun f p n live => later.known f p (payloads f p n live), rows, keys, fun s mem => ?_, fun x mem expired => ?_⟩,
    fun j apart => ⟨later, fun r own active => ⟨running r active fun same => apart (own.trans same.symm), closed _ (.inl ⟨r, active, rfl⟩)⟩⟩⟩
  · rcases succeeded s mem with before | new
    · obtain ⟨p, known, done⟩ := inv.succeeded s before
      refine ⟨p, later.known _ _ known, fun isFinal => ?_⟩
      rcases done isFinal with ⟨m, written, holds⟩ | unpaid
      · exact .inl ⟨m, later.reminders m written, holds⟩
      · exact .inr (closed s.1 (.inr ⟨s, before, rfl⟩) p known isFinal unpaid)
    · exact new
  · rcases cancelled x mem with before | new
    · exact later.covered (inv.cancelled x before expired)
    · exact new expired

/-- The orders, the queue and the histories are the same, and so is what each row says. -/
structure SameFinals (w w' : FollowUpWorld) : Prop where
  orders : w'.orders = w.orders
  customers : ∀ id, (w.customers.find? id).isSome = true → (w'.customers.find? id).isSome = true
  businesses : w'.businesses = w.businesses
  queue : w'.queue = w.queue
  running : w'.running = w.running
  succeeded : w'.succeeded = w.succeeded
  cancellations : w'.cancellations = w.cancellations

theorem SameFinals.keeps (same : SameFinals w w') (inv : Finals w) (later : Later w w')
    (rows : ∀ row ∈ w'.followUps.rows, ∃ o ∈ w.orders.rows, o.id = row.orderID) : KeepsFinals i w w' := by
  refine keepsFinals inv later (fun row mem => same.orders ▸ rows row mem) (fun f p n live => ?_) (fun o mem => ?_) (fun f _ p _ _ closed => ?_)
    (fun s mem => .inl (same.succeeded ▸ mem)) (fun x mem => .inl (same.cancellations ▸ mem)) fun r mem _ => same.running ▸ mem
  · rw [same.queue] at live
    exact inv.payloads f p n live
  · rw [same.orders] at mem
    obtain ⟨customer, business⟩ := inv.keys o mem
    exact ⟨same.customers _ customer, same.businesses ▸ business⟩
  · unfold ClosedOrder at *
    rwa [same.orders]

/-- An update that keeps ids and payloads. -/
theorem known_update {p : ScheduledFollowUp → Bool} {g : ScheduledFollowUp → ScheduledFollowUp} {f : String} {payload : FollowUpPayload}
    (rows : w'.followUps.rows = w.followUps.rows.map (Table.rewrite p g)) (keeps : ∀ r, (g r).id = r.id)
    (payloads : ∀ r, payloadOf (g r) = payloadOf r) (known : KnownRow f payload w) : KnownRow f payload w' := by
  obtain ⟨row, mem, named, content⟩ := known
  refine ⟨Table.rewrite p g row, rows ▸ List.mem_map_of_mem mem, (Table.rewrite_key keeps row).trans named, ?_⟩
  unfold Table.rewrite
  split
  · exact (payloads row).trans content
  · exact content

theorem orders_update {p : ScheduledFollowUp → Bool} {g : ScheduledFollowUp → ScheduledFollowUp}
    (rows : w'.followUps.rows = w.followUps.rows.map (Table.rewrite p g)) (same : ∀ r, (g r).orderID = r.orderID) (inv : Finals w) :
    ∀ row ∈ w'.followUps.rows, ∃ o ∈ w.orders.rows, o.id = row.orderID := by
  intro row mem
  rw [rows] at mem
  obtain ⟨old, listed, rfl⟩ := List.mem_map.1 mem
  obtain ⟨o, order, named⟩ := inv.orders old listed
  refine ⟨o, order, named.trans ?_⟩
  unfold Table.rewrite
  split
  · exact (same old).symm
  · rfl

/-- A new row. -/
theorem SameFinals.insert {row : ScheduledFollowUp} (inv : Finals w) (h : insertFollowUp row w = .ok w') : KeepsFinals i w w' := by
  obtain ⟨followUps, inserted, order, -, rfl⟩ := insertFollowUp_ok h
  obtain ⟨-, rows⟩ := Table.insert_eq_some.1 inserted
  have same : SameFinals w { w with followUps := followUps } := ⟨rfl, fun _ known => known, rfl, rfl, rfl, rfl, rfl⟩
  refine same.keeps inv ⟨fun f p known => ?_, fun _ mem => mem, Nat.le_refl _⟩ fun r mem => ?_
  · obtain ⟨x, mem, holds⟩ := known
    exact ⟨x, show x ∈ followUps.rows from rows ▸ List.mem_append_left _ mem, holds⟩
  · have mem : r ∈ followUps.rows := mem
    rw [rows, List.mem_append, List.mem_singleton] at mem
    rcases mem with mem | rfl
    · exact inv.orders r mem
    · obtain ⟨o, found⟩ := Option.isSome_iff_exists.1 order
      exact ⟨o, Table.find?_eq_some.1 found⟩

theorem KeepsFinals.trans {u v w : FollowUpWorld} (h : KeepsFinals i u v) (h' : KeepsFinals i v w) : KeepsFinals i u w :=
  ⟨h'.inv, fun j apart => finalProtocol.trans j _ _ _ (h.others j apart) (h'.others j apart)⟩

/-- A status write: the orders stay, and those of the final reminders that are pursued do not reopen. -/
theorem keepsFinals_setStatus {orderID : String} {status : OrderStatus} (inv : Finals w)
    (orders : w'.orders = NovoApex.setStatus (fun o => decide (o.id = orderID)) status w.clock w.orders)
    (customers : w'.customers = w.customers) (businesses : w'.businesses = w.businesses) (queue : w'.queue = w.queue)
    (followUps : w'.followUps = w.followUps) (reminders : w'.reminders = w.reminders) (clock : w'.clock = w.clock)
    (running : w'.running = w.running) (succeeded : w'.succeeded = w.succeeded)
    (cancelled : ∀ x ∈ w'.cancellations, x ∈ w.cancellations ∨ (x.reason = "checkout_expired" → Covered x.orderID x.time w'))
    (reopens : ∀ f, Pursued f w → ∀ p, KnownRow f p w → p.jobType = finalReminder → p.orderID = orderID →
      ClosedOrder orderID w → status.isOpen = false) : KeepsFinals i w w' := by
  have known : ∀ f p, KnownRow f p w → KnownRow f p w' := by
    intro f p
    unfold KnownRow
    rw [followUps]
    exact id
  have kept : ∀ o ∈ w.orders.rows, ∃ o' ∈ w'.orders.rows, o'.id = o.id ∧ (o.id ≠ orderID → o' = o) ∧ (o.id = orderID → o'.status = status) := by
    intro o mem
    rw [orders]
    by_cases own : o.id = orderID
    · exact ⟨_, mem_setStatus.2 (.inr ⟨o, mem, decide_eq_true own, rfl⟩), rfl, fun other => (other own).elim, fun _ => rfl⟩
    · exact ⟨o, mem_setStatus.2 (.inl ⟨mem, decide_eq_false own⟩), rfl, fun _ => rfl, fun same => (own same).elim⟩
  refine keepsFinals inv ⟨known, fun m mem => reminders ▸ mem, Nat.le_of_eq clock.symm⟩ (fun row mem => ?_) (fun f p n live => ?_) (fun o mem => ?_)
    (fun f pursued p isRow isFinal closed => ?_) (fun s mem => .inl (succeeded ▸ mem)) cancelled fun r mem _ => running ▸ mem
  · rw [followUps] at mem
    obtain ⟨o, listed, named⟩ := inv.orders row mem
    obtain ⟨o', listed', same, -⟩ := kept o listed
    exact ⟨o', listed', same.trans named⟩
  · rw [queue] at live
    exact inv.payloads f p n live
  · rw [orders, mem_setStatus] at mem
    unfold Keyed
    rw [customers, businesses]
    rcases mem with ⟨mem, -⟩ | ⟨old, mem, -, rfl⟩
    · exact inv.keys o mem
    · exact inv.keys old mem
  · obtain ⟨o, listed, named, unpaid⟩ := closed
    obtain ⟨o', listed', same, other, own⟩ := kept o listed
    refine ⟨o', listed', same.trans named, ?_⟩
    by_cases mine : o.id = orderID
    · rw [own mine]
      exact reopens f pursued p isRow isFinal (named.symm.trans mine) ⟨o, listed, mine, unpaid⟩
    · rw [other mine]
      exact unpaid

/-- The statements that keep the protocol under any name. -/
def Steady : FollowUpStmt → Prop
  | .enqueue .. | .finishTask .. => False
  | .cancelOrder _ reason => reason ≠ "checkout_expired"
  | _ => True

theorem keepsFinals_cancelOrder {orderID reason : String} (inv : Finals w)
    (covered : reason = "checkout_expired" → Covered orderID w.clock w) : KeepsFinals i w (cancelOrder orderID reason w) := by
  unfold cancelOrder
  split
  · refine keepsFinals_setStatus inv rfl rfl rfl rfl rfl rfl rfl rfl rfl (fun x mem => ?_) fun _ _ _ _ _ _ _ => rfl
    rcases List.mem_cons.1 mem with rfl | mem
    · exact .inr covered
    · exact .inl mem
  · exact (SameFinals.mk rfl (fun _ known => known) rfl rfl rfl rfl rfl).keeps inv (.refl w) inv.orders

theorem keepsFinals_steady {op : FollowUpStmt} (steady : Steady op) (inv : Finals w) (may : pacedFlow.allow w op) :
    KeepsFinals i w (followUpExec op w).2 := by
  have frame : ∀ {w' : FollowUpWorld}, SameFinals w w' → w'.followUps = w.followUps → w'.reminders = w.reminders → w.clock ≤ w'.clock →
      KeepsFinals i w w' := by
    intro w' same followUps reminders clock
    refine same.keeps inv ⟨fun f p => ?_, fun m mem => reminders ▸ mem, clock⟩ (followUps ▸ inv.orders)
    unfold KnownRow
    rw [followUps]
    exact id
  have same : KeepsFinals i w w := frame ⟨rfl, fun _ known => known, rfl, rfl, rfl, rfl, rfl⟩ rfl rfl (Nat.le_refl _)
  cases op with
  | now | lookupOrder | lookupConversation | publishOutbound | existsFollowUp | expiredOrders => exact same
  | tick later => exact frame ⟨rfl, fun _ known => known, rfl, rfl, rfl, rfl, rfl⟩ rfl rfl (Nat.le_add_right _ _)
  | recordLatePayment | rollback | scheduled =>
    exact frame ⟨rfl, fun _ known => known, rfl, rfl, rfl, rfl, rfl⟩ rfl rfl (Nat.le_refl _)
  | setName customerID name =>
    refine frame ⟨rfl, fun id known => ?_, rfl, rfl, rfl, rfl, rfl⟩ rfl rfl (Nat.le_refl _)
    simp only [followUpExec]
    rw [Table.find?_update, Option.isSome_map]
    exact known
  | insertOutboundRow run payload row =>
    simp only [followUpExec]
    cases inserted : insertOutboundRow row w with
    | error e => exact same
    | ok mid =>
      obtain ⟨messages, rfl⟩ := insertOutboundRow_ok inserted
      exact SameFinals.keeps ⟨rfl, fun _ known => known, rfl, rfl, rfl, rfl, rfl⟩ inv
        ⟨fun _ _ known => known, fun m mem => List.mem_cons_of_mem _ mem, Nat.le_refl _⟩ inv.orders
  | startTask run =>
    simp only [followUpExec]
    split
    · exact keepsFinals inv ⟨fun _ _ known => known, fun _ mem => mem, Nat.le_refl _⟩ inv.orders inv.payloads inv.keys
        (fun _ _ _ _ _ closed => closed) (fun _ mem => .inl mem) (fun _ mem => .inl mem) fun r mem _ => List.mem_cons_of_mem _ mem
    · exact same
  | begin tx =>
    simp only [followUpExec]
    split
    · exact frame ⟨rfl, fun _ known => known, rfl, rfl, rfl, rfl, rfl⟩ rfl rfl (Nat.le_refl _)
    · exact same
  | lockScanner tx =>
    simp only [followUpExec, withinTx]
    split
    · exact frame ⟨rfl, fun _ known => known, rfl, rfl, rfl, rfl, rfl⟩ rfl rfl (Nat.le_refl _)
    · exact same
  | due tx now =>
    simp only [followUpExec, withinTx]
    split <;> exact same
  | claim tx id now =>
    simp only [followUpExec, withinTx]
    split
    · split
      · exact frame ⟨rfl, fun _ known => known, rfl, rfl, rfl, rfl, rfl⟩ rfl rfl (Nat.le_refl _)
      · exact same
    · exact same
  | commit tx =>
    simp only [followUpExec, withinTx]
    split
    · rename_i t isOpen
      have payloads : ∀ r, payloadOf (ScheduledFollowUp.execute t.claimed r) = payloadOf r := by
        intro r
        unfold ScheduledFollowUp.execute
        split <;> rfl
      exact SameFinals.keeps ⟨rfl, fun _ known => known, rfl, rfl, rfl, rfl, rfl⟩ inv
        ⟨fun f p known => known_update rfl (ScheduledFollowUp.execute_id t.claimed) payloads known, fun _ mem => mem, Nat.le_refl _⟩
        (orders_update rfl (fun r => congrArg FollowUpPayload.orderID (payloads r)) inv)
    · exact same
  | cancelFollowUps orderID now =>
    exact SameFinals.keeps ⟨rfl, fun _ known => known, rfl, rfl, rfl, rfl, rfl⟩ inv
      ⟨fun f p known => known_update rfl (fun _ => rfl) (fun _ => rfl) known, fun _ mem => mem, Nat.le_refl _⟩ (orders_update rfl (fun _ => rfl) inv)
  | insertPair d first second =>
    rcases insertPair_cases d first second w with ⟨e, failed⟩ | ⟨mid, last, inserted, inserted', executed⟩
    · rw [failed]
      exact same
    · rw [executed]
      have before := SameFinals.insert (i := i) inv inserted
      have after := SameFinals.insert (i := i) before.inv inserted'
      refine (before.trans after).trans (SameFinals.keeps ⟨rfl, fun _ known => known, rfl, rfl, rfl, rfl, rfl⟩ after.inv ?_ after.inv.orders)
      exact ⟨fun _ _ known => known, fun _ mem => mem, Nat.le_refl _⟩
  | insertThird d row =>
    simp only [followUpExec]
    cases inserted : insertFollowUp row w with
    | error e => exact same
    | ok mid =>
      have before := SameFinals.insert (i := i) inv inserted
      refine before.trans (SameFinals.keeps ⟨rfl, fun _ known => known, rfl, rfl, rfl, rfl, rfl⟩ before.inv ?_ before.inv.orders)
      exact ⟨fun _ _ known => known, fun _ mem => mem, Nat.le_refl _⟩
  | insertDeliveryConfirmation row =>
    simp only [followUpExec]
    cases inserted : insertFollowUp row w with
    | error e => exact same
    | ok mid => exact SameFinals.insert inv inserted
  | cancelOrder orderID reason => exact keepsFinals_cancelOrder inv fun expired => (steady expired).elim
  | insertOrder o =>
    simp only [followUpExec]
    split
    · exact same
    · rename_i customer
      split
      · exact same
      · rename_i business
        split
        · rename_i orders inserted
          obtain ⟨-, rows⟩ := Table.insert_eq_some.1 inserted
          have grows : ∀ x ∈ w.orders.rows, x ∈ orders.rows := by
            intro x mem
            rw [rows]
            exact List.mem_append_left _ mem
          refine keepsFinals inv ⟨fun _ _ known => known, fun _ mem => mem, Nat.le_refl _⟩ (fun row mem => ?_) inv.payloads (fun x mem => ?_)
            (fun _ _ p _ _ closed => ?_) (fun _ mem => .inl mem) (fun _ mem => .inl mem) fun r mem _ => mem
          · obtain ⟨x, listed, named⟩ := inv.orders row mem
            exact ⟨x, grows x listed, named⟩
          · have mem : x ∈ orders.rows := mem
            rw [rows, List.mem_append, List.mem_singleton] at mem
            rcases mem with mem | rfl
            · exact inv.keys x mem
            · rw [Bool.not_eq_true, Option.isNone_eq_false_iff] at customer business
              exact ⟨customer, business⟩
          · obtain ⟨x, listed, holds⟩ := closed
            exact ⟨x, grows x listed, holds⟩
        · exact same
  | setStatus orderID status =>
    refine keepsFinals_setStatus inv rfl rfl rfl rfl rfl rfl rfl rfl rfl (fun _ mem => .inl mem) fun f pursued p known isFinal own closed => ?_
    rcases may.2 with stays | unpursued
    · rw [Bool.or_eq_true, Bool.not_eq_true'] at stays
      refine stays.resolve_right fun open' => ?_
      obtain ⟨o, listed, named, unpaid⟩ := closed
      rw [Table.find?_eq_some.2 ⟨listed, named⟩] at open'
      have open' : o.status.isOpen = true := open'
      rw [unpaid] at open'
      cases open'
    · obtain ⟨row, listed, rfl, rfl⟩ := known
      rcases unpursued row listed with other | other | other
      · exact (other own).elim
      · exact (other isFinal).elim
      · exact (other pursued).elim
  | enqueue | finishTask => exact steady.elim

/-- The task of a row that is known. -/
theorem keepsFinals_enqueue {tx f : String} {payload : FollowUpPayload} (inv : Finals w) (known : KnownRow f payload w) :
    KeepsFinals i w (followUpExec (.enqueue tx f payload) w).2 := by
  refine keepsFinals inv ⟨fun _ _ known => known, fun _ mem => mem, Nat.le_refl _⟩ inv.orders (fun g p n live => ?_) inv.keys
    (fun _ _ _ _ _ closed => closed) (fun _ mem => .inl mem) (fun _ mem => .inl mem) fun r mem _ => mem
  have live : (w.queue.enqueue (followUpTaskID f) payload).slot (followUpTaskID g) = .live p n := live
  by_cases same : g = f
  · subst same
    rcases w.queue.enqueue_cases (followUpTaskID g) payload with ⟨free, -⟩ | ⟨-, dropped⟩
    · rw [w.queue.enqueue_slot_of_free payload free] at live
      cases live
      exact known
    · rw [dropped] at live
      exact inv.payloads g p n live
  · rw [w.queue.enqueue_slot_of_ne payload fun task => same (followUpTaskID_injective task)] at live
    exact inv.payloads g p n live

/-- A run ends; where it succeeded, its follow-up is done. -/
theorem keepsFinals_finishTask {r : FollowUpRun} {success : Bool} (inv : Finals w)
    (done : success = true → r ∈ w.running → ∃ p, KnownRow r.followUp p w ∧ (p.jobType = finalReminder → Done p w.clock w)) :
    KeepsFinals (.run r) w (finishTask r success w) := by
  unfold finishTask
  split
  · rename_i active
    refine keepsFinals inv ⟨fun _ _ known => known, fun _ mem => mem, Nat.le_refl _⟩ inv.orders (fun f p n live => ?_) inv.keys
      (fun _ _ _ _ _ closed => closed) (fun s mem => ?_) (fun _ mem => .inl mem) fun r' mem other => ?_
    · cases slot : w.queue.slot (followUpTaskID r.followUp) with
      | free =>
        simp only [slot] at live
        exact inv.payloads f p n live
      | archived =>
        simp only [slot] at live
        exact inv.payloads f p n live
      | live payload retried =>
        simp only [slot] at live
        split at live
        · exact inv.payloads f p n (TaskQueue.live_of_complete live)
        · obtain ⟨m, before⟩ := TaskQueue.live_of_fail slot live
          exact inv.payloads f p m before
    · cases success with
      | false => exact .inl mem
      | true =>
        rcases List.mem_cons.1 mem with rfl | mem
        · exact .inr (done rfl active)
        · exact .inl mem
    · rw [List.mem_filter, decide_eq_true_eq]
      exact ⟨mem, fun same => other (same ▸ rfl)⟩
  · exact (SameFinals.mk rfl (fun _ known => known) rfl rfl rfl rfl rfl).keeps inv (.refl w) inv.orders

end Statements

/-! ## Handlers -/

section Handlers

variable {i : FollowUpName} {r : FollowUpRun} {fp : FollowUpPayload} {w : FollowUpWorld}

theorem safe_steady (op : FollowUpStmt) (steady : Steady op) :
    Safe pacedFlow finalProtocol i (fun _ _ => True) (call (I := followUpStore) op) w := by
  refine Safe.call (fun t _ inv may => ?_) (fun _ _ _ _ => trivial) fun _ _ _ _ => trivial
  have keeps : KeepsFinals i t (followUpExec op t).2 := keepsFinals_steady steady inv may
  exact ⟨keeps.inv, keeps.others, trivial, fun _ => trivial⟩

/-- The run is active for the payload of its row. -/
def Active (r : FollowUpRun) (fp : FollowUpPayload) (w : FollowUpWorld) : Prop := r ∈ w.running ∧ KnownRow r.followUp fp w

theorem Active.relies {t : FollowUpWorld} (h : Active r fp w) (rely : FinalRely (.run r) w t) : Active r fp t :=
  ⟨(rely.run r rfl h.1).1, rely.later.known _ _ h.2⟩

theorem Active.done {t : FollowUpWorld} (h : Active r fp w) (rely : FinalRely (.run r) w t) (isFinal : fp.jobType = finalReminder)
    (done : Done fp w.clock w) : Done fp t.clock t := by
  rcases done with ⟨m, written, content, before⟩ | closed
  · exact .inl ⟨m, rely.later.reminders m written, content, Nat.le_trans before rely.later.clock⟩
  · exact .inr ((rely.run r rfl h.1).2 fp h.2 isFinal closed)

/-- What a run promises: when it succeeds, its final reminder is done. -/
def Handled (r : FollowUpRun) (fp : FollowUpPayload) (result : Except FollowUpErr Unit) (w : FollowUpWorld) : Prop :=
  Active r fp w ∧ (result = .ok () → fp.jobType = finalReminder → Done fp w.clock w)

theorem Active.failed {e : FollowUpErr} (h : Active r fp w) : Handled r fp (.error e) w := ⟨h, fun absurd => nomatch absurd⟩

/-- A statement of a run that reads or writes nothing of its own. -/
theorem Active.safe_steady (op : FollowUpStmt) {Q : Except FollowUpErr op.Reply → FollowUpWorld → Prop} (h : Active r fp w) (steady : Steady op)
    (kept : ∀ t, (followUpExec op t).2.running = t.running)
    (replied : ∀ t, Finals t → pacedFlow.allow t op → Active r fp t → Active r fp (followUpExec op t).2 → Q (followUpExec op t).1 (followUpExec op t).2)
    (unreplied : ∀ t, Active r fp t → Q (.error (.db .transient)) t) :
    Safe pacedFlow finalProtocol (.run r) Q (call (I := followUpStore) op) w := by
  refine Safe.call (fun t rely inv may => ?_) (fun t rely _ _ => unreplied t (h.relies rely)) fun _ _ _ _ => trivial
  have keeps : KeepsFinals (.run r) t (followUpExec op t).2 := keepsFinals_steady steady inv may
  have here := h.relies rely
  have someone : FinalRely (.other 0) t (followUpExec op t).2 := keeps.others (.other 0) fun absurd => nomatch absurd
  have after : Active r fp (followUpExec op t).2 := ⟨(kept t).symm ▸ here.1, someone.later.known _ _ here.2⟩
  exact ⟨keeps.inv, keeps.others, replied t inv may here after, fun _ => unreplied _ after⟩

theorem reminderText_final {order : OrderLookup} (silent : reminderText finalReminder order = none) : order.status.isOpen = false := by
  unfold reminderText at silent
  simp only [finalReminder, String.reduceEq, if_false, if_true] at silent
  split at silent
  · cases silent
  · rename_i unpaid
    exact Bool.eq_false_iff.2 unpaid

/-- What a run learns of its order: it is there, and when it is not unpaid it stays so. -/
theorem Active.safe_lookupOrder (h : Active r fp w) : Safe pacedFlow finalProtocol (.run r)
    (Replied (fun found t => Active r fp t ∧ ∃ order, found = some order ∧ (order.status.isOpen = false → ClosedOrder fp.orderID t)) (Active r fp))
    (call (I := followUpStore) (.lookupOrder r fp.orderID)) w := by
  refine h.safe_steady (.lookupOrder r fp.orderID) trivial (fun _ => rfl) (fun t inv _ here _ => ?_) fun _ active => active
  obtain ⟨row, mem, named, rfl⟩ := here.2
  obtain ⟨o, listed, ordered⟩ := inv.orders row mem
  obtain ⟨customer, business⟩ := inv.keys o listed
  obtain ⟨c, customer⟩ := Option.isSome_iff_exists.1 customer
  obtain ⟨b, business⟩ := Option.isSome_iff_exists.1 business
  have found : t.orders.find? (payloadOf row).orderID = some o := Table.find?_eq_some.2 ⟨listed, ordered⟩
  simp only [followUpExec, lookupOrder, found, customer, business]
  cases c.name with
  | none => exact here
  | some name => exact ⟨here, _, rfl, fun unpaid => ⟨o, listed, ordered, unpaid⟩⟩

/-- A run that gets to write its row. -/
theorem Active.safe_insert {row : OutboundMessage} (h : Active r fp w) : Safe pacedFlow finalProtocol (.run r)
    (Replied (fun _ t => Active r fp t ∧ Done fp t.clock t) (Active r fp)) (call (I := followUpStore) (.insertOutboundRow r fp row)) w := by
  refine h.safe_steady (.insertOutboundRow r fp row) trivial (fun t => ?_) (fun t _ _ here after => ?_) fun _ active => active
  · simp only [followUpExec]
    cases inserted : insertOutboundRow row t with
    | error e => rfl
    | ok mid =>
      obtain ⟨messages, rfl⟩ := insertOutboundRow_ok inserted
      rfl
  · simp only [followUpExec] at after ⊢
    cases inserted : insertOutboundRow row t with
    | error e => exact here
    | ok mid =>
      obtain ⟨messages, rfl⟩ := insertOutboundRow_ok inserted
      simp only [inserted] at after
      exact ⟨after, .inl ⟨_, List.mem_cons_self, rfl, Nat.le_refl _⟩⟩

theorem Active.safe_sendReminder {publisher : Bool} {outboundID customerPhone text : String} (h : Active r fp w) :
    Safe pacedFlow finalProtocol (.run r) (Handled r fp) (sendReminder r publisher outboundID fp customerPhone text) w := by
  unfold sendReminder
  have lookup : Safe pacedFlow finalProtocol (.run r)
      (Replied (fun found t => Active r fp t ∧ (fp.jobType = finalReminder → found.isSome = true)) (Active r fp))
      (call (I := followUpStore) (.lookupConversation r fp.businessID customerPhone)) w := by
    refine h.safe_steady (.lookupConversation r fp.businessID customerPhone) trivial (fun _ => rfl) (fun t _ may here _ => ?_)
      fun _ active => active
    refine ⟨here, fun isFinal => ?_⟩
    obtain ⟨row, mem, named, content⟩ := here.2
    have runsFinal : isFinalRun r t = true := by
      unfold isFinalRun
      rw [Table.find?_eq_some.2 ⟨mem, named⟩]
      exact decide_eq_true ((congrArg FollowUpPayload.jobType content).trans isFinal)
    have found := may.2
    simp only [keepsPace, runsFinal] at found
    exact found
  refine Safe.bind ((Safe.mapErr_replied lookup).mono fun found t known => ?_)
  rcases found with e | ⟨_ | conversationID⟩
  · exact Active.failed known
  · exact ⟨known.1, fun _ isFinal => absurd (known.2 isFinal) Bool.false_ne_true⟩
  · refine Safe.bind ((Safe.mapErr_replied known.1.safe_insert).mono fun inserted t known => ?_)
    cases inserted with
    | error e => exact Active.failed known
    | ok _ =>
      obtain ⟨active, done⟩ := known
      cases publisher with
      | false => exact ⟨active, fun _ _ => done⟩
      | true =>
        have published : Safe pacedFlow finalProtocol (.run r) (Handled r fp) (call (I := followUpStore) (.publishOutbound r outboundID)) t := by
          refine Safe.call (fun t' rely inv _ => ?_) (fun _ rely _ _ => (active.relies rely).failed) fun _ _ _ _ => trivial
          refine ⟨inv, fun j _ => finalProtocol.refl j t', ⟨active.relies rely, fun _ isFinal => active.done rely isFinal done⟩, fun _ => ?_⟩
          exact (active.relies rely).failed
        refine Safe.mapErr (published.mono fun result t handled => ?_)
        cases result with
        | ok _ => exact handled
        | error e => exact handled.1.failed

theorem Active.safe_handleFollowUp {publisher : Bool} {outboundID : String} (h : Active r fp w) :
    Safe pacedFlow finalProtocol (.run r) (Handled r fp) (handleFollowUp r publisher outboundID fp) w := by
  unfold handleFollowUp
  refine Safe.bind ((Safe.mapErr_replied h.safe_lookupOrder).mono fun found t known => ?_)
  cases found with
  | error e => exact Active.failed known
  | ok found =>
    obtain ⟨active, order, rfl, closed⟩ := known
    simp only
    cases text : reminderText fp.jobType order with
    | none =>
      refine ⟨active, fun _ isFinal => .inr (closed ?_)⟩
      rw [isFinal] at text
      exact reminderText_final text
    | some said =>
      obtain ⟨text, late⟩ := said
      cases late with
      | false => exact active.safe_sendReminder
      | true =>
        have counts : Safe pacedFlow finalProtocol (.run r) (fun _ => Active r fp) (call (I := followUpStore) (.recordLatePayment fp.customerID)) t :=
          active.safe_steady (.recordLatePayment fp.customerID) trivial (fun _ => rfl) (fun _ _ _ _ after => after) fun _ active => active
        exact Safe.bind (Safe.bind (Safe.attempt (counts.mono fun _ _ active => active.safe_sendReminder)))

theorem safe_paced_finish {success : Bool} {result : Except FollowUpErr Unit} (h : Handled r fp result w)
    (same : success = true → result = .ok ()) :
    Safe pacedFlow finalProtocol (.run r) (fun _ _ => True) (call (I := followUpStore) (.finishTask r success)) w := by
  refine Safe.call (fun t rely inv _ => ?_) (fun _ _ _ _ => trivial) fun _ _ _ _ => trivial
  have keeps : KeepsFinals (.run r) t (finishTask r success t) := by
    refine keepsFinals_finishTask inv fun succeeds _ => ⟨fp, (h.1.relies rely).2, fun isFinal => ?_⟩
    exact h.1.done rely isFinal (h.2 (same succeeds) isFinal)
  exact ⟨keeps.inv, keeps.others, trivial, fun _ => trivial⟩

theorem safe_paced_fail : Safe pacedFlow finalProtocol (.run r) (fun _ _ => True) (call (I := followUpStore) (.finishTask r false)) w := by
  refine Safe.call (fun t _ inv _ => ?_) (fun _ _ _ _ => trivial) fun _ _ _ _ => trivial
  have keeps : KeepsFinals (.run r) t (finishTask r false t) := keepsFinals_finishTask inv fun absurd => nomatch absurd
  exact ⟨keeps.inv, keeps.others, trivial, fun _ => trivial⟩

theorem safe_paced_start : Safe pacedFlow finalProtocol (.run r) (Replied (Active r) fun _ => True) (call (I := followUpStore) (.startTask r)) w := by
  refine Safe.call (fun t _ inv may => ?_) (fun _ _ _ _ => trivial) fun _ _ _ _ => trivial
  have keeps : KeepsFinals (.run r) t (followUpExec (.startTask r) t).2 := keepsFinals_steady trivial inv may
  refine ⟨keeps.inv, keeps.others, ?_, fun _ => trivial⟩
  simp only [pacedFlow, followUpExec]
  cases slot : t.queue.slot (followUpTaskID r.followUp) with
  | live payload retried => exact ⟨List.mem_cons_self, inv.payloads _ _ _ slot⟩
  | free => trivial
  | archived => trivial

theorem safe_paced_task {publisher : Bool} {outboundID : String} :
    Safe pacedFlow finalProtocol (.run r) (fun _ _ => True) (followUpTask r publisher outboundID) w := by
  unfold followUpTask
  refine Safe.bind (safe_paced_start.mono fun started t active => ?_)
  cases started with
  | error e => trivial
  | ok fp =>
    refine Safe.bind (Safe.attempt ((Active.safe_handleFollowUp active).mono fun result t handled => ?_))
    refine safe_paced_finish handled fun succeeds => ?_
    cases result with
    | ok _ => rfl
    | error e => cases succeeds

/-! ## Sweeps -/

/-- The rows of a list are known. -/
def AllKnown (rows : List ScheduledFollowUp) (w : FollowUpWorld) : Prop := ∀ d ∈ rows, KnownRow d.id (payloadOf d) w

theorem AllKnown.relies {rows : List ScheduledFollowUp} {t : FollowUpWorld} (h : AllKnown rows w) (rely : FinalRely i w t) : AllKnown rows t :=
  fun d mem => rely.later.known _ _ (h d mem)

theorem safe_due {tx : String} {now : Nat} : Safe pacedFlow finalProtocol i (Replied AllKnown fun _ => True)
    (call (I := followUpStore) (.due tx now)) w := by
  refine Safe.call (fun t _ inv may => ?_) (fun _ _ _ _ => trivial) fun _ _ _ _ => trivial
  have keeps : KeepsFinals i t (followUpExec (.due tx now) t).2 := keepsFinals_steady trivial inv may
  refine ⟨keeps.inv, keeps.others, ?_, fun _ => trivial⟩
  simp only [pacedFlow, followUpExec, withinTx]
  split
  · intro d mem
    have listed := (List.mem_insertionSort _).1 (List.mem_of_mem_take mem)
    exact ⟨d, (List.mem_filter.1 listed).1, rfl, rfl⟩
  · trivial

theorem safe_paced_claimDue {tx : String} {publisher : Bool} {now : Nat} {rows : List ScheduledFollowUp} (h : AllKnown rows w) :
    Safe pacedFlow finalProtocol i (fun _ _ => True) (claimDue tx publisher now rows) w := by
  induction rows generalizing w with
  | nil => trivial
  | cons d rest ih =>
    have claims : Safe pacedFlow finalProtocol i (fun _ => AllKnown (d :: rest)) (call (I := followUpStore) (.claim tx d.id now)) w := by
      refine Safe.call (fun t rely inv may => ?_) (fun _ rely _ _ => h.relies rely) fun _ _ _ _ => trivial
      have keeps : KeepsFinals i t (followUpExec (.claim tx d.id now) t).2 := keepsFinals_steady trivial inv may
      have after : AllKnown (d :: rest) (followUpExec (.claim tx d.id now) t).2 := by
        have here := h.relies rely
        simp only [followUpExec, withinTx]
        split
        · split <;> exact here
        · exact here
      exact ⟨keeps.inv, keeps.others, after, fun _ => after⟩
    unfold claimDue
    refine Safe.bind ((Safe.mapErr (Q := fun _ => AllKnown (d :: rest)) claims).mono fun claimed t known => ?_)
    have later : AllKnown rest t := fun x mem => known x (List.mem_cons_of_mem _ mem)
    cases claimed with
    | error e => trivial
    | ok claimed =>
      simp only
      split
      · have enqueues : Safe pacedFlow finalProtocol i (fun _ => AllKnown rest) (call (I := followUpStore) (.enqueue tx d.id (payloadOf d))) t := by
          refine Safe.call (fun t' rely inv _ => ?_) (fun _ rely _ _ => later.relies rely) fun _ _ _ _ => trivial
          have keeps : KeepsFinals i t' (followUpExec (.enqueue tx d.id (payloadOf d)) t').2 :=
            keepsFinals_enqueue inv (known.relies rely d List.mem_cons_self)
          have after : AllKnown rest t' := later.relies rely
          exact ⟨keeps.inv, keeps.others, after, fun _ => after⟩
        exact Safe.bind (Safe.bind (Safe.attempt (enqueues.mono fun _ _ known => ih known)))
      · exact ih later

theorem safe_paced_sweep {tx : String} {publisher : Bool} :
    Safe pacedFlow finalProtocol i (fun _ _ => True) (sweepFollowUps tx publisher) w := by
  unfold sweepFollowUps
  refine Safe.bind ((safe_steady .now trivial).mono fun clock t _ => ?_)
  cases clock with
  | error e => trivial
  | ok now =>
    refine Safe.bind ((Safe.mapErr (Q := fun _ _ => True) (safe_steady (.begin tx) trivial)).mono fun begun t _ => ?_)
    cases begun with
    | error e => trivial
    | ok _ =>
      have body : Safe pacedFlow finalProtocol i (fun _ _ => True) (sweepDue tx publisher now) t := by
        unfold sweepDue
        refine Safe.bind ((Safe.mapErr (Q := fun _ _ => True) (safe_steady (.lockScanner tx) trivial)).mono fun locked t _ => ?_)
        cases locked with
        | error e => trivial
        | ok _ =>
          refine Safe.bind ((Safe.mapErr_replied safe_due).mono fun rows t known => ?_)
          cases rows with
          | error e => trivial
          | ok rows =>
            refine Safe.bind ((safe_paced_claimDue known).mono fun claimed t _ => ?_)
            cases claimed with
            | error e => trivial
            | ok _ => exact Safe.mapErr (safe_steady (.commit tx) trivial)
      refine Safe.bind (Safe.attempt (body.mono fun swept t _ => ?_))
      cases swept with
      | ok _ => trivial
      | error e => exact Safe.bind (Safe.bind (Safe.attempt ((safe_steady (.rollback tx) trivial).mono fun _ _ _ => trivial)))

/-- The orders of a list had their final reminder a day before `now`, which has passed. -/
def AllCovered (orderIDs : List String) (now : Nat) (w : FollowUpWorld) : Prop := now ≤ w.clock ∧ ∀ o ∈ orderIDs, Covered o now w

theorem AllCovered.relies {orderIDs : List String} {now : Nat} {t : FollowUpWorld} (h : AllCovered orderIDs now w) (rely : FinalRely i w t) :
    AllCovered orderIDs now t :=
  ⟨Nat.le_trans h.1 rely.later.clock, fun o mem => rely.later.covered (h.2 o mem)⟩

theorem safe_cancelExpiredOrders {orderIDs : List String} {now : Nat} (h : AllCovered orderIDs now w) :
    Safe pacedFlow finalProtocol i (fun _ _ => True) (cancelExpiredOrders orderIDs) w := by
  induction orderIDs generalizing w with
  | nil => trivial
  | cons orderID rest ih =>
    have later : ∀ {t}, AllCovered (orderID :: rest) now t → AllCovered rest now t := fun h => ⟨h.1, fun o mem => h.2 o (List.mem_cons_of_mem _ mem)⟩
    have cancels : Safe pacedFlow finalProtocol i (fun _ => AllCovered rest now)
        (call (I := followUpStore) (.cancelOrder orderID "checkout_expired")) w := by
      refine Safe.call (fun t rely inv _ => ?_) (fun _ rely _ _ => later (h.relies rely)) fun _ _ _ _ => trivial
      have here := h.relies rely
      have covered : Covered orderID t.clock t := by
        obtain ⟨m, written, own, kind, old⟩ := here.2 orderID List.mem_cons_self
        exact ⟨m, written, own, kind, Nat.le_trans old here.1⟩
      have keeps : KeepsFinals i t (cancelOrder orderID "checkout_expired" t) := keepsFinals_cancelOrder inv fun _ => covered
      have after : AllCovered rest now (cancelOrder orderID "checkout_expired" t) := by
        unfold cancelOrder
        split <;> exact later here
      exact ⟨keeps.inv, keeps.others, after, fun _ => after⟩
    unfold cancelExpiredOrders
    exact Safe.bind (Safe.bind (Safe.attempt (cancels.mono fun _ _ covered => ih covered)))

/-- What a scan selects: unpaid orders whose final reminder succeeded by the cutoff, so that there is one. -/
theorem covered_of_expired {now : Nat} {orderID : String} (inv : Finals w) (pace : keepsPace w (.expiredOrders (now - checkoutExpiryGrace)))
    (mem : orderID ∈ expiredOrders (now - checkoutExpiryGrace) w) : Covered orderID now w := by
  obtain ⟨o, listed, mem⟩ := List.mem_flatMap.1 (List.mem_of_mem_take mem)
  obtain ⟨f, selected, rfl⟩ := List.mem_map.1 mem
  obtain ⟨order, unpaid⟩ := List.mem_filter.1 ((List.mem_insertionSort _).1 listed)
  obtain ⟨row, expires⟩ := List.mem_filter.1 selected
  rcases pace o order f row with absurd | ⟨s, succeeded, named, before⟩
  · rw [unpaid, expires] at absurd
    cases absurd
  · unfold ScheduledFollowUp.expires at expires
    rw [Bool.and_eq_true, Bool.and_eq_true, decide_eq_true_eq, decide_eq_true_eq] at expires
    obtain ⟨p, ⟨row', known, id', rfl⟩, done⟩ := inv.succeeded s succeeded
    obtain rfl : row' = f := Table.eq_of_key known row (id'.trans named)
    rcases done expires.1.2 with ⟨m, written, content, old⟩ | ⟨o', order', named', closed⟩
    · refine ⟨m, written, ?_, ?_, by omega⟩
      · rw [content]
        exact expires.1.1
      · rw [content]
        exact expires.1.2
    · obtain rfl : o' = o := Table.eq_of_key order' order (named'.trans expires.1.1)
      rw [closed] at unpaid
      cases unpaid

theorem safe_sweepExpiredOrders : Safe pacedFlow finalProtocol i (fun _ _ => True) sweepExpiredOrders w := by
  have clock : Safe pacedFlow finalProtocol i (Replied (fun now t => now ≤ t.clock) fun _ => True) (call (I := followUpStore) .now) w := by
    refine Safe.call (fun t _ inv _ => ?_) (fun _ _ _ _ => trivial) fun _ _ _ _ => trivial
    exact ⟨inv, fun j _ => finalProtocol.refl j t, Nat.le_refl t.clock, fun _ => trivial⟩
  unfold sweepExpiredOrders
  refine Safe.bind (clock.mono fun now t passed => ?_)
  cases now with
  | error e => trivial
  | ok now =>
    have scans : Safe pacedFlow finalProtocol i (Replied (fun orderIDs t => AllCovered orderIDs now t) fun _ => True)
        (call (I := followUpStore) (.expiredOrders (now - checkoutExpiryGrace))) t := by
      refine Safe.call (fun t' rely inv may => ?_) (fun _ _ _ _ => trivial) fun _ _ _ _ => trivial
      refine ⟨inv, fun j _ => finalProtocol.refl j t', ⟨Nat.le_trans passed rely.later.clock, fun o mem => ?_⟩, fun _ => trivial⟩
      exact covered_of_expired inv may.2 mem
    refine Safe.bind (scans.mono fun orderIDs t covered => ?_)
    cases orderIDs with
    | error e => trivial
    | ok orderIDs => exact safe_cancelExpiredOrders covered

/-! ## Every run -/

theorem steady_of_outside {op : FollowUpStmt} (outside : Outside op) : Steady op := by
  cases op with
  | cancelOrder orderID reason => exact outside
  | enqueue | finishTask => exact outside
  | _ => trivial

theorem safe_pacedJob {p : FollowUpHandler Unit} (may : FollowUpJob i p) : Safe pacedFlow finalProtocol i (fun _ _ => True) p w := by
  cases may with
  | task r publisher outboundID => exact safe_paced_task
  | limited r =>
    refine Safe.bind (safe_paced_start.mono fun started t _ => ?_)
    cases started with
    | error e => trivial
    | ok fp => exact safe_paced_fail
  | recover r => exact safe_paced_fail
  | sweep tx publisher => exact safe_paced_sweep
  | schedule d evt ids own =>
    unfold deliverSchedule handleFollowUpSchedule
    refine Safe.of_uses (A := Steady) ?_ (fun op t steady inv may => ?_) fun _ => trivial
    · refine Uses.bind ((uses_call.2 trivial).bind fun found => ?_) fun _ => uses_call.2 trivial
      split
      · trivial
      · refine (uses_call.2 trivial).bind fun now => ?_
        exact (Uses.mapErr (uses_call.2 trivial)).bind fun _ => Uses.mapErr (uses_call.2 trivial)
    · have keeps : KeepsFinals (.delivery d) t (followUpExec op t).2 := keepsFinals_steady steady inv may
      exact ⟨keeps.inv, keeps.others⟩
  | expiry n => exact safe_sweepExpiredOrders
  | other n op outside =>
    exact Safe.bind (Safe.attempt ((safe_steady op (steady_of_outside outside)).mono fun _ _ _ => trivial))

end Handlers

/-- The references of the tables hold, and no task was enqueued, run or acted on yet. -/
structure Idle (w : FollowUpWorld) : Prop where
  slots : ∀ f, w.queue.slot (followUpTaskID f) = .free
  orders : ∀ row ∈ w.followUps.rows, ∃ o ∈ w.orders.rows, o.id = row.orderID
  keys : ∀ o ∈ w.orders.rows, Keyed w o
  succeeded : w.succeeded = []
  cancellations : w.cancellations = []

/-- Where final reminders keep pace with the scans, an order that expires has had its final reminder for a day. -/
theorem expired_after_final_reminder {w : FollowUpWorld} {c : Crew followUpStore FollowUpName FollowUpWorld} (start : Idle w)
    (reach : pacedFlow.Reach ⟨w, []⟩ c) :
    ∀ x ∈ c.state.cancellations, x.reason = "checkout_expired" →
      ∃ m ∈ c.state.reminders, m.payload.orderID = x.orderID ∧ m.payload.jobType = "unpaid-invoice-second" ∧
        m.createdAt + checkoutExpiryGrace ≤ x.time := by
  have first : Finals w := by
    refine ⟨fun f p n live => ?_, start.orders, start.keys, fun s mem => ?_, fun x mem => ?_⟩
    · rw [start.slots f] at live
      cases live
    · rw [start.succeeded] at mem
      cases mem
    · rw [start.cancellations] at mem
      cases mem
  have inv : Finals c.state := Protocol.invariant (P := finalProtocol) (fun i p s may _ _ => safe_pacedJob may) reach first fun _ => trivial
  exact inv.cancelled

/-- An order whose final reminder is due. -/
def overdue (name : Option String) : FollowUpWorld := storeOf name ⟨[dueRow "f1" finalReminder], by decide⟩

theorem overdue_idle (name : Option String) : Idle (overdue name) := by
  refine ⟨fun _ => rfl, fun row mem => ?_, fun o mem => ?_, rfl, rfl⟩
  · obtain rfl := List.mem_singleton.1 mem
    exact ⟨_, List.mem_cons_self, rfl⟩
  · obtain rfl := List.mem_singleton.1 mem
    exact ⟨rfl, rfl⟩

/-- A day passes. -/
def oneDay : FollowUpHandler Unit := ignore (attempt (call (I := followUpStore) (.tick checkoutExpiryGrace)))

/-- The row is claimed. -/
def claimedFinal (name : Option String) : FollowUpWorld := ((sweepFollowUps "t1" true).run followUpExec (overdue name)).2

/-- The row is claimed and its task is run. -/
def afterRun (name : Option String) : FollowUpWorld := ((followUpTask ⟨0, "f1"⟩ true "m1").run followUpExec (claimedFinal name)).2

/-- A day later. -/
def nextDay (name : Option String) : FollowUpWorld := (oneDay.run followUpExec (afterRun name)).2

/-- The scan of the next day. -/
def expired (name : Option String) : FollowUpWorld := (sweepExpiredOrders.run followUpExec (nextDay name)).2

/-- The reminder goes out at once, and the order expires a day later. -/
theorem expired_after_final_reminder_ama : (expired (some "Ama")).cancellations = [⟨"o1", "checkout_expired", checkoutExpiryGrace⟩] ∧
    ∃ m ∈ (expired (some "Ama")).reminders, m.payload.orderID = "o1" ∧ m.payload.jobType = "unpaid-invoice-second" ∧
      m.createdAt + checkoutExpiryGrace ≤ checkoutExpiryGrace := by
  have claimed : pacedFlow.Reach ⟨overdue (some "Ama"), []⟩ ⟨claimedFinal (some "Ama"), []⟩ :=
    pacedFlow.reach_job (i := .sweep "t1") (.sweep "t1" true) (by decide +kernel)
  have ran : pacedFlow.Reach ⟨claimedFinal (some "Ama"), []⟩ ⟨afterRun (some "Ama"), []⟩ :=
    pacedFlow.reach_job (i := .run ⟨0, "f1"⟩) (.task ⟨0, "f1"⟩ true "m1") (by decide +kernel)
  have passed : pacedFlow.Reach ⟨afterRun (some "Ama"), []⟩ ⟨nextDay (some "Ama"), []⟩ :=
    pacedFlow.reach_job (i := .other 0) (.other 0 _ trivial) (by decide +kernel)
  have scanned : pacedFlow.Reach ⟨nextDay (some "Ama"), []⟩ ⟨expired (some "Ama"), []⟩ :=
    pacedFlow.reach_job (i := .expiry 0) (.expiry 0) (by decide +kernel)
  have cancellations : (expired (some "Ama")).cancellations = [⟨"o1", "checkout_expired", checkoutExpiryGrace⟩] := by decide +kernel
  refine ⟨cancellations, ?_⟩
  exact expired_after_final_reminder (overdue_idle (some "Ama")) (((claimed.trans ran).trans passed).trans scanned) _
    (cancellations ▸ List.mem_singleton_self _) rfl

/-- A customer without a name gets no reminder, whose task fails; the order expires all the same. -/
theorem expired_without_final_reminder : ¬ ∀ c : Crew followUpStore FollowUpName FollowUpWorld, followUpFlow.Reach ⟨overdue none, []⟩ c →
    ∀ x ∈ c.state.cancellations, x.reason = "checkout_expired" →
      ∃ m ∈ c.state.reminders, m.payload.orderID = x.orderID ∧ m.payload.jobType = "unpaid-invoice-second" ∧
        m.createdAt + checkoutExpiryGrace ≤ x.time := by
  intro reminded
  have claimed : followUpFlow.Reach ⟨overdue none, []⟩ ⟨claimedFinal none, []⟩ :=
    followUpFlow.reach_job (i := .sweep "t1") (.sweep "t1" true) (by decide +kernel)
  have ran : followUpFlow.Reach ⟨claimedFinal none, []⟩ ⟨afterRun none, []⟩ :=
    followUpFlow.reach_job (i := .run ⟨0, "f1"⟩) (.task ⟨0, "f1"⟩ true "m1") (by decide +kernel)
  have passed : followUpFlow.Reach ⟨afterRun none, []⟩ ⟨nextDay none, []⟩ :=
    followUpFlow.reach_job (i := .other 0) (.other 0 _ trivial) (by decide +kernel)
  have scanned : followUpFlow.Reach ⟨nextDay none, []⟩ ⟨expired none, []⟩ :=
    followUpFlow.reach_job (i := .expiry 0) (.expiry 0) (by decide +kernel)
  have cancellations : (expired none).cancellations = [⟨"o1", "checkout_expired", checkoutExpiryGrace⟩] := by decide +kernel
  have reminders : (expired none).reminders = [] := by decide +kernel
  obtain ⟨m, written, -⟩ := reminded _ (((claimed.trans ran).trans passed).trans scanned) _ (cancellations ▸ List.mem_singleton_self _) rfl
  rw [reminders] at written
  cases written

end NovoApex.FollowUps
