import NovoApex.Handlers.WebhooksPayments
import NovoApex.Orders.OneOrder
import NovoApex.Payments.Recording

/-!
# The events of one reference

The ingest and the worker both recognise an event by its reference alone. So of
all events of an order's reference the first one that does anything decides: it
writes the payments row, or it keeps failing and blocks the task id, as one does that
`ParseWebhookEvent` cannot decode. A successful charge settles the order exactly when
it is that event.
-/

namespace NovoApex.Payments
set_option autoImplicit false
open Lib Program Workers Paystack Handlers Orders

/-- The order is paid and its successful payment recorded. -/
def Settled (orderID : String) (db : Database) : Prop :=
  (∃ o ∈ db.orders.rows, o.id = orderID ∧ o.status = .paid) ∧
    ∃ p ∈ db.payments.rows, p.externalReference = some orderID ∧ p.status = .success

/-- An order that waits for its payment, none recorded under its id. -/
structure Awaiting (o : Order) (db : Database) : Prop where
  mem : o ∈ db.orders.rows
  named : o.id ≠ ""
  confirmed : o.status = .confirmed
  unpaid : ∀ p ∈ db.payments.rows, p.externalReference ≠ some o.id
  references : ReferencesHold db

/-- The event is a successful charge over 100 times the order's total in minor units. -/
def MatchingSuccess (o : Order) (evt : NormalisedPaymentEvent) : Prop :=
  evt.event = "charge.success" ∧ (evt.amountMinor.toInt : ℚ) = 100 * o.totalAmount.toDecimal

/-- The event does something: it is over the order's total, or its payer's phone matches an order or a customer or
cannot be looked up. -/
def effective (o : Order) (db : Database) (evt : NormalisedPaymentEvent) : Bool :=
  decide (o.totalAmount.toDecimal = amountOf evt) || decide (phoneVerdict (phoneDecision evt db) ≠ .unknown)

section Event

variable {o : Order} {db : Database} {evt : NormalisedPaymentEvent} {a : Attempt}

theorem matchingSuccess_amount : (evt.amountMinor.toInt : ℚ) = 100 * o.totalAmount.toDecimal ↔
    o.totalAmount.toDecimal = amountOf evt := by
  unfold amountOf fromMinorUnits
  constructor
  · intro h
    linarith
  · intro h
    linarith

theorem Awaiting.unrecorded (h : Awaiting o db) (ref : evt.reference = o.id) : ¬ recorded evt db := by
  rintro ⟨-, found⟩
  unfold paymentByReference at found
  rw [Option.isSome_map, List.find?_isSome] at found
  obtain ⟨p, hp, same⟩ := found
  exact h.unpaid p hp (ref ▸ of_decide_eq_true same)

/-- A match leaves the orders its settlement leaves, and one payments row more. -/
theorem run_match (a : Attempt) {r : Order} (customerID businessID : String) (hr : r ∈ db.orders.rows)
    (total : r.totalAmount.toDecimal = amountOf evt) (unrecorded : ¬ recorded evt db)
    (fresh : ∀ p ∈ db.payments.rows, p.id ≠ a.paymentID) (business : (db.businesses.find? businessID).isSome = true)
    (customer : (db.customers.find? customerID).isSome = true) :
    (((Verdict.settle r.id customerID businessID).program evt a).run exec db).2.orders = (settled evt.status r a.now db).orders ∧
      (((Verdict.settle r.id customerID businessID).program evt a).run exec db).2.payments.rows = db.payments.rows ++
        [paymentRow evt a businessID ⟨some customerID, some businessID, some r.id⟩ r.totalAmount] := by
  have fits : Numeric.ofDecimal (amountOf evt) = some r.totalAmount := total ▸ Numeric.ofDecimal_toDecimal _
  obtain ⟨orders, conversations, domainEvents, frame⟩ := settled_frame evt.status r a.now db
  obtain ⟨r', hr', rid⟩ := (mem_settled evt.status r a.now hr).2
  rw [frame] at hr' ⊢
  have guarded : Guarded exec False (fun _ => True) (fun _ s => s.orders = orders ∧ s.payments.rows = db.payments.rows ++
      [paymentRow evt a businessID ⟨some customerID, some businessID, some r.id⟩ r.totalAmount])
      ((Verdict.settle r.id customerID businessID).program evt a) db := by
    refine guarded_match hr trivial False.elim (fun _ => ⟨trivial, False.elim⟩) frame trivial False.elim trivial False.elim ?_
    obtain ⟨payments, eq, rows⟩ := exec_insertPayment evt a businessID ⟨some customerID, some businessID, some r.id⟩
      (cancelFollowUps r.id a.now { db with orders := orders, conversations := conversations, domainEvents := domainEvents })
      fits fresh unrecorded ⟨fun _ same => Option.some.inj same ▸ business, fun _ same => Option.some.inj same ▸ customer,
        fun _ same => Option.isSome_iff_exists.2 ⟨r', Table.find?_eq_some.2 ⟨hr', rid.trans (Option.some.inj same)⟩⟩⟩
    rw [eq]
    refine (guarded_afterPayment evt a businessID _ _).mono (fun _ _ => trivial) fun _ s same => ⟨same.orders, ?_⟩
    rw [same.payments]
    exact rows
  exact guarded.run

/-- An order that still waits is not settled. -/
theorem Awaiting.not_settled_of_mem {db' : Database} (h : Awaiting o db) (kept : o ∈ db'.orders.rows) : ¬ Settled o.id db' := by
  rintro ⟨⟨o', ho', same, paid⟩, -⟩
  have := Table.eq_of_key ho' kept same
  rw [this, h.confirmed] at paid
  cases paid

theorem Awaiting.externalReference (h : Awaiting o db) (ref : evt.reference = o.id) (businessID : String) (m : Attribution)
    (amount : Money) : (paymentRow evt a businessID m amount).externalReference = some o.id := by
  show crmText evt.reference = some o.id
  rw [ref, crmText, if_neg h.named]

/-- The row an event of the order leaves is under its id. -/
theorem Awaiting.recordedUnder {db' : Database} {m : Attribution} {businessID : String} {amount : Money} (h : Awaiting o db)
    (ref : evt.reference = o.id) (rows : db'.payments.rows = db.payments.rows ++ [paymentRow evt a businessID m amount]) :
    ∃ p ∈ db'.payments.rows, p.externalReference = some o.id := by
  refine ⟨paymentRow evt a businessID m amount, ?_, h.externalReference ref _ _ _⟩
  rw [rows]
  exact List.mem_append_right _ (List.mem_singleton_self _)

/-- The event that pays the order settles it, and no other event over its total does. -/
theorem Awaiting.settled_iff {db' : Database} {m : Attribution} {businessID : String} {amount : Money} (h : Awaiting o db)
    (ref : evt.reference = o.id) (orders : db'.orders = (settled evt.status o a.now db).orders)
    (rows : db'.payments.rows = db.payments.rows ++ [paymentRow evt a businessID m amount]) :
    Settled o.id db' ↔ evt.status = .success := by
  constructor
  · rintro ⟨-, p, hp, refp, success⟩
    rw [rows] at hp
    rcases List.mem_append.1 hp with hp | hp
    · exact (h.unpaid p hp refp).elim
    · obtain rfl := List.mem_singleton.1 hp
      have mapped : paymentStatusFor evt.status = .success := success
      revert mapped
      cases evt.status <;> simp [paymentStatusFor]
  · intro success
    have settles := settled_orders evt.status o a.now db
    rw [success] at settles
    rcases settles with ⟨-, settles⟩ | ⟨absurd, -⟩
    · refine ⟨⟨{ o with status := .paid, updatedAt := a.now }, ?_, rfl, rfl⟩, paymentRow evt a businessID m amount, ?_,
        h.externalReference ref _ _ _, ?_⟩
      · rw [orders, success, settles]
        exact mem_setStatus.2 (.inr ⟨o, h.mem, decide_eq_true rfl, rfl⟩)
      · rw [rows]
        exact List.mem_append_right _ (List.mem_singleton_self _)
      · show paymentStatusFor evt.status = .success
        rw [success]
        rfl
    · cases absurd

/-- What an attempt at an event of the order leaves while no payment is recorded. -/
inductive FirstOutcome (o : Order) (db : Database) (evt : NormalisedPaymentEvent) : Except Err Unit × Database → Prop where
  /-- The event meant nothing. -/
  | inert (idle : effective o db evt = false) : FirstOutcome o db evt (.ok (), db)
  /-- The event cannot be processed and is retried. -/
  | blocked (e : Err) (acts : effective o db evt = true) (other : ¬ MatchingSuccess o evt) : FirstOutcome o db evt (.error e, db)
  /-- The event is recorded under the reference. -/
  | recorded {r : Except Err Unit} {db' : Database} (acts : effective o db evt = true)
      (paid : ∃ p ∈ db'.payments.rows, p.externalReference = some o.id)
      (settles : Settled o.id db' ↔ MatchingSuccess o evt) : FirstOutcome o db evt (r, db')

/-- A credited customer has the payment recorded, or the insert is refused and nothing is written. -/
theorem Awaiting.outcome_credit {customerID businessID : String} (h : Awaiting o db) (ref : evt.reference = o.id)
    (fresh : ∀ p ∈ db.payments.rows, p.id ≠ a.paymentID) (acts : effective o db evt = true) (other : ¬ MatchingSuccess o evt) :
    FirstOutcome o db evt (((Verdict.credit customerID businessID).program evt a).run exec db) := by
  have guarded : Guarded exec False (fun _ => True) (fun r s => FirstOutcome o db evt (r, s))
      (recordPayment evt a ⟨some customerID, some businessID, none⟩) db := by
    refine guarded_recordPayment rfl trivial False.elim trivial False.elim ?_
    by_cases fits : ∃ amount : Money, Numeric.ofDecimal (amountOf evt) = some amount ∧
        PaymentRefers (paymentInsertOf evt a businessID ⟨some customerID, some businessID, none⟩) db
    · obtain ⟨amount, fits, refers⟩ := fits
      obtain ⟨payments, eq, rows⟩ := exec_insertPayment evt a businessID ⟨some customerID, some businessID, none⟩ db fits fresh
        (h.unrecorded ref) refers
      show Guarded exec False _ _ (afterInsert evt a businessID _ (exec (.insertPayment _) db).1) (exec (.insertPayment _) db).2
      rw [eq]
      refine (guarded_afterPayment evt a businessID _ _).mono (fun _ _ => trivial) fun r s same => ?_
      have appended : s.payments.rows = db.payments.rows ++
          [paymentRow evt a businessID ⟨some customerID, some businessID, none⟩ amount] := by
        rw [same.payments]
        exact rows
      exact .recorded acts (h.recordedUnder ref appended) (iff_of_false (h.not_settled_of_mem (same.orders ▸ h.mem)) other)
    · obtain ⟨e, notUnique, eq⟩ := exec_insertPayment_refused evt a businessID ⟨some customerID, some businessID, none⟩ db fresh
        (h.unrecorded ref) fun amount fit refers => fits ⟨amount, fit, refers⟩
      show Guarded exec False _ _ (afterInsert evt a businessID _ (exec (.insertPayment _) db).1) (exec (.insertPayment _) db).2
      rw [eq]
      cases e with
      | uniqueViolation constraint => exact (notUnique constraint rfl).elim
      | _ => exact .blocked _ acts other
  exact guarded.run

/-- What an attempt at one of the order's events can do while none is recorded. -/
theorem Awaiting.outcome (h : Awaiting o db) (ref : evt.reference = o.id) (parsed : evt.status = statusOfEvent evt.event)
    (fresh : ∀ p ∈ db.payments.rows, p.id ≠ a.paymentID) :
    FirstOutcome o db evt ((handlePaymentEvent evt a).run exec db) := by
  rw [run_handlePaymentEvent, verdict_of_order h.mem ref h.named (h.unrecorded ref) (h.references.orderCustomer o h.mem)]
  by_cases total : o.totalAmount.toDecimal = amountOf evt
  · rw [if_pos total]
    obtain ⟨orders, rows⟩ := run_match a o.customerID o.businessID h.mem total (h.unrecorded ref) fresh
      (h.references.orderBusiness o h.mem) (h.references.orderCustomer o h.mem)
    refine .recorded (by simp [effective, total]) (h.recordedUnder ref rows) ?_
    rw [h.settled_iff ref orders rows, parsed, statusOfEvent_eq_success]
    exact ⟨fun success => ⟨success, matchingSuccess_amount.2 total⟩, fun success => success.1⟩
  · rw [if_neg total]
    have other : ¬ MatchingSuccess o evt := fun success => total (matchingSuccess_amount.1 success.2)
    cases decision : phoneDecision evt db with
    | error e => exact .blocked e (by simp [effective, decision, phoneVerdict]) other
    | ok found =>
      cases found with
      | nothing => exact .inert (by simp [effective, decision, phoneVerdict, total])
      | customer customerID businessID =>
        exact h.outcome_credit ref fresh (by simp [effective, decision, phoneVerdict]) other
      | order c =>
        obtain ⟨r, hr, cust, hcust, rid, -, amount, -, cid, cbusiness, -⟩ := phoneDecision_order decision
        have differs : o.id ≠ r.id := fun same => total (Table.eq_of_key h.mem hr same ▸ amount)
        obtain ⟨orders, rows⟩ := run_match a c.customerID c.businessID hr amount (h.unrecorded ref) fresh
          (cbusiness ▸ h.references.customerBusiness cust hcust)
          (Option.isSome_iff_exists.2 ⟨cust, Table.find?_eq_some.2 ⟨hcust, cid⟩⟩)
        have kept := (mem_settled evt.status r a.now h.mem).1 differs
        rw [← orders] at kept
        show FirstOutcome o db evt (((Verdict.settle c.orderID c.customerID c.businessID).program evt a).run exec db)
        rw [← rid]
        exact .recorded (by simp [effective, decision, phoneVerdict]) (h.recordedUnder ref rows)
          (iff_of_false (h.not_settled_of_mem kept) other)

/-- Once recorded, an event changes nothing. -/
theorem run_recorded (paid : ∃ p ∈ db.payments.rows, p.externalReference = some evt.reference) (referenced : evt.reference ≠ "") :
    (handlePaymentEvent evt a).run exec db = (.ok (), db) := by
  have seen : recorded evt db := by
    refine ⟨referenced, ?_⟩
    obtain ⟨p, hp, same⟩ := paid
    unfold paymentByReference
    rw [Option.isSome_map, List.find?_isSome]
    exact ⟨p, hp, decide_eq_true same⟩
  rw [run_handlePaymentEvent, verdict, if_pos seen]
  rfl

end Event

/-! ## Runs of ingest and worker -/

/-- The task id of an order's events. -/
def taskOf (reference : String) : String := "payment:" ++ "paystack" ++ ":" ++ reference

/-- The body's event does something. One that does not decode fails on every attempt. -/
def acts (o : Order) (db : Database) (body : WebhookBody) : Bool :=
  match parseWebhookEvent body with
  | .ok evt => effective o db evt
  | .error _ => true

/-- The body is a successful charge over the order's total. -/
def Pays (o : Order) (body : WebhookBody) : Prop := ∃ evt, parseWebhookEvent body = .ok evt ∧ MatchingSuccess o evt

/-- The first accepted event that does something. -/
def firstActing (o : Order) (db : Database) (q : TaskQueue WebhookBody) : Option WebhookBody :=
  (q.accepted.map Prod.snd).find? (acts o db)

/-- Only the order's events are in the queue, under their one task id. -/
def OwnTasks (o : Order) (q : TaskQueue WebhookBody) : Prop :=
  ∀ id body retried, q.slot id = .live body retried → id = taskOf o.id ∧ referenceOf body = o.id

/-- How far the events of an order have come. -/
inductive Progress (o : Order) (db : Database) (s : Ingest) : Prop where
  /-- No event did anything yet. -/
  | waiting (same : s.db = db) (free : s.queue.slot (taskOf o.id) = .free) (none : firstActing o db s.queue = none)
  /-- The last event accepted waits for the worker; none before it did anything. -/
  | pending {earlier : List (String × WebhookBody)} {body : WebhookBody} {retried : Nat} (same : s.db = db)
      (live : s.queue.slot (taskOf o.id) = .live body retried) (last : s.queue.accepted = earlier ++ [(taskOf o.id, body)])
      (none : (earlier.map Prod.snd).find? (acts o db) = none)
  /-- The first event that does something used up its retries. -/
  | stuck {body : WebhookBody} (same : s.db = db) (archived : s.queue.slot (taskOf o.id) = .archived)
      (first : firstActing o db s.queue = some body) (other : ¬ Pays o body)
  /-- The first event that does something is recorded. -/
  | recorded {body : WebhookBody} (first : firstActing o db s.queue = some body)
      (paid : ∃ p ∈ s.db.payments.rows, p.externalReference = some o.id) (settles : Settled o.id s.db ↔ Pays o body)

section Runs

variable {o : Order} {db : Database} {s s' : Ingest}

/-- A body of the order that parses is an event of the order. -/
theorem parse_own {body : WebhookBody} {evt : NormalisedPaymentEvent} (own : referenceOf body = o.id)
    (parsed : parseWebhookEvent body = .ok evt) : evt.reference = o.id ∧ evt.status = statusOfEvent evt.event := by
  unfold parseWebhookEvent at parsed
  split at parsed
  · cases parsed
  · cases parsed
  · rename_i data _ given
    cases parsed
    rw [referenceOf, given] at own
    exact ⟨own, rfl⟩

theorem paymentTaskID_own {body : WebhookBody} {receivedAt : Nat} (named : o.id ≠ "") (own : referenceOf body = o.id) :
    paymentTaskID "paystack" body receivedAt = taskOf o.id := by
  unfold paymentTaskID
  rw [own, if_neg named]
  rfl

theorem acts_eq {body : WebhookBody} {evt : NormalisedPaymentEvent} (parsed : parseWebhookEvent body = .ok evt) :
    acts o db body = effective o db evt := by
  rw [acts, parsed]

/-- A body that does not parse pays nothing. -/
theorem not_pays_of_error {body : WebhookBody} {message : String} (parsed : parseWebhookEvent body = .error message) :
    ¬ Pays o body := by
  rintro ⟨evt, ok, -⟩
  rw [parsed] at ok
  cases ok

theorem pays_iff {body : WebhookBody} {evt : NormalisedPaymentEvent} (parsed : parseWebhookEvent body = .ok evt) :
    Pays o body ↔ MatchingSuccess o evt := by
  unfold Pays
  rw [parsed]
  exact ⟨fun ⟨_, same, success⟩ => Except.ok.inj same ▸ success, fun success => ⟨evt, rfl, success⟩⟩

/-- Every event of a run is one of the order's. -/
abbrev Own (o : Order) (body : WebhookBody) : Prop := referenceOf body = o.id

theorem OwnTasks.step (named : o.id ≠ "") (h : OwnTasks o s.queue) (step : Ingest.Step (Own o) s s') : OwnTasks o s'.queue := by
  cases step with
  | receive receivedAt may =>
    rename_i body
    rw [paymentTaskID_own named may]
    rcases s.queue.enqueue_cases (taskOf o.id) body with ⟨-, eq⟩ | ⟨-, eq⟩
    · intro id body' retried live
      rw [eq] at live
      by_cases same : id = taskOf o.id
      · rw [same] at live
        simp only [Function.update_self, Slot.live.injEq] at live
        exact ⟨same, live.1 ▸ may⟩
      · simp only [Function.update_of_ne same] at live
        exact h id body' retried live
    · rw [eq]
      exact h
  | process a live fresh =>
    rename_i id body retried
    intro id' body' n live'
    unfold Ingest.process at live'
    simp only at live'
    split at live'
    · exact h id' body' n (TaskQueue.live_of_complete live')
    · obtain ⟨m, live'⟩ := TaskQueue.live_of_fail live live'
      exact h id' body' m live'

/-- An arriving event is dropped, or it is the next one to be processed. -/
theorem Progress.receive {body : WebhookBody} (h : Progress o db s) :
    Progress o db { s with queue := s.queue.enqueue (taskOf o.id) body } := by
  rcases s.queue.enqueue_cases (taskOf o.id) body with ⟨free, eq⟩ | ⟨busy, eq⟩
  · rw [eq]
    cases h with
    | waiting same _ none => exact .pending same (Function.update_self ..) rfl none
    | pending same live last none => rw [live] at free; cases free
    | stuck same archived first other => rw [archived] at free; cases free
    | recorded first paid settles =>
      refine .recorded ?_ paid settles
      unfold firstActing at first ⊢
      simp only [List.map_append, List.find?_append, first, Option.some_or]
  · rw [eq]
    exact h

/-- The last event accepted is the first one that does something, if it does. -/
theorem firstActing_last {earlier : List (String × WebhookBody)} {body : WebhookBody} {q : TaskQueue WebhookBody}
    (last : q.accepted = earlier ++ [(taskOf o.id, body)]) (none : (earlier.map Prod.snd).find? (acts o db) = none) :
    firstActing o db q = if acts o db body then some body else Option.none := by
  unfold firstActing
  rw [last, List.map_append, List.find?_append, none, Option.none_or]
  cases hact : acts o db body <;> simp [hact]

/-- An event that fails is retried or archived. -/
theorem Progress.failed {earlier : List (String × WebhookBody)} {body : WebhookBody} {retried : Nat}
    (last : s.queue.accepted = earlier ++ [(taskOf o.id, body)]) (none : (earlier.map Prod.snd).find? (acts o db) = none)
    (active : acts o db body = true) (other : ¬ Pays o body) :
    Progress o db ⟨db, s.queue.fail paymentMaxRetry (taskOf o.id) body retried⟩ := by
  by_cases again : retried < paymentMaxRetry
  · have retry : (s.queue.fail paymentMaxRetry (taskOf o.id) body retried).slot (taskOf o.id) = .live body (retried + 1) := by
      rw [TaskQueue.fail_slot, if_pos again]
    exact .pending rfl retry last none
  · have found := firstActing_last last none
    rw [active] at found
    refine .stuck rfl ?_ found other
    show (s.queue.fail paymentMaxRetry (taskOf o.id) body retried).slot (taskOf o.id) = _
    rw [TaskQueue.fail_slot, if_neg again]

/-- The worker takes up a task of the order. -/
theorem Progress.process {body : WebhookBody} {retried : Nat} (start : Awaiting o db) (own : Own o body) (h : Progress o db s)
    (live : s.queue.slot (taskOf o.id) = .live body retried) (a : Attempt)
    (fresh : ∀ p ∈ s.db.payments.rows, p.id ≠ a.paymentID) : Progress o db (s.process (taskOf o.id) body retried a) := by
  cases parsed : parseWebhookEvent body with
  | error message =>
    -- an attempt at such a body fails before it touches the tables
    have runs : (processPayment body a).run exec s.db =
        (.error (.invalidPayload ("payment-events: parse webhook (paystack): " ++ message)), s.db) := by
      unfold processPayment
      rw [parsed]
      rfl
    unfold Ingest.process
    simp only [runs]
    cases h with
    | waiting same free none => rw [live] at free; cases free
    | stuck same archived first other => rw [live] at archived; cases archived
    | recorded first paid settles => exact .recorded first paid settles
    | pending same live' last none =>
      rw [live] at live'
      cases live'
      rw [same]
      exact .failed last none (by rw [acts, parsed]) (not_pays_of_error parsed)
  | ok evt =>
    obtain ⟨ref, status⟩ := parse_own own parsed
    have runs : (processPayment body a).run exec s.db = (handlePaymentEvent evt a).run exec s.db := by
      unfold processPayment
      rw [parsed]
    unfold Ingest.process
    simp only [runs]
    cases h with
    | waiting same free none => rw [live] at free; cases free
    | stuck same archived first other => rw [live] at archived; cases archived
    | recorded first paid settles =>
      rw [run_recorded (ref ▸ paid) (ref ▸ start.named)]
      exact .recorded first paid settles
    | pending same live' last none =>
      rw [live] at live'
      cases live'
      rw [same] at fresh ⊢
      have found := firstActing_last last none
      have outcome := start.outcome ref status fresh
      generalize (handlePaymentEvent evt a).run exec db = result at outcome ⊢
      cases outcome with
      | inert idle =>
        rw [acts_eq parsed, idle] at found
        exact .waiting rfl (TaskQueue.complete_slot ..) found
      | blocked e active other =>
        exact .failed last none ((acts_eq parsed).trans active) fun pays => other ((pays_iff parsed).1 pays)
      | recorded active paid settles =>
        rw [acts_eq parsed, active] at found
        refine .recorded ?_ paid (settles.trans (pays_iff parsed).symm)
        rename_i r _
        cases r <;> exact found

/-- One step of ingest or worker. -/
theorem Progress.step (start : Awaiting o db) (own : OwnTasks o s.queue) (h : Progress o db s) (step : Ingest.Step (Own o) s s') :
    Progress o db s' := by
  cases step with
  | receive receivedAt may =>
    rw [paymentTaskID_own start.named may]
    exact h.receive
  | process a live fresh =>
    obtain ⟨rfl, ownBody⟩ := own _ _ _ live
    exact h.process start ownBody live a fresh

/-- Every state of a run, from an order that waits and a queue without tasks. -/
theorem Progress.reach (start : Awaiting o db) (reach : Ingest.Reach (Own o) ⟨db, .empty⟩ s) :
    OwnTasks o s.queue ∧ Progress o db s := by
  induction reach with
  | refl => exact ⟨fun _ _ _ live => (nomatch live), .waiting rfl rfl rfl⟩
  | tail _ step ih => exact ⟨ih.1.step start.named step, ih.2.step start ih.1 step⟩

/-- An event of the order arrives and is processed at once. -/
def deliver (orderID : String) (s : Ingest) (body : WebhookBody) (a : Attempt) : Ingest :=
  Ingest.process { s with queue := s.queue.enqueue (taskOf orderID) body } (taskOf orderID) body 0 a

end Runs

/-- The shop after its customer's order. -/
def ordered : Database := runJobs [orderOne "order-1" "m1"] shop

/-- The body of an event over the order's total, under its id. -/
def bodyOf (event : String) : WebhookBody := (chargeOf event "order-1" 500 "GHS").rawJSON

end NovoApex.Payments
