import NovoApex.Db.Effects
import NovoApex.Handlers.Vendor
import NovoApex.Lib.Pool
import NovoApex.Workers.Checkout
import NovoApex.Workers.Lifecycle
import NovoApex.Workers.PaymentEvents

/-!
# The orders pipeline

The handlers as one system: any number of jobs of each kind start at any time,
their statements interleave, every statement may fail and every handler may be
dropped, which covers retries, duplicates and crashes. `pipeline_keeps` reduces an
invariant of the system to one case per effect a job's statements can have.
-/

namespace NovoApex
set_option autoImplicit false
open Lib Program Workers Handlers Paystack

/-- The jobs and requests that read or write orders. -/
inductive Job where
  | checkout (job : CheckoutJob) (d : Delivery)
  | payment (evt : NormalisedPaymentEvent) (a : Attempt)
  | expiry (now : Nat)
  | restock (evt : OrderCancelled) (now : Nat)
  | turn (conversationID : String) (current : ConversationState) (intent : Intent)
  | fulfillment (businessID id : String) (status : OrderStatus) (followUpID : String) (now : Nat)
  | escalate (businessID id : String)
  | takeover (businessID id : String)
  | release (businessID id : String)

/-- The handler of a job. -/
def Job.program : Job → Handler Unit
  | checkout job d => handleCheckout job d
  | payment evt a => handlePaymentEvent evt a
  | expiry now => sweepCheckoutExpiry now
  | restock evt now => handleRestock evt now
  | turn c current intent => turnTransition c current intent
  | fulfillment b id status followUpID now => ignore (ordersFulfillment b id status followUpID now)
  | escalate b id => ignore (ordersEscalate b id)
  | takeover b id => ignore (conversationTakeover b id)
  | release b id => ignore (conversationRelease b id)

/-- A restock is a delivery of a committed `order.cancelled`; every other job comes from outside. -/
def Job.enabled (db : Database) : Job → Prop
  | restock evt _ => Events.orderCancelledEvent evt ∈ db.domainEvents.rows
  | _ => True

/-- The pipeline with some of the jobs, and the statements a run is allowed to execute. -/
def pipeline (jobs : Job → Bool) (allow : Database → Stmt → Prop) : System store Database where
  exec := exec
  job db p := ∃ j, jobs j = true ∧ j.enabled db ∧ p = j.program
  allow := allow

/-- Every statement is allowed. -/
def unrestricted (_ : Database) (_ : Stmt) : Prop := True

instance (db : Database) (op : Stmt) : Decidable (unrestricted db op) := isTrue trivial

/-- The statements that leave the lifecycle alone. -/
def Stmt.quiet : Stmt → Prop
  | checkoutTx .. | markOrderPaid .. | transition .. | cancelOrder .. | restock .. | updateOrderFulfillment .. => False
  | escalateConversationByID .. | takeoverConversation .. | releaseConversation .. => False
  | _ => True

/-- The statements a job can issue. -/
inductive Issues : Job → Stmt → Prop where
  | quiet {j op} (h : op.quiet) : Issues j op
  | place {job d tx} : Issues (.checkout job d) (.checkoutTx tx)
  | pay {evt a orderID} : Issues (.payment evt a) (.markOrderPaid orderID a.now)
  | settle {evt a c} : Issues (.payment evt a) (.transition c .invoicing .paid)
  | cancelFailed {evt a orderID reason} : Issues (.payment evt a) (.cancelOrder orderID reason a.now)
  | cancelExpired {now orderID reason} : Issues (.expiry now) (.cancelOrder orderID reason now)
  | restock {evt now} : Issues (.restock evt now) (.restock evt.orderID now)
  | turn {c current intent dst} (h : turnTarget intent current = some dst) :
      Issues (.turn c current intent) (.transition c current dst)
  | fulfill {b id status f now} : Issues (.fulfillment b id status f now) (.updateOrderFulfillment status id b now)
  | escalate {b id c} : Issues (.escalate b id) (.escalateConversationByID c)
  | takeover {b id} : Issues (.takeover b id) (.takeoverConversation id b)
  | release {b id} : Issues (.release b id) (.releaseConversation id b)

/-- What reconciling an event can issue. -/
inductive Reconciles (now : Nat) : Stmt → Prop where
  | order {reference} : Reconciles now (.orderByReference reference)
  | phones {phone businessID} : Reconciles now (.phoneRows phone businessID)
  | conversation {orderID} : Reconciles now (.conversationOfOrder orderID)
  | pay {orderID} : Reconciles now (.markOrderPaid orderID now)
  | settle {c} : Reconciles now (.transition c .invoicing .paid)
  | cancel {orderID reason} : Reconciles now (.cancelOrder orderID reason now)

section Uses

theorem checkoutResolveProducts_uses {A : Stmt → Prop} (reads : ∀ b s, A (.resolveProductByShortID b s))
    (businessID : String) (items : List DetectedItem) : (checkoutResolveProducts businessID items).Uses A := by
  induction items with
  | nil => exact trivial
  | cons item rest ih =>
    unfold checkoutResolveProducts
    split
    · refine Uses.bind (uses_call.2 (reads _ _)) fun product => ih.bind fun resolved => ?_
      cases product <;> exact trivial
    · exact ih

theorem checkoutResolveFulfillment_uses {A : Stmt → Prop} (reads : ∀ b s, A (.resolvePickupLocationByShortID b s))
    (job : CheckoutJob) : (checkoutResolveFulfillment job).Uses A := by
  unfold checkoutResolveFulfillment
  split
  · simp only
    split
    · exact trivial
    · exact Uses.bind (uses_call.2 (reads _ _)) fun _ => trivial
  · exact trivial

theorem handleCheckout_uses (job : CheckoutJob) (d : Delivery) :
    (handleCheckout job d).Uses (Issues (.checkout job d)) := by
  unfold handleCheckout
  split
  · exact trivial
  · refine (checkoutResolveProducts_uses (fun _ _ => .quiet trivial) _ _).bind fun resolved => ?_
    split
    · exact trivial
    · refine Uses.bind (uses_call.2 (.quiet trivial)) fun business => ?_
      split
      · exact trivial
      · refine (checkoutResolveFulfillment_uses (fun _ _ => .quiet trivial) job).bind fun fulfillment =>
          Uses.bind (uses_call.2 .place).attempt fun outcome => ?_
        cases outcome with
        | ok _ => exact trivial
        | error e => simp only; split <;> exact trivial

theorem Reconciles.issues {evt : NormalisedPaymentEvent} {a : Attempt} {op : Stmt} (h : Reconciles a.now op) :
    Issues (.payment evt a) op := by
  cases h with
  | order => exact .quiet trivial
  | phones => exact .quiet trivial
  | conversation => exact .quiet trivial
  | pay => exact .pay
  | settle => exact .settle
  | cancel => exact .cancelFailed

theorem settleReconciledOrder_uses (status : EventStatus) (orderID : String) (now : Nat) :
    (settleReconciledOrder status orderID now).Uses (Reconciles now) := by
  unfold settleReconciledOrder
  by_cases failed : status = .failed
  · rw [if_pos failed]
    exact uses_call.2 .cancel
  · rw [if_neg failed]
    refine Uses.bind (uses_call.2 .pay) fun _ => Uses.bind (uses_call.2 .conversation) fun conversationID => ?_
    cases conversationID with
    | none => exact trivial
    | some c => exact (uses_call.2 .settle).ignore

theorem reconcile_uses (evt : NormalisedPaymentEvent) (now : Nat) : (reconcile evt now).Uses (Reconciles now) := by
  unfold reconcile
  refine Uses.bind ?_ fun m => ?_
  · unfold strategyA
    split
    · exact trivial
    · refine Uses.bind (uses_call.2 .order) fun order => ?_
      cases order with
      | none => exact trivial
      | some o =>
        simp only
        split
        · exact (settleReconciledOrder_uses _ _ now).bind fun _ => trivial
        · exact trivial
  · split
    · unfold strategyB
      refine Uses.bind (uses_call.2 .phones) fun rows => ?_
      split
      · exact trivial
      · split
        · exact (settleReconciledOrder_uses _ _ now).bind fun _ => trivial
        · exact trivial
        · exact trivial
    · exact trivial

theorem afterPayment_uses (evt : NormalisedPaymentEvent) (a : Attempt) (businessID : String) (m : Attribution) :
    (afterPayment evt a businessID m).Uses Stmt.quiet := by
  unfold afterPayment
  refine Uses.bind ?_ fun _ => ?_
  · unfold recordNetwork
    split
    · split
      · exact (uses_call.2 trivial).attempt.ignore
      · exact trivial
    · exact trivial
  · split
    · split
      · unfold sendPaymentConfirmation
        refine Uses.bind (uses_call.2 trivial) fun phone => ?_
        cases phone with
        | none => exact trivial
        | some phone =>
          refine Uses.bind (uses_call.2 trivial) fun c => ?_
          cases c with
          | none => exact trivial
          | some c => exact uses_call.2 trivial
      · exact trivial
    · exact trivial

/-- Recording a payment leaves the lifecycle alone. -/
theorem recordPayment_uses (evt : NormalisedPaymentEvent) (a : Attempt) (m : Attribution) :
    (recordPayment evt a m).Uses Stmt.quiet := by
  unfold recordPayment
  split
  · exact trivial
  · refine Uses.bind ?_ fun _ => ?_
    · unfold cancelOrderFollowUps
      split
      · exact uses_call.2 trivial
      · exact trivial
    · unfold insertPaymentRow
      refine Uses.bind (uses_call.2 trivial).attempt fun inserted => ?_
      split
      · exact afterPayment_uses evt a _ m
      · exact trivial
      · exact trivial

theorem handlePaymentEvent_uses (evt : NormalisedPaymentEvent) (a : Attempt) :
    (handlePaymentEvent evt a).Uses (Issues (.payment evt a)) := by
  have reconciles : (reconcile evt a.now).Uses (Issues (.payment evt a)) := (reconcile_uses evt a.now).mono fun _ => Reconciles.issues
  have process := reconciles.bind fun m => (recordPayment_uses evt a m).mono fun _ => Issues.quiet (j := .payment evt a)
  unfold handlePaymentEvent
  simp only
  split
  · exact process
  · refine Uses.bind (uses_call.2 (.quiet trivial)) fun existing => ?_
    cases existing with
    | none => exact process
    | some _ => exact trivial

theorem sweepCheckoutExpiry_uses (now : Nat) : (sweepCheckoutExpiry now).Uses (Issues (.expiry now)) := by
  refine Uses.bind (uses_call.2 (.quiet trivial)) fun orderIDs => ?_
  show (cancelExpired now orderIDs).Uses (Issues (.expiry now))
  generalize (orderIDs : List String) = ids
  induction ids with
  | nil => exact trivial
  | cons orderID rest ih => exact Uses.bind (uses_call.2 .cancelExpired).attempt fun _ => ih

theorem ordersFulfillment_uses (b id : String) (status : OrderStatus) (f : String) (now : Nat) :
    (ordersFulfillment b id status f now).Uses (Issues (.fulfillment b id status f now)) := by
  refine Uses.bind (uses_call.2 (.quiet trivial)) fun existing => ?_
  cases existing with
  | none => exact trivial
  | some existing =>
    refine Uses.bind (uses_call.2 .fulfill) fun _ => ?_
    split
    · exact Uses.bind (uses_call.2 (.quiet trivial)) fun _ => trivial
    · exact trivial

/-- A handler issues no other statements, whatever the store answers. -/
theorem Job.program_uses (j : Job) : j.program.Uses (Issues j) := by
  cases j with
  | checkout job d => exact handleCheckout_uses job d
  | payment evt a => exact handlePaymentEvent_uses evt a
  | expiry now => exact sweepCheckoutExpiry_uses now
  | restock evt now =>
    refine Uses.bind (uses_call.2 .restock).attempt fun outcome => ?_
    split <;> exact trivial
  | turn c current intent =>
    show (turnTransition c current intent).Uses _
    unfold turnTransition
    split
    · rename_i target
      split
      · exact (uses_call.2 (.turn target)).ignore
      · exact trivial
    · exact trivial
  | fulfillment b id status f now => exact (ordersFulfillment_uses b id status f now).ignore
  | escalate b id =>
    refine Uses.ignore (Uses.bind (uses_call.2 (.quiet trivial)) fun order => ?_)
    cases order with
    | none => exact trivial
    | some order =>
      simp only
      split
      · exact Uses.bind (uses_call.2 .escalate) fun _ => trivial
      · exact trivial
  | takeover b id => exact Uses.ignore (Uses.bind (uses_call.2 .takeover) fun _ => trivial)
  | release b id => exact Uses.ignore (Uses.bind (uses_call.2 .release) fun _ => trivial)

end Uses

/-! ## Invariants of the system -/

/-- A statement some job of the run may issue. -/
def MayIssue (jobs : Job → Bool) (db : Database) (op : Stmt) : Prop := ∃ j, jobs j = true ∧ j.enabled db ∧ Issues j op

/-- A quiet statement leaves the lifecycle alone. -/
theorem Effect.of_quiet {db db' : Database} {op : Stmt} (h : Effect db op db') (quiet : op.quiet) : SameLifecycle db db' := by
  cases h with
  | same h => exact h
  | _ => exact False.elim quiet

/-- Domain events are never removed. -/
theorem Effect.events_grow {db db' : Database} {op : Stmt} (h : Effect db op db') {e : DomainEvent}
    (he : e ∈ db.domainEvents.rows) : e ∈ db'.domainEvents.rows := by
  cases h with
  | same h => rw [h.domainEvents]; exact he
  | placed accepts h =>
    rcases h.events with rows | ⟨-, same⟩
    · rw [rows]; exact List.mem_append_left _ he
    · rw [same]; exact he
  | paid => exact he
  | moved orders domainEvents states => rw [domainEvents]; exact he
  | cancelled h =>
    rcases h.events with rows | ⟨-, same⟩
    · rw [rows]; exact List.mem_append_left _ he
    · rw [same]; exact he
  | restocked h => rw [h.domainEvents]; exact he
  | fulfilled => exact he
  | escalated h => rw [h.domainEvents]; exact he
  | taken h => rw [h.domainEvents]; exact he
  | released h => rw [h.domainEvents]; exact he

theorem Job.enabled_mono {db db' : Database} {op : Stmt} (h : Effect db op db') {j : Job} (hj : j.enabled db) :
    j.enabled db' := by
  cases j with
  | restock evt now => exact h.events_grow hj
  | _ => exact trivial

section Invariant

variable {jobs : Job → Bool} {allow : Database → Stmt → Prop} {Inv : Database → Prop}

/-- An invariant of the pipeline is one that every effect of an allowed statement keeps. -/
theorem pipeline_keeps
    (keep : ∀ {db db' j op}, jobs j = true → j.enabled db → Issues j op → allow db op → Inv db → Effect db op db' →
      Inv db') :
    (pipeline jobs allow).Keeps Inv (MayIssue jobs) where
  start := by
    rintro db p ⟨j, hj, enabled, rfl⟩
    exact j.program_uses.mono fun op issues => ⟨j, hj, enabled, issues⟩
  keep := by
    rintro db op ⟨j, hj, enabled, issues⟩ may inv
    exact keep hj enabled issues may inv (exec_effect op db)
  stable := by
    rintro db op - - - op' ⟨j, hj, enabled, issues⟩
    exact ⟨j, hj, Job.enabled_mono (exec_effect op db) enabled, issues⟩

end Invariant

/-! ## Undisturbed runs -/

instance (db : Database) : DecidablePred (Job.enabled db)
  | .restock evt _ => inferInstanceAs (Decidable (Events.orderCancelledEvent evt ∈ db.domainEvents.rows))
  | .checkout .. | .payment .. | .expiry .. | .turn .. | .fulfillment .. | .escalate .. | .takeover .. | .release .. =>
    isTrue trivial

/-- The tables after the jobs ran one after the other. -/
def runJobs : List Job → Database → Database
  | [], db => db
  | j :: js, db => runJobs js (j.program.run exec db).2

/-- The jobs may run one after the other. -/
def Runnable (jobs : Job → Bool) (allow : Database → Stmt → Prop) : List Job → Database → Prop
  | [], _ => True
  | j :: js, db => (jobs j = true ∧ j.enabled db ∧ (pipeline jobs allow).Follows j.program db) ∧
    Runnable jobs allow js (j.program.run exec db).2

instance Runnable.decidable (jobs : Job → Bool) (allow : Database → Stmt → Prop) [∀ db op, Decidable (allow db op)] :
    (js : List Job) → (db : Database) → Decidable (Runnable jobs allow js db)
  | [], _ => isTrue trivial
  | j :: js, db =>
    have := Runnable.decidable jobs allow js (j.program.run exec db).2
    have : ∀ s op, Decidable ((pipeline jobs allow).allow s op) := fun s op => inferInstanceAs (Decidable (allow s op))
    inferInstanceAs (Decidable (_ ∧ Runnable jobs allow js (j.program.run exec db).2))

theorem reach_jobs {jobs : Job → Bool} {allow : Database → Stmt → Prop} {js : List Job} {db : Database}
    (h : Runnable jobs allow js db) : (pipeline jobs allow).Reach ⟨db, []⟩ ⟨runJobs js db, []⟩ := by
  induction js generalizing db with
  | nil => exact .refl
  | cons j js ih =>
    obtain ⟨⟨hj, enabled, follows⟩, rest⟩ := h
    have start : (pipeline jobs allow).job db j.program := ⟨j, hj, enabled, rfl⟩
    exact (System.reach_job start follows []).trans (ih rest)

end NovoApex
