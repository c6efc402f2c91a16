import NovoApex.Orders.OneOrder
import NovoApex.Payments.View
import Mathlib.Data.Fintype.EquivFin

/-!
# Retried payment events

An attempt at an event commits statement by statement, so one that stops leaves
part of its writes behind and the next attempt reads them. A match by reference
finds the same order again and repeats writes that change nothing the second
time; a match by phone does not, because the order it settled is no longer open.
-/

namespace NovoApex.Payments
set_option autoImplicit false
open Lib Program Workers Paystack Orders

/-- The ids an attempt generates are new. -/
structure Fresh (a : Attempt) (s : Database) : Prop where
  payment : ∀ p ∈ s.payments.rows, p.id ≠ a.paymentID
  outbound : ∀ m ∈ s.outboundMessages.rows, m.id ≠ a.outboundID

/-- The states that attempts at an event leave which do not succeed, one after the other. -/
inductive Retried (evt : NormalisedPaymentEvent) (db : Database) : Database → Prop where
  | start : Retried evt db db
  | again {s t : Database} {a : Attempt} (before : Retried evt db s) (fresh : Fresh a s)
      (halts : (handlePaymentEvent evt a).Halts exec s t) : Retried evt db t

/-- Where an uninterrupted run succeeds: after any number of attempts that stopped, the next undisturbed one succeeds,
and whichever succeeds leaves the view of the uninterrupted run. -/
def RetrySafe (evt : NormalisedPaymentEvent) (db : Database) : Prop :=
  ∀ a₀ db₁, Fresh a₀ db → (handlePaymentEvent evt a₀).run exec db = (.ok (), db₁) → ∀ s, Retried evt db s → ∀ a, Fresh a s →
    ((handlePaymentEvent evt a).run exec s).1 = .ok () ∧
      ∀ t, (handlePaymentEvent evt a).Ends exec s (.ok ()) t → viewOf t = viewOf db₁

/-- What an attempt may end in: success with the view aimed at, or a fault in a state where it may stop. -/
def EndsIn (F : Prop) (C : Database → Prop) (target : View) : Except Err Unit → Database → Prop
  | .ok _, t => viewOf t = target
  | .error _, t => F ∧ C t

/-- From every state in `C` an attempt gets to the view aimed at, and stays in `C` until then. -/
def Resumes (evt : NormalisedPaymentEvent) (C : Database → Prop) (target : View) : Prop :=
  ∀ (F : Prop) (s : Database) (a : Attempt), C s → Fresh a s →
    Guarded exec F C (EndsIn F C target) (handlePaymentEvent evt a) s

section Resumes

variable {evt : NormalisedPaymentEvent} {C : Database → Prop} {target : View} {db : Database}

theorem Resumes.retried (h : Resumes evt C target) (start : C db) {s : Database} (retried : Retried evt db s) : C s := by
  induction retried with
  | start => exact start
  | again before fresh halts ih =>
    have left := (h True _ _ ih fresh).halts trivial (fun _ _ ends => ends.2) halts
    exact left

theorem Resumes.run (h : Resumes evt C target) {s : Database} {a : Attempt} (here : C s) (fresh : Fresh a s) :
    ∃ t, (handlePaymentEvent evt a).run exec s = (.ok (), t) ∧ viewOf t = target := by
  have ends := (h False s a here fresh).run
  cases result : (handlePaymentEvent evt a).run exec s with
  | mk r t =>
    rw [result] at ends
    cases r with
    | ok u => exact ⟨t, rfl, ends⟩
    | error e => exact ends.1.elim

/-- An event whose attempts resume can be retried. -/
theorem Resumes.retrySafe (h : Resumes evt C target) (start : C db) : RetrySafe evt db := by
  intro a₀ db₁ fresh₀ run s retried a fresh
  have here := h.retried start retried
  obtain ⟨t₀, run₀, view₀⟩ := h.run start fresh₀
  obtain ⟨t, run', -⟩ := h.run here fresh
  obtain rfl : t₀ = db₁ := congrArg Prod.snd (run₀.symm.trans run)
  refine ⟨by rw [run'], fun u ends => ?_⟩
  have reached := (h True s a here fresh).ends trivial ends
  exact Eq.trans reached view₀.symm

end Resumes

/-! ## What follows the insert -/

section Inserted

variable {evt : NormalisedPaymentEvent} {a : Attempt} {businessID : String} {m : Attribution} {F : Prop}

theorem SameCore.viewOf {s t : Database} (h : SameCore s t) : viewOf t = viewOf s := by
  unfold Payments.viewOf
  rw [h.orders, h.conversations, h.scheduledFollowUps, h.payments]

theorem recorded_congr {s t : Database} (h : t.payments = s.payments) : recorded evt t ↔ recorded evt s := by
  unfold recorded paymentByReference
  rw [h]

/-- An end that only a fault makes an error. -/
def Completes (F : Prop) (s : Database) : Except Err Unit → Database → Prop := fun r t => SameCore s t ∧ ∀ e, r = .error e → F

theorem completes_ok (s : Database) : Completes F s (.ok ()) s := ⟨.refl s, fun _ absurd => nomatch absurd⟩

/-- The confirmation is stored under a fresh id. -/
theorem guarded_sendPaymentConfirmation {s : Database} (customerID : String)
    (fresh : ∀ o ∈ s.outboundMessages.rows, o.id ≠ a.outboundID) :
    Guarded exec F (SameCore s) (Completes F s) (sendPaymentConfirmation evt a businessID customerID) s := by
  have faulty : F → Completes F s (.error .transient) s := fun f => ⟨.refl s, fun _ _ => f⟩
  unfold sendPaymentConfirmation
  refine guarded_query rfl (SameCore.refl s) faulty ?_
  cases (s.customers.find? customerID).map Customer.phone with
  | none => exact completes_ok s
  | some phone =>
    refine guarded_query rfl (SameCore.refl s) faulty ?_
    cases conversationByPhone businessID phone s with
    | none => exact completes_ok s
    | some c =>
      refine ⟨SameCore.refl s, ?_, faulty⟩
      show Completes F s (insertOutbound _ s).1 (insertOutbound _ s).2
      unfold insertOutbound
      split
      · exact ⟨⟨rfl, rfl, rfl, rfl, rfl, rfl⟩, fun _ absurd => nomatch absurd⟩
      · rename_i conflict
        obtain ⟨o, ho, same⟩ := Table.insert_eq_none.1 conflict
        exact (fresh o ho same).elim

/-- The preferred network is written or its error swallowed. -/
theorem guarded_recordNetwork {Q : Except Err Unit → Database → Prop} {s : Database}
    (kept : ∀ t, SameCore s t → t.outboundMessages = s.outboundMessages → Q (.ok ()) t) :
    Guarded exec F (SameCore s) Q (recordNetwork evt m) s := by
  have here := kept s (.refl s) rfl
  unfold recordNetwork
  cases m.customerID with
  | none => exact here
  | some customerID =>
    simp only
    split
    · exact ⟨.refl s, kept _ ⟨rfl, rfl, rfl, rfl, rfl, rfl⟩ rfl, fun _ => here⟩
    · exact here

/-- What follows the insert completes, unless a statement fails. -/
theorem guarded_afterPayment_completes (s : Database) (fresh : ∀ o ∈ s.outboundMessages.rows, o.id ≠ a.outboundID) :
    Guarded exec F (SameCore s) (Completes F s) (afterPayment evt a businessID m) s := by
  unfold afterPayment
  refine Guarded.bind (guarded_recordNetwork fun t same outbound => ?_)
  have here : Completes F s (.ok ()) t := ⟨same, fun _ absurd => nomatch absurd⟩
  simp only
  split
  · split
    · refine (guarded_sendPaymentConfirmation _ (outbound ▸ fresh)).mono (fun _ => same.trans) fun r u ends => ?_
      exact ⟨same.trans ends.1, ends.2⟩
    · exact here
  · exact here

/-- The row an event leaves in the view. -/
def rowView (evt : NormalisedPaymentEvent) (businessID : String) (m : Attribution) (amount : Money) : Payment :=
  paymentView (paymentRow evt ⟨0, "", ""⟩ businessID m amount)

theorem paymentView_paymentRow (evt : NormalisedPaymentEvent) (a : Attempt) (businessID : String) (m : Attribution)
    (amount : Money) : paymentView (paymentRow evt a businessID m amount) = rowView evt businessID m amount := by
  obtain ⟨customerID, business, orderID⟩ := m
  cases orderID <;> rfl

/-- From the insert on: the payment is recorded, and what may stop then leaves it recorded. -/
theorem guarded_inserted {C : Database → Prop} {target : View} {t : Database} {amount : Money}
    (fits : Numeric.ofDecimal (amountOf evt) = some amount) (fresh : Fresh a t) (unrecorded : ¬ recorded evt t)
    (refers : PaymentRefers (paymentInsertOf evt a businessID m) t)
    (view : (viewOf t).record (rowView evt businessID m amount) = target)
    (after : afterPayment evt a businessID m = pure () ∨ ∀ u, (evt.reference ≠ "" → recorded evt u) → viewOf u = target → C u) :
    Guarded exec F C (EndsIn F C target)
      (afterInsert evt a businessID m (exec (.insertPayment (paymentInsertOf evt a businessID m)) t).1)
      (exec (.insertPayment (paymentInsertOf evt a businessID m)) t).2 := by
  obtain ⟨payments, eq, rows⟩ := exec_insertPayment evt a businessID m t fits fresh.payment unrecorded refers
  have reached : viewOf { t with payments := payments } = target := by
    rw [← view]
    unfold viewOf View.record
    simp only [rows, List.map_append, List.map_cons, List.map_nil, paymentView_paymentRow]
  have seen : evt.reference ≠ "" → recorded evt { t with payments := payments } := by
    intro referenced
    refine ⟨referenced, ?_⟩
    unfold paymentByReference
    rw [Option.isSome_map, List.find?_isSome]
    refine ⟨paymentRow evt a businessID m amount, rows ▸ List.mem_append_right _ (List.mem_singleton_self _), ?_⟩
    show decide (crmText evt.reference = some evt.reference) = true
    rw [crmText, if_neg referenced]
    exact decide_eq_true rfl
  rw [eq]
  show Guarded exec F C (EndsIn F C target) (afterPayment evt a businessID m) { t with payments := payments }
  rcases after with silent | stays
  · rw [silent]
    exact reached
  · have kept : ∀ u, SameCore { t with payments := payments } u → C u := fun u same =>
      stays u (fun referenced => (recorded_congr same.payments).2 (seen referenced)) (same.viewOf.trans reached)
    refine (guarded_afterPayment_completes { t with payments := payments } fresh.outbound).mono kept fun r u ends => ?_
    cases r with
    | ok _ => exact ends.1.viewOf.trans reached
    | error e => exact ⟨ends.2 e rfl, kept u ends.1⟩

end Inserted

/-! ## Events that can be retried -/

/-- An event without writes. -/
theorem resumes_inert {evt : NormalisedPaymentEvent} {db : Database}
    (idle : verdict evt db = .recorded ∨ verdict evt db = .unknown) : Resumes evt (fun s => s = db) (viewOf db) := by
  rintro F s a rfl -
  refine (reads_handlePaymentEvent evt a s).guarded rfl (fun f => ⟨f, rfl⟩) ?_
  rcases idle with idle | idle
  · rw [idle]
    exact rfl
  · rw [idle]
    exact rfl

/-- The phone match credits a customer of the table. -/
theorem phoneDecision_customer {evt : NormalisedPaymentEvent} {db : Database} {customerID businessID : String}
    (h : phoneDecision evt db = .ok (.customer customerID businessID)) : ∃ cust ∈ db.customers.rows, cust.id = customerID := by
  unfold phoneDecision at h
  split at h
  · cases h
  · cases hs : scanPhoneRows (amountOf evt) (phoneRows (phoneOf evt) evt.businessID db) with
    | error e => rw [hs] at h; cases h
    | ok scan =>
      rw [hs] at h
      have matched : phoneMatch evt.businessID scan = .customer customerID businessID := Except.ok.inj h
      have seen : ∃ business, (customerID, business) ∈ scan.customers := by
        unfold phoneMatch at matched
        split at matched
        · cases matched
        · cases matched
        · split at matched
          · rename_i id business single
            cases matched
            exact ⟨business, single ▸ List.mem_singleton_self _⟩
          · cases matched
      obtain ⟨business, seen⟩ := seen
      obtain ⟨row, hrow, same⟩ := (scanPhoneRows_ok hs).2 _ seen
      obtain ⟨cust, hcust, -, id, -⟩ := mem_phoneRows hrow
      exact ⟨cust, hcust, id.trans (congrArg Prod.fst same).symm⟩

/-- The attribution of a credited customer. -/
abbrev credited (customerID businessID : String) : Attribution := ⟨some customerID, some businessID, none⟩

/-- The tables accept the event's payment for a business. -/
def Creditable (evt : NormalisedPaymentEvent) (businessID : String) (db : Database) : Prop :=
  (Numeric.ofDecimal (amountOf evt) : Option Money).isSome = true ∧ (db.businesses.find? businessID).isSome = true

instance (evt : NormalisedPaymentEvent) (businessID : String) (db : Database) : Decidable (Creditable evt businessID db) :=
  inferInstanceAs (Decidable (_ ∧ _))

section Credit

variable {evt : NormalisedPaymentEvent} {db : Database} {customerID businessID : String} {a : Attempt}

/-- A credit the tables accept. -/
theorem guarded_credit {F : Prop} {C : Database → Prop} {target : View} {amount : Money}
    (unrecorded : ¬ recorded evt db) (decided : phoneDecision evt db = .ok (.customer customerID businessID))
    (fits : Numeric.ofDecimal (amountOf evt) = some amount) (business : (db.businesses.find? businessID).isSome = true)
    (fresh : Fresh a db) (before : C db)
    (view : (viewOf db).record (rowView evt businessID (credited customerID businessID) amount) = target)
    (after : afterPayment evt a businessID (credited customerID businessID) = pure () ∨
      ∀ u, (evt.reference ≠ "" → recorded evt u) → viewOf u = target → C u) :
    Guarded exec F C (EndsIn F C target) ((Verdict.credit customerID businessID).program evt a) db := by
  obtain ⟨cust, hcust, cid⟩ := phoneDecision_customer decided
  have customer : (db.customers.find? customerID).isSome = true :=
    Option.isSome_iff_exists.2 ⟨cust, Table.find?_eq_some.2 ⟨hcust, cid⟩⟩
  have faulty : F → EndsIn F C target (.error .transient) db := fun f => ⟨f, before⟩
  show Guarded exec F C _ (recordPayment evt a (credited customerID businessID)) db
  refine guarded_recordPayment rfl before faulty before faulty (guarded_inserted fits fresh unrecorded ?_ view after)
  exact ⟨fun _ same => Option.some.inj same ▸ business, fun _ same => Option.some.inj same ▸ customer, fun _ absurd => nomatch absurd⟩

/-- A credit the tables refuse fails. -/
theorem run_credit_refused (unrecorded : ¬ recorded evt db) (fresh : Fresh a db) (refused : ¬ Creditable evt businessID db) :
    (((Verdict.credit customerID businessID).program evt a).run exec db).1 ≠ .ok () := by
  have guarded : Guarded exec False (fun _ => True) (fun r _ => r ≠ .ok ())
      (recordPayment evt a (credited customerID businessID)) db := by
    refine guarded_recordPayment rfl trivial False.elim trivial False.elim ?_
    obtain ⟨e, notUnique, eq⟩ := exec_insertPayment_refused evt a businessID (credited customerID businessID) db fresh.payment
      unrecorded fun amount fits refers => refused ⟨by rw [fits]; rfl, refers.business _ rfl⟩
    show Guarded exec False _ _ (afterInsert evt a businessID _ (exec (.insertPayment _) db).1) (exec (.insertPayment _) db).2
    rw [eq]
    cases e with
    | uniqueViolation constraint => exact (notUnique constraint rfl).elim
    | _ => exact fun absurd => nomatch absurd
  exact guarded.run

/-- A recorded event is skipped. -/
theorem guarded_skipped {F : Prop} {C : Database → Prop} {s : Database} (seen : recorded evt s) (here : C s) :
    Guarded exec F C (EndsIn F C (viewOf s)) (handlePaymentEvent evt a) s := by
  refine (reads_handlePaymentEvent evt a s).guarded here (fun f => ⟨f, here⟩) ?_
  rw [verdict, if_pos seen]
  exact rfl

/-- A credit can be retried once it has a reference, or when nothing follows its insert. -/
theorem resumes_credit {amount : Money} (unrecorded : ¬ recorded evt db) (unmatched : referenceMatch evt db = none)
    (decided : phoneDecision evt db = .ok (.customer customerID businessID))
    (fits : Numeric.ofDecimal (amountOf evt) = some amount) (business : (db.businesses.find? businessID).isSome = true)
    (once : evt.reference = "" → ¬ (evt.status = .success ∧ evt.authorizationBank ≠ "")) :
    let target := (viewOf db).record (rowView evt businessID (credited customerID businessID) amount)
    Resumes evt (fun s => s = db ∨ recorded evt s ∧ viewOf s = target) target := by
  intro target F s a here fresh
  rcases here with rfl | ⟨seen, reached⟩
  · refine (reads_handlePaymentEvent evt a s).guarded (.inl rfl) (fun f => ⟨f, .inl rfl⟩) ?_
    rw [verdict, if_neg unrecorded, unmatched, decided]
    refine guarded_credit unrecorded decided fits business fresh (.inl rfl) rfl ?_
    by_cases unreferenced : evt.reference = ""
    · left
      unfold afterPayment recordNetwork
      simp only [if_neg (once unreferenced)]
      rfl
    · exact .inr fun u seen reached => .inr ⟨seen unreferenced, reached⟩
  · have skipped := guarded_skipped (F := F) (a := a) seen (C := fun s => s = db ∨ recorded evt s ∧ viewOf s = target)
      (.inr ⟨seen, reached⟩)
    rw [reached] at skipped
    exact skipped

end Credit

section Settle

variable {evt : NormalisedPaymentEvent} {s : Database} {o : Order} {customerID businessID : String} {a : Attempt}

/-- The attribution of a matched order. -/
abbrev matched (customerID businessID orderID : String) : Attribution := ⟨some customerID, some businessID, some orderID⟩

/-- The view a match aims at. -/
def matchView (evt : NormalisedPaymentEvent) (o : Order) (customerID businessID : String) (v : View) : View :=
  ((v.settle evt.status o.id o.conversationID).stop o.id).record
    (rowView evt businessID (matched customerID businessID o.id) o.totalAmount)

/-- A match gets to its view, through states where the order is marked, settled and its follow-ups stopped. -/
theorem guarded_settles {F : Prop} {C : Database → Prop} {target : View} (ho : o ∈ s.orders.rows)
    (total : o.totalAmount.toDecimal = amountOf evt) (unrecorded : ¬ recorded evt s) (fresh : Fresh a s)
    (business : (s.businesses.find? businessID).isSome = true) (customer : (s.customers.find? customerID).isSome = true)
    (before : C s) (marked : evt.status ≠ .failed → C (markOrderPaid o.id a.now s)) (done : C (settled evt.status o a.now s))
    (stopped : C (cancelFollowUps o.id a.now (settled evt.status o a.now s)))
    (aims : matchView evt o customerID businessID (viewOf s) = target)
    (after : ∀ u, (evt.reference ≠ "" → recorded evt u) → viewOf u = target → C u) :
    Guarded exec F C (EndsIn F C target) ((Verdict.settle o.id customerID businessID).program evt a) s := by
  have fits : Numeric.ofDecimal (amountOf evt) = some o.totalAmount := total ▸ Numeric.ofDecimal_toDecimal _
  have view := viewOf_settled evt.status a.now ho
  obtain ⟨o', ho', oid⟩ := (mem_settled evt.status o a.now ho).2
  obtain ⟨orders, conversations, domainEvents, frame⟩ := settled_frame evt.status o a.now s
  rw [frame] at done stopped ho' view
  refine guarded_match ho before (fun f => ⟨f, before⟩) (fun live => ⟨marked live, fun f => ⟨f, marked live⟩⟩) frame done
    (fun f => ⟨f, done⟩) stopped (fun f => ⟨f, stopped⟩) ?_
  refine guarded_inserted fits ⟨fresh.payment, fresh.outbound⟩ unrecorded ?_ ?_ (.inr after)
  · exact ⟨fun _ same => Option.some.inj same ▸ business, fun _ same => Option.some.inj same ▸ customer,
      fun _ same => Option.isSome_iff_exists.2 ⟨o', Table.find?_eq_some.2 ⟨ho', oid.trans (Option.some.inj same)⟩⟩⟩
  · rw [viewOf_cancelFollowUps, view]
    exact aims

/-- An attempt at an event that names the order stopped on the way: the rows it reads are as they were, and completing
it from here gives the same view. -/
structure Midway (evt : NormalisedPaymentEvent) (o : Order) (db s : Database) : Prop where
  row : ∃ o' ∈ s.orders.rows, o'.fixed = o.fixed
  customers : s.customers = db.customers
  businesses : s.businesses = db.businesses
  payments : s.payments = db.payments
  completes : ((viewOf s).settle evt.status o.id o.conversationID).stop o.id =
    ((viewOf db).settle evt.status o.id o.conversationID).stop o.id

theorem Midway.start {db : Database} (ho : o ∈ db.orders.rows) : Midway evt o db db := ⟨⟨o, ho, rfl⟩, rfl, rfl, rfl, rfl⟩

/-- A status write and what else leaves the other tables alone. -/
theorem Midway.write {db t : Database} (h : Midway evt o db s) {g : Order → Order} (fixed : ∀ r, (g r).fixed = r.fixed)
    (orders : t.orders.rows = s.orders.rows.map g) (customers : t.customers = s.customers)
    (businesses : t.businesses = s.businesses) (payments : t.payments = s.payments)
    (completes : ((viewOf t).settle evt.status o.id o.conversationID).stop o.id =
      ((viewOf s).settle evt.status o.id o.conversationID).stop o.id) : Midway evt o db t := by
  obtain ⟨o', ho', same⟩ := h.row
  refine ⟨⟨g o', ?_, (fixed o').trans same⟩, customers.trans h.customers, businesses.trans h.businesses,
    payments.trans h.payments, completes.trans h.completes⟩
  rw [orders]
  exact List.mem_map_of_mem ho'

theorem settled_fixed (status : EventStatus) (o : Order) (now : Nat) (s : Database) :
    ∃ g : Order → Order, (∀ r, (g r).fixed = r.fixed) ∧ (settled status o now s).orders.rows = s.orders.rows.map g := by
  rcases settled_orders status o now s with ⟨-, eq⟩ | ⟨-, eq | eq⟩
  · rw [eq]
    exact setStatus_fixed _ _ _ s.orders
  · rw [eq]
    exact ⟨id, fun _ => rfl, (List.map_id _).symm⟩
  · rw [eq]
    exact setStatus_fixed _ _ _ s.orders

theorem Midway.marked {db : Database} (h : Midway evt o db s) (live : evt.status ≠ .failed) (now : Nat) :
    Midway evt o db (markOrderPaid o.id now s) := by
  obtain ⟨g, fixed, rows⟩ := setStatus_fixed (fun r => decide (r.id = o.id)) .paid now s.orders
  refine h.write fixed rows rfl rfl rfl ?_
  rw [viewOf_markOrderPaid, View.settle_mark live]

theorem Midway.settled {db : Database} (h : Midway evt o db s) {o' : Order} (ho' : o' ∈ s.orders.rows) (same : o'.fixed = o.fixed)
    (now : Nat) : Midway evt o db (settled evt.status o' now s) := by
  have view := viewOf_settled evt.status now ho'
  rw [Order.fixed_id same, Order.fixed_conversationID same] at view
  obtain ⟨g, fixed, rows⟩ := settled_fixed evt.status o' now s
  obtain ⟨orders, conversations, domainEvents, frame⟩ := settled_frame evt.status o' now s
  rw [frame] at rows view ⊢
  refine h.write fixed rows rfl rfl rfl ?_
  rw [view, View.settle_settle]

theorem Midway.stopped {db : Database} (h : Midway evt o db s) (now : Nat) : Midway evt o db (cancelFollowUps o.id now s) := by
  refine h.write (fun _ => rfl) (List.map_id _).symm rfl rfl rfl ?_
  rw [viewOf_cancelFollowUps, View.settle_stop, View.stop_stop]

/-- A match by reference can be retried: it is found again, and its writes change nothing the second time. -/
theorem resumes_referenced {db : Database} (ho : o ∈ db.orders.rows) (ref : evt.reference = o.id) (named : o.id ≠ "")
    (total : o.totalAmount.toDecimal = amountOf evt) (unrecorded : ¬ recorded evt db) (references : ReferencesHold db) :
    let target := matchView evt o o.customerID o.businessID (viewOf db)
    Resumes evt (fun s => Midway evt o db s ∨ recorded evt s ∧ viewOf s = target) target := by
  intro target F s a here fresh
  rcases here with midway | ⟨seen, reached⟩
  · obtain ⟨o', ho', same⟩ := midway.row
    have id : o'.id = o.id := Order.fixed_id same
    have customerID : o'.customerID = o.customerID := (congrArg Order.customerID same :)
    have businessID : o'.businessID = o.businessID := (congrArg Order.businessID same :)
    have totalAmount : o'.totalAmount = o.totalAmount := (congrArg Order.totalAmount same :)
    have customer : (s.customers.find? o'.customerID).isSome = true := by
      rw [midway.customers, customerID]
      exact references.orderCustomer o ho
    have business : (s.businesses.find? o'.businessID).isSome = true := by
      rw [midway.businesses, businessID]
      exact references.orderBusiness o ho
    have unrecorded' : ¬ recorded evt s := fun seen => unrecorded ((recorded_congr midway.payments).1 seen)
    have settled := midway.settled ho' same a.now
    have stopped := settled.stopped a.now
    refine (reads_handlePaymentEvent evt a s).guarded (.inl midway) (fun f => ⟨f, .inl midway⟩) ?_
    rw [verdict_of_order ho' (ref.trans id.symm) (id ▸ named) unrecorded' customer, if_pos (totalAmount ▸ total)]
    rw [← id] at stopped
    refine guarded_settles ho' (totalAmount ▸ total) unrecorded' fresh business customer (.inl midway)
      (fun live => .inl (id ▸ midway.marked live a.now)) (.inl settled) (.inl stopped) ?_
      fun u seen reached => .inr ⟨seen (ref ▸ named), reached⟩
    unfold matchView
    rw [id, customerID, businessID, totalAmount, Order.fixed_conversationID same, midway.completes]
    rfl
  · have skipped := guarded_skipped (F := F) (a := a) seen (C := fun s => Midway evt o db s ∨ recorded evt s ∧ viewOf s = target)
      (.inr ⟨seen, reached⟩)
    rw [reached] at skipped
    exact skipped

end Settle

/-! ## Events that cannot -/

/-- The event settles an order it found by the payer's phone. -/
def MatchesByPhone (evt : NormalisedPaymentEvent) (db : Database) : Prop :=
  ¬ recorded evt db ∧ referenceMatch evt db = none ∧ ∃ c, phoneDecision evt db = .ok (.order c)

/-- A success without a reference that credits a customer, with a bank to remember after the insert. -/
def CreditsAgain (evt : NormalisedPaymentEvent) (db : Database) : Prop :=
  evt.reference = "" ∧ evt.status = .success ∧ evt.authorizationBank ≠ "" ∧
    ∃ customerID businessID, phoneDecision evt db = .ok (.customer customerID businessID) ∧ Creditable evt businessID db

theorem exists_fresh (db : Database) : ∃ a, Fresh a db := by
  obtain ⟨paymentID, newPayment⟩ := Infinite.exists_notMem_finset (db.payments.rows.map Payment.id).toFinset
  obtain ⟨outboundID, newOutbound⟩ := Infinite.exists_notMem_finset (db.outboundMessages.rows.map OutboundMessage.id).toFinset
  refine ⟨⟨0, paymentID, outboundID⟩, fun p hp same => newPayment ?_, fun m hm same => newOutbound ?_⟩
  · exact List.mem_toFinset.2 (List.mem_map.2 ⟨p, hp, same⟩)
  · exact List.mem_toFinset.2 (List.mem_map.2 ⟨m, hm, same⟩)

section Crash

variable {evt : NormalisedPaymentEvent} {db s : Database} {a : Attempt}

/-- An end with a view and without faults is a success. -/
theorem EndsIn.success {target : View} {result : Except Err Unit × Database}
    (h : EndsIn False (fun _ => True) target result.1 result.2) : ∃ t, result = (.ok (), t) ∧ viewOf t = target := by
  obtain ⟨r, t⟩ := result
  cases r with
  | ok u => exact ⟨t, rfl, h⟩
  | error e => exact h.1.elim

theorem run_settles {o : Order} (customerID businessID : String) (ho : o ∈ s.orders.rows)
    (total : o.totalAmount.toDecimal = amountOf evt) (unrecorded : ¬ recorded evt s) (fresh : Fresh a s)
    (business : (s.businesses.find? businessID).isSome = true) (customer : (s.customers.find? customerID).isSome = true) :
    ∃ t, ((Verdict.settle o.id customerID businessID).program evt a).run exec s = (.ok (), t) ∧
      viewOf t = matchView evt o customerID businessID (viewOf s) := by
  have guarded : Guarded exec False (fun _ => True) (EndsIn False (fun _ => True) (matchView evt o customerID businessID (viewOf s)))
      ((Verdict.settle o.id customerID businessID).program evt a) s :=
    guarded_settles ho total unrecorded fresh business customer trivial (fun _ => trivial) trivial trivial rfl fun _ _ _ => trivial
  exact EndsIn.success guarded.run

theorem run_credits {customerID businessID : String} {amount : Money} (unrecorded : ¬ recorded evt s)
    (decided : phoneDecision evt s = .ok (.customer customerID businessID))
    (fits : Numeric.ofDecimal (amountOf evt) = some amount) (business : (s.businesses.find? businessID).isSome = true)
    (fresh : Fresh a s) :
    ∃ t, ((Verdict.credit customerID businessID).program evt a).run exec s = (.ok (), t) ∧
      viewOf t = (viewOf s).record (rowView evt businessID (credited customerID businessID) amount) := by
  have guarded : Guarded exec False (fun _ => True) (EndsIn False (fun _ => True)
      ((viewOf s).record (rowView evt businessID (credited customerID businessID) amount)))
      ((Verdict.credit customerID businessID).program evt a) s :=
    guarded_credit unrecorded decided fits business fresh trivial rfl (.inr fun _ _ _ => trivial)
  exact EndsIn.success guarded.run

theorem run_settleReconciledOrder {status : EventStatus} {o : Order} {now : Nat} (ho : o ∈ db.orders.rows) :
    (settleReconciledOrder status o.id now).run exec db = (.ok (), settled status o now db) := by
  have guarded : Guarded exec False (fun _ => True) (fun r t => (r, t) = (.ok (), settled status o now db))
      (settleReconciledOrder status o.id now) db :=
    guarded_settleReconciledOrder ho trivial False.elim (fun _ => ⟨trivial, False.elim⟩) rfl
  exact guarded.run

/-- The event still names no order over its amount when some order was settled. -/
theorem referenceMatch_settled (status : EventStatus) (o : Order) (now : Nat) (unmatched : referenceMatch evt db = none) :
    referenceMatch evt (settled status o now db) = none := by
  cases hm : referenceMatch evt (settled status o now db) with
  | none => rfl
  | some r =>
    obtain ⟨named, o', ho', cust, hcust, id, owner, total, -⟩ := referenceMatch_eq_some hm
    obtain ⟨g, fixed, rows⟩ := settled_fixed status o now db
    obtain ⟨orders, conversations, domainEvents, frame⟩ := settled_frame status o now db
    rw [rows] at ho'
    rw [frame] at hcust
    obtain ⟨old, hold, rfl⟩ := List.mem_map.1 ho'
    have same := fixed old
    have oldID : evt.reference = old.id := id.symm.trans (Order.fixed_id same)
    have oldOwner : old.customerID = cust.id := ((congrArg Order.customerID same :) : (g old).customerID = old.customerID).symm.trans owner
    have oldTotal : old.totalAmount.toDecimal = amountOf evt :=
      ((congrArg Order.totalAmount same :) : (g old).totalAmount = old.totalAmount) ▸ total
    have customer : (db.customers.find? old.customerID).isSome = true :=
      Option.isSome_iff_exists.2 ⟨cust, Table.find?_eq_some.2 ⟨hcust, oldOwner.symm⟩⟩
    rw [referenceMatch_of_order hold oldID (oldID ▸ named) customer, if_pos oldTotal] at unmatched
    cases unmatched

/-- A retry that succeeds on the tables a crash left has the view of the uninterrupted run. -/
theorem RetrySafe.after_crash {db₁ : Database} {target : View} {a' : Attempt} (safe : RetrySafe evt db) (fresh : Fresh a db)
    (run : (handlePaymentEvent evt a).run exec db = (.ok (), db₁)) (view : viewOf db₁ = target)
    (halted : (handlePaymentEvent evt a).Halts exec db s) (fresh' : Fresh a' s) :
    ∃ t, (handlePaymentEvent evt a').run exec s = (.ok (), t) ∧ viewOf t = target := by
  obtain ⟨succeeds, same⟩ := safe a db₁ fresh run s (.again .start fresh halted) a' fresh'
  have ends := ends_run exec (handlePaymentEvent evt a') s
  rw [succeeds] at ends
  refine ⟨((handlePaymentEvent evt a').run exec s).2, Prod.ext succeeds rfl, ?_⟩
  rw [← view]
  exact same _ ends

/-- By phone an event is recorded for an order that is open, for none, or not at all. -/
theorem payments_of_phone {t : Database} (businesses : ∀ c ∈ s.customers.rows, (s.businesses.find? c.businessID).isSome = true)
    (unrecorded : ¬ recorded evt s) (unmatched : referenceMatch evt s = none) (fresh : Fresh a s)
    (run : (handlePaymentEvent evt a).run exec s = (.ok (), t)) :
    (viewOf t).payments = (viewOf s).payments ∨ ∃ p, (viewOf t).payments = (viewOf s).payments ++ [p] ∧
      ∀ orderID, p.orderID = some orderID → (viewOf s).orders.any (cancellable orderID) = true := by
  rw [run_handlePaymentEvent, verdict, if_neg unrecorded, unmatched] at run
  cases decided : phoneDecision evt s with
  | error e => rw [decided] at run; cases run
  | ok found =>
    rw [decided] at run
    cases found with
    | nothing =>
      cases run
      exact .inl rfl
    | customer customerID businessID =>
      by_cases accepted : Creditable evt businessID s
      · obtain ⟨amount, fits⟩ := Option.isSome_iff_exists.1 accepted.1
        obtain ⟨t', run', view⟩ := run_credits unrecorded decided fits accepted.2 fresh
        obtain rfl : t' = t := congrArg Prod.snd (run'.symm.trans run)
        rw [view]
        exact .inr ⟨_, rfl, fun _ absurd => nomatch absurd⟩
      · exact (run_credit_refused unrecorded fresh accepted (congrArg Prod.fst run)).elim
    | order c =>
      obtain ⟨o, ho, cust, hcust, id, isOpen, total, -, cid, cbusiness, -⟩ := phoneDecision_order decided
      obtain ⟨t', run', view⟩ := run_settles c.customerID c.businessID ho total unrecorded fresh
        (cbusiness ▸ businesses cust hcust) (Option.isSome_iff_exists.2 ⟨cust, Table.find?_eq_some.2 ⟨hcust, cid⟩⟩)
      rw [id] at run'
      obtain rfl : t' = t := congrArg Prod.snd (run'.symm.trans run)
      rw [view]
      refine .inr ⟨_, congrArg (· ++ _) View.settle_payments, fun orderID same => ?_⟩
      obtain rfl : o.id = orderID := Option.some.inj same
      refine List.any_eq_true.2 ⟨orderView o, List.mem_map_of_mem ho, ?_⟩
      simp [cancellable, orderView, isOpen]

/-- An attempt may stop between the settlement and the follow-ups. -/
theorem halts_after_settlement {o : Order} {customerID businessID : String} (ho : o ∈ db.orders.rows)
    (settles : verdict evt db = .settle o.id customerID businessID) :
    (handlePaymentEvent evt a).Halts exec db (settled evt.status o a.now db) := by
  refine (reads_handlePaymentEvent evt a db).halts ?_
  rw [settles]
  exact Halts.after (run_settleReconciledOrder ho) (.crash _ _ _)

/-- An attempt may stop between the insert and the preferred network. -/
theorem halts_after_credit {customerID businessID : String} {db' : Database} (success : evt.status = .success)
    (bank : evt.authorizationBank ≠ "") (credits : verdict evt db = .credit customerID businessID)
    (inserts : exec (.insertPayment (paymentInsertOf evt a businessID (credited customerID businessID))) db = (.ok (), db')) :
    (handlePaymentEvent evt a).Halts exec db db' := by
  refine (reads_handlePaymentEvent evt a db).halts ?_
  rw [credits]
  have first : (call (I := store) (.insertPayment (paymentInsertOf evt a businessID (credited customerID businessID)))).attempt.run
      exec db = (.ok (.ok ()), db') := by
    rw [run_attempt, run_call, inserts]
  show (insertPaymentRow evt a businessID (credited customerID businessID)).Halts exec _ _
  unfold insertPaymentRow
  refine Halts.after first ?_
  show (afterPayment evt a businessID (credited customerID businessID)).Halts exec _ _
  unfold afterPayment recordNetwork
  simp only [if_pos (And.intro success bank)]
  exact .crash _ _ _

/-- A match by phone cannot be retried: once the order is settled, no attempt finds it again. -/
theorem not_retrySafe_of_phone (references : ReferencesHold db) (h : MatchesByPhone evt db) : ¬ RetrySafe evt db := by
  obtain ⟨unrecorded, unmatched, c, decided⟩ := h
  intro safe
  obtain ⟨o, ho, cust, hcust, id, isOpen, total, -, cid, cbusiness, -⟩ := phoneDecision_order decided
  obtain ⟨a, fresh⟩ := exists_fresh db
  have settles : verdict evt db = .settle o.id c.customerID c.businessID := by
    rw [verdict, if_neg unrecorded, unmatched, decided, id]
    rfl
  have business : (db.businesses.find? c.businessID).isSome = true := cbusiness ▸ references.customerBusiness cust hcust
  have customer : (db.customers.find? c.customerID).isSome = true :=
    Option.isSome_iff_exists.2 ⟨cust, Table.find?_eq_some.2 ⟨hcust, cid⟩⟩
  obtain ⟨db₁, run, view⟩ := run_settles c.customerID c.businessID ho total unrecorded fresh business customer
  rw [← settles, ← run_handlePaymentEvent] at run
  have halted := halts_after_settlement (a := a) ho settles
  have unmatched' := referenceMatch_settled evt.status o a.now unmatched
  have closed : (viewOf (settled evt.status o a.now db)).orders.any (cancellable o.id) = false := by
    rw [viewOf_settled evt.status a.now ho]
    exact View.settle_closed
  obtain ⟨orders, conversations, domainEvents, frame⟩ := settled_frame evt.status o a.now db
  rw [frame] at halted unmatched' closed
  obtain ⟨t, retry, reached⟩ := safe.after_crash fresh run view halted ⟨fresh.payment, fresh.outbound⟩
  have aimed : (viewOf t).payments = (viewOf db).payments ++
      [rowView evt c.businessID (matched c.customerID c.businessID o.id) o.totalAmount] := by
    rw [reached]
    exact congrArg (· ++ _) View.settle_payments
  have recordedFor := payments_of_phone (s := { db with orders := orders, conversations := conversations, domainEvents := domainEvents })
    references.customerBusiness unrecorded unmatched' ⟨fresh.payment, fresh.outbound⟩ retry
  rcases recordedFor with unchanged | ⟨p, recordedFor, onlyOpen⟩
  · have := congrArg List.length (unchanged.symm.trans aimed)
    rw [List.length_append, List.length_singleton] at this
    exact Nat.ne_of_lt (Nat.lt_succ_self _) this
  · have same := List.append_cancel_left (recordedFor.symm.trans aimed)
    obtain rfl := (List.cons_eq_cons.1 same).1
    rw [onlyOpen o.id rfl] at closed
    cases closed

/-- A credit without a reference cannot be retried once its row is in: the next attempt writes another. -/
theorem not_retrySafe_of_credit (h : CreditsAgain evt db) : ¬ RetrySafe evt db := by
  obtain ⟨unreferenced, success, bank, customerID, businessID, decided, accepted⟩ := h
  intro safe
  obtain ⟨amount, fits⟩ := Option.isSome_iff_exists.1 accepted.1
  obtain ⟨a, fresh⟩ := exists_fresh db
  have never : ∀ t, ¬ recorded evt t := fun t seen => seen.1 unreferenced
  have credits : ∀ t, phoneDecision evt t = .ok (.customer customerID businessID) →
      verdict evt t = .credit customerID businessID := by
    intro t decided
    rw [verdict, if_neg (never t), referenceMatch, if_pos unreferenced, decided]
    rfl
  obtain ⟨db₁, run, view⟩ := run_credits (never db) decided fits accepted.2 fresh
  rw [← credits db decided, ← run_handlePaymentEvent] at run
  obtain ⟨cust, hcust, cid⟩ := phoneDecision_customer decided
  obtain ⟨payments, inserts, rows⟩ := exec_insertPayment evt a businessID (credited customerID businessID) db fits fresh.payment
    (never db) ⟨fun _ same => Option.some.inj same ▸ accepted.2,
      fun _ same => Option.some.inj same ▸ Option.isSome_iff_exists.2 ⟨cust, Table.find?_eq_some.2 ⟨hcust, cid⟩⟩,
      fun _ absurd => nomatch absurd⟩
  have halted := halts_after_credit success bank (credits db decided) inserts
  obtain ⟨a', fresh'⟩ := exists_fresh { db with payments := payments }
  obtain ⟨t, retry, reached⟩ := safe.after_crash fresh run view halted fresh'
  obtain ⟨t', again, view'⟩ := run_credits (s := { db with payments := payments }) (never _) decided fits accepted.2 fresh'
  rw [← credits { db with payments := payments } decided, ← run_handlePaymentEvent] at again
  obtain rfl : t' = t := congrArg Prod.snd (again.symm.trans retry)
  have twice := congrArg (fun v => v.payments.length) (view'.symm.trans reached)
  simp only [View.record, viewOf, rows, List.map_append, List.length_append, List.length_map, List.length_singleton] at twice
  omega

end Crash

/-- Every other event can be retried. -/
theorem retrySafe_of_not {evt : NormalisedPaymentEvent} {db : Database} (references : ReferencesHold db)
    (byPhone : ¬ MatchesByPhone evt db) (again : ¬ CreditsAgain evt db) : RetrySafe evt db := by
  by_cases seen : recorded evt db
  · exact (resumes_inert (.inl (by rw [verdict, if_pos seen]))).retrySafe rfl
  cases hm : referenceMatch evt db with
  | some r =>
    obtain ⟨named, o, ho, -, -, id, -, total, -⟩ := referenceMatch_eq_some hm
    exact (resumes_referenced ho id.symm (id ▸ named) total seen references).retrySafe (.inl (.start ho))
  | none =>
    have phone : verdict evt db = phoneVerdict (phoneDecision evt db) := by rw [verdict, if_neg seen, hm]
    -- an attempt that fails from the start has no uninterrupted run to compare with
    have fails : (∀ a, Fresh a db → (((phoneVerdict (phoneDecision evt db)).program evt a).run exec db).1 ≠ .ok ()) →
        RetrySafe evt db := by
      intro fails a₀ db₁ fresh₀ run
      rw [run_handlePaymentEvent, phone] at run
      exact (fails a₀ fresh₀ (by rw [run])).elim
    cases decided : phoneDecision evt db with
    | error e =>
      rw [decided] at fails
      exact fails fun a _ absurd => nomatch absurd
    | ok found =>
      rw [decided] at phone fails
      cases found with
      | nothing => exact (resumes_inert (.inr phone)).retrySafe rfl
      | order c => exact (byPhone ⟨seen, hm, c, decided⟩).elim
      | customer customerID businessID =>
        by_cases accepted : Creditable evt businessID db
        · obtain ⟨amount, fits⟩ := Option.isSome_iff_exists.1 accepted.1
          refine (resumes_credit seen hm decided fits accepted.2 fun unreferenced success => ?_).retrySafe (.inl rfl)
          exact again ⟨unreferenced, success.1, success.2, customerID, businessID, decided, accepted⟩
        · exact fails fun a fresh => run_credit_refused seen fresh accepted

/-- For every event and all tables: retrying the event is safe exactly when it settles no order found by phone and
credits no customer without a reference before another statement. -/
theorem retrySafe_iff {evt : NormalisedPaymentEvent} {db : Database} (references : ReferencesHold db) :
    RetrySafe evt db ↔ ¬ MatchesByPhone evt db ∧ ¬ CreditsAgain evt db := by
  constructor
  · intro safe
    exact ⟨fun byPhone => not_retrySafe_of_phone references byPhone safe, fun again => not_retrySafe_of_credit again safe⟩
  · rintro ⟨byPhone, again⟩
    exact retrySafe_of_not references byPhone again

/-- The shop after its customer's order. -/
def invoiced : Database := runJobs [orderOne "order-1" "m1"] shop

theorem referencesHold_invoiced : ReferencesHold invoiced := ⟨by decide +kernel, by decide +kernel, by decide +kernel⟩

theorem retrySafe_by_reference : RetrySafe (chargeOf "charge.success" "order-1" 500 "GHS") invoiced := by
  refine (retrySafe_iff referencesHold_invoiced).2 ⟨?_, ?_⟩
  · rintro ⟨-, unmatched, -⟩
    revert unmatched
    decide +kernel
  · rintro ⟨unreferenced, -⟩
    exact absurd unreferenced (by decide)

/-- A charge under Paystack's own reference settles the order it finds by phone; after a crash it is not recorded. -/
theorem phone_match_not_retried : ¬ RetrySafe (chargeOf "charge.success" "txn-1" 500 "GHS") invoiced := by
  refine not_retrySafe_of_phone referencesHold_invoiced ⟨by decide +kernel, by decide +kernel, ⟨"cust", "biz", "order-1"⟩, ?_⟩
  have decided : (phoneDecision (chargeOf "charge.success" "txn-1" 500 "GHS") invoiced).toOption =
    some (.order ⟨"cust", "biz", "order-1"⟩) := by decide +kernel
  cases h : phoneDecision (chargeOf "charge.success" "txn-1" 500 "GHS") invoiced with
  | error e => rw [h] at decided; cases decided
  | ok found =>
    rw [h] at decided
    exact congrArg Except.ok (Option.some.inj decided)

end NovoApex.Payments
