import NovoApex.Lib.Guarded
import NovoApex.Workers.PaymentEvents

/-!
# What a payment event decides

The reads of `HandlePaymentEvent` come before its writes, so an attempt is its
`verdict` on the tables followed by the writes of that verdict. A run, and every
attempt that fails on the way, is analysed verdict by verdict.
-/

namespace NovoApex.Payments
set_option autoImplicit false
open Lib Program Workers Paystack

/-- The payer's phone. -/
abbrev phoneOf (evt : NormalisedPaymentEvent) : String := customerPhoneFromRaw evt.rawJSON

/-- The event's amount. -/
abbrev amountOf (evt : NormalisedPaymentEvent) : ℚ := fromMinorUnits evt.amountMinor

/-- The order strategy A settles: the one referenced, if its total is the amount. -/
def referenceMatch (evt : NormalisedPaymentEvent) (db : Database) : Option ReferencedOrder :=
  if evt.reference = "" then none
  else (orderByReference evt.reference db).filter fun o => decide (o.totalAmount.toDecimal = amountOf evt)

/-- What strategy B decides. -/
def phoneDecision (evt : NormalisedPaymentEvent) (db : Database) : Except Err PhoneMatch :=
  if phoneOf evt = "" then .ok .nothing
  else (scanPhoneRows (amountOf evt) (phoneRows (phoneOf evt) evt.businessID db)).map (phoneMatch evt.businessID)

/-- The event's reference has its payments row. -/
def recorded (evt : NormalisedPaymentEvent) (db : Database) : Prop :=
  evt.reference ≠ "" ∧ (paymentByReference evt.reference db).isSome = true

instance (evt : NormalisedPaymentEvent) (db : Database) : Decidable (recorded evt db) :=
  inferInstanceAs (Decidable (_ ∧ _))

/-- What the reads of an attempt decide. -/
inductive Verdict where
  | recorded
  | settle (orderID customerID businessID : String)
  | credit (customerID businessID : String)
  | unknown
  | unreadable (e : Err)
  deriving DecidableEq

/-- The verdict of the phone match. -/
def phoneVerdict : Except Err PhoneMatch → Verdict
  | .ok (.order c) => .settle c.orderID c.customerID c.businessID
  | .ok (.customer customerID businessID) => .credit customerID businessID
  | .ok .nothing => .unknown
  | .error e => .unreadable e

/-- The verdict of an event on the tables. -/
def verdict (evt : NormalisedPaymentEvent) (db : Database) : Verdict :=
  if recorded evt db then .recorded
  else match referenceMatch evt db with
    | some o => .settle evt.reference o.customerID o.businessID
    | none => phoneVerdict (phoneDecision evt db)

/-- The writes of a verdict. -/
def Verdict.program (evt : NormalisedPaymentEvent) (a : Attempt) : Verdict → Handler Unit
  | recorded => pure ()
  | settle orderID customerID businessID => do
    settleReconciledOrder evt.status orderID a.now
    recordPayment evt a ⟨some customerID, some businessID, some orderID⟩
  | credit customerID businessID => recordPayment evt a ⟨some customerID, some businessID, none⟩
  | unknown => pure ()
  | unreadable e => raise e

section Reads

variable {evt : NormalisedPaymentEvent} {a : Attempt} {db : Database}

theorem reads_strategyB (known : phoneOf evt ≠ "") :
    Reads exec db ((strategyB evt a.now).bind (recordPayment evt a)) ((phoneVerdict (phoneDecision evt db)).program evt a) := by
  unfold strategyB phoneDecision
  rw [bind_eq, Program.bind_assoc, if_neg known]
  refine reads_call rfl ?_
  cases scanPhoneRows (amountOf evt) (phoneRows (phoneOf evt) evt.businessID db) with
  | error e => exact .refl _
  | ok scan =>
    unfold phoneVerdict Except.map
    simp only
    cases phoneMatch evt.businessID scan with
    | order c =>
      simp only [bind_eq]
      rw [Program.bind_assoc]
      exact .refl _
    | customer customerID businessID => exact .refl _
    | nothing => exact .refl _

theorem reads_process (fresh : ¬ recorded evt db) :
    Reads exec db ((reconcile evt a.now).bind (recordPayment evt a)) ((verdict evt db).program evt a) := by
  unfold verdict
  rw [if_neg fresh]
  -- without a match by reference the phone decides
  have phone : ∀ m : Attribution, m = Attribution.none →
      Reads exec db ((if m.orderID.isNone && decide (phoneOf evt ≠ "") then strategyB evt a.now else pure m :
        Handler Attribution).bind (recordPayment evt a)) ((phoneVerdict (phoneDecision evt db)).program evt a) := by
    rintro m rfl
    by_cases known : phoneOf evt = ""
    · unfold phoneDecision
      rw [if_pos known]
      simp only [known, Attribution.none]
      exact .refl _
    · simp only [known, Attribution.none, Option.isNone_none, ne_eq, not_false_eq_true, decide_true, Bool.and_self, if_true]
      exact reads_strategyB known
  unfold reconcile strategyA referenceMatch
  by_cases unreferenced : evt.reference = ""
  · simp only [unreferenced, if_true]
    exact phone _ rfl
  · rw [if_neg unreferenced, if_neg unreferenced, bind_eq, bind_eq, Program.bind_assoc, Program.bind_assoc]
    refine reads_call rfl ?_
    cases orderByReference evt.reference db with
    | none => exact phone _ rfl
    | some o =>
      simp only
      by_cases total : o.totalAmount.toDecimal = amountOf evt
      · rw [if_pos total]
        simp only [Option.filter, total, decide_true, if_true, bind_eq]
        rw [Program.bind_assoc]
        exact .refl _
      · rw [if_neg total]
        simp only [Option.filter, total, decide_false, Bool.false_eq_true, if_false]
        exact phone _ rfl

/-- An attempt reads its way to the writes of its verdict. -/
theorem reads_handlePaymentEvent (evt : NormalisedPaymentEvent) (a : Attempt) (db : Database) :
    Reads exec db (handlePaymentEvent evt a) ((verdict evt db).program evt a) := by
  unfold handlePaymentEvent
  simp only
  by_cases unreferenced : evt.reference = ""
  · rw [if_pos unreferenced]
    exact reads_process fun h => h.1 unreferenced
  · rw [if_neg unreferenced]
    refine reads_call rfl ?_
    cases found : paymentByReference evt.reference db with
    | some id =>
      have seen : recorded evt db := ⟨unreferenced, by rw [found]; rfl⟩
      unfold verdict
      rw [if_pos seen]
      exact .refl _
    | none =>
      refine reads_process fun h => ?_
      have := h.2
      rw [found] at this
      cases this

end Reads

/-- An undisturbed attempt runs the writes of its verdict. -/
theorem run_handlePaymentEvent (evt : NormalisedPaymentEvent) (a : Attempt) (db : Database) :
    (handlePaymentEvent evt a).run exec db = ((verdict evt db).program evt a).run exec db :=
  (reads_handlePaymentEvent evt a db).run

/-- The event names an order over its amount. -/
theorem referenceMatch_of_order {evt : NormalisedPaymentEvent} {db : Database} {o : Order} (ho : o ∈ db.orders.rows)
    (ref : evt.reference = o.id) (named : o.id ≠ "") (customer : (db.customers.find? o.customerID).isSome = true) :
    referenceMatch evt db =
      if o.totalAmount.toDecimal = amountOf evt then some ⟨o.businessID, o.customerID, o.totalAmount⟩ else none := by
  have found : db.orders.find? evt.reference = some o := Table.find?_eq_some.2 ⟨ho, ref.symm⟩
  obtain ⟨cust, hcust⟩ := Option.isSome_iff_exists.1 customer
  unfold referenceMatch orderByReference
  rw [if_neg (ref ▸ named), found, Option.bind_some, hcust, Option.map_some]
  simp [Option.filter]

/-- The verdict on an event that names an order: by reference over its total, by phone otherwise. -/
theorem verdict_of_order {evt : NormalisedPaymentEvent} {db : Database} {o : Order} (ho : o ∈ db.orders.rows)
    (ref : evt.reference = o.id) (named : o.id ≠ "") (unrecorded : ¬ recorded evt db)
    (customer : (db.customers.find? o.customerID).isSome = true) :
    verdict evt db = if o.totalAmount.toDecimal = amountOf evt then .settle o.id o.customerID o.businessID
      else phoneVerdict (phoneDecision evt db) := by
  unfold verdict
  rw [if_neg unrecorded, referenceMatch_of_order ho ref named customer]
  by_cases total : o.totalAmount.toDecimal = amountOf evt
  · simp only [if_pos total, ref]
  · simp only [if_neg total]

/-! ## What the matches found -/

/-- The row and the candidate speak of the same order, and its total is the amount. -/
def PhoneRow.Backs (amount : ℚ) (row : PhoneRow) (c : Candidate) : Prop :=
  row.customerID = c.customerID ∧ row.businessID = c.businessID ∧
    ∃ total, row.order = some (c.orderID, total) ∧ total.toDecimal = amount

theorem scanPhoneRow_ok {amount : ℚ} {acc acc' : PhoneScan} {row : PhoneRow} (h : scanPhoneRow amount acc row = .ok acc') :
    (∀ c ∈ acc'.candidates, c ∈ acc.candidates ∨ PhoneRow.Backs amount row c) ∧
      ∀ k ∈ acc'.customers, k ∈ acc.customers ∨ k = (row.customerID, row.businessID) := by
  unfold scanPhoneRow at h
  split at h
  · cases h
  · rename_i orderID total horder
    cases h
    refine ⟨fun c hc => ?_, fun k hk => ?_⟩
    · simp only at hc
      split at hc
      · rcases List.mem_append.1 hc with hc | hc
        · exact .inl hc
        · obtain rfl := List.mem_singleton.1 hc
          exact .inr ⟨rfl, rfl, total, horder, ‹_›⟩
      · exact .inl hc
    · simp only at hk
      split at hk
      · exact .inl hk
      · rcases List.mem_append.1 hk with hk | hk
        · exact .inl hk
        · exact .inr (List.mem_singleton.1 hk)

/-- Every candidate and every customer of a scan comes from one of the rows. -/
theorem scanPhoneRows_ok {amount : ℚ} {rows : List PhoneRow} {scan : PhoneScan} (h : scanPhoneRows amount rows = .ok scan) :
    (∀ c ∈ scan.candidates, ∃ row ∈ rows, PhoneRow.Backs amount row c) ∧
      ∀ k ∈ scan.customers, ∃ row ∈ rows, k = (row.customerID, row.businessID) := by
  have fold : ∀ (rows : List PhoneRow) (acc : PhoneScan), rows.foldlM (scanPhoneRow amount) acc = .ok scan →
      (∀ c ∈ scan.candidates, c ∈ acc.candidates ∨ ∃ row ∈ rows, PhoneRow.Backs amount row c) ∧
        ∀ k ∈ scan.customers, k ∈ acc.customers ∨ ∃ row ∈ rows, k = (row.customerID, row.businessID) := by
    intro rows
    induction rows with
    | nil =>
      intro acc h
      cases h
      exact ⟨fun c hc => .inl hc, fun k hk => .inl hk⟩
    | cons row rest ih =>
      intro acc h
      rw [List.foldlM_cons, NovoApex.bind_eq_ok] at h
      obtain ⟨mid, first, then_⟩ := h
      obtain ⟨candidates, customers⟩ := ih mid then_
      obtain ⟨candidates₁, customers₁⟩ := scanPhoneRow_ok first
      refine ⟨fun c hc => ?_, fun k hk => ?_⟩
      · rcases candidates c hc with hc | ⟨r, hr, backs⟩
        · rcases candidates₁ c hc with hc | backs
          · exact .inl hc
          · exact .inr ⟨row, List.mem_cons_self, backs⟩
        · exact .inr ⟨r, List.mem_cons_of_mem _ hr, backs⟩
      · rcases customers k hk with hk | ⟨r, hr, same⟩
        · rcases customers₁ k hk with hk | same
          · exact .inl hk
          · exact .inr ⟨row, List.mem_cons_self, same⟩
        · exact .inr ⟨r, List.mem_cons_of_mem _ hr, same⟩
  obtain ⟨candidates, customers⟩ := fold rows ⟨[], []⟩ h
  refine ⟨fun c hc => ?_, fun k hk => ?_⟩
  · rcases candidates c hc with hc | found
    · cases hc
    · exact found
  · rcases customers k hk with hk | found
    · cases hk
    · exact found

/-- A row of strategy B's query is about a customer with the payer's phone, and its order is open and theirs. -/
theorem mem_phoneRows {phone businessID : String} {db : Database} {row : PhoneRow} (h : row ∈ phoneRows phone businessID db) :
    ∃ cust ∈ db.customers.rows, cust.phone = phone ∧ cust.id = row.customerID ∧ cust.businessID = row.businessID ∧
      (businessID = "" ∨ cust.businessID = businessID) ∧
      ∀ orderID total, row.order = some (orderID, total) →
        ∃ o ∈ db.orders.rows, o.id = orderID ∧ o.customerID = cust.id ∧ o.status.isOpen = true ∧ o.totalAmount = total := by
  unfold phoneRows at h
  obtain ⟨cust, hcust, hrow⟩ := List.mem_flatMap.1 h
  unfold phoneCustomers at hcust
  obtain ⟨hmem, sel⟩ := List.mem_filter.1 hcust
  simp only [Bool.and_eq_true, Bool.or_eq_true, decide_eq_true_eq] at sel
  refine ⟨cust, hmem, sel.1, ?_⟩
  unfold phoneRowsOf at hrow
  split at hrow
  · obtain rfl := List.mem_singleton.1 hrow
    exact ⟨rfl, rfl, sel.2, fun orderID total absurd => nomatch absurd⟩
  · obtain ⟨o, ho, rfl⟩ := List.mem_map.1 hrow
    refine ⟨rfl, rfl, sel.2, fun orderID total same => ?_⟩
    cases same
    unfold newestOpenOrders at ho
    have sorted := List.mem_of_mem_take ho
    rw [List.mem_insertionSort, List.mem_filter] at sorted
    simp only [Bool.and_eq_true, decide_eq_true_eq] at sorted
    exact ⟨o, sorted.1, rfl, sorted.2.1, sorted.2.2, rfl⟩

/-- The order strategy B settles: open, of a customer with the payer's phone, over the amount. -/
theorem phoneDecision_order {evt : NormalisedPaymentEvent} {db : Database} {c : Candidate}
    (h : phoneDecision evt db = .ok (.order c)) :
    ∃ o ∈ db.orders.rows, ∃ cust ∈ db.customers.rows, o.id = c.orderID ∧ o.status.isOpen = true ∧
      o.totalAmount.toDecimal = amountOf evt ∧ o.customerID = cust.id ∧ cust.id = c.customerID ∧
      cust.businessID = c.businessID ∧ cust.phone = phoneOf evt := by
  unfold phoneDecision at h
  split at h
  · cases h
  · cases hs : scanPhoneRows (amountOf evt) (phoneRows (phoneOf evt) evt.businessID db) with
    | error e => rw [hs] at h; cases h
    | ok scan =>
      rw [hs] at h
      have matched : phoneMatch evt.businessID scan = .order c := Except.ok.inj h
      have candidate : c ∈ scan.candidates := by
        unfold phoneMatch at matched
        split at matched
        · rename_i single
          cases matched
          rw [single]
          exact List.mem_singleton_self _
        · cases matched
        · split at matched <;> cases matched
      obtain ⟨row, hrow, sameCustomer, sameBusiness, total, order, amount⟩ := (scanPhoneRows_ok hs).1 c candidate
      obtain ⟨cust, hcust, phone, id, business, -, orders⟩ := mem_phoneRows hrow
      obtain ⟨o, ho, oid, ocust, isOpen, ototal⟩ := orders _ _ order
      exact ⟨o, ho, cust, hcust, oid, isOpen, ototal ▸ amount, ocust, id.trans sameCustomer, business.trans sameBusiness, phone⟩

/-- The order strategy A settles: the one referenced, over the amount. -/
theorem referenceMatch_eq_some {evt : NormalisedPaymentEvent} {db : Database} {r : ReferencedOrder}
    (h : referenceMatch evt db = some r) :
    evt.reference ≠ "" ∧ ∃ o ∈ db.orders.rows, ∃ cust ∈ db.customers.rows, o.id = evt.reference ∧ o.customerID = cust.id ∧
      o.totalAmount.toDecimal = amountOf evt ∧ r = ⟨o.businessID, o.customerID, o.totalAmount⟩ := by
  unfold referenceMatch at h
  split at h
  · cases h
  · rename_i referenced
    obtain ⟨found, total⟩ := Option.filter_eq_some_iff.1 h
    obtain ⟨o, ho, joined⟩ := Option.bind_eq_some_iff.1 found
    obtain ⟨cust, hcust, rfl⟩ := Option.map_eq_some_iff.1 joined
    obtain ⟨homem, oid⟩ := Table.find?_eq_some.1 ho
    obtain ⟨hcmem, cid⟩ := Table.find?_eq_some.1 hcust
    exact ⟨referenced, o, homem, cust, hcmem, oid, cid.symm, of_decide_eq_true total, rfl⟩

end NovoApex.Payments
