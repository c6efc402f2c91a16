import NovoApex.Payments.Retry

/-!
# Matches by the payer's phone

Strategy B should settle the only open order over the amount among the customers
with the payer's phone, or credit the only customer when there is none. It reads
five orders a customer, and no row of a customer without open orders:
`attributes_iff` says when that makes a difference.
-/

namespace NovoApex.Payments
set_option autoImplicit false
open Lib Program Workers Paystack Orders

/-- The customers an event may come from. -/
abbrev payers (evt : NormalisedPaymentEvent) (db : Database) : List Customer := phoneCustomers (phoneOf evt) evt.businessID db

/-- The open orders of a customer. -/
def openOrders (db : Database) (c : Customer) : List Order :=
  db.orders.rows.filter fun o => decide (o.customerID = c.id) && o.status.isOpen

/-- The open orders over the amount, of all customers the event may come from. -/
def openMatches (evt : NormalisedPaymentEvent) (db : Database) : List Order :=
  db.orders.rows.filter fun o => o.status.isOpen && decide (o.totalAmount.toDecimal = amountOf evt) &&
    decide (∃ c ∈ payers evt db, o.customerID = c.id)

/-- Those among the five newest open orders of each customer. -/
def newestMatches (evt : NormalisedPaymentEvent) (db : Database) : List (Customer × Order) :=
  (payers evt db).flatMap fun c =>
    ((newestOpenOrders db c.id).filter fun o => decide (o.totalAmount.toDecimal = amountOf evt)).map fun o => (c, o)

/-- An attempt settles an order: it is settled with its conversation and follow-ups, and its payment is recorded for its customer. -/
def Settles (evt : NormalisedPaymentEvent) (a : Attempt) (db : Database) (o : Order) : Prop :=
  ∃ c ∈ db.customers.rows, c.id = o.customerID ∧
    viewOf ((handlePaymentEvent evt a).run exec db).2 = matchView evt o c.id c.businessID (viewOf db)

/-- An attempt records one unreconciled payment for a customer and writes nothing else. -/
def Credits (evt : NormalisedPaymentEvent) (a : Attempt) (db : Database) (c : Customer) : Prop :=
  ∃ amount : Money, Numeric.ofDecimal (amountOf evt) = some amount ∧
    viewOf ((handlePaymentEvent evt a).run exec db).2 =
      (viewOf db).record (rowView evt c.businessID (credited c.id c.businessID) amount)

/-- What an attempt at an event that is known by its phone only should do. -/
structure Attributes (evt : NormalisedPaymentEvent) (a : Attempt) (db : Database) : Prop where
  answers : ((handlePaymentEvent evt a).run exec db).1 = .ok ()
  settles : ∀ o ∈ db.orders.rows, Settles evt a db o ↔ openMatches evt db = [o]
  credits : openMatches evt db = [] → ∀ c, payers evt db = [c] → Credits evt a db c
  nothing : 2 ≤ (openMatches evt db).length ∨ openMatches evt db = [] ∧ 2 ≤ (payers evt db).length →
    ((handlePaymentEvent evt a).run exec db).2 = db

/-- The tables on which it does: every customer has an open order, and the five newest orders of each decide as all would.
An event whose reference is recorded already is skipped. -/
structure Attributable (evt : NormalisedPaymentEvent) (db : Database) : Prop where
  readable : ¬ recorded evt db → ∀ c ∈ payers evt db, openOrders db c ≠ []
  one : (openMatches evt db).length = 1 → ¬ recorded evt db ∧ (newestMatches evt db).length = 1
  free : openMatches evt db = [] → (payers evt db).length = 1 → ¬ recorded evt db
  several : ¬ recorded evt db → 2 ≤ (openMatches evt db).length →
    (newestMatches evt db).length ≠ 1 ∧ (newestMatches evt db = [] → (payers evt db).length ≠ 1)

section Scan

variable {evt : NormalisedPaymentEvent} {db : Database} {amount : ℚ}

/-- A row without an order is an error of the scan. -/
theorem scanPhoneRows_null {rows : List PhoneRow} {row : PhoneRow} (mem : row ∈ rows) (null : row.order = none) :
    ∃ e, scanPhoneRows amount rows = .error e := by
  have fold : ∀ acc : PhoneScan, ∃ e, rows.foldlM (scanPhoneRow amount) acc = .error e := by
    induction rows with
    | nil => cases mem
    | cons first rest ih =>
      intro acc
      rw [List.foldlM_cons]
      rcases List.mem_cons.1 mem with rfl | later
      · refine ⟨.scanNull, ?_⟩
        unfold scanPhoneRow
        rw [null]
        rfl
      · cases step : scanPhoneRow amount acc first with
        | error e => exact ⟨e, rfl⟩
        | ok acc' => exact ih later acc'
  exact fold _

/-- The candidates among the orders of a customer. -/
def candidatesOf (amount : ℚ) (c : Customer) (orders : List Order) : List Candidate :=
  (orders.filter fun o => decide (o.totalAmount.toDecimal = amount)).map fun o => ⟨c.id, c.businessID, o.id⟩

/-- The orders of a customer that is already known add their candidates. -/
theorem scan_known {c : Customer} (orders : List Order) {acc : PhoneScan} (known : (c.id, c.businessID) ∈ acc.customers) :
    (orders.map fun o => (⟨c.id, c.businessID, some (o.id, o.totalAmount)⟩ : PhoneRow)).foldlM (scanPhoneRow amount) acc =
      .ok ⟨acc.customers, acc.candidates ++ candidatesOf amount c orders⟩ := by
  induction orders generalizing acc with
  | nil =>
    show _ = Except.ok (⟨acc.customers, acc.candidates ++ []⟩ : PhoneScan)
    rw [List.append_nil]
    rfl
  | cons o rest ih =>
    rw [List.map_cons, List.foldlM_cons]
    have step : scanPhoneRow amount acc ⟨c.id, c.businessID, some (o.id, o.totalAmount)⟩ =
        .ok ⟨acc.customers, acc.candidates ++ candidatesOf amount c [o]⟩ := by
      unfold scanPhoneRow candidatesOf
      by_cases total : o.totalAmount.toDecimal = amount
      · simp [known, total]
      · simp [known, total]
    have split_ : candidatesOf amount c (o :: rest) = candidatesOf amount c [o] ++ candidatesOf amount c rest := by
      unfold candidatesOf
      rw [← List.map_append, ← List.filter_append]
      rfl
    rw [step, split_, ← List.append_assoc]
    exact @ih ⟨acc.customers, acc.candidates ++ candidatesOf amount c [o]⟩ known

/-- The orders of a new customer add the customer and their candidates. -/
theorem scan_new {c : Customer} {orders : List Order} (some_ : orders ≠ []) {acc : PhoneScan}
    (new : (c.id, c.businessID) ∉ acc.customers) :
    (orders.map fun o => (⟨c.id, c.businessID, some (o.id, o.totalAmount)⟩ : PhoneRow)).foldlM (scanPhoneRow amount) acc =
      .ok ⟨acc.customers ++ [(c.id, c.businessID)], acc.candidates ++ candidatesOf amount c orders⟩ := by
  obtain ⟨o, rest, rfl⟩ := List.exists_cons_of_ne_nil some_
  have known := @scan_known amount c (o :: rest)
    ⟨acc.customers ++ [(c.id, c.businessID)], acc.candidates⟩ (List.mem_append_right _ (List.mem_singleton_self _))
  rw [List.map_cons, List.foldlM_cons] at known ⊢
  rw [← known]
  -- the first row leaves the same accumulators either way
  have first : scanPhoneRow amount acc ⟨c.id, c.businessID, some (o.id, o.totalAmount)⟩ =
      scanPhoneRow amount ⟨acc.customers ++ [(c.id, c.businessID)], acc.candidates⟩
        ⟨c.id, c.businessID, some (o.id, o.totalAmount)⟩ := by
    unfold scanPhoneRow
    simp [new]
  rw [first]

/-- The customers whose orders are scanned have an open order each. -/
theorem newestOpenOrders_ne_nil {c : Customer} (h : openOrders db c ≠ []) : newestOpenOrders db c.id ≠ [] := by
  unfold openOrders at h
  unfold newestOpenOrders
  rw [← List.length_pos_iff] at h ⊢
  rw [List.length_take, List.length_insertionSort]
  omega

theorem openOrders_of_newest {c : Customer} (h : openOrders db c = []) : newestOpenOrders db c.id = [] := by
  unfold openOrders at h
  unfold newestOpenOrders
  rw [h]
  rfl

/-- Customers with an open order each are scanned one after the other. -/
theorem scan_customers {customers : List Customer} {acc : PhoneScan} (readable : ∀ c ∈ customers, openOrders db c ≠ [])
    (nodup : (customers.map Customer.id).Nodup) (new : ∀ c ∈ customers, ∀ k ∈ acc.customers, k.1 ≠ c.id) :
    (customers.flatMap (phoneRowsOf db)).foldlM (scanPhoneRow amount) acc =
      .ok ⟨acc.customers ++ customers.map fun c => (c.id, c.businessID),
        acc.candidates ++ customers.flatMap fun c => candidatesOf amount c (newestOpenOrders db c.id)⟩ := by
  induction customers generalizing acc with
  | nil => 
    show _ = Except.ok (⟨acc.customers ++ [], acc.candidates ++ []⟩ : PhoneScan)
    rw [List.append_nil, List.append_nil]
    rfl
  | cons c rest ih =>
    have some_ := newestOpenOrders_ne_nil (readable c List.mem_cons_self)
    have rows : phoneRowsOf db c = (newestOpenOrders db c.id).map fun o => ⟨c.id, c.businessID, some (o.id, o.totalAmount)⟩ := by
      unfold phoneRowsOf
      split
      · exact absurd ‹_› some_
      · rfl
    have fresh : (c.id, c.businessID) ∉ acc.customers := fun mem => new c List.mem_cons_self _ mem rfl
    rw [List.map_cons, List.nodup_cons] at nodup
    have later := @ih ⟨acc.customers ++ [(c.id, c.businessID)],
      acc.candidates ++ candidatesOf amount c (newestOpenOrders db c.id)⟩
      (fun d mem => readable d (List.mem_cons_of_mem c mem)) nodup.2 (by
        intro d mem k known
        rcases List.mem_append.1 known with known | known
        · exact new d (List.mem_cons_of_mem c mem) k known
        · rw [List.mem_singleton.1 known]
          intro same
          exact nodup.1 (List.mem_map.2 ⟨d, mem, same.symm⟩))
    rw [List.flatMap_cons, List.foldlM_append, rows, scan_new some_ fresh]
    refine Eq.trans later ?_
    rw [List.map_cons, List.flatMap_cons]
    simp only [List.append_assoc, List.singleton_append]

/-- The candidates are the matches among the newest orders. -/
theorem candidates_newest (evt : NormalisedPaymentEvent) (db : Database) :
    ((payers evt db).flatMap fun c => candidatesOf (amountOf evt) c (newestOpenOrders db c.id)) =
      (newestMatches evt db).map fun found => ⟨found.1.id, found.1.businessID, found.2.id⟩ := by
  unfold newestMatches candidatesOf
  rw [List.map_flatMap]
  simp only [List.map_map]
  rfl

theorem mem_newestMatches {c : Customer} {o : Order} (h : (c, o) ∈ newestMatches evt db) :
    c ∈ payers evt db ∧ o.customerID = c.id ∧ o ∈ openMatches evt db := by
  unfold newestMatches at h
  obtain ⟨c', payer, mem⟩ := List.mem_flatMap.1 h
  obtain ⟨o', found, same⟩ := List.mem_map.1 mem
  cases same
  obtain ⟨newest, total⟩ := List.mem_filter.1 found
  unfold newestOpenOrders at newest
  have sorted := List.mem_of_mem_take newest
  rw [List.mem_insertionSort, List.mem_filter] at sorted
  simp only [Bool.and_eq_true, decide_eq_true_eq] at sorted
  refine ⟨payer, sorted.2.1, List.mem_filter.2 ⟨sorted.1, ?_⟩⟩
  simp only [Bool.and_eq_true, decide_eq_true_eq] at total ⊢
  exact ⟨⟨sorted.2.2, total⟩, c, payer, sorted.2.1⟩

theorem mem_payers {c : Customer} (h : c ∈ payers evt db) : c ∈ db.customers.rows ∧ (evt.businessID ≠ "" → c.businessID = evt.businessID) := by
  obtain ⟨mem, sel⟩ := List.mem_filter.1 h
  simp only [Bool.and_eq_true, Bool.or_eq_true, decide_eq_true_eq] at sel
  exact ⟨mem, sel.2.resolve_left⟩

/-- The decision on customers with an open order each. -/
theorem phoneDecision_readable (known : phoneOf evt ≠ "") (readable : ∀ c ∈ payers evt db, openOrders db c ≠ []) :
    phoneDecision evt db = .ok (phoneMatch evt.businessID ⟨(payers evt db).map fun c => (c.id, c.businessID),
      (newestMatches evt db).map fun found => ⟨found.1.id, found.1.businessID, found.2.id⟩⟩) := by
  have nodup : ((payers evt db).map Customer.id).Nodup := by
    refine List.Nodup.sublist (List.Sublist.map _ (List.filter_sublist ..)) db.customers.unique
  have scan := @scan_customers db (amountOf evt) (payers evt db) ⟨[], []⟩ readable nodup fun _ _ _ mem => absurd mem List.not_mem_nil
  rw [candidates_newest] at scan
  unfold phoneDecision scanPhoneRows phoneRows
  rw [if_neg known]
  exact congrArg (Except.map (phoneMatch evt.businessID)) scan

/-- A customer without an open order is a row that does not scan. -/
theorem phoneDecision_unreadable (known : phoneOf evt ≠ "") {c : Customer} (payer : c ∈ payers evt db) (idle : openOrders db c = []) :
    ∃ e, phoneDecision evt db = .error e := by
  have row : (⟨c.id, c.businessID, none⟩ : PhoneRow) ∈ phoneRows (phoneOf evt) evt.businessID db := by
    refine List.mem_flatMap.2 ⟨c, payer, ?_⟩
    unfold phoneRowsOf
    rw [openOrders_of_newest idle]
    exact List.mem_singleton_self _
  obtain ⟨e, failed⟩ := @scanPhoneRows_null (amountOf evt) _ _ row rfl
  refine ⟨e, ?_⟩
  unfold phoneDecision
  rw [if_neg known, failed]
  rfl

end Scan

section Runs

variable {evt : NormalisedPaymentEvent} {a : Attempt} {db : Database}

/-- An event that is recorded or known by nothing writes nothing. -/
theorem run_idle (idle : verdict evt db = .recorded ∨ verdict evt db = .unknown) :
    (handlePaymentEvent evt a).run exec db = (.ok (), db) := by
  rw [run_handlePaymentEvent]
  rcases idle with idle | idle
  · rw [idle]
    rfl
  · rw [idle]
    rfl

theorem verdict_recorded (seen : recorded evt db) : verdict evt db = .recorded := by
  unfold verdict
  rw [if_pos seen]

/-- What a run is told apart by: the payments it leaves in the view. -/
theorem matchView_payments (evt : NormalisedPaymentEvent) (o : Order) (customerID businessID : String) (v : View) :
    (matchView evt o customerID businessID v).payments =
      v.payments ++ [rowView evt businessID (matched customerID businessID o.id) o.totalAmount] :=
  congrArg (· ++ _) View.settle_payments

theorem append_singleton_ne {α : Type} (l : List α) (x : α) : l ++ [x] ≠ l := by
  intro same
  have := congrArg List.length same
  rw [List.length_append, List.length_singleton] at this
  omega

/-- A run that writes nothing settles nothing and credits nobody. -/
theorem not_settles_same (same : ((handlePaymentEvent evt a).run exec db).2 = db) (o : Order) : ¬ Settles evt a db o := by
  rintro ⟨c, -, -, view⟩
  rw [same] at view
  have payments := congrArg View.payments view
  rw [matchView_payments] at payments
  exact append_singleton_ne _ _ payments.symm

theorem not_credits_same (same : ((handlePaymentEvent evt a).run exec db).2 = db) (c : Customer) : ¬ Credits evt a db c := by
  rintro ⟨amount, -, view⟩
  rw [same] at view
  exact append_singleton_ne _ _ (congrArg View.payments view).symm

/-- A run that credits a customer settles nothing. -/
theorem not_settles_credits {c : Customer} (credits : Credits evt a db c) (o : Order) : ¬ Settles evt a db o := by
  obtain ⟨amount, -, view⟩ := credits
  rintro ⟨c', -, -, view'⟩
  have payments := congrArg View.payments (view.symm.trans view')
  rw [matchView_payments] at payments
  have row := List.append_cancel_left payments
  cases congrArg Payment.orderID (List.cons.inj row).1

/-- A run settles one order. -/
theorem settles_unique {o o' : Order} (ho : o ∈ db.orders.rows) (ho' : o' ∈ db.orders.rows) (settles : Settles evt a db o)
    (settles' : Settles evt a db o') : o = o' := by
  obtain ⟨c, -, -, view⟩ := settles
  obtain ⟨c', -, -, view'⟩ := settles'
  have payments := congrArg View.payments (view.symm.trans view')
  rw [matchView_payments, matchView_payments] at payments
  have row := List.append_cancel_left payments
  have id : some o.id = some o'.id := congrArg Payment.orderID (List.cons.inj row).1
  exact Table.eq_of_key ho ho' (Option.some.inj id)

variable (known : phoneOf evt ≠ "") (unmatched : referenceMatch evt db = none) (unrecorded : ¬ recorded evt db)
include known unmatched unrecorded

theorem verdict_readable (readable : ∀ c ∈ payers evt db, openOrders db c ≠ []) :
    verdict evt db = phoneVerdict (.ok (phoneMatch evt.businessID ⟨(payers evt db).map fun c => (c.id, c.businessID),
      (newestMatches evt db).map fun found => ⟨found.1.id, found.1.businessID, found.2.id⟩⟩)) := by
  unfold verdict
  rw [if_neg unrecorded, unmatched, phoneDecision_readable known readable]

/-- A row that does not scan is an error. -/
theorem run_unreadable {c : Customer} (payer : c ∈ payers evt db) (idle : openOrders db c = []) :
    ((handlePaymentEvent evt a).run exec db).1 ≠ .ok () := by
  obtain ⟨e, failed⟩ := phoneDecision_unreadable known payer idle
  have unreadable : verdict evt db = .unreadable e := by
    unfold verdict
    rw [if_neg unrecorded, unmatched, failed]
    rfl
  rw [run_handlePaymentEvent, unreadable]
  exact fun absurd => by cases absurd

/-- The outcomes on customers with an open order each: one match among the newest is settled. -/
theorem run_one (fresh : Fresh a db) (references : ReferencesHold db) (readable : ∀ c ∈ payers evt db, openOrders db c ≠ [])
    {c : Customer} {o : Order} (one : newestMatches evt db = [(c, o)]) :
    ((handlePaymentEvent evt a).run exec db).1 = .ok () ∧ Settles evt a db o := by
  have decided := verdict_readable known unmatched unrecorded readable
  rw [one] at decided
  obtain ⟨payer, owner, match_⟩ := mem_newestMatches (one ▸ List.mem_singleton_self (c, o))
  obtain ⟨ho, sel⟩ := List.mem_filter.1 match_
  simp only [Bool.and_eq_true, decide_eq_true_eq] at sel
  have customer := (mem_payers payer).1
  obtain ⟨t, run, view⟩ := run_settles c.id c.businessID ho sel.1.2 unrecorded fresh (references.customerBusiness c customer)
    (Option.isSome_iff_exists.2 ⟨c, Table.find?_eq_some.2 ⟨customer, rfl⟩⟩)
  have settle : verdict evt db = .settle o.id c.id c.businessID := decided
  rw [← settle, ← run_handlePaymentEvent] at run
  refine ⟨by rw [run], c, customer, owner.symm, ?_⟩
  rw [run]
  exact view

/-- Without a match the only customer is credited. -/
theorem run_credit (fresh : Fresh a db) (references : ReferencesHold db)
    (fits : (Numeric.ofDecimal (amountOf evt) : Option Money).isSome = true)
    (readable : ∀ c ∈ payers evt db, openOrders db c ≠ []) {c : Customer} (none : newestMatches evt db = [])
    (one : payers evt db = [c]) : ((handlePaymentEvent evt a).run exec db).1 = .ok () ∧ Credits evt a db c := by
  obtain ⟨customer, own⟩ := mem_payers (one ▸ List.mem_singleton_self c)
  have business : (if evt.businessID ≠ "" then evt.businessID else c.businessID) = c.businessID := by
    split
    · rename_i named
      exact (own named).symm
    · rfl
  have matched := phoneDecision_readable known readable
  rw [none, one] at matched
  have decided : phoneDecision evt db = .ok (.customer c.id c.businessID) := by
    rw [matched]
    show Except.ok (PhoneMatch.customer c.id (if evt.businessID ≠ "" then evt.businessID else c.businessID)) = _
    rw [business]
  obtain ⟨amount, fits⟩ := Option.isSome_iff_exists.1 fits
  obtain ⟨t, run, view⟩ := run_credits unrecorded decided fits (references.customerBusiness c customer) fresh
  have credit : verdict evt db = .credit c.id c.businessID := by
    unfold verdict
    rw [if_neg unrecorded, unmatched, decided]
    rfl
  rw [← credit, ← run_handlePaymentEvent] at run
  refine ⟨by rw [run], amount, fits, ?_⟩
  rw [run]
  exact view

/-- Anything else is left alone. -/
theorem run_ambiguous (readable : ∀ c ∈ payers evt db, openOrders db c ≠ [])
    (ambiguous : 2 ≤ (newestMatches evt db).length ∨ newestMatches evt db = [] ∧ (payers evt db).length ≠ 1) :
    (handlePaymentEvent evt a).run exec db = (.ok (), db) := by
  have decided := verdict_readable known unmatched unrecorded readable
  refine run_idle (.inr ?_)
  rw [decided]
  rcases ambiguous with several | ⟨none, customers⟩
  · match found : newestMatches evt db, several with
    | _ :: _ :: _, _ => rfl
  · rw [none]
    match found : payers evt db, customers with
    | [], _ => rfl
    | _ :: _ :: _, _ => rfl
    | [c], absurd => exact (absurd rfl).elim

end Runs

section Main

variable {evt : NormalisedPaymentEvent} {a : Attempt} {db : Database}

/-- The only open match is among the newest when there is one there. -/
theorem openMatches_of_newest {c : Customer} {o : Order} (one : (openMatches evt db).length = 1) (found : (c, o) ∈ newestMatches evt db) :
    openMatches evt db = [o] := by
  obtain ⟨only, same⟩ := List.length_eq_one_iff.1 one
  have mem := (mem_newestMatches found).2.2
  rw [same] at mem ⊢
  rw [List.mem_singleton.1 mem]

theorem Attributable.attributes (h : Attributable evt db) (known : phoneOf evt ≠ "") (unmatched : referenceMatch evt db = none)
    (fresh : Fresh a db) (references : ReferencesHold db)
    (fits : (Numeric.ofDecimal (amountOf evt) : Option Money).isSome = true) : Attributes evt a db := by
  -- a run that writes nothing is right unless there is one match, or none and one customer
  have left : (handlePaymentEvent evt a).run exec db = (.ok (), db) → (openMatches evt db).length ≠ 1 →
      (openMatches evt db = [] → (payers evt db).length ≠ 1) → Attributes evt a db := by
    intro run notOne notCredit
    have same : ((handlePaymentEvent evt a).run exec db).2 = db := by rw [run]
    refine ⟨by rw [run], fun o _ => ⟨fun settles => (not_settles_same same o settles).elim, fun one => ?_⟩, ?_, fun _ => same⟩
    · rw [one] at notOne
      exact absurd rfl notOne
    · intro none c only
      have := notCredit none
      rw [only] at this
      exact absurd rfl this
  by_cases seen : recorded evt db
  · exact left (run_idle (.inl (verdict_recorded seen))) (fun one => (h.one one).1 seen) fun none only => h.free none only seen
  have readable := h.readable seen
  cases newest : newestMatches evt db with
  | nil =>
    have notOne : (openMatches evt db).length ≠ 1 := by
      intro one
      have := (h.one one).2
      rw [newest] at this
      cases this
    by_cases only : (payers evt db).length = 1
    · obtain ⟨c, only⟩ := List.length_eq_one_iff.1 only
      obtain ⟨answers, credits⟩ := run_credit known unmatched seen fresh references fits readable newest only
      refine ⟨answers, fun o _ => ⟨fun settles => (not_settles_credits credits o settles).elim, fun one => ?_⟩, ?_, ?_⟩
      · rw [one] at notOne
        exact absurd rfl notOne
      · intro _ c' only'
        obtain rfl : c = c' := (List.cons.inj (only.symm.trans only')).1
        exact credits
      · rintro (several | ⟨-, several⟩)
        · exact absurd (by rw [only]; rfl) ((h.several seen several).2 newest)
        · rw [only] at several
          exact absurd several (by simp)
    · exact left (run_ambiguous known unmatched seen readable (.inr ⟨newest, only⟩)) notOne fun _ => only
  | cons found rest =>
    obtain ⟨c, o⟩ := found
    have mem : (c, o) ∈ newestMatches evt db := newest ▸ List.mem_cons_self
    have inOpen := (mem_newestMatches mem).2.2
    have notNone : openMatches evt db ≠ [] := List.ne_nil_of_mem inOpen
    cases rest with
    | nil =>
      obtain ⟨answers, settles⟩ := run_one known unmatched seen fresh references readable newest
      have notSeveral : ¬ 2 ≤ (openMatches evt db).length := by
        intro several
        have := (h.several seen several).1
        rw [newest] at this
        exact this rfl
      have one : (openMatches evt db).length = 1 := by
        have := List.length_pos_iff.2 notNone
        omega
      have only := openMatches_of_newest one mem
      refine ⟨answers, fun o' ho' => ⟨fun settles' => ?_, fun only' => ?_⟩, fun none => absurd none notNone, ?_⟩
      · rw [← settles_unique (List.mem_filter.1 inOpen).1 ho' settles settles']
        exact only
      · obtain rfl : o = o' := (List.cons.inj (only.symm.trans only')).1
        exact settles
      · rintro (several | ⟨none, -⟩)
        · exact absurd several notSeveral
        · exact absurd none notNone
    | cons second rest =>
      have several : 2 ≤ (newestMatches evt db).length := by
        rw [newest]
        simp
      refine left (run_ambiguous known unmatched seen readable (.inl several)) (fun one => ?_) fun none => absurd none notNone
      have := (h.one one).2
      omega

theorem Attributes.attributable (h : Attributes evt a db) (known : phoneOf evt ≠ "") (unmatched : referenceMatch evt db = none)
    (fresh : Fresh a db) (references : ReferencesHold db)
    (fits : (Numeric.ofDecimal (amountOf evt) : Option Money).isSome = true) : Attributable evt db := by
  have readable : ¬ recorded evt db → ∀ c ∈ payers evt db, openOrders db c ≠ [] := fun seen c payer idle =>
    run_unreadable known unmatched seen payer idle h.answers
  have skipped : recorded evt db → ((handlePaymentEvent evt a).run exec db).2 = db := fun seen => by
    rw [run_idle (.inl (verdict_recorded seen))]
  -- outside the two writing cases a run leaves the tables
  have same_of : ¬ recorded evt db →
      2 ≤ (newestMatches evt db).length ∨ newestMatches evt db = [] ∧ (payers evt db).length ≠ 1 →
        ((handlePaymentEvent evt a).run exec db).2 = db := fun seen ambiguous => by
    rw [run_ambiguous known unmatched seen (readable seen) ambiguous]
  refine ⟨readable, fun one => ?_, fun none only => ?_, fun seen several => ⟨fun one => ?_, fun none only => ?_⟩⟩
  · obtain ⟨o, only⟩ := List.length_eq_one_iff.1 one
    have ho : o ∈ db.orders.rows := (List.mem_filter.1 (only ▸ List.mem_singleton_self o : o ∈ openMatches evt db)).1
    have settles := (h.settles o ho).2 only
    have seen : ¬ recorded evt db := fun seen => not_settles_same (skipped seen) o settles
    refine ⟨seen, ?_⟩
    by_contra notOne
    by_cases none : newestMatches evt db = []
    · by_cases single : (payers evt db).length = 1
      · obtain ⟨c, single⟩ := List.length_eq_one_iff.1 single
        exact not_settles_credits (run_credit known unmatched seen fresh references fits (readable seen) none single).2 o settles
      · exact not_settles_same (same_of seen (.inr ⟨none, single⟩)) o settles
    · have some_ := List.length_pos_iff.2 none
      exact not_settles_same (same_of seen (.inl (by omega))) o settles
  · intro seen
    obtain ⟨c, single⟩ := List.length_eq_one_iff.1 only
    exact not_credits_same (skipped seen) c (h.credits none c single)
  · obtain ⟨⟨c, o⟩, only⟩ := List.length_eq_one_iff.1 one
    have settles := (run_one known unmatched seen fresh references (readable seen) only).2
    exact not_settles_same (h.nothing (.inl several)) o settles
  · obtain ⟨c, single⟩ := List.length_eq_one_iff.1 only
    have credits := (run_credit known unmatched seen fresh references fits (readable seen) none single).2
    exact not_credits_same (h.nothing (.inl several)) c credits

/-- An event that is known by the payer's phone only is attributed as it should be exactly when every customer with the phone
has an open order and the five newest open orders of each decide as all of them would. -/
theorem attributes_iff (known : phoneOf evt ≠ "") (unmatched : referenceMatch evt db = none) (fresh : Fresh a db)
    (references : ReferencesHold db) (fits : (Numeric.ofDecimal (amountOf evt) : Option Money).isSome = true) :
    Attributes evt a db ↔ Attributable evt db :=
  ⟨fun h => h.attributable known unmatched fresh references fits, fun h => h.attributes known unmatched fresh references fits⟩

end Main

/-- What an attempt does by its own reading, the five newest open orders of each customer. -/
structure AttributesNewest (evt : NormalisedPaymentEvent) (a : Attempt) (db : Database) : Prop where
  answers : ((handlePaymentEvent evt a).run exec db).1 = .ok ()
  settles : ∀ o ∈ db.orders.rows, Settles evt a db o ↔ ∃ c, newestMatches evt db = [(c, o)]
  credits : newestMatches evt db = [] → ∀ c, payers evt db = [c] → Credits evt a db c
  nothing : 2 ≤ (newestMatches evt db).length ∨ newestMatches evt db = [] ∧ 2 ≤ (payers evt db).length →
    ((handlePaymentEvent evt a).run exec db).2 = db

/-- Among customers with an open order each, an event that is not recorded settles the only match among the newest open orders,
or credits the only customer when there is none; a recorded event is skipped. -/
theorem attributes_newest {evt : NormalisedPaymentEvent} {a : Attempt} {db : Database} (known : phoneOf evt ≠ "")
    (unmatched : referenceMatch evt db = none) (fresh : Fresh a db) (references : ReferencesHold db)
    (fits : (Numeric.ofDecimal (amountOf evt) : Option Money).isSome = true)
    (readable : ∀ c ∈ payers evt db, openOrders db c ≠ []) :
    (recorded evt db → (handlePaymentEvent evt a).run exec db = (.ok (), db)) ∧
      (¬ recorded evt db → AttributesNewest evt a db) := by
  refine ⟨fun seen => run_idle (.inl (verdict_recorded seen)), fun unrecorded => ?_⟩
  by_cases ambiguous : 2 ≤ (newestMatches evt db).length ∨ newestMatches evt db = [] ∧ (payers evt db).length ≠ 1
  · have run := @run_ambiguous evt a db known unmatched unrecorded readable ambiguous
    have same : ((handlePaymentEvent evt a).run exec db).2 = db := by rw [run]
    refine ⟨by rw [run], fun o _ => ⟨fun settles => (not_settles_same same o settles).elim, ?_⟩, ?_, fun _ => same⟩
    · rintro ⟨c, one⟩
      rw [one] at ambiguous
      rcases ambiguous with several | ⟨none, -⟩
      · exact absurd several (by simp)
      · cases none
    · intro none c only
      rw [none, only] at ambiguous
      exact absurd ambiguous (by simp)
  · cases newest : newestMatches evt db with
    | nil =>
      have only : (payers evt db).length = 1 := by
        by_contra other
        exact ambiguous (.inr ⟨newest, other⟩)
      obtain ⟨c, only⟩ := List.length_eq_one_iff.1 only
      obtain ⟨answers, credits⟩ := run_credit known unmatched unrecorded fresh references fits readable newest only
      refine ⟨answers, fun o _ => ⟨fun settles => (not_settles_credits credits o settles).elim, ?_⟩, ?_, ?_⟩
      · rintro ⟨c', one⟩
        rw [newest] at one
        cases one
      · intro _ c' only'
        obtain rfl : c = c' := (List.cons.inj (only.symm.trans only')).1
        exact credits
      · rw [newest, only]
        rintro (several | ⟨-, several⟩)
        · exact absurd several (by simp)
        · exact absurd several (by simp)
    | cons found rest =>
      obtain ⟨c, o⟩ := found
      obtain rfl : rest = [] := by
        cases rest with
        | nil => rfl
        | cons second rest => exact absurd (.inl (by rw [newest]; simp)) ambiguous
      obtain ⟨answers, settles⟩ := run_one known unmatched unrecorded fresh references readable newest
      have ho := (List.mem_filter.1 (mem_newestMatches (newest ▸ List.mem_cons_self : (c, o) ∈ newestMatches evt db)).2.2).1
      refine ⟨answers, fun o' ho' => ⟨fun settles' => ?_, ?_⟩, fun none => ?_, ?_⟩
      · rw [← settles_unique ho ho' settles settles']
        exact ⟨c, newest⟩
      · rintro ⟨c', one⟩
        obtain ⟨-, rfl⟩ := Prod.mk.inj (List.cons.inj (newest.symm.trans one)).1
        exact settles
      · rw [newest] at none
        cases none
      · rw [newest]
        rintro (several | ⟨none, -⟩)
        · exact absurd several (by simp)
        · cases none

/-- A charge over the price of the piece, under a reference that names no order. -/
def phoneCharge : NormalisedPaymentEvent := chargeOf "charge.success" "txn-1" 500 "GHS"

/-- The first attempt at it. -/
def phoneAttempt : Attempt := ⟨0, "payment-1", "outbound-1"⟩

/-- The customer's only order is settled by phone. -/
theorem attributed_one_piece :
    (recorded phoneCharge invoiced → (handlePaymentEvent phoneCharge phoneAttempt).run exec invoiced = (.ok (), invoiced)) ∧
      (¬ recorded phoneCharge invoiced → AttributesNewest phoneCharge phoneAttempt invoiced) :=
  attributes_newest (by decide) (by decide +kernel) ⟨by decide +kernel, by decide +kernel⟩ referencesHold_invoiced
    (by decide +kernel) (by decide +kernel)

/-- An open order of the customer. -/
def crowdedOrder (i : Nat) (total : Money) : Order where
  id := "order-" ++ toString i
  businessID := "biz"
  customerID := "cust"
  conversationID := some "conv"
  status := .confirmed
  totalAmount := total
  currency := "GHS"
  createdAt := i
  updatedAt := i
  idempotencyKey := none
  fulfillmentType := .delivery
  locationID := none
  stockRestoredAt := none

theorem charge_fits : (500 : Int).natAbs < 10 ^ 14 := by decide

theorem larger_fits : (900 : Int).natAbs < 10 ^ 14 := by decide

/-- The oldest, over the price of the piece. -/
def oldestOrder : Order := crowdedOrder 0 ⟨500, charge_fits⟩

/-- The shop with six open orders of its customer. -/
def crowded : Database :=
  { shop with orders := ⟨oldestOrder :: (List.range 5).map fun i => crowdedOrder (i + 1) ⟨900, larger_fits⟩, by decide +kernel⟩ }

/-- Two shops where the charge is not attributed as it should be. The only open order over the amount is the customer's sixth
newest, and the charge is recorded without it; the customer has no open order, and the attempt fails. -/
theorem phone_charge_misattributed :
    (openMatches phoneCharge crowded = [oldestOrder] ∧ ¬ Attributes phoneCharge phoneAttempt crowded) ∧
      openMatches phoneCharge shop = [] ∧ (payers phoneCharge shop).length = 1 ∧
        ((handlePaymentEvent phoneCharge phoneAttempt).run exec shop).1 ≠ .ok () ∧ ¬ Attributes phoneCharge phoneAttempt shop := by
  have fails : ((handlePaymentEvent phoneCharge phoneAttempt).run exec shop).1 ≠ .ok () := by decide +kernel
  have only : openMatches phoneCharge crowded = [oldestOrder] := by decide +kernel
  refine ⟨⟨only, fun h => ?_⟩, by decide +kernel, by decide +kernel, fails, fun h => fails h.answers⟩
  obtain ⟨c, -, -, view⟩ := (h.settles oldestOrder (by decide +kernel)).2 only
  -- the payment that was recorded names no order
  have payments := congrArg (fun v => v.payments.map Payment.orderID) view
  rw [show ((viewOf ((handlePaymentEvent phoneCharge phoneAttempt).run exec crowded).2).payments.map Payment.orderID) = [none] by
    decide +kernel, matchView_payments, List.map_append] at payments
  have other : none = some oldestOrder.id := (List.cons.inj (payments : [none] = [some oldestOrder.id])).1
  cases other

end NovoApex.Payments
