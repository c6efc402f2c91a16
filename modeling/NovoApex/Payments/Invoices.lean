import NovoApex.Lib.Crew
import NovoApex.Payments.Initiation

/-!
# The invoice of an order

The update that stores the link of an order marks it as initiated before the invoice row
exists, and every later delivery stops at the mark. So the invoice is sent once, by the
delivery whose update stored the link, or never: a delivery that is stopped between the
two statements, or whose insert fails, leaves an order with a link that nobody sends.
`payment_invoiced` covers the runs in which no delivery is stopped there.
-/

namespace NovoApex.Payments
set_option autoImplicit false
open Lib Program Workers

section

variable (provider : Provider) (drawnFor : String → Option String) (evt : Events.OrderCreatedPayload)

/-- A delivery of the order's event, or of another order's. Ids are drawn at random, so each is drawn for one order. -/
def InitJob (d : InitDelivery) (p : Program (initStore.signed InitDelivery) Unit) : Prop :=
  p = (handlePaymentInit d.evt d.outboundID).signed d ∧ drawnFor d.outboundID = some d.evt.orderID ∧
    (d.evt.orderID = evt.orderID → d.evt = evt)

/-- The runs of payment initiation: statements fail, lose their replies and handlers stop anywhere. -/
def initFlow : Roster (initStore.signed InitDelivery) InitDelivery InitWorld where
  exec := initExec provider
  job := InitJob drawnFor evt
  allow _ _ := True

/-- The runs in which the delivery that stores the link of the order comes to write its invoice: the reply of its update
arrives, it does not stop before the insert, and the insert neither fails nor is refused. -/
def initCareful : Roster (initStore.signed InitDelivery) InitDelivery InitWorld where
  exec := initExec provider
  job := InitJob drawnFor evt
  allow
    | w, (d, .insertInvoice m) => d.evt.orderID = evt.orderID → (insertInvoice m w).toBool = true
    | _, _ => True
  faults
    | _, (d, .insertInvoice _) => d.evt.orderID ≠ evt.orderID
    | _, _ => True
  loses
    | w, (_, .setPaymentURL orderID _) => orderID = evt.orderID → claims orderID w = false
    | _, _ => True
  stops
    | _, (d, .insertInvoice _) => d.evt.orderID ≠ evt.orderID
    | _, _ => True

instance (w : InitWorld) : DecidablePred ((initCareful provider drawnFor evt).allow w)
  | (d, .insertInvoice m) => inferInstanceAs (Decidable (d.evt.orderID = evt.orderID → (insertInvoice m w).toBool = true))
  | (_, .paymentURL _) | (_, .payer _) | (_, .initiatePayment _) | (_, .setPaymentURL _ _) | (_, .publishOutbound _) => isTrue trivial

/-- The invoice rows of the order. -/
def invoicesOf (w : InitWorld) : List OutboundMessage :=
  w.db.outboundMessages.rows.filter fun m => decide (drawnFor m.id = some evt.orderID)

/-- The order's link is stored and one invoice, with that link, is written. -/
def InvoicedOnce (w : InitWorld) : Prop :=
  ∃ url, w.paymentURL evt.orderID = some url ∧ ∃ m text, invoicesOf drawnFor evt w = [m] ∧ m.textContent = text ++ url

/-- Once every delivery of the order has ended, one of them without an error after a link was obtained, the order has its link
and one invoice with it. -/
def InvoicedAtTheEnd (c : Crew (initStore.signed InitDelivery) InitDelivery InitWorld) : Prop :=
  (∃ link, (evt.orderID, link) ∈ c.state.links) →
    (∃ d, d.evt.orderID = evt.orderID ∧ (d, Program.ret (.ok ())) ∈ c.threads) →
    (∀ thread ∈ c.threads, thread.1.evt.orderID = evt.orderID → ∃ r, thread.2 = .ret r) → InvoicedOnce drawnFor evt c.state

/-- The order exists, its customer has a phone and its business a number to send from. -/
structure Payable (w : InitWorld) : Prop where
  order : (w.db.orders.find? evt.orderID).isSome = true
  payer : ∃ payer, payerOf evt.customerID w = some payer ∧ payer.phone ≠ "" ∧ payer.waPhoneNumberID ≠ ""

/-- The order waits for its first link. -/
structure Uninitiated (w : InitWorld) : Prop where
  payable : Payable evt w
  unlinked : w.paymentURL evt.orderID = none
  unclaimed : w.claimed evt.orderID = none
  uninvoiced : invoicesOf drawnFor evt w = []

/-- The provider answers every initiation of the order with a link. -/
def Answers : Prop := ∀ links req, req.reference = evt.orderID →
  (provider links req).status = "initiated" ∧ (provider links req).paymentURL ≠ ""

/-- The order has no link, nobody has claimed it and there is no invoice; or one delivery has stored the link, and what there is
of an invoice is its own. -/
structure InitInv (w : InitWorld) : Prop where
  payable : Payable evt w
  unlinked : w.paymentURL evt.orderID = none → w.claimed evt.orderID = none ∧ invoicesOf drawnFor evt w = []
  linked : ∀ url, w.paymentURL evt.orderID = some url → url ≠ "" ∧
    (∃ d, w.claimed evt.orderID = some d ∧ d.evt.orderID = evt.orderID) ∧
    (invoicesOf drawnFor evt w = [] ∨ ∃ m text, invoicesOf drawnFor evt w = [m] ∧ m.textContent = text ++ url)

/-- What a delivery relies on: a link stays, nobody claims in its name, and while the claim is its own nobody writes invoices. -/
structure InitRely (d : InitDelivery) (w w' : InitWorld) : Prop where
  linked : ∀ url, w.paymentURL evt.orderID = some url → w'.paymentURL evt.orderID = some url
  claimed : w'.claimed evt.orderID = some d ↔ w.claimed evt.orderID = some d
  invoices : w.claimed evt.orderID = some d → invoicesOf drawnFor evt w' = invoicesOf drawnFor evt w

/-- A delivery that has claimed the order has written its invoice. -/
def InitIdle (d : InitDelivery) (w : InitWorld) : Prop :=
  w.claimed evt.orderID = some d → invoicesOf drawnFor evt w ≠ []

/-- The protocol of the deliveries of an order. -/
def initProtocol : Protocol InitDelivery InitWorld where
  inv := InitInv drawnFor evt
  rely := InitRely drawnFor evt
  refl _ _ := ⟨fun _ => id, Iff.rfl, fun _ => rfl⟩
  trans _ _ _ _ first second :=
    ⟨fun url h => second.linked url (first.linked url h), second.claimed.trans first.claimed,
      fun own => (second.invoices (first.claimed.2 own)).trans (first.invoices own)⟩
  idle := InitIdle drawnFor evt
  steady d w w' rely idle own := by
    have before := rely.claimed.1 own
    rw [rely.invoices before]
    exact idle before

end

section Safety

variable {provider : Provider} {drawnFor : String → Option String} {evt : Events.OrderCreatedPayload} {d : InitDelivery} {w : InitWorld}

/-- What a delivery of the order ends in: it owes no invoice, and without an error the order has a link. -/
def InitEnds (drawnFor : String → Option String) (evt : Events.OrderCreatedPayload) (d : InitDelivery)
    (r : Except InitErr Unit) (w : InitWorld) : Prop :=
  InitIdle drawnFor evt d w ∧ (d.evt.orderID = evt.orderID → r = .ok () → (w.paymentURL evt.orderID).isSome = true)

/-- Writes that touch neither the order's link nor its claim nor its invoices. -/
structure SameOrder (drawnFor : String → Option String) (evt : Events.OrderCreatedPayload) (w w' : InitWorld) : Prop where
  paymentURL : w'.paymentURL evt.orderID = w.paymentURL evt.orderID
  claimed : w'.claimed evt.orderID = w.claimed evt.orderID
  invoices : invoicesOf drawnFor evt w' = invoicesOf drawnFor evt w
  payable : Payable evt w → Payable evt w'

theorem SameOrder.refl (w : InitWorld) : SameOrder drawnFor evt w w := ⟨rfl, rfl, rfl, id⟩

theorem SameOrder.inv {w' : InitWorld} (h : SameOrder drawnFor evt w w') (inv : InitInv drawnFor evt w) : InitInv drawnFor evt w' := by
  refine ⟨h.payable inv.payable, fun none => ?_, fun url some_ => ?_⟩
  · rw [h.claimed, h.invoices]
    exact inv.unlinked (h.paymentURL ▸ none)
  · rw [h.claimed, h.invoices]
    exact inv.linked url (h.paymentURL ▸ some_)

theorem SameOrder.rely {w' : InitWorld} (h : SameOrder drawnFor evt w w') (d : InitDelivery) : InitRely drawnFor evt d w w' :=
  ⟨fun url some_ => h.paymentURL.trans some_, by rw [h.claimed], fun _ => h.invoices⟩

/-- An insert adds its row and nothing else. -/
theorem insertInvoice_ok {m : OutboundMessage} {w' : InitWorld} (h : insertInvoice m w = .ok w') :
    ∃ rows, rows.rows = w.db.outboundMessages.rows ++ [m] ∧ w' = { w with db := { w.db with outboundMessages := rows } } := by
  unfold insertInvoice at h
  cases inserted : w.db.outboundMessages.insert m with
  | none =>
    rw [inserted] at h
    cases h
  | some rows =>
    rw [inserted] at h
    simp only [bind_eq_ok] at h
    obtain ⟨-, -, -, -, same⟩ := h
    exact ⟨rows, (Table.insert_eq_some.1 inserted).2, (Except.ok.inj same).symm⟩

theorem invoicesOf_insert {m : OutboundMessage} {w' : InitWorld} (h : insertInvoice m w = .ok w') :
    invoicesOf drawnFor evt w' = invoicesOf drawnFor evt w ++ if drawnFor m.id = some evt.orderID then [m] else [] := by
  obtain ⟨rows, added, rfl⟩ := insertInvoice_ok h
  unfold invoicesOf
  rw [added, List.filter_append]
  by_cases own : drawnFor m.id = some evt.orderID <;> simp [own]

/-- An invoice of another order. -/
theorem sameOrder_insert {m : OutboundMessage} {w' : InitWorld} (h : insertInvoice m w = .ok w')
    (other : drawnFor m.id ≠ some evt.orderID) : SameOrder drawnFor evt w w' := by
  have invoices : invoicesOf drawnFor evt w' = invoicesOf drawnFor evt w := by
    rw [invoicesOf_insert h, if_neg other, List.append_nil]
  obtain ⟨rows, -, rfl⟩ := insertInvoice_ok h
  exact ⟨rfl, rfl, invoices, fun payable => ⟨payable.order, payable.payer⟩⟩

/-- A link of another order. -/
theorem sameOrder_set {orderID url : String} (other : orderID ≠ evt.orderID) (d : InitDelivery) :
    SameOrder drawnFor evt w (setPaymentURL d orderID url w) :=
  ⟨Function.update_of_ne other.symm _ _, Function.update_of_ne other.symm _ _, rfl, fun payable => ⟨payable.order, payable.payer⟩⟩

theorem setPaymentURL_own (orderID url : String) (d : InitDelivery) :
    (setPaymentURL d orderID url w).paymentURL orderID = some url ∧ (setPaymentURL d orderID url w).claimed orderID = some d :=
  ⟨Function.update_self .., Function.update_self ..⟩

/-- A statement of the handler, other than the two writes, leaves the order alone. -/
theorem sameOrder_exec {op : InitStmt} (noSet : ∀ orderID url, op ≠ .setPaymentURL orderID url) (noInsert : ∀ m, op ≠ .insertInvoice m) :
    SameOrder drawnFor evt w (initExec provider (d, op) w).2 := by
  cases op with
  | setPaymentURL orderID url => exact absurd rfl (noSet orderID url)
  | insertInvoice m => exact absurd rfl (noInsert m)
  | initiatePayment req => exact ⟨rfl, rfl, rfl, fun payable => ⟨payable.order, payable.payer⟩⟩
  | _ => exact .refl w

/-- What a delivery without a claim knows lasts. -/
theorem InitIdle.steady {w' : InitWorld} (idle : InitIdle drawnFor evt d w) (rely : InitRely drawnFor evt d w w') :
    InitIdle drawnFor evt d w' := (initProtocol drawnFor evt).steady d w w' rely idle

theorem SameOrder.idle {w' : InitWorld} (h : SameOrder drawnFor evt w w') (idle : InitIdle drawnFor evt d w) :
    InitIdle drawnFor evt d w' := idle.steady (h.rely d)

abbrev Careful (provider : Provider) (drawnFor : String → Option String) (evt : Events.OrderCreatedPayload) (d : InitDelivery)
    {α : Type} (Q : Except InitErr α → InitWorld → Prop) (p : Program (initStore.signed InitDelivery) α) (w : InitWorld) : Prop :=
  Safe (initCareful provider drawnFor evt) (initProtocol drawnFor evt) d Q p w

/-- A read, or a call outside: the delivery owes nothing before and after. -/
theorem safe_aside (op : InitStmt) (A : op.Reply → InitWorld → Prop) (noSet : ∀ orderID url, op ≠ .setPaymentURL orderID url)
    (noInsert : ∀ m, op ≠ .insertInvoice m) (idle : InitIdle drawnFor evt d w)
    (answers : ∀ t, InitInv drawnFor evt t → ∀ a, (initExec provider (d, op) t).1 = .ok a → A a (initExec provider (d, op) t).2) :
    Careful provider drawnFor evt d (fun r t => InitIdle drawnFor evt d t ∧ Replied A (fun _ => True) r t)
      (call (I := initStore.signed InitDelivery) (d, op)) w := by
  apply Safe.call
  · intro t rely inv _
    have same : SameOrder drawnFor evt t (initExec provider (d, op) t).2 := sameOrder_exec noSet noInsert
    refine ⟨same.inv inv, fun j _ => same.rely j, ⟨same.idle (idle.steady rely), ?_⟩, fun _ => ⟨same.idle (idle.steady rely), trivial⟩⟩
    show Replied A (fun _ => True) (initExec provider (d, op) t).1 (initExec provider (d, op) t).2
    cases replied : (initExec provider (d, op) t).1 with
    | error e => trivial
    | ok a => exact answers t inv a replied
  · intro t rely _ _
    exact ⟨idle.steady rely, trivial⟩
  · intro t rely _ _
    exact idle.steady rely

/-- What a delivery of the order knows once its update has come through. -/
structure Owes (drawnFor : String → Option String) (evt : Events.OrderCreatedPayload) (d : InitDelivery) (url : String)
    (w : InitWorld) : Prop where
  claimed : w.claimed evt.orderID = some d
  linked : w.paymentURL evt.orderID = some url
  uninvoiced : invoicesOf drawnFor evt w = []

theorem Owes.steady {url : String} {w' : InitWorld} (owes : Owes drawnFor evt d url w) (rely : InitRely drawnFor evt d w w') :
    Owes drawnFor evt d url w' :=
  ⟨rely.claimed.2 owes.claimed, rely.linked url owes.linked, (rely.invoices owes.claimed).trans owes.uninvoiced⟩

/-- What the update of a delivery of the order tells it. -/
def Claimed (drawnFor : String → Option String) (evt : Events.OrderCreatedPayload) (d : InitDelivery) (url : String) :
    Except InitErr Nat → InitWorld → Prop
  | .ok 0, w => InitIdle drawnFor evt d w ∧ (w.paymentURL evt.orderID).isSome = true
  | .ok _, w => Owes drawnFor evt d url w
  | .error _, w => InitIdle drawnFor evt d w

/-- The update of a delivery of the order: the first one claims it, the others find a link. -/
theorem safe_claim {url : String} (some_ : url ≠ "") (own : d.evt.orderID = evt.orderID) (idle : InitIdle drawnFor evt d w) :
    Careful provider drawnFor evt d (Claimed drawnFor evt d url)
      (call (I := initStore.signed InitDelivery) (d, .setPaymentURL evt.orderID url)) w := by
  apply Safe.call_eq
  · intro t rely inv _
    cases first : claims evt.orderID t with
    | true =>
      have unlinked : t.paymentURL evt.orderID = none := by
        unfold claims at first
        exact Option.isNone_iff_eq_none.1 (Bool.and_eq_true_iff.1 first).2
      obtain ⟨unclaimed, uninvoiced⟩ := inv.unlinked unlinked
      obtain ⟨linked, claimed⟩ := setPaymentURL_own (w := t) evt.orderID url d
      have moved : initExec provider (d, .setPaymentURL evt.orderID url) t = (.ok 1, setPaymentURL d evt.orderID url t) := by
        simp only [initExec, first, if_true]
      refine ⟨_, _, moved, ⟨⟨inv.payable.order, inv.payable.payer⟩, ?_, ?_⟩, ?_, ?_, ?_⟩
      · intro none
        rw [linked] at none
        cases none
      · intro url' same
        obtain rfl := Option.some.inj (linked.symm.trans same)
        exact ⟨some_, ⟨d, claimed, own⟩, .inl uninvoiced⟩
      · intro j other
        refine ⟨fun url' before => ?_, ?_, fun theirs => ?_⟩
        · rw [unlinked] at before
          cases before
        · rw [claimed, unclaimed]
          constructor
          · intro same
            exact absurd (Option.some.inj same).symm other
          · intro absurd_
            cases absurd_
        · rw [unclaimed] at theirs
          cases theirs
      · exact (⟨claimed, linked, uninvoiced⟩ : Owes drawnFor evt d url _)
      · intro loses
        have late : claims evt.orderID t = false := loses rfl
        rw [first] at late
        cases late
    | false =>
      have linked : (t.paymentURL evt.orderID).isSome = true := by
        unfold claims at first
        rw [inv.payable.order, Bool.true_and] at first
        simpa using first
      have kept : initExec provider (d, .setPaymentURL evt.orderID url) t = (.ok 0, t) := by
        simp only [initExec, first, Bool.false_eq_true, if_false]
      have idle' : InitIdle drawnFor evt d t := idle.steady rely
      exact ⟨_, _, kept, inv, fun j _ => (initProtocol drawnFor evt).refl j t, ⟨idle', linked⟩, fun _ => idle'⟩
  · intro t rely _ _
    exact idle.steady rely
  · intro t rely _ _
    exact idle.steady rely

/-- The insert of the delivery that claimed the order. -/
theorem safe_invoice {url : String} {m : OutboundMessage} {text : String} (own : d.evt.orderID = evt.orderID)
    (drawn : drawnFor m.id = some evt.orderID) (content : m.textContent = text ++ url) (owes : Owes drawnFor evt d url w) :
    Careful provider drawnFor evt d (fun _ t => InitIdle drawnFor evt d t ∧ (t.paymentURL evt.orderID).isSome = true)
      (call (I := initStore.signed InitDelivery) (d, .insertInvoice m)) w := by
  apply Safe.call_eq
  · intro t rely inv may
    obtain ⟨claimed, linked, uninvoiced⟩ := owes.steady rely
    obtain ⟨t', inserted⟩ : ∃ t', insertInvoice m t = .ok t' := by
      have accepted := may own
      cases inserted : insertInvoice m t with
      | ok t' => exact ⟨t', rfl⟩
      | error e =>
        rw [inserted] at accepted
        cases accepted
    have moved : initExec provider (d, .insertInvoice m) t = (.ok (), t') := by
      simp only [initExec, inserted]
    have invoices : invoicesOf drawnFor evt t' = [m] := by
      rw [invoicesOf_insert inserted, uninvoiced, if_pos drawn]
      rfl
    have done : InitIdle drawnFor evt d t' := by
      intro _ none
      rw [invoices] at none
      cases none
    obtain ⟨rows, -, rfl⟩ := insertInvoice_ok inserted
    have linked' : (t.paymentURL evt.orderID).isSome = true := by
      rw [linked]
      rfl
    refine ⟨_, _, moved, ⟨⟨inv.payable.order, inv.payable.payer⟩, ?_, ?_⟩, ?_, ⟨done, linked'⟩, fun _ => ⟨done, linked'⟩⟩
    · intro none
      exact absurd (none.symm.trans linked) (by simp)
    · intro url' same
      obtain ⟨some_, claimant, -⟩ := inv.linked url' same
      obtain rfl := Option.some.inj (linked.symm.trans same)
      exact ⟨some_, claimant, .inr ⟨m, text, invoices, content⟩⟩
    · intro j other
      refine ⟨fun _ => id, Iff.rfl, fun theirs => ?_⟩
      exact absurd (Option.some.inj (theirs.symm.trans claimed)) other
  · intro t _ _ faults
    exact absurd own faults
  · intro t _ _ stops
    exact absurd own stops

/-- What a delivery of the order knows after its invoice lasts. -/
theorem safe_publish {outboundID : String} (done : InitIdle drawnFor evt d w ∧ (w.paymentURL evt.orderID).isSome = true) :
    Careful provider drawnFor evt d (fun _ t => InitIdle drawnFor evt d t ∧ (t.paymentURL evt.orderID).isSome = true)
      (call (I := initStore.signed InitDelivery) (d, .publishOutbound outboundID)) w := by
  have lasting : ∀ t, InitRely drawnFor evt d w t → InitIdle drawnFor evt d t ∧ (t.paymentURL evt.orderID).isSome = true := by
    intro t rely
    obtain ⟨url, linked⟩ := Option.isSome_iff_exists.1 done.2
    refine ⟨done.1.steady rely, ?_⟩
    rw [rely.linked url linked]
    rfl
  apply Safe.call
  · intro t rely inv _
    exact ⟨inv, fun j _ => (initProtocol drawnFor evt).refl j t, lasting t rely, fun _ => lasting t rely⟩
  · intro t rely _ _
    exact lasting t rely
  · intro t rely _ _
    exact (lasting t rely).1

theorem safe_enqueue {url phone : String} {total : Decimal} (own : d.evt = evt) (drawn : drawnFor d.outboundID = some evt.orderID)
    (owes : Owes drawnFor evt d url w) :
    Careful provider drawnFor evt d (InitEnds drawnFor evt d) ((enqueuePaymentInvoice evt d.outboundID phone total url).signed d) w := by
  have ends : ∀ r t, InitIdle drawnFor evt d t ∧ (t.paymentURL evt.orderID).isSome = true → InitEnds drawnFor evt d r t :=
    fun r t done => ⟨done.1, fun _ _ => done.2⟩
  unfold enqueuePaymentInvoice
  refine Safe.bind_signed ?_
  rw [signed_mapErr]
  refine Safe.mapErr ((safe_invoice (congrArg Events.OrderCreatedPayload.orderID own) drawn rfl owes).mono fun r t done => ?_)
  cases r with
  | error e => exact ends _ t done
  | ok _ => exact (safe_publish done).mono fun r u done => ends r u done

theorem safe_persistLink {payer : Payer} {total : Decimal} {link : PaymentLink} (own : d.evt = evt)
    (drawn : drawnFor d.outboundID = some evt.orderID) (present : payer.phone ≠ "" ∧ payer.waPhoneNumberID ≠ "")
    (initiated : link.status = "initiated" ∧ link.paymentURL ≠ "") (idle : InitIdle drawnFor evt d w) :
    Careful provider drawnFor evt d (InitEnds drawnFor evt d) ((persistLink evt d.outboundID payer total link).signed d) w := by
  have given : ¬ (link.status ≠ "initiated" ∨ link.paymentURL = "") := by
    rintro (status | none)
    · exact status initiated.1
    · exact initiated.2 none
  have reachable : ¬ (payer.phone = "" ∨ payer.waPhoneNumberID = "") := by
    rintro (none | none)
    · exact present.1 none
    · exact present.2 none
  unfold persistLink
  rw [if_neg given]
  refine Safe.bind_signed ((safe_claim initiated.2 (congrArg Events.OrderCreatedPayload.orderID own) idle).mono fun r t known => ?_)
  cases r with
  | error e => exact ⟨known, fun _ absurd_ => by cases absurd_⟩
  | ok affected =>
    cases affected with
    | zero => exact ⟨known.1, fun _ _ => known.2⟩
    | succ n =>
      simp only [Nat.add_one_ne_zero, if_false, if_neg reachable]
      exact safe_enqueue own drawn known

/-- A delivery of the order's event. -/
theorem safe_own (answers : Answers provider evt) (own : d.evt = evt) (drawn : drawnFor d.outboundID = some evt.orderID)
    (idle : InitIdle drawnFor evt d w) :
    Careful provider drawnFor evt d (InitEnds drawnFor evt d) ((handlePaymentInit d.evt d.outboundID).signed d) w := by
  have failed : ∀ (e : InitErr) t, InitIdle drawnFor evt d t → InitEnds drawnFor evt d (.error e) t :=
    fun e t idle => ⟨idle, fun _ absurd_ => by cases absurd_⟩
  rw [own]
  unfold handlePaymentInit
  refine Safe.bind_signed ((safe_aside (.paymentURL evt.orderID) (fun existing t => ∃ url, existing = some url ∧
    (url ≠ "" → (t.paymentURL evt.orderID).isSome = true)) (fun _ _ same => by cases same) (fun _ same => by cases same) idle
    fun t inv a replied => ?_).mono fun r t known => ?_)
  · obtain ⟨o, found⟩ := Option.isSome_iff_exists.1 inv.payable.order
    obtain rfl := Except.ok.inj replied
    refine ⟨(t.paymentURL evt.orderID).getD "", ?_, fun some_ => ?_⟩
    · unfold paymentURLOf
      rw [found]
      rfl
    · cases stored : t.paymentURL evt.orderID with
      | none =>
        rw [stored] at some_
        exact absurd rfl some_
      | some url =>
        show (t.paymentURL evt.orderID).isSome = true
        rw [stored]
        rfl
  obtain ⟨idle, known⟩ := known
  cases r with
  | error e => exact failed e t idle
  | ok existing =>
    obtain ⟨url, rfl, stored⟩ := known
    simp only
    by_cases some_ : url ≠ ""
    · rw [if_pos some_]
      exact ⟨idle, fun _ _ => stored some_⟩
    rw [if_neg some_]
    refine Safe.bind_signed ((safe_aside (.payer evt.customerID) (fun answer _ => ∃ payer, answer = some payer ∧
      payer.phone ≠ "" ∧ payer.waPhoneNumberID ≠ "") (fun _ _ same => by cases same) (fun _ same => by cases same) idle
      fun u inv a replied => ?_).mono fun r u known => ?_)
    · obtain ⟨payer, found, present⟩ := inv.payable.payer
      obtain rfl := Except.ok.inj replied
      exact ⟨payer, found, present⟩
    obtain ⟨idle, known⟩ := known
    cases r with
    | error e => exact failed e u idle
    | ok answer =>
      obtain ⟨payer, rfl, present⟩ := known
      simp only
      cases Decimal.newFromString evt.totalAmount with
      | none => exact failed _ u idle
      | some total =>
        refine Safe.bind_signed ((safe_aside (.initiatePayment (requestFor evt payer total)) (fun link _ =>
          link.status = "initiated" ∧ link.paymentURL ≠ "") (fun _ _ same => by cases same) (fun _ same => by cases same) idle
          fun v _ a replied => ?_).mono fun r v known => ?_)
        · obtain rfl := Except.ok.inj replied
          exact answers v.links _ rfl
        obtain ⟨idle, known⟩ := known
        cases r with
        | error e => exact failed e v idle
        | ok link => exact safe_persistLink own drawn present known idle

/-- What the writes of another order's delivery concern. -/
def Elsewhere (drawnFor : String → Option String) (evt : Events.OrderCreatedPayload) : InitStmt → Prop
  | .setPaymentURL orderID _ => orderID ≠ evt.orderID
  | .insertInvoice m => drawnFor m.id ≠ some evt.orderID
  | _ => True

theorem handlePaymentInit_elsewhere (other : d.evt.orderID ≠ evt.orderID) (drawn : drawnFor d.outboundID ≠ some evt.orderID) :
    (handlePaymentInit d.evt d.outboundID).Uses (Elsewhere drawnFor evt) := by
  unfold handlePaymentInit
  refine Uses.bind (uses_call.2 trivial) fun existing => ?_
  cases existing with
  | none => trivial
  | some existing =>
    simp only
    split
    · trivial
    · refine Uses.bind (uses_call.2 trivial) fun payer => ?_
      cases payer with
      | none => trivial
      | some payer =>
        simp only
        cases Decimal.newFromString d.evt.totalAmount with
        | none => trivial
        | some total =>
          refine Uses.bind (uses_call.2 trivial) fun link => ?_
          unfold persistLink
          split
          · trivial
          · refine Uses.bind (uses_call.2 other) fun affected => ?_
            split
            · trivial
            · split
              · trivial
              · refine Uses.bind (Uses.mapErr (uses_call.2 drawn)) fun _ => uses_call.2 trivial

theorem sameOrder_elsewhere {op : InitStmt} (elsewhere : Elsewhere drawnFor evt op) :
    SameOrder drawnFor evt w (initExec provider (d, op) w).2 := by
  cases op with
  | setPaymentURL orderID url =>
    show SameOrder drawnFor evt w (if claims orderID w then (.ok 1, setPaymentURL d orderID url w) else (.ok 0, w) :
      Except InitErr Nat × InitWorld).2
    split
    · exact sameOrder_set elsewhere d
    · exact .refl w
  | insertInvoice m =>
    cases inserted : insertInvoice m w with
    | error e =>
      simp only [initExec, inserted]
      exact .refl w
    | ok w' =>
      simp only [initExec, inserted]
      exact sameOrder_insert inserted elsewhere
  | _ => exact sameOrder_exec (fun _ _ same => by cases same) (fun _ same => by cases same)

theorem safe_initJob (answers : Answers provider evt) {p : Program (initStore.signed InitDelivery) Unit}
    (job : InitJob drawnFor evt d p) (idle : InitIdle drawnFor evt d w) :
    Careful provider drawnFor evt d (InitEnds drawnFor evt d) p w := by
  obtain ⟨rfl, drawn, own⟩ := job
  by_cases same : d.evt.orderID = evt.orderID
  · exact safe_own answers (own same) (same ▸ drawn) idle
  · have other : drawnFor d.outboundID ≠ some evt.orderID := by
      rw [drawn]
      exact fun h => same (Option.some.inj h)
    have uses : ((handlePaymentInit d.evt d.outboundID).signed d).Uses
        fun op : InitDelivery × InitStmt => Elsewhere drawnFor evt op.2 :=
      Uses.signed ((handlePaymentInit_elsewhere same other).mono fun op elsewhere => elsewhere)
    refine (Safe.of_uses_known (K := InitIdle drawnFor evt d) uses (fun s t rely idle => InitIdle.steady idle rely) idle (fun op t elsewhere idle inv _ => ?_)
      fun t idle => idle).mono fun r t idle => ⟨idle, fun here => absurd here same⟩
    have kept : SameOrder drawnFor evt t (initExec provider op t).2 := sameOrder_elsewhere (d := op.1) elsewhere
    exact ⟨kept.inv inv, fun j _ => kept.rely j, kept.idle idle⟩

theorem initEnds_promise : (initProtocol drawnFor evt).Promise (I := initStore.signed InitDelivery) (InitEnds drawnFor evt) := by
  refine ⟨fun d r s t rely ends => ⟨ends.1.steady rely, fun own ok => ?_⟩, fun d r s ends => ends.1⟩
  obtain ⟨url, linked⟩ := Option.isSome_iff_exists.1 (ends.2 own ok)
  rw [rely.linked url linked]
  rfl

end Safety

/-! ## Runs -/

/-- In every run in which the delivery that stores the link of the order comes to write its invoice, the order ends with its link
and one invoice with it. -/
theorem payment_invoiced {provider : Provider} {drawnFor : String → Option String} {evt : Events.OrderCreatedPayload} {w : InitWorld}
    {c : Crew (initStore.signed InitDelivery) InitDelivery InitWorld} (answers : Answers provider evt)
    (start : Uninitiated drawnFor evt w) (reach : (initCareful provider drawnFor evt).Reach ⟨w, []⟩ c) :
    InvoicedAtTheEnd drawnFor evt c := by
  have first : InitInv drawnFor evt w := by
    refine ⟨start.payable, fun _ => ⟨start.unclaimed, start.uninvoiced⟩, fun url linked => ?_⟩
    rw [start.unlinked] at linked
    cases linked
  have free : ∀ d, InitIdle drawnFor evt d w := by
    intro d claimed
    rw [start.unclaimed] at claimed
    cases claimed
  have holds := Protocol.holds (P := initProtocol drawnFor evt) initEnds_promise
    (fun d p s job _ idle => safe_initJob answers job idle) reach first free
  intro _ ended quiet
  obtain ⟨d, own, mem⟩ := ended
  have ends : InitEnds drawnFor evt d (.ok ()) c.state := holds.safe (d, .ret (.ok ())) mem
  obtain ⟨url, linked⟩ := Option.isSome_iff_exists.1 (ends.2 own rfl)
  obtain ⟨-, ⟨claimant, claimed, theirs⟩, none | ⟨m, text, invoices, content⟩⟩ := holds.inv.linked url linked
  · -- the delivery that stored the link has ended too, and owes nothing
    have idle : InitIdle drawnFor evt claimant c.state := by
      by_cases active : claimant ∈ c.threads.map Prod.fst
      · obtain ⟨thread, mem', rfl⟩ := List.mem_map.1 active
        obtain ⟨r, last⟩ := quiet thread mem' theirs
        have safe := holds.safe thread mem'
        rw [last] at safe
        have ends : InitEnds drawnFor evt thread.1 r c.state := safe
        exact ends.1
      · exact holds.idle claimant active
    exact absurd none (idle claimed)
  · exact ⟨url, linked, m, text, invoices, content⟩

/-- The event of the order of the shop. -/
def orderOneEvent : Events.OrderCreatedPayload := ⟨"order-1", "biz", "cust", "conv", "5", "GHS"⟩

/-- A provider that gives every order one link. -/
def oneLink : Provider := fun _ req => ⟨req.reference, "https://pay/" ++ req.reference, "initiated"⟩

/-- The ids drawn for the order's invoices. -/
def twoDraws (id : String) : Option String := if id = "invoice-1" ∨ id = "invoice-2" then some "order-1" else none

open Orders in
/-- The shop after one order. -/
def orderedWorld : InitWorld where
  db := runJobs [orderOne "order-1" "m1"] shop
  paymentURL _ := none
  callbackURL _ := none
  waPhoneNumberID _ := "wa-1"
  links := []
  claimed _ := none

/-- The first delivery and its redelivery. -/
def firstInit : InitDelivery := ⟨orderOneEvent, "invoice-1"⟩

def secondInit : InitDelivery := ⟨orderOneEvent, "invoice-2"⟩

/-- What a delivery does. -/
def initOf (d : InitDelivery) : Program (initStore.signed InitDelivery) Unit := (handlePaymentInit d.evt d.outboundID).signed d

theorem orderedWorld_uninitiated : Uninitiated twoDraws orderOneEvent orderedWorld := by
  refine ⟨⟨?_, ⟨⟨"+233200000001", "", "wa-1"⟩, ?_, ?_, ?_⟩⟩, rfl, rfl, ?_⟩
  · decide +kernel
  · decide +kernel
  · decide
  · decide
  · decide +kernel

theorem oneLink_answers : Answers oneLink orderOneEvent := by
  intro links req reference
  refine ⟨rfl, ?_⟩
  show "https://pay/" ++ req.reference ≠ ""
  rw [reference]
  decide

/-- One delivery comes through. -/
theorem one_invoice : ∃ w, (initCareful oneLink twoDraws orderOneEvent).Reach ⟨orderedWorld, []⟩ ⟨w, [(firstInit, .ret (.ok ()))]⟩ ∧
    InvoicedOnce twoDraws orderOneEvent w := by
  let R := initCareful oneLink twoDraws orderOneEvent
  have may : R.job firstInit (initOf firstInit) := ⟨rfl, by decide +kernel, fun _ => rfl⟩
  have follows : R.Follows (initOf firstInit) orderedWorld := by decide +kernel
  have moves := R.reach_end [] [] (i := firstInit) follows
  have ok : ((initOf firstInit).run R.exec orderedWorld).1 = .ok () := by decide +kernel
  rw [ok] at moves
  have reach : R.Reach ⟨orderedWorld, []⟩ ⟨((initOf firstInit).run R.exec orderedWorld).2, [(firstInit, .ret (.ok ()))]⟩ :=
    .head (.spawn may List.not_mem_nil) moves
  have linked : ((initOf firstInit).run R.exec orderedWorld).2.links =
      [("order-1", ⟨"order-1", "https://pay/order-1", "initiated"⟩)] := by decide +kernel
  refine ⟨_, reach, payment_invoiced oneLink_answers orderedWorld_uninitiated reach ?_ ⟨firstInit, rfl, List.mem_cons_self⟩ ?_⟩
  · refine ⟨⟨"order-1", "https://pay/order-1", "initiated"⟩, ?_⟩
    show _ ∈ ((initOf firstInit).run R.exec orderedWorld).2.links
    rw [linked]
    exact List.mem_singleton_self _
  · intro thread mem _
    obtain rfl := List.mem_singleton.1 mem
    exact ⟨_, rfl⟩

/-! ## A link nobody sends -/

/-- The world after the first delivery has stored the link. -/
def linkedWorld : InitWorld := ((initOf firstInit).steps (initExec oneLink) 4 orderedWorld).2

/-- The insert of the first delivery fails; the redelivery finds the link and ends without an error. -/
theorem link_without_invoice : Answers oneLink orderOneEvent ∧ Uninitiated twoDraws orderOneEvent orderedWorld ∧
    ∃ c, (initFlow oneLink twoDraws orderOneEvent).Reach ⟨orderedWorld, []⟩ c ∧ ¬ InvoicedAtTheEnd twoDraws orderOneEvent c := by
  let R := initFlow oneLink twoDraws orderOneEvent
  have allows : ∀ s op, R.allow s op := fun _ _ => trivial
  have job : ∀ d, d = firstInit ∨ d = secondInit → R.job d (initOf d) := by
    rintro d (rfl | rfl)
    · exact ⟨rfl, by decide +kernel, fun _ => rfl⟩
    · exact ⟨rfl, by decide +kernel, fun _ => rfl⟩
  let stopped := ((initOf firstInit).steps (initExec oneLink) 4 orderedWorld).1
  have stores : R.Reach ⟨orderedWorld, [(firstInit, initOf firstInit)]⟩ ⟨linkedWorld, [(firstInit, stopped)]⟩ :=
    Roster.reach_steps 4 [] [] (R.followsFor_of_allows allows 4 _ _)
  have fails : R.Reach ⟨linkedWorld, [(firstInit, stopped)]⟩ ⟨linkedWorld, [(firstInit, stopped.failing)]⟩ :=
    Roster.reach_fail [] [] (R.canFail_of_faults (fun _ _ => trivial) _ _)
  have existing : paymentURLOf "order-1" linkedWorld = some "https://pay/order-1" := by decide +kernel
  have skip : (initOf secondInit).steps (initExec oneLink) 1 linkedWorld = (.ret (.ok ()), linkedWorld) := by
    show ((call (I := initStore) (.paymentURL "order-1")).bind _ |>.signed secondInit).steps (initExec oneLink) 1 linkedWorld = _
    simp only [call, Program.bind, signed, steps, initExec]
    rw [existing]
    rfl
  have skips : R.Reach ⟨linkedWorld, [(secondInit, initOf secondInit), (firstInit, stopped.failing)]⟩
      ⟨linkedWorld, [(secondInit, .ret (.ok ())), (firstInit, stopped.failing)]⟩ := by
    have moves := R.reach_steps 1 [] [(firstInit, stopped.failing)] (i := secondInit) (R.followsFor_of_allows allows 1 (initOf secondInit) linkedWorld)
    have same : (initOf secondInit).steps R.exec 1 linkedWorld = (.ret (.ok ()), linkedWorld) := skip
    rw [same] at moves
    exact moves
  have unused : secondInit ∉ [(firstInit, stopped.failing)].map Prod.fst := by
    simp only [List.map_cons, List.map_nil, List.mem_singleton]
    decide
  refine ⟨oneLink_answers, orderedWorld_uninitiated, _, .head (.spawn (job _ (.inl rfl)) List.not_mem_nil)
    (stores.trans (fails.trans (.head (.spawn (job _ (.inr rfl)) unused) skips))), fun ended => ?_⟩
  have linked : linkedWorld.links = [("order-1", ⟨"order-1", "https://pay/order-1", "initiated"⟩)] := by decide +kernel
  have none : invoicesOf twoDraws orderOneEvent linkedWorld = [] := by decide +kernel
  obtain ⟨url, -, m, text, invoices, -⟩ := ended ⟨⟨"order-1", "https://pay/order-1", "initiated"⟩, by
    show _ ∈ linkedWorld.links
    rw [linked]
    exact List.mem_singleton_self _⟩ ⟨secondInit, rfl, List.mem_cons_self⟩ fun thread mem _ => by
      rcases List.mem_cons.1 mem with rfl | mem
      · exact ⟨_, rfl⟩
      · obtain rfl := List.mem_singleton.1 mem
        exact ended_iff.1 (by decide +kernel : stopped.failing.ended = true)
  have absurd_ : [] = [m] := none.symm.trans invoices
  cases absurd_

end NovoApex.Payments
