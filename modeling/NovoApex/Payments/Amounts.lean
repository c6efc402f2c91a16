import NovoApex.Lib.DecimalText
import NovoApex.Lib.Json
import NovoApex.Orders.Ledger
import NovoApex.Payments.Retry

/-!
# An amount on its way

The total of an order is a decimal in `HandleCheckout`, a `NUMERIC(14,2)` in its row,
a JSON string in `order.created`, a decimal again in `HandlePaymentInit`, an `int64`
of minor units at the provider and a JSON number in the webhook. `amount_survives`
follows it around: every one of these denotes the sum of the order's items, and the
webhook of a full payment reconciles by reference if it decodes.
-/

namespace NovoApex
set_option autoImplicit false
open Lib

/-- The decimal a money column is scanned as: its text has two digits after the point. -/
def Money.decimal (m : Money) : Decimal := ⟨m.units, -2⟩

theorem Money.toRat_decimal (m : Money) : m.decimal.toRat = m.toDecimal := by
  rw [Money.toDecimal_eq]
  unfold Money.decimal Decimal.toRat
  norm_num [zpow_neg, div_eq_mul_inv]

namespace Workers

/-- The total of `HandleCheckout`, with its exponent. -/
def orderTotal (resolved : List CheckoutResolvedItem) : Decimal :=
  resolved.foldl (fun total item => total.add (item.unitPrice.decimal.mul (Decimal.ofInt item.quantity.toInt))) Decimal.zero

end Workers

/-- A `NUMERIC(14,2)` given as a text: a parameter, or a cast. -/
def numericOfText (text : String) : Option Money := (Decimal.newFromString text).bind fun d => Numeric.ofDecimal d.toRat

namespace Events

/-- `OrderCreated` as it is marshalled: the total is a text. -/
structure OrderCreatedPayload where
  orderID : String
  businessID : String
  customerID : String
  conversationID : String
  totalAmount : String
  currency : String
  deriving DecidableEq

/-- The payload with the text of its total. -/
def payloadOf (payload : OrderCreated) (total : Decimal) : OrderCreatedPayload where
  orderID := payload.orderID
  businessID := payload.businessID
  customerID := payload.customerID
  conversationID := payload.conversationID
  totalAmount := total.string
  currency := payload.currency

/-- Its members. -/
def OrderCreatedPayload.marshal (p : OrderCreatedPayload) : List (String × Json) :=
  [("orderId", .string p.orderID), ("businessId", .string p.businessID), ("customerId", .string p.customerID),
    ("conversationId", .string p.conversationID), ("totalAmount", .string p.totalAmount), ("currency", .string p.currency)]

/-- The place of a field. -/
def payloadPlace (field : String) : Place := ⟨"OrderCreated", field, "string"⟩

/-- The fields of a payload. -/
def payloadFields : List (String × Decoder OrderCreatedPayload) := [
  ("orderId", fun j p => (decodeString (payloadPlace "orderId") j p.orderID).map fun v => { p with orderID := v }),
  ("businessId", fun j p => (decodeString (payloadPlace "businessId") j p.businessID).map fun v => { p with businessID := v }),
  ("customerId", fun j p => (decodeString (payloadPlace "customerId") j p.customerID).map fun v => { p with customerID := v }),
  ("conversationId", fun j p =>
    (decodeString (payloadPlace "conversationId") j p.conversationID).map fun v => { p with conversationID := v }),
  ("totalAmount", fun j p => (decodeString (payloadPlace "totalAmount") j p.totalAmount).map fun v => { p with totalAmount := v }),
  ("currency", fun j p => (decodeString (payloadPlace "currency") j p.currency).map fun v => { p with currency := v })]

/-- `json.Unmarshal` of the job into an `OrderCreated`. -/
def decodeOrderCreated (doc : Json) : Except String OrderCreatedPayload :=
  decodeStruct ⟨"", "", "events.OrderCreated"⟩ payloadFields doc ⟨"", "", "", "", "", ""⟩

/-- What reaches the subscriber of an event: the JSONB column, and the map the dispatcher decodes it into and marshals again, keep
the members of the payload in orders of their own. -/
def PassedOn (p : OrderCreatedPayload) (doc : Json) : Prop := ∃ members, members.Perm p.marshal ∧ doc = .object members

end Events

namespace Workers

/-- The amount `HandlePaymentInit` asks for, and what `InitiatePayment` makes of it. -/
def initiatedAmount (evt : Events.OrderCreatedPayload) : Option (Decimal × Int64) :=
  (Decimal.newFromString evt.totalAmount).map fun total => (total, toMinorUnits total.toRat)

end Workers

namespace Payments

/-- The sum of an order's items. -/
def itemsTotal (db : Database) (orderID : String) : ℚ :=
  ((db.orderItems.rows.filter fun i => decide (i.orderID = orderID)).map fun i => i.unitPrice.toDecimal * (i.quantity.toInt : ℚ)).sum

/-- A successful charge of the order over an amount, given as the literal of a JSON number, whose declared fields have the
types `webhookWire` declares. -/
structure Reports (body : Paystack.WebhookBody) (orderID literal : String) : Prop where
  decodes : body.mistyped = none
  event : body.event = "charge.success"
  data : ∃ data, body.data = some data ∧ data.reference = orderID ∧ data.amount = (Decimal.newFromString literal).map Decimal.toRat

end Payments

end NovoApex

namespace NovoApex.Payments
set_option autoImplicit false
open Lib Program Workers Paystack

/-! ## The total -/

/-- The total of the checkout is the exact sum, and its exponent stays small. -/
theorem orderTotal_spec (resolved : List CheckoutResolvedItem) :
    (orderTotal resolved).toRat = totalAmount resolved ∧ -2 ≤ (orderTotal resolved).exp := by
  have fold : ∀ (items : List CheckoutResolvedItem) (start : Decimal) (sum : ℚ), start.toRat = sum → -2 ≤ start.exp →
      (items.foldl (fun total item => total.add (item.unitPrice.decimal.mul (Decimal.ofInt item.quantity.toInt))) start).toRat =
        items.foldl (fun (total : ℚ) item => total + item.unitPrice.toDecimal * item.quantity.toInt) sum ∧
      -2 ≤ (items.foldl (fun total item => total.add (item.unitPrice.decimal.mul (Decimal.ofInt item.quantity.toInt))) start).exp := by
    intro items
    induction items with
    | nil => exact fun start sum same low => ⟨same, low⟩
    | cons item rest ih =>
      intro start sum same low
      refine ih _ _ ?_ ?_
      · rw [Decimal.toRat_add, Decimal.toRat_mul, Decimal.toRat_ofInt, Money.toRat_decimal, same]
      · exact le_min low (le_refl (-2))
  exact fold resolved Decimal.zero 0 Decimal.toRat_zero (by decide)

/-- A text of a column's value is stored as that value. -/
theorem numericOfText_string {d : Decimal} {m : Money} (low : -2 ^ 31 ≤ d.exp) (same : d.toRat = m.toDecimal) :
    numericOfText d.string = some m := by
  obtain ⟨e, parsed, value⟩ := Decimal.newFromString_string d low
  unfold numericOfText
  rw [parsed, Option.bind_some, value, same]
  exact Numeric.ofDecimal_toDecimal m

theorem totalAmount_eq_sum (resolved : List CheckoutResolvedItem) :
    totalAmount resolved = (resolved.map fun i => i.unitPrice.toDecimal * (i.quantity.toInt : ℚ)).sum := by
  have fold : ∀ (items : List CheckoutResolvedItem) (start : ℚ),
      items.foldl (fun (total : ℚ) item => total + item.unitPrice.toDecimal * item.quantity.toInt) start =
        start + (items.map fun i => i.unitPrice.toDecimal * (i.quantity.toInt : ℚ)).sum := by
    intro items
    induction items with
    | nil => exact fun start => (add_zero start).symm
    | cons item rest ih =>
      intro start
      rw [List.foldl_cons, ih, List.map_cons, List.sum_cons]
      ring
  rw [totalAmount, fold resolved 0, zero_add]

/-! ## The event -/

section Members

variable (acc : Except String Events.OrderCreatedPayload)

theorem decodeMember_payload {f : String × Decoder Events.OrderCreatedPayload} (mem : f ∈ Events.payloadFields) (j : Json) :
    decodeMember Events.payloadFields acc (f.1, j) = acc.bind (f.2 j) :=
  decodeMember_field (by decide +kernel) (by decide) mem j acc

theorem decode_orderID (v : String) : decodeMember Events.payloadFields acc ("orderId", .string v) =
    acc.map fun p => { p with orderID := v } :=
  (decodeMember_payload acc (.head _) (.string v)).trans (by cases acc <;> rfl)

theorem decode_businessID (v : String) : decodeMember Events.payloadFields acc ("businessId", .string v) =
    acc.map fun p => { p with businessID := v } :=
  (decodeMember_payload acc (.tail _ (.head _)) (.string v)).trans (by cases acc <;> rfl)

theorem decode_customerID (v : String) : decodeMember Events.payloadFields acc ("customerId", .string v) =
    acc.map fun p => { p with customerID := v } :=
  (decodeMember_payload acc (.tail _ (.tail _ (.head _))) (.string v)).trans (by cases acc <;> rfl)

theorem decode_conversationID (v : String) : decodeMember Events.payloadFields acc ("conversationId", .string v) =
    acc.map fun p => { p with conversationID := v } :=
  (decodeMember_payload acc (.tail _ (.tail _ (.tail _ (.head _)))) (.string v)).trans (by cases acc <;> rfl)

theorem decode_totalAmount (v : String) : decodeMember Events.payloadFields acc ("totalAmount", .string v) =
    acc.map fun p => { p with totalAmount := v } :=
  (decodeMember_payload acc (.tail _ (.tail _ (.tail _ (.tail _ (.head _))))) (.string v)).trans (by cases acc <;> rfl)

theorem decode_currency (v : String) : decodeMember Events.payloadFields acc ("currency", .string v) =
    acc.map fun p => { p with currency := v } :=
  (decodeMember_payload acc (.tail _ (.tail _ (.tail _ (.tail _ (.tail _ (.head _)))))) (.string v)).trans (by cases acc <;> rfl)

end Members

/-- The members of a payload set different fields. -/
theorem decodeMember_commute (p : Events.OrderCreatedPayload) : ∀ m ∈ p.marshal, ∀ m' ∈ p.marshal,
    ∀ acc : Except String Events.OrderCreatedPayload, decodeMember Events.payloadFields (decodeMember Events.payloadFields acc m) m' =
      decodeMember Events.payloadFields (decodeMember Events.payloadFields acc m') m := by
  intro m mem m' mem' acc
  simp only [Events.OrderCreatedPayload.marshal, List.mem_cons, List.not_mem_nil, or_false] at mem mem'
  rcases mem with rfl | rfl | rfl | rfl | rfl | rfl <;> rcases mem' with rfl | rfl | rfl | rfl | rfl | rfl <;>
    simp only [decode_orderID, decode_businessID, decode_customerID, decode_conversationID, decode_totalAmount, decode_currency] <;>
    cases acc <;> rfl

/-- The payment-init job decodes to the payload, whatever the order of its members. -/
theorem decode_passedOn {p : Events.OrderCreatedPayload} {doc : Json} (passed : Events.PassedOn p doc) :
    Events.decodeOrderCreated doc = .ok p := by
  obtain ⟨members, perm, rfl⟩ := passed
  unfold Events.decodeOrderCreated
  rw [← decodeStruct_perm _ perm.symm (decodeMember_commute p)]
  simp only [decodeStruct, Events.OrderCreatedPayload.marshal, List.foldl_cons, List.foldl_nil, decode_orderID, decode_businessID,
    decode_customerID, decode_conversationID, decode_totalAmount, decode_currency]
  rfl

/-! ## The whole way -/

section Survival

open Orders

/-- The total of an order as the checkout computed it. -/
def computedTotal (db : Database) (orderID : String) : Decimal := orderTotal (itemsOf db orderID)

theorem itemsTotal_eq (db : Database) (orderID : String) : itemsTotal db orderID = totalAmount (itemsOf db orderID) := by
  rw [totalAmount_eq_sum]
  unfold itemsTotal itemsOf
  rw [List.map_map]
  rfl

/-- The amount of an order, from its items to the reconciliation of a full payment. -/
structure AmountSurvives (db : Database) (o : Order) : Prop where
  /-- The stored total is the exact sum of the items. -/
  sum : o.totalAmount.toDecimal = itemsTotal db o.id
  /-- The row holds what the text of the computed total is stored as. -/
  stored : numericOfText (computedTotal db o.id).string = some o.totalAmount
  /-- The event carries it, and however it is passed on, the same decimal is asked for. -/
  initiated : ∃ p, Events.orderCreatedEvent p ∈ db.domainEvents.rows ∧ Repeats p o ∧ p.totalAmount = (computedTotal db o.id).toRat ∧
    ∀ doc, Events.PassedOn (Events.payloadOf p (computedTotal db o.id)) doc → ∃ evt total, Events.decodeOrderCreated doc = .ok evt ∧
      evt.orderID = o.id ∧ initiatedAmount evt = some (total, toMinorUnits o.totalAmount.toDecimal) ∧ total.toRat = o.totalAmount.toDecimal
  /-- The minor units are the exact integer. -/
  minor : ((toMinorUnits o.totalAmount.toDecimal).toInt : ℚ) = 100 * o.totalAmount.toDecimal
  /-- A webhook can report that integer. -/
  reportable : ∃ d, Decimal.newFromString (Decimal.ofInt (toMinorUnits o.totalAmount.toDecimal).toInt).string = some d ∧
    d.toRat = (toMinorUnits o.totalAmount.toDecimal).toInt
  /-- However it does, strategy A settles the order. -/
  reconciled : ∀ body literal d, Reports body o.id literal → Decimal.newFromString literal = some d →
    d.toRat = (toMinorUnits o.totalAmount.toDecimal).toInt → ∃ evt, parseWebhookEvent body = .ok evt ∧ evt.status = .success ∧
      evt.reference = o.id ∧ fromMinorUnits evt.amountMinor = o.totalAmount.toDecimal ∧
      ∀ now, (strategyA evt now).run exec db =
        (.ok ⟨some o.customerID, some o.businessID, some o.id⟩, settled .success o now db)

/-- The exponents of the code stay in the range the texts are parsed in. -/
theorem computedTotal_spec (db : Database) (orderID : String) :
    (computedTotal db orderID).toRat = totalAmount (itemsOf db orderID) ∧ -2 ^ 31 ≤ (computedTotal db orderID).exp := by
  obtain ⟨value, low⟩ := orderTotal_spec (itemsOf db orderID)
  refine ⟨value, ?_⟩
  show -2 ^ 31 ≤ (orderTotal (itemsOf db orderID)).exp
  omega

/-- The minor units of a column's value are its units. -/
theorem toMinorUnits_column (m : Money) : (toMinorUnits m.toDecimal).toInt = m.units :=
  (toMinorUnits_stored (Numeric.ofDecimal_toDecimal m)).symm

theorem minor_exact (m : Money) : ((toMinorUnits m.toDecimal).toInt : ℚ) = 100 * m.toDecimal := by
  rw [toMinorUnits_column, Money.toDecimal_eq]
  ring

/-- The webhook's number is truncated to itself. -/
theorem parse_reported {body : WebhookBody} {orderID literal : String} {d : Decimal} {minor : Int64}
    (reports : Reports body orderID literal) (parsed : Decimal.newFromString literal = some d) (whole : d.toRat = (minor.toInt : ℚ)) :
    ∃ evt, parseWebhookEvent body = .ok evt ∧ evt.status = .success ∧ evt.reference = orderID ∧ evt.amountMinor = minor := by
  obtain ⟨data, given, reference, amount⟩ := reports.data
  unfold parseWebhookEvent
  rw [reports.decodes, given]
  refine ⟨_, rfl, ?_, reference, ?_⟩
  · rw [reports.event]
    rfl
  · rw [amount, parsed]
    show intPart d.toRat = minor
    rw [whole, intPart, truncate_intCast, Int64.ofInt_toInt]

/-- Strategy A settles the order its event names over the total. -/
theorem strategyA_settles {evt : NormalisedPaymentEvent} {db : Database} {o : Order} (ho : o ∈ db.orders.rows) (named : o.id ≠ "")
    (reference : evt.reference = o.id) (amount : fromMinorUnits evt.amountMinor = o.totalAmount.toDecimal)
    (customer : (db.customers.find? o.customerID).isSome = true) (now : Nat) :
    (strategyA evt now).run exec db = (.ok ⟨some o.customerID, some o.businessID, some o.id⟩, settled evt.status o now db) := by
  have found : orderByReference o.id db = some ⟨o.businessID, o.customerID, o.totalAmount⟩ := by
    obtain ⟨cust, hcust⟩ := Option.isSome_iff_exists.1 customer
    have row : db.orders.find? o.id = some o := Table.find?_eq_some.2 ⟨ho, rfl⟩
    unfold orderByReference
    rw [row, Option.bind_some, hcust]
    rfl
  have read : exec (.orderByReference o.id) db = (.ok (some ⟨o.businessID, o.customerID, o.totalAmount⟩), db) := by
    show query (orderByReference o.id db) db = _
    rw [found]
    rfl
  unfold strategyA
  rw [reference, if_neg named, bind_eq, run_bind, run_call, read]
  unfold andThen
  simp only [amount, if_true]
  rw [bind_eq, run_bind, run_settleReconciledOrder ho]
  rfl

end Survival

open Orders in
/-- In every state the pipeline reaches, the amount of every order survives its way through the pipeline. Order ids are generated
UUIDs, so none is empty. -/
theorem amount_survives {db : Database} {pool : Pool store Database} (start : Ledger db)
    (run : (pipeline (fun _ => true) unrestricted).Reach ⟨db, []⟩ pool) {o : Order} (ho : o ∈ pool.state.orders.rows)
    (named : o.id ≠ "") : AmountSurvives pool.state o := by
  have ledger := ledger_reach start run
  have sum := ledger.total o ho
  obtain ⟨value, low⟩ := computedTotal_spec pool.state o.id
  obtain ⟨p, emitted, repeats⟩ := ledger.created o ho
  refine ⟨sum.trans (itemsTotal_eq pool.state o.id).symm, numericOfText_string low (value.trans sum.symm), ?_, minor_exact _, ?_, ?_⟩
  · refine ⟨p, emitted, repeats, repeats.totalAmount.trans (sum.trans value.symm), fun doc passed => ?_⟩
    obtain ⟨total, parsed, same⟩ := Decimal.newFromString_string (computedTotal pool.state o.id) low
    have text : (Events.payloadOf p (computedTotal pool.state o.id)).totalAmount = (computedTotal pool.state o.id).string := rfl
    have decimal : total.toRat = o.totalAmount.toDecimal := same.trans (value.trans sum.symm)
    refine ⟨_, total, decode_passedOn passed, repeats.orderID, ?_, decimal⟩
    rw [initiatedAmount, text, parsed, Option.map_some, decimal]
  · obtain ⟨d, parsed, same⟩ := Decimal.newFromString_string (Decimal.ofInt (toMinorUnits o.totalAmount.toDecimal).toInt)
      (by decide : (-2 ^ 31 : Int) ≤ 0)
    exact ⟨d, parsed, same.trans (Decimal.toRat_ofInt _)⟩
  · intro body literal d reports parsed whole
    obtain ⟨evt, ok, success, reference, amount⟩ := parse_reported reports parsed whole
    have back : fromMinorUnits evt.amountMinor = o.totalAmount.toDecimal := by
      rw [amount, fromMinorUnits, minor_exact]
      ring
    refine ⟨evt, ok, success, reference, back, fun now => ?_⟩
    rw [strategyA_settles ho named reference back (ledger.customer o ho) now, success]

open Orders in
theorem one_piece_survives : ∃ o ∈ (runJobs [orderOne "order-1" "m1"] shop).orders.rows,
    o.totalAmount.units = 500 ∧ AmountSurvives (runJobs [orderOne "order-1" "m1"] shop) o := by
  have start : Ledger shop := .of_empty rfl rfl rfl
  have runs : Runnable (fun _ => true) unrestricted [orderOne "order-1" "m1"] shop := by decide +kernel
  have placed : ∃ o ∈ (runJobs [orderOne "order-1" "m1"] shop).orders.rows, o.id = "order-1" ∧ o.totalAmount.units = 500 := by
    decide +kernel
  obtain ⟨o, ho, id, units⟩ := placed
  have named : o.id ≠ "" := by
    rw [id]
    decide
  exact ⟨o, ho, units, amount_survives start (reach_jobs runs) ho named⟩

open Orders in
/-- The piece is paid in full, but the webhook that says so has a number for its currency. -/
theorem mistyped_charge_unparsed : ∃ pool : Pool store Database, Ledger shop ∧
    (pipeline (fun _ => true) unrestricted).Reach ⟨shop, []⟩ pool ∧ ∃ o ∈ pool.state.orders.rows, ∃ body data,
      body.event = "charge.success" ∧ body.data = some data ∧ data.reference = o.id ∧
      data.amount = some ((toMinorUnits o.totalAmount.toDecimal).toInt : ℚ) ∧ ∀ evt, parseWebhookEvent body ≠ .ok evt := by
  have start : Ledger shop := .of_empty rfl rfl rfl
  have runs : Runnable (fun _ => true) unrestricted [orderOne "order-1" "m1"] shop := by decide +kernel
  have placed : ∃ o ∈ (runJobs [orderOne "order-1" "m1"] shop).orders.rows, o.id = "order-1" := by decide +kernel
  obtain ⟨o, ho, -⟩ := placed
  refine ⟨_, start, reach_jobs runs, o, ho, ⟨"charge.success",
    some ⟨o.id, some ((toMinorUnits o.totalAmount.toDecimal).toInt : ℚ), "", none, "", "", "", ""⟩,
    some "json: cannot unmarshal number into Go struct field webhookData.data.currency of type string"⟩, _, rfl, rfl, rfl, rfl, ?_⟩
  intro evt parsed
  cases parsed

end NovoApex.Payments
