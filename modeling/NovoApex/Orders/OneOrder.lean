import NovoApex.Pipeline

/-!
# One order at a time

The checkout claims a conversation by moving it to INVOICING, so the guarantee
that a conversation has one open order rests on the state column: nobody may
leave INVOICING while an order of the conversation is open. The transition table
keeps to that; a payment of another order and a vendor's release do not.
-/

namespace NovoApex.Orders
set_option autoImplicit false
open Lib Workers Paystack

/-- The conversation has an order that waits for its payment. -/
def HasOpenOrder (db : Database) (c : String) : Prop :=
  ∃ o ∈ db.orders.rows, o.status.isOpen = true ∧ o.conversationID = some c

instance (db : Database) (c : String) : Decidable (HasOpenOrder db c) :=
  inferInstanceAs (Decidable (∃ o ∈ db.orders.rows, _))

/-- No conversation has two orders that wait for their payment. -/
def OneOpenOrder (db : Database) : Prop :=
  ∀ c, ∀ o ∈ db.orders.rows, ∀ o' ∈ db.orders.rows, o.status.isOpen = true → o'.status.isOpen = true →
    o.conversationID = some c → o'.conversationID = some c → o = o'

/-! ## The slot -/

/-- The invariant: an open order holds its conversation in INVOICING, and holds it alone. -/
structure SlotHeld (db : Database) : Prop where
  held : ∀ c, HasOpenOrder db c → db.stateOf c = some .invoicing
  single : OneOpenOrder db

theorem SlotHeld.of_empty {db : Database} (empty : db.orders.rows = []) : SlotHeld db := by
  refine ⟨?_, ?_⟩
  · rintro c ⟨o, ho, -⟩
    rw [empty] at ho
    cases ho
  · intro c o ho
    rw [empty] at ho
    cases ho

/-- Closing orders keeps the slot, as long as the conversations of the open ones stay where they are. -/
theorem SlotHeld.shrink {db db' : Database} (h : SlotHeld db)
    (old : ∀ o ∈ db'.orders.rows, o.status.isOpen = true → o ∈ db.orders.rows)
    (stays : ∀ c, HasOpenOrder db' c → db'.stateOf c = db.stateOf c) : SlotHeld db' := by
  refine ⟨?_, ?_⟩
  · intro c hc
    rw [stays c hc]
    obtain ⟨o, ho, isOpen, conv⟩ := hc
    exact h.held c ⟨o, old o ho isOpen, isOpen, conv⟩
  · intro c o ho o' ho' isOpen isOpen'
    exact h.single c o (old o ho isOpen) o' (old o' ho' isOpen') isOpen isOpen'

/-- After a status write that closes, an open row is an old row. -/
theorem open_of_setStatus {sel : Order → Bool} {status : OrderStatus} {now : Nat} {orders : Table Order.id} {r : Order}
    (closes : status.isOpen = false) (hr : r ∈ (setStatus sel status now orders).rows) (isOpen : r.status.isOpen = true) :
    r ∈ orders.rows ∧ sel r = false := by
  rcases mem_setStatus.1 hr with old | ⟨o, -, -, rfl⟩
  · exact old
  · rw [closes] at isOpen
    cases isOpen

/-- The conversation an order is placed in was orderable, so nothing held it. -/
theorem SlotHeld.vacant {db : Database} (h : SlotHeld db) {d : CheckoutTx} (accepts : Accepts d db) :
    ¬ HasOpenOrder db d.conversationID := by
  intro occupied
  obtain ⟨s, hs, state⟩ := accepts.orderable
  rw [h.held _ occupied] at state
  obtain rfl := Option.some.inj state
  exact absurd hs (by decide)

theorem SlotHeld.placed {db db' : Database} (h : SlotHeld db) {d : CheckoutTx} (accepts : Accepts d db)
    (placed : Placed d db db') : SlotHeld db' := by
  have vacant := h.vacant accepts
  obtain ⟨total, -, rows⟩ := placed.order
  have conv : ∀ c, (d.order total).conversationID = some c → c = d.conversationID := by
    intro c hc
    simp only [CheckoutTx.order, crmText] at hc
    split at hc
    · cases hc
    · exact (Option.some.inj hc).symm
  refine ⟨?_, ?_⟩
  · rintro c ⟨o, ho, isOpen, hc⟩
    rw [placed.claimed]
    rw [rows] at ho
    rcases List.mem_append.1 ho with ho | ho
    · have held := h.held c ⟨o, ho, isOpen, hc⟩
      by_cases hcd : c = d.conversationID
      · rw [if_pos hcd]
      · rw [if_neg hcd, held]
    · obtain rfl := List.mem_singleton.1 ho
      rw [if_pos (conv c hc)]
  · intro c o ho o' ho' isOpen isOpen' hc hc'
    rw [rows] at ho ho'
    -- an old open order of the claimed conversation would have held the slot
    have alone : ∀ r ∈ db.orders.rows, r.status.isOpen = true → r.conversationID = some c →
        c ≠ d.conversationID := by
      rintro r hr ropen rc rfl
      exact vacant ⟨r, hr, ropen, rc⟩
    rcases List.mem_append.1 ho with ho | ho
    · rcases List.mem_append.1 ho' with ho' | ho'
      · exact h.single c o ho o' ho' isOpen isOpen' hc hc'
      · obtain rfl := List.mem_singleton.1 ho'
        exact (alone o ho isOpen hc (conv c hc')).elim
    · obtain rfl := List.mem_singleton.1 ho
      rcases List.mem_append.1 ho' with ho' | ho'
      · exact (alone o' ho' isOpen' hc' (conv c hc)).elim
      · exact (List.mem_singleton.1 ho').symm

/-- A cancelled order was the one that held its conversation, so the conversation may move on. -/
theorem SlotHeld.cancelled {db db' : Database} (h : SlotHeld db) {o : Order} {reason : String} {now : Nat}
    (cancelled : Cancelled o reason now db db') : SlotHeld db' := by
  have old : ∀ r ∈ db'.orders.rows, r.status.isOpen = true → r ∈ db.orders.rows ∧ cancellable o.id r = false := by
    intro r hr isOpen
    rw [cancelled.orders] at hr
    exact open_of_setStatus rfl hr isOpen
  refine h.shrink (fun r hr isOpen => (old r hr isOpen).1) ?_
  rintro c ⟨r, hr, isOpen, hc⟩
  rw [cancelled.states, if_neg]
  rintro ⟨hoc, -⟩
  obtain ⟨hr, other⟩ := old r hr isOpen
  obtain rfl := h.single c r hr o cancelled.mem isOpen cancelled.wasOpen hc hoc
  simp [cancellable, isOpen] at other

/-- A transition from a state other than INVOICING, or out of a conversation without open orders. -/
theorem SlotHeld.moved {db db' : Database} (h : SlotHeld db) {c : String} {src dst : ConversationState}
    (orders : db'.orders = db.orders)
    (states : ∀ k, db'.stateOf k = if k = c ∧ Domain.validateTransition src dst = true ∧ db.stateOf c = some src
      then some dst else db.stateOf k)
    (free : src = .invoicing → ¬ HasOpenOrder db c) : SlotHeld db' := by
  have same : ∀ k, HasOpenOrder db' k ↔ HasOpenOrder db k := fun k => by unfold HasOpenOrder; rw [orders]
  refine h.shrink (fun o ho _ => orders ▸ ho) ?_
  intro k hk
  rw [states, if_neg]
  rintro ⟨rfl, -, at_⟩
  have held := h.held k ((same k).1 hk)
  rw [held] at at_
  exact free (Option.some.inj at_).symm ((same k).1 hk)

/-- A turn never moves a conversation out of INVOICING. -/
theorem turnTarget_invoicing {intent : Intent} {current dst : ConversationState}
    (h : turnTarget intent current = some dst) : current ≠ .invoicing := by
  rintro rfl
  cases intent <;> cases h

/-! ## The workers -/

/-- Checkouts, payment events, the expiry sweep and turns. -/
def workers : Job → Bool
  | .checkout .. | .payment .. | .expiry .. | .turn .. => true
  | _ => false

/-- A payment moves a conversation out of INVOICING only when none of its orders is open. -/
def SettlesOwnOrder (db : Database) : Stmt → Prop
  | .transition c .invoicing .paid => ¬ HasOpenOrder db c
  | _ => True

instance (db : Database) : DecidablePred (SettlesOwnOrder db)
  | .transition c .invoicing .paid => inferInstanceAs (Decidable (¬ HasOpenOrder db c))
  | op => by unfold SettlesOwnOrder; split <;> infer_instance

theorem SlotHeld.step {db db' : Database} {j : Job} {op : Stmt} (hj : workers j = true) (issues : Issues j op)
    (may : SettlesOwnOrder db op) (h : SlotHeld db) (effect : Effect db op db') : SlotHeld db' := by
  cases effect with
  | same same =>
    refine h.shrink (fun o ho _ => same.orders ▸ ho) fun c _ => same.stateOf c
  | placed accepts placed => exact h.placed accepts placed
  | paid => exact h.shrink (fun o ho isOpen => (open_of_setStatus rfl ho isOpen).1) fun _ _ => rfl
  | moved orders domainEvents states =>
    cases issues with
    | quiet quiet => exact quiet.elim
    | settle => exact h.moved orders states fun _ => may
    | turn target => exact h.moved orders states fun src => (turnTarget_invoicing target src).elim
  | cancelled cancelled => exact h.cancelled cancelled
  | restocked | fulfilled | escalated | taken | released =>
    cases issues <;> first | cases hj | exact False.elim ‹_›

/-- In every run of the workers whose payments settle the order that holds the slot, no conversation
ever has two open orders. -/
theorem one_open_order {db : Database} {pool : Pool store Database} (empty : db.orders.rows = [])
    (run : (pipeline workers SettlesOwnOrder).Reach ⟨db, []⟩ pool) : OneOpenOrder pool.state := by
  have keeps : (pipeline workers SettlesOwnOrder).Keeps SlotHeld (MayIssue workers) := pipeline_keeps
    fun hj _ issues may inv effect => inv.step hj issues may effect
  exact (keeps.invariant run (.of_empty empty)).single

/-! ## A late payment -/

/-- A shop with one product, one customer and one conversation. -/
def shop : Database where
  businesses := ⟨[⟨"biz", "GHS", none⟩], by decide⟩
  businessLocations := Table.empty
  customers := ⟨[⟨"cust", "biz", "+233200000001"⟩], by decide⟩
  customerProfiles := Table.empty
  conversations := ⟨[⟨"conv", "biz", "+233200000001", .browsing, false⟩], by decide⟩
  products := ⟨[⟨"0a1b2c3d-0000", "biz", "Shea butter", ⟨500, by decide⟩, 100, true⟩], by decide⟩
  orders := Table.empty
  orderItems := Table.empty
  orderIntents := Table.empty
  payments := Table.empty
  scheduledFollowUps := Table.empty
  domainEvents := Table.empty
  outboundMessages := Table.empty

/-- The customer confirms an order. -/
def confirm (message : String) (items : List DetectedItem) (orderIntentID : Option String) : CheckoutJob where
  businessID := "biz"
  customerID := "cust"
  conversationID := "conv"
  customerPhone := "+233200000001"
  sourceMessageID := message
  detectedItems := items
  fulfillmentChoice := none
  pickupLocationID := none
  orderIntentID := orderIntentID

/-- The customer orders one piece. -/
def orderOne (orderID message : String) : Job :=
  .checkout (confirm message [⟨"0a1b2c3d", 1⟩] none) ⟨orderID, fun _ => orderID ++ "-item", 0⟩

/-- A Paystack event of the customer. -/
def chargeOf (event reference : String) (minor : Int64) (currency : String) : NormalisedPaymentEvent where
  provider := "paystack"
  event := event
  reference := reference
  amountMinor := minor
  currency := currency
  status := statusOfEvent event
  paidAt := none
  businessID := "biz"
  customerEmail := ""
  authorizationBank := "MTN"
  rawJSON := ⟨event, some ⟨reference, some minor.toInt, currency, none, "", "+233200000001", "MTN", "biz"⟩, none⟩

/-- An event over the price of the piece, with the id of the payment row it may write. -/
def charge (event reference paymentID : String) : Job :=
  .payment (chargeOf event reference 500 "GHS") ⟨1, paymentID, paymentID ++ "-message"⟩

/-- The first order is cancelled by a failed charge, a second one placed; then the first is paid after all
and frees the conversation for a third. -/
def latePayment : List Job :=
  [orderOne "order-1" "m1", charge "charge.failed" "attempt-1" "p1", .turn "conv" .cancelled .productInquiry,
    orderOne "order-2" "m2", charge "charge.success" "order-1" "p2", .turn "conv" .paid .productInquiry,
    orderOne "order-3" "m3"]

/-- A run of the workers leaves two open orders in one conversation. -/
theorem two_open_orders_after_late_payment :
    shop.orders.rows = [] ∧ ∃ pool, (pipeline workers unrestricted).Reach ⟨shop, []⟩ pool ∧ ¬ OneOpenOrder pool.state := by
  refine ⟨rfl, ⟨runJobs latePayment shop, []⟩, reach_jobs (by decide +kernel), fun h => ?_⟩
  have two : ∃ o ∈ (runJobs latePayment shop).orders.rows, ∃ o' ∈ (runJobs latePayment shop).orders.rows,
      o.status.isOpen = true ∧ o'.status.isOpen = true ∧ o.conversationID = some "conv" ∧
        o'.conversationID = some "conv" ∧ o ≠ o' := by decide +kernel
  obtain ⟨o, ho, o', ho', isOpen, isOpen', hc, hc', ne⟩ := two
  exact ne (h "conv" o ho o' ho' isOpen isOpen' hc hc')

/-- A customer who pays each order before the next one. -/
def orderPayOrder : List Job :=
  [orderOne "order-1" "m1", charge "charge.success" "order-1" "p1", .turn "conv" .paid .productInquiry,
    orderOne "order-2" "m2"]

theorem one_open_order_paid_in_turn :
    HasOpenOrder (runJobs orderPayOrder shop) "conv" ∧ OneOpenOrder (runJobs orderPayOrder shop) :=
  ⟨by decide +kernel, one_open_order rfl (reach_jobs (by decide +kernel : Runnable workers SettlesOwnOrder orderPayOrder shop))⟩

end NovoApex.Orders
