import NovoApex.Lib.Guarded
import NovoApex.Orders.OneOrder

/-!
# Checkout is all or nothing

Every exit of `HandleCheckout` that is not a commit leaves the tables alone, and
orders stay in bijection with their `order.created` events in every run. A commit
does everything the job asks for except in two cases: a product whose summed
quantity does not fit the 32 bits of the stock entry, and an intent that is no
longer open, which `ConvertOrderIntent` skips without anyone looking at its count.
-/

namespace NovoApex.Orders
set_option autoImplicit false
open Lib Program Workers

/-! ## The reads -/

/-- The items a checkout resolves against the catalogue. -/
def resolvedItems (db : Database) (businessID : String) (items : List DetectedItem) : List CheckoutResolvedItem :=
  items.filterMap fun item =>
    if crmValidShortID item.productID then
      (resolveProductByShortID businessID item.productID db).map (resolvedItem item)
    else none

theorem run_checkoutResolveProducts (db : Database) (businessID : String) (items : List DetectedItem) :
    (checkoutResolveProducts businessID items).run exec db = (.ok (resolvedItems db businessID items), db) := by
  induction items with
  | nil => rfl
  | cons item rest ih =>
    unfold checkoutResolveProducts
    by_cases valid : crmValidShortID item.productID = true
    · rw [if_pos valid, bind_eq, run_call_bind]
      show ((checkoutResolveProducts businessID rest).bind _).run exec db = _
      rw [run_bind, ih, andThen_ok]
      cases found : resolveProductByShortID businessID item.productID db with
      | none => simp [resolvedItems, valid, found]
      | some p => simp [resolvedItems, valid, found]
    · rw [if_neg valid, ih]
      simp [resolvedItems, valid]

/-- The fulfillment a checkout resolves. -/
def fulfillmentOf (db : Database) (job : CheckoutJob) : FulfillmentType × Option String :=
  if job.fulfillmentChoice = some "pickup" then
    let shortID := job.pickupLocationID.getD ""
    (.pickup, if shortID = "" || !crmValidShortID shortID then none
      else resolvePickupLocationByShortID job.businessID shortID db)
  else (.delivery, none)

theorem run_checkoutResolveFulfillment (db : Database) (job : CheckoutJob) :
    (checkoutResolveFulfillment job).run exec db = (.ok (fulfillmentOf db job), db) := by
  unfold checkoutResolveFulfillment fulfillmentOf
  split
  · simp only
    split
    · rfl
    · rfl
  · rfl

/-- The transaction a checkout opens; `none` when it ends before. -/
def openedTx (job : CheckoutJob) (d : Delivery) (db : Database) : Option CheckoutTx :=
  let resolved := resolvedItems db job.businessID job.detectedItems
  if resolved.isEmpty then none
  else (orderCurrency (getBusinessForOrder job.businessID db)).map fun currency =>
    job.tx d resolved currency (fulfillmentOf db job)

/-- The tables after a checkout: those its transaction leaves, if it opens one. -/
theorem run_handleCheckout (job : CheckoutJob) (d : Delivery) (db : Database) :
    ((handleCheckout job d).run exec db).2 =
      match openedTx job d db with
      | none => db
      | some tx => (exec (.checkoutTx tx) db).2 := by
  unfold handleCheckout openedTx
  by_cases none_ : job.detectedItems.isEmpty = true
  · rw [if_pos none_, List.isEmpty_iff.1 none_]
    rfl
  · rw [if_neg none_, bind_eq, run_bind, run_checkoutResolveProducts, andThen_ok]
    simp only
    by_cases unresolved : (resolvedItems db job.businessID job.detectedItems).isEmpty = true
    · rw [if_pos unresolved, if_pos unresolved]
      rfl
    · rw [if_neg unresolved, if_neg unresolved, bind_eq, run_call_bind]
      show (andThen exec _ (.ok (getBusinessForOrder job.businessID db), db)).2 = _
      rw [andThen_ok]
      cases orderCurrency (getBusinessForOrder job.businessID db) with
      | none => rfl
      | some currency =>
        simp only [Option.map_some, bind_eq]
        rw [run_bind, run_checkoutResolveFulfillment, andThen_ok, run_bind, run_attempt, run_call, andThen_ok]
        rcases exec (.checkoutTx (job.tx d _ currency (fulfillmentOf db job))) db with ⟨_ | _, after⟩
        · simp only
          split <;> rfl
        · rfl

/-- A checkout that fails or crashes anywhere leaves no trace: only the transaction writes, and it fails before
its commit or with its own rollback. -/
theorem handleCheckout_halts {job : CheckoutJob} {d : Delivery} {db db' : Database}
    (h : (handleCheckout job d).Halts exec db db') : db' = db := by
  have guarded : Guarded exec True (· = db) (fun r s => (∃ e, r = .error e) → s = db) (handleCheckout job d) db := by
    unfold handleCheckout
    split
    · exact fun _ => rfl
    · refine Guarded.read (checkoutResolveProducts_uses (fun _ _ _ => rfl) _ _) rfl (fun _ _ => rfl) fun resolved => ?_
      split
      · exact fun _ => rfl
      · refine Guarded.read (uses_call.2 fun _ => rfl) rfl (fun _ _ => rfl) fun business => ?_
        split
        · exact fun _ => rfl
        · refine Guarded.read (checkoutResolveFulfillment_uses (fun _ _ _ => rfl) job) rfl (fun _ _ => rfl) fun fulfillment => ?_
          rename_i currency _
          have refused : ∀ e : Err, Guarded exec True (· = db) (fun r s => (∃ e, r = .error e) → s = db)
              (if checkoutRejection e then pure () else raise e : Handler Unit) db := by
            intro e
            split <;> exact fun _ => rfl
          refine ⟨rfl, ?_, fun _ => refused .transient⟩
          have outcome : exec (.checkoutTx (job.tx d resolved currency fulfillment)) db =
            beginFunc (checkoutTx (job.tx d resolved currency fulfillment)) db := rfl
          rw [outcome]
          rcases beginFunc_cases (checkoutTx (job.tx d resolved currency fulfillment)) db with ⟨_, _, -, eq⟩ | ⟨e, -, eq⟩
          · rw [eq]
            rintro ⟨e, absurd⟩
            cases absurd
          · rw [eq]
            exact refused e
  have left := guarded.halts trivial (fun e s failed => failed ⟨e, rfl⟩) h
  exact left

/-! ## Orders and their `order.created` events -/

/-- The event announces the creation of the order. -/
def IsCreatedOf (o : Order) (e : DomainEvent) : Prop := e.key = (Events.aggregateTypeOrder, o.id, EventType.orderCreated)

/-- Every order has its event and every event its order. -/
structure CreatedMatch (db : Database) : Prop where
  event : ∀ o ∈ db.orders.rows, ∃ e ∈ db.domainEvents.rows, IsCreatedOf o e
  order : ∀ e ∈ db.domainEvents.rows, e.eventType = .orderCreated → ∃ o ∈ db.orders.rows, IsCreatedOf o e

/-- Orders and `order.created` events are in bijection. -/
structure CreatedBijection (db : Database) : Prop where
  event : ∀ o ∈ db.orders.rows, ∃! e, e ∈ db.domainEvents.rows ∧ IsCreatedOf o e
  order : ∀ e ∈ db.domainEvents.rows, e.eventType = .orderCreated → ∃! o, o ∈ db.orders.rows ∧ IsCreatedOf o e

/-- The primary key of the orders and the unique index of the events make a match a bijection. -/
theorem CreatedMatch.bijection {db : Database} (h : CreatedMatch db) : CreatedBijection db := by
  refine ⟨fun o ho => ?_, fun e he created => ?_⟩
  · obtain ⟨e, he, of⟩ := h.event o ho
    exact ⟨e, ⟨he, of⟩, fun e' ⟨he', of'⟩ => Table.eq_of_key he' he (of'.trans of.symm)⟩
  · obtain ⟨o, ho, of⟩ := h.order e he created
    refine ⟨o, ⟨ho, of⟩, fun o' ⟨ho', of'⟩ => Table.eq_of_key ho' ho ?_⟩
    have same := of'.symm.trans of
    simp only [Prod.mk.injEq] at same
    exact same.2.1

theorem CreatedMatch.placed {db db' : Database} (h : CreatedMatch db) {d : CheckoutTx} (accepts : Accepts d db)
    (placed : Placed d db db') :
    db'.domainEvents.rows = db.domainEvents.rows ++ [Events.orderCreatedEvent d.created] ∧ CreatedMatch db' := by
  obtain ⟨total, -, rows⟩ := placed.order
  have events : db'.domainEvents.rows = db.domainEvents.rows ++ [Events.orderCreatedEvent d.created] := by
    rcases placed.events with events | ⟨⟨e, he, key⟩, -⟩
    · exact events
    · -- an event under the new id would have an order
      have created : e.eventType = .orderCreated := congrArg (·.2.2) key
      obtain ⟨o, ho, of⟩ := h.order e he created
      have same : o.id = d.orderID := (congrArg (·.2.1) (of.symm.trans key) :)
      exact (accepts.freshOrder o ho same).elim
  refine ⟨events, fun o ho => ?_, fun e he created => ?_⟩
  · rw [rows] at ho
    rw [events]
    rcases List.mem_append.1 ho with ho | ho
    · obtain ⟨e, he, of⟩ := h.event o ho
      exact ⟨e, List.mem_append_left _ he, of⟩
    · obtain rfl := List.mem_singleton.1 ho
      exact ⟨_, List.mem_append_right _ (List.mem_singleton_self _), rfl⟩
  · rw [events] at he
    rw [rows]
    rcases List.mem_append.1 he with he | he
    · obtain ⟨o, ho, of⟩ := h.order e he created
      exact ⟨o, List.mem_append_left _ ho, of⟩
    · obtain rfl := List.mem_singleton.1 he
      exact ⟨_, List.mem_append_right _ (List.mem_singleton_self _), rfl⟩

/-- A statement that places no order emits no `order.created`. -/
theorem created_of_effect {db db' : Database} {op : Stmt} (effect : Effect db op db') :
    (∃ d, Accepts d db ∧ Placed d db db') ∨
      ∀ e : DomainEvent, e.eventType = .orderCreated → (e ∈ db'.domainEvents.rows ↔ e ∈ db.domainEvents.rows) := by
  have kept : db'.domainEvents = db.domainEvents → ∀ e : DomainEvent, e.eventType = .orderCreated →
      (e ∈ db'.domainEvents.rows ↔ e ∈ db.domainEvents.rows) := fun same e _ => by rw [same]
  cases effect with
  | same h => exact .inr (kept h.domainEvents)
  | placed accepts h => exact .inl ⟨_, accepts, h⟩
  | paid => exact .inr (kept rfl)
  | moved orders domainEvents states => exact .inr (kept domainEvents)
  | cancelled h =>
    rcases h.events with rows | ⟨-, same⟩
    · refine .inr fun e created => ?_
      rw [rows, List.mem_append, List.mem_singleton]
      constructor
      · rintro (he | rfl)
        · exact he
        · cases created
      · exact .inl
    · exact .inr (kept same)
  | restocked h => exact .inr (kept h.domainEvents)
  | fulfilled => exact .inr (kept rfl)
  | escalated h => exact .inr (kept h.domainEvents)
  | taken h => exact .inr (kept h.domainEvents)
  | released h => exact .inr (kept h.domainEvents)

theorem CreatedMatch.step {db db' : Database} {op : Stmt} (h : CreatedMatch db) (effect : Effect db op db') :
    CreatedMatch db' := by
  rcases created_of_effect effect with ⟨d, accepts, placed⟩ | events
  · exact (h.placed accepts placed).2
  rcases effect.orders_cases with ⟨d, -, accepts, placed⟩ | ⟨f, fixed, rows⟩
  · exact (h.placed accepts placed).2
  have keeps : ∀ o e, IsCreatedOf (f o) e ↔ IsCreatedOf o e := fun o e => by
    unfold IsCreatedOf
    rw [Order.fixed_id (fixed o)]
  refine ⟨fun o ho => ?_, fun e he created => ?_⟩
  · rw [rows] at ho
    obtain ⟨old, hold, rfl⟩ := List.mem_map.1 ho
    obtain ⟨e, he, of⟩ := h.event old hold
    have created : e.eventType = .orderCreated := (congrArg (·.2.2) of :)
    exact ⟨e, (events e created).2 he, (keeps old e).2 of⟩
  · obtain ⟨o, ho, of⟩ := h.order e ((events e created).1 he) created
    exact ⟨f o, rows ▸ List.mem_map_of_mem ho, (keeps o e).2 of⟩

/-! ## All or nothing -/

/-- The payload repeats the order. -/
structure Repeats (payload : OrderCreated) (o : Order) : Prop where
  orderID : payload.orderID = o.id
  businessID : payload.businessID = o.businessID
  customerID : payload.customerID = o.customerID
  conversationID : payload.conversationID = o.conversationID.getD ""
  totalAmount : payload.totalAmount = o.totalAmount.toDecimal
  currency : payload.currency = o.currency

/-- The row keeps the item. -/
structure IsItemOf (orderID : String) (item : CheckoutResolvedItem) (row : OrderItem) : Prop where
  order : row.orderID = orderID
  product : row.productID = item.productID
  name : row.productName = item.productName
  quantity : row.quantity = item.quantity
  price : row.unitPrice = item.unitPrice

/-- The job's intent, if it names one, was open and is converted into the order. -/
def IntentConverted (intentID : Option String) (orderID : String) (db db' : Database) : Prop :=
  ∀ id, intentID.bind crmText = some id → ∃ i ∈ db.orderIntents.rows, i.id = id ∧ i.status ≠ .converted ∧
    { i with status := .converted, orderID := crmText orderID } ∈ db'.orderIntents.rows

/-- Everything a checkout of these items promises to commit. -/
structure Committed (job : CheckoutJob) (d : Delivery) (resolved : List CheckoutResolvedItem) (db db' : Database) : Prop where
  order : ∃ o payload, db'.orders.rows = db.orders.rows ++ [o] ∧ o.id = d.orderID ∧ o.status = .confirmed ∧
    o.businessID = job.businessID ∧ o.customerID = job.customerID ∧ o.conversationID = crmText job.conversationID ∧
    db'.domainEvents.rows = db.domainEvents.rows ++ [Events.orderCreatedEvent payload] ∧ Repeats payload o
  items : ∃ rows, db'.orderItems.rows = db.orderItems.rows ++ rows ∧ List.Forall₂ (IsItemOf d.orderID) resolved rows
  stock : db'.products.rows = db.products.rows.map fun p => { p with stock := p.stock - quantityOf resolved p.id }
  conversation : db'.stateOf job.conversationID = some .invoicing
  intent : IntentConverted job.orderIntentID d.orderID db db'

/-- A checkout commits everything or leaves every table as it was, and a failed attempt leaves them too. -/
structure AllOrNothing (job : CheckoutJob) (d : Delivery) (db : Database) : Prop where
  outcome : ((handleCheckout job d).run exec db).2 = db ∨
    Committed job d (resolvedItems db job.businessID job.detectedItems) db ((handleCheckout job d).run exec db).2
  failure : ∀ db', (handleCheckout job d).Halts exec db db' → db' = db

/-- The job's intent, if it names one, is open. -/
def IntentOpen (intentID : Option String) (db : Database) : Prop :=
  ∀ id, intentID.bind crmText = some id → ∃ i ∈ db.orderIntents.rows, i.id = id ∧ OrderIntent.convertible i = true

/-- The tables refuse the transaction, or the quantities fit and the intent is open. -/
def CheckoutSound (job : CheckoutJob) (d : Delivery) (db : Database) : Prop :=
  ∀ tx, openedTx job d db = some tx → Accepts tx db → QuantitiesFit tx.resolved ∧ IntentOpen job.orderIntentID db

theorem openedTx_eq {job : CheckoutJob} {d : Delivery} {db : Database} {tx : CheckoutTx}
    (h : openedTx job d db = some tx) : ∃ currency,
      tx = job.tx d (resolvedItems db job.businessID job.detectedItems) currency (fulfillmentOf db job) := by
  unfold openedTx at h
  simp only at h
  split at h
  · cases h
  · obtain ⟨currency, -, rfl⟩ := Option.map_eq_some_iff.1 h
    exact ⟨currency, rfl⟩

/-- The order total is a sum of column prices times whole quantities, so it lies on the column's grid. -/
theorem totalAmount_grid (resolved : List CheckoutResolvedItem) : ∃ m : Int, totalAmount resolved * 10 ^ 2 = (m : ℚ) := by
  have fold : ∀ (items : List CheckoutResolvedItem) (start : ℚ) (m : Int), start * 10 ^ 2 = (m : ℚ) →
      ∃ m' : Int, items.foldl (fun (total : ℚ) item => total + item.unitPrice.toDecimal * item.quantity.toInt) start *
        10 ^ 2 = (m' : ℚ) := by
    intro items
    induction items with
    | nil => exact fun start m h => ⟨m, h⟩
    | cons item rest ih =>
      intro start m h
      refine ih _ (m + item.unitPrice.units * item.quantity.toInt) ?_
      have price : item.unitPrice.toDecimal * 10 ^ 2 = (item.unitPrice.units : ℚ) := item.unitPrice.toDecimal_mul
      push_cast
      rw [← h, ← price]
      ring
  exact fold resolved 0 0 (by norm_num)

/-- The quantity asked of a product survives the cut to 32 bits. -/
theorem ofInt_quantityOf {resolved : List CheckoutResolvedItem} (h : QuantitiesFit resolved) (productID : String) :
    (Int32.ofInt (quantityOf resolved productID)).toInt = quantityOf resolved productID := by
  rw [toInt_ofInt_iff]
  by_cases ordered : ∃ item ∈ resolved, item.productID = productID
  · obtain ⟨item, hitem, rfl⟩ := ordered
    exact h item hitem
  · have nothing : (resolved.filter fun i => decide (i.productID = productID)) = [] := by
      rw [List.filter_eq_nil_iff]
      intro i hi same
      exact ordered ⟨i, hi, of_decide_eq_true same⟩
    rw [quantityOf, nothing]
    rfl

theorem items_forall₂ (d : CheckoutTx) : List.Forall₂ (IsItemOf d.orderID) d.resolved d.items := by
  unfold CheckoutTx.items
  rw [List.forall₂_iff_get]
  refine ⟨by simp, fun i h _ => ?_⟩
  simp only [List.get_eq_getElem, List.getElem_mapIdx]
  exact ⟨rfl, rfl, rfl, rfl, rfl⟩

theorem exists_item {d : CheckoutTx} {item : CheckoutResolvedItem} (h : item ∈ d.resolved) :
    ∃ row ∈ d.items, row.productID = item.productID := by
  obtain ⟨i, hi, rfl⟩ := List.getElem_of_mem h
  have bound : i < d.items.length := by simpa [CheckoutTx.items] using hi
  exact ⟨d.items[i], List.getElem_mem bound, by simp [CheckoutTx.items]⟩

theorem converted_of_open {d : CheckoutTx} {db db' : Database} (isOpen : IntentOpen d.orderIntentID db)
    (intents : db'.orderIntents.rows = db.orderIntents.rows.map (convertedIntent d)) :
    IntentConverted d.orderIntentID d.orderID db db' := by
  intro id named
  obtain ⟨i, hi, rfl, convertible⟩ := isOpen id named
  refine ⟨i, hi, rfl, ?_, ?_⟩
  · intro converted
    simp [OrderIntent.convertible, converted] at convertible
  · rw [intents]
    refine List.mem_map.2 ⟨i, hi, ?_⟩
    rw [convertedIntent, if_pos ⟨named, convertible⟩]

/-- An intent that ends up converted was open. -/
theorem open_of_converted {d : CheckoutTx} {db db' : Database} (converted : IntentConverted d.orderIntentID d.orderID db db')
    (intents : db'.orderIntents.rows = db.orderIntents.rows.map (convertedIntent d)) : IntentOpen d.orderIntentID db := by
  intro id named
  obtain ⟨i, hi, rfl, unconverted, after⟩ := converted id named
  refine ⟨i, hi, rfl, ?_⟩
  rw [intents] at after
  obtain ⟨old, hold, eq⟩ := List.mem_map.1 after
  unfold convertedIntent at eq
  split at eq
  · rename_i convertible
    have same : old.id = i.id := (congrArg OrderIntent.id eq :)
    obtain rfl := Table.eq_of_key hold hi same
    exact convertible.2
  · have same : old.id = i.id := (congrArg OrderIntent.id eq :)
    obtain rfl := Table.eq_of_key hold hi same
    exact (unconverted (congrArg OrderIntent.status eq :)).elim

theorem crmText_getD (s : String) : (crmText s).getD "" = s := by
  unfold crmText
  split
  · rename_i h; exact h.symm
  · rfl

theorem committed_of_placed {job : CheckoutJob} {d : Delivery} {resolved : List CheckoutResolvedItem} {currency : String}
    {fulfillment : FulfillmentType × Option String} {db db' : Database} (matched : CreatedMatch db)
    (accepts : Accepts (job.tx d resolved currency fulfillment) db)
    (placed : Placed (job.tx d resolved currency fulfillment) db db') (fit : QuantitiesFit resolved)
    (isOpen : IntentOpen job.orderIntentID db) : Committed job d resolved db db' := by
  obtain ⟨total, htotal, rows⟩ := placed.order
  obtain ⟨m, grid⟩ := totalAmount_grid resolved
  refine ⟨⟨_, _, rows, rfl, rfl, rfl, rfl, rfl, (matched.placed accepts placed).1, ?_⟩,
    ⟨_, placed.items, items_forall₂ (job.tx d resolved currency fulfillment)⟩, ?_, ?_, converted_of_open isOpen placed.intents⟩
  · exact ⟨rfl, rfl, rfl, (crmText_getD job.conversationID).symm, (Numeric.toDecimal_of_grid grid htotal).symm, rfl⟩
  · rw [placed.stock]
    apply List.map_congr_left
    intro p _
    have whole := ofInt_quantityOf fit p.id
    show { p with stock := p.stock - (Int32.ofInt (quantityOf resolved p.id)).toInt } = _
    rw [whole]
  · rw [placed.claimed]
    exact if_pos rfl

/-- What an accepted transaction leaves tells whether the quantities fit and the intent was open. -/
theorem sound_of_committed {job : CheckoutJob} {d : Delivery} {resolved : List CheckoutResolvedItem} {currency : String}
    {fulfillment : FulfillmentType × Option String} {db db' : Database}
    (accepts : Accepts (job.tx d resolved currency fulfillment) db)
    (placed : Placed (job.tx d resolved currency fulfillment) db db') (committed : Committed job d resolved db db') :
    QuantitiesFit resolved ∧ IntentOpen job.orderIntentID db := by
  refine ⟨fun item hitem => ?_, open_of_converted committed.intent placed.intents⟩
  obtain ⟨i, hi, product⟩ : ∃ row ∈ (job.tx d resolved currency fulfillment).items, row.productID = item.productID :=
    exists_item hitem
  obtain ⟨p, found⟩ := Option.isSome_iff_exists.1 (accepts.knownProducts i hi)
  obtain ⟨hp, pid⟩ := Table.find?_eq_some.1 found
  have same := List.map_inj_left.1 (placed.stock.symm.trans committed.stock) p hp
  have stock : p.stock - (Int32.ofInt (quantityOf resolved p.id)).toInt = p.stock - quantityOf resolved p.id :=
    (congrArg Product.stock same :)
  rw [pid, product] at stock
  exact (toInt_ofInt_iff _).1 (by omega)

theorem allOrNothing_iff {db : Database} (matched : CreatedMatch db) (job : CheckoutJob) (d : Delivery) :
    AllOrNothing job d db ↔ CheckoutSound job d db := by
  constructor
  · intro h tx opened accepts
    obtain ⟨currency, rfl⟩ := openedTx_eq opened
    obtain ⟨db', commits⟩ := checkoutTx_commits accepts
    have placed := (checkoutTx_ok commits).2
    have after : ((handleCheckout job d).run exec db).2 = db' := by
      rw [run_handleCheckout, opened]
      exact congrArg Prod.snd (beginFunc_ok commits)
    have outcome := h.outcome
    rw [after] at outcome
    rcases outcome with rfl | committed
    · obtain ⟨total, -, rows⟩ := placed.order
      have := congrArg List.length rows
      simp at this
    · exact sound_of_committed accepts placed committed
  · intro sound
    refine ⟨?_, fun db' h => handleCheckout_halts h⟩
    rw [run_handleCheckout]
    cases opened : openedTx job d db with
    | none => exact .inl rfl
    | some tx =>
      show (beginFunc (checkoutTx tx) db).2 = db ∨ Committed job d _ db (beginFunc (checkoutTx tx) db).2
      rcases beginFunc_cases (checkoutTx tx) db with ⟨_, db', ok, eq⟩ | ⟨e, -, eq⟩
      · rw [eq]
        obtain ⟨accepts, placed⟩ := checkoutTx_ok ok
        obtain ⟨fit, isOpen⟩ := sound tx opened accepts
        obtain ⟨currency, rfl⟩ := openedTx_eq opened
        exact .inr (committed_of_placed matched accepts placed fit isOpen)
      · rw [eq]
        exact .inl rfl

/-- In every state the pipeline reaches, orders and `order.created` events are in bijection, and a checkout is all
or nothing exactly when its transaction is refused or its quantities fit and its intent is open. -/
theorem checkout_all_or_nothing {db : Database} {pool : Pool store Database} (start : CreatedMatch db)
    (run : (pipeline (fun _ => true) unrestricted).Reach ⟨db, []⟩ pool) :
    CreatedBijection pool.state ∧ ∀ job d, AllOrNothing job d pool.state ↔ CheckoutSound job d pool.state := by
  have keeps : (pipeline (fun _ => true) unrestricted).Keeps CreatedMatch (MayIssue fun _ => true) :=
    pipeline_keeps fun _ _ _ _ inv effect => inv.step effect
  have matched := keeps.invariant run start
  exact ⟨matched.bijection, allOrNothing_iff matched⟩

/-- Two lines of the largest quantity: their sum is cut to -2 and the stock grows. -/
def hugeOrder : CheckoutJob := confirm "m1" [⟨"0a1b2c3d", 2147483647⟩, ⟨"0a1b2c3d", 2147483647⟩] none

/-- The shop with an intent that has expired. -/
def shopWithExpiredIntent : Database :=
  { shop with orderIntents := ⟨[⟨"intent-1", "conv", .expired, none, 0⟩], by decide⟩ }

/-- A confirmation of that intent, delivered late. -/
def lateConfirmation : CheckoutJob := confirm "m1" [⟨"0a1b2c3d", 1⟩] (some "intent-1")

/-- The ids a delivery generates for two items. -/
def firstDelivery : Delivery := ⟨"order-1", fun i => if i = 0 then "item-0" else "item-1", 0⟩

/-- Both orders are committed, one without its stock decrement, one without its intent. -/
theorem checkout_commits_in_part :
    ¬ AllOrNothing hugeOrder firstDelivery shop ∧ ¬ AllOrNothing lateConfirmation firstDelivery shopWithExpiredIntent := by
  refine ⟨fun h => ?_, fun h => ?_⟩
  · rcases h.outcome with same | committed
    · exact absurd (congrArg (fun db => db.orders.rows.length) same) (by decide +kernel)
    · exact absurd committed.stock (by decide +kernel)
  · rcases h.outcome with same | committed
    · exact absurd (congrArg (fun db => db.orders.rows.length) same) (by decide +kernel)
    · exact absurd (committed.intent "intent-1" rfl) (by decide +kernel)

theorem CreatedMatch.of_empty {db : Database} (noOrders : db.orders.rows = []) (noEvents : db.domainEvents.rows = []) :
    CreatedMatch db := by
  refine ⟨fun o ho => ?_, fun e he => ?_⟩
  · rw [noOrders] at ho
    cases ho
  · rw [noEvents] at he
    cases he

theorem checkout_all_or_nothing_one_piece :
    CreatedBijection (runJobs [orderOne "order-1" "m1"] shop) ∧
      AllOrNothing (confirm "m1" [⟨"0a1b2c3d", 1⟩] none) firstDelivery shop := by
  have start : CreatedMatch shop := .of_empty rfl rfl
  have runs : Runnable (fun _ => true) unrestricted [orderOne "order-1" "m1"] shop := by decide +kernel
  refine ⟨(checkout_all_or_nothing start (reach_jobs runs)).1, ?_⟩
  refine ((checkout_all_or_nothing start .refl).2 _ _).2 fun tx opened _ => ?_
  obtain ⟨currency, rfl⟩ := openedTx_eq opened
  refine ⟨?_, fun id named => nomatch named⟩
  exact (by decide +kernel : QuantitiesFit (resolvedItems shop "biz" [⟨"0a1b2c3d", 1⟩]))

end NovoApex.Orders
