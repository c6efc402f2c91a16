import NovoApex.Workers.CheckoutTx
import Mathlib.Data.List.Induction
import Mathlib.Data.List.Perm.Subperm

/-!
# What the checkout transaction does

`Accepts` says when the transaction commits, `Placed` what it then leaves. One
lemma per statement; `checkoutTx_ok` and `checkoutTx_commits` chain them.
-/

namespace NovoApex.Workers
set_option autoImplicit false
open Lib

/-! ## The stock entries -/

/-- The quantity a list of items asks of a product. -/
def quantityOf (resolved : List CheckoutResolvedItem) (productID : String) : Int :=
  ((resolved.filter fun i => decide (i.productID = productID)).map fun i => i.quantity.toInt).sum

theorem quantityOf_snoc (resolved : List CheckoutResolvedItem) (item : CheckoutResolvedItem) (productID : String) :
    quantityOf (resolved ++ [item]) productID =
      quantityOf resolved productID + if item.productID = productID then item.quantity.toInt else 0 := by
  unfold quantityOf
  by_cases h : item.productID = productID <;> simp [h]

theorem qtyByProduct_snoc (resolved : List CheckoutResolvedItem) (item : CheckoutResolvedItem) :
    qtyByProduct (resolved ++ [item]) = addQuantity (qtyByProduct resolved) item := by
  simp [qtyByProduct, List.foldl_append]

theorem addQuantity_keys (acc : List (String × Int)) (item : CheckoutResolvedItem) :
    (addQuantity acc item).map Prod.fst =
      if item.productID ∈ acc.map Prod.fst then acc.map Prod.fst else acc.map Prod.fst ++ [item.productID] := by
  unfold addQuantity
  split
  · rw [List.map_map]
    apply List.map_congr_left
    intro e _
    by_cases h : e.1 = item.productID <;> simp [h]
  · simp

/-- The aggregation lists the products once each, exactly those of the items. -/
theorem qtyByProduct_keys (resolved : List CheckoutResolvedItem) :
    ((qtyByProduct resolved).map Prod.fst).Nodup ∧
      ∀ id, id ∈ (qtyByProduct resolved).map Prod.fst ↔ id ∈ resolved.map CheckoutResolvedItem.productID := by
  induction resolved using List.reverseRecOn with
  | nil => simp [qtyByProduct]
  | append_singleton resolved item ih =>
    obtain ⟨nodup, same⟩ := ih
    rw [qtyByProduct_snoc, addQuantity_keys]
    split
    · rename_i seen
      refine ⟨nodup, fun id => ?_⟩
      rw [List.map_append, List.mem_append, same id]
      constructor
      · exact .inl
      · rintro (h | h)
        · exact h
        · rw [List.map_singleton, List.mem_singleton] at h
          exact h ▸ (same _).1 seen
    · rename_i fresh
      refine ⟨List.nodup_append.2 ⟨nodup, List.nodup_singleton _, ?_⟩, fun id => ?_⟩
      · intro a ha b hb heq
        rw [List.mem_singleton] at hb
        exact fresh (hb ▸ heq ▸ ha)
      · rw [List.map_append, List.mem_append, List.mem_append, same id, List.map_singleton]

/-- Each product is listed with the sum of its items' quantities. -/
theorem qtyByProduct_sum (resolved : List CheckoutResolvedItem) :
    ∀ e ∈ qtyByProduct resolved, e.2 = quantityOf resolved e.1 := by
  induction resolved using List.reverseRecOn with
  | nil => simp [qtyByProduct]
  | append_singleton resolved item ih =>
    intro e he
    rw [qtyByProduct_snoc] at he
    rw [quantityOf_snoc]
    unfold addQuantity at he
    split at he
    · obtain ⟨old, hold, rfl⟩ := List.mem_map.1 he
      have sum := ih old hold
      by_cases h : old.1 = item.productID
      · rw [h] at sum
        simp [h, sum]
      · simp [h, Ne.symm h, sum]
    · rename_i fresh
      rcases List.mem_append.1 he with h | h
      · have ne : item.productID ≠ e.1 := fun heq => fresh (heq ▸ List.mem_map_of_mem h)
        simp [ne, ih e h]
      · rw [List.mem_singleton] at h
        subst h
        -- the product is new: no earlier item asks for it
        have none : quantityOf resolved item.productID = 0 := by
          have absent : item.productID ∉ resolved.map CheckoutResolvedItem.productID :=
            fun h => fresh (((qtyByProduct_keys resolved).2 _).2 h)
          have nothing : (resolved.filter fun i => decide (i.productID = item.productID)) = [] := by
            rw [List.filter_eq_nil_iff]
            intro i hi same
            exact absent (of_decide_eq_true same ▸ List.mem_map_of_mem hi)
          rw [quantityOf, nothing]
          rfl
        simp [none]

/-- The summed quantity of every ordered product fits the 32 bits it is cut to. -/
def QuantitiesFit (resolved : List CheckoutResolvedItem) : Prop :=
  ∀ item ∈ resolved, fitsInt32 (quantityOf resolved item.productID) = true

instance (resolved : List CheckoutResolvedItem) : Decidable (QuantitiesFit resolved) :=
  inferInstanceAs (Decidable (∀ item ∈ resolved, _))

/-- Cutting a sum to 32 bits keeps it exactly when it fits. -/
theorem toInt_ofInt_iff (n : Int) : (Int32.ofInt n).toInt = n ↔ fitsInt32 n = true := by
  rw [Int32.toInt_ofInt, fitsInt32]
  simp only [Bool.and_eq_true, decide_eq_true_eq]
  constructor
  · intro h
    have lo := Int.le_bmod (x := n) (m := 2 ^ 32) (by decide)
    have hi := Int.bmod_lt (x := n) (m := 2 ^ 32) (by decide)
    have size : Int32.size = 2 ^ 32 := rfl
    rw [size] at h
    omega
  · intro h
    have size : Int32.size = 2 ^ 32 := rfl
    rw [size, Int.bmod_eq_of_le (by omega) (by omega)]

/-- The entries name each ordered product once. -/
theorem stockEntries_ids (resolved : List CheckoutResolvedItem) :
    ((stockEntries resolved).map CheckoutStockEntry.id).Nodup ∧
      ∀ id, id ∈ (stockEntries resolved).map CheckoutStockEntry.id ↔
        id ∈ resolved.map CheckoutResolvedItem.productID := by
  have same : (stockEntries resolved).map CheckoutStockEntry.id = (qtyByProduct resolved).map Prod.fst := by
    simp [stockEntries, Function.comp_def]
  rw [same]
  exact qtyByProduct_keys resolved

/-- An entry holds the quantity of its product, cut to 32 bits. -/
theorem stockEntries_qty {resolved : List CheckoutResolvedItem} {e : CheckoutStockEntry}
    (he : e ∈ stockEntries resolved) : e.qty = Int32.ofInt (quantityOf resolved e.id) := by
  obtain ⟨pair, hpair, rfl⟩ := List.mem_map.1 he
  rw [← qtyByProduct_sum resolved pair hpair]

/-! ## The statements -/

/-- A nullable reference finds its row. -/
def Refers {R : Type} {key : R → String} (t : Table key) (ref : Option String) : Prop :=
  ∀ id, ref = some id → (t.find? id).isSome = true

theorem referenced_eq_ok {R : Type} {key : R → String} {t : Table key} {constraint : String} {ref : Option String}
    {u : Unit} : referenced t constraint ref = .ok u ↔ Refers t ref := by
  cases ref with
  | none => simp [referenced, Refers]
  | some id =>
    by_cases h : (t.find? id).isSome = true
    · simp [referenced, Refers, h]
    · simp [referenced, Refers, h]

theorem claimConversation_eq_ok {conversationID : String} {db db' : Database} :
    claimConversation conversationID db = .ok ((), db') ↔
      (∃ s ∈ orderableStates, db.stateOf conversationID = some s) ∧
        (Domain.compareAndSet conversationID orderableStates .invoicing db).2 = db' := by
  have legal : Domain.transitionToTx conversationID orderableStates .invoicing db =
      Domain.compareAndSet conversationID orderableStates .invoicing db := rfl
  have claims : (∃ s ∈ orderableStates, db.stateOf conversationID = some s) ↔
      (Domain.compareAndSet conversationID orderableStates .invoicing db).1 = true := Domain.compareAndSet_fst.symm
  rw [claims]
  unfold claimConversation
  rw [legal]
  rcases Domain.compareAndSet conversationID orderableStates .invoicing db with ⟨_ | _, after⟩ <;> simp

/-- The references of the row `InsertOrder` writes. -/
structure OrderRefers (d : CheckoutTx) (db : Database) : Prop where
  business : Refers db.businesses (some d.businessID)
  conversation : Refers db.conversations (crmText d.conversationID)
  customer : Refers db.customers (some d.customerID)
  location : Refers db.businessLocations d.locationID

theorem insertOrder_eq_ok {d : CheckoutTx} {db db' : Database} :
    insertOrder d db = .ok ((), db') ↔
      ∃ total orders, Numeric.ofDecimal d.totalAmount = some total ∧ db.orders.insert (d.order total) = some orders ∧
        idempotencyKeyTaken db (crmText d.sourceMessageID) = false ∧ OrderRefers d db ∧
        { db with orders := orders } = db' := by
  have keyed : ∀ total, (d.order total).idempotencyKey = crmText d.sourceMessageID := fun _ => rfl
  unfold insertOrder
  cases ht : (Numeric.ofDecimal d.totalAmount : Option Money) with
  | none => simp
  | some total =>
    cases hi : db.orders.insert (d.order total) with
    | none => simp [hi]
    | some orders =>
      cases hk : idempotencyKeyTaken db (crmText d.sourceMessageID) with
      | true => simp [hi, hk, keyed]
      | false =>
        simp only [hi, hk, keyed, bind_eq_ok, referenced_eq_ok, Bool.false_eq_true, if_false]
        constructor
        · rintro ⟨-, business, -, conversation, -, customer, -, location, same⟩
          injection same with same
          injection same with _ same
          exact ⟨total, orders, rfl, hi, trivial, ⟨business, conversation, customer, location⟩, same⟩
        · rintro ⟨total', orders', same, hi', -, refers, rfl⟩
          obtain rfl := Option.some.inj same
          obtain rfl := Option.some.inj (hi.symm.trans hi')
          exact ⟨(), refers.business, (), refers.conversation, (), refers.customer, (), refers.location, rfl⟩

theorem insertAll_rows {R K : Type} [DecidableEq K] {key : R → K} {rows : List R} {t t' : Table key}
    (h : insertAll t rows = some t') : t'.rows = t.rows ++ rows := by
  induction rows generalizing t with
  | nil =>
    obtain rfl := Option.some.inj h
    exact (List.append_nil _).symm
  | cons r rest ih =>
    obtain ⟨mid, first, then_⟩ := Option.bind_eq_some_iff.1 h
    rw [ih then_, (Table.insert_eq_some.1 first).2, List.append_assoc, List.singleton_append]

theorem insertOrderItems_eq_ok {items : List OrderItem} {db db' : Database} :
    insertOrderItems items db = .ok ((), db') ↔
      ∃ rows, insertAll db.orderItems items = some rows ∧
        (∀ i ∈ items, (db.products.find? i.productID).isSome = true) ∧ { db with orderItems := rows } = db' := by
  unfold insertOrderItems
  cases hi : insertAll db.orderItems items with
  | none => simp
  | some rows =>
    simp only [Option.some.injEq, exists_eq_left']
    rw [← List.all_eq_true (p := fun i : OrderItem => (db.products.find? i.productID).isSome)]
    split
    · rename_i known
      simp [known]
    · rename_i unknown
      simp [unknown]

/-- The new stock of every product the entries match is a column value. -/
def StockInRange (entries : List CheckoutStockEntry) (db : Database) : Prop :=
  (db.products.rows.all fun p => (matchingEntry entries p).isNone || fitsInt32 (decremented entries p).stock) = true

/-- Every entry matches a product that holds enough. -/
def StockSuffices (entries : List CheckoutStockEntry) (db : Database) : Prop :=
  db.products.affected (fun p => (matchingEntry entries p).isSome) = entries.length

theorem decrementStock_eq_ok {entries : List CheckoutStockEntry} {db db' : Database} :
    decrementStock entries db = .ok ((), db') ↔ StockInRange entries db ∧ StockSuffices entries db ∧
      { db with products := db.products.update (fun _ => true) (decremented entries) (decremented_id entries) } = db' := by
  unfold decrementStock StockInRange StockSuffices
  split
  · rename_i inRange
    split
    · rename_i suffices_
      simp [inRange, suffices_]
    · rename_i short
      simp [short]
  · rename_i outOfRange
    simp [outOfRange]

theorem matchingEntry_spec {entries : List CheckoutStockEntry} {p : Product} {e : CheckoutStockEntry}
    (h : matchingEntry entries p = some e) : e ∈ entries ∧ e.id = p.id ∧ e.qty.toInt ≤ p.stock := by
  refine ⟨List.mem_of_find?_eq_some h, ?_⟩
  simpa using List.find?_some h

/-- When as many products match as there are entries, and the entries name different products, every
entry is matched by its product. -/
theorem StockSuffices.matches {entries : List CheckoutStockEntry} {db : Database} (h : StockSuffices entries db)
    (nodup : (entries.map CheckoutStockEntry.id).Nodup) {e : CheckoutStockEntry} (he : e ∈ entries) :
    ∃ p ∈ db.products.rows, p.id = e.id ∧ matchingEntry entries p = some e := by
  let matched := (db.products.rows.filter fun p => (matchingEntry entries p).isSome).map Product.id
  have distinct : matched.Nodup := (List.filter_sublist.map Product.id).nodup db.products.unique
  have known : matched ⊆ entries.map CheckoutStockEntry.id := by
    intro id hid
    obtain ⟨p, hp, rfl⟩ := List.mem_map.1 hid
    obtain ⟨e', he'⟩ := Option.isSome_iff_exists.1 (List.mem_filter.1 hp).2
    obtain ⟨mem, same, -⟩ := matchingEntry_spec he'
    exact same ▸ List.mem_map_of_mem mem
  have long : (entries.map CheckoutStockEntry.id).length ≤ matched.length := by
    rw [List.length_map, ← h, Table.affected, List.countP_eq_length_filter, List.length_map]
  have perm := (distinct.subperm known).perm_of_length_le long
  obtain ⟨p, hp, same⟩ := List.mem_map.1 (perm.mem_iff.2 (List.mem_map_of_mem he))
  obtain ⟨hp, found⟩ := List.mem_filter.1 hp
  obtain ⟨e', he'⟩ := Option.isSome_iff_exists.1 found
  obtain ⟨mem, same', -⟩ := matchingEntry_spec he'
  obtain rfl := List.inj_on_of_nodup_map nodup mem he (same'.trans same)
  exact ⟨p, hp, same, he'⟩

/-- What the decrement leaves of a product: its stock less the ordered quantity, cut to 32 bits. -/
theorem decremented_eq {resolved : List CheckoutResolvedItem} {db : Database}
    (h : StockSuffices (stockEntries resolved) db) {p : Product} (hp : p ∈ db.products.rows) :
    decremented (stockEntries resolved) p =
      { p with stock := p.stock - (Int32.ofInt (quantityOf resolved p.id)).toInt } := by
  obtain ⟨nodup, ids⟩ := stockEntries_ids resolved
  by_cases ordered : p.id ∈ (stockEntries resolved).map CheckoutStockEntry.id
  · obtain ⟨e, he, same⟩ := List.mem_map.1 ordered
    obtain ⟨q, hq, hid, matched⟩ := h.matches nodup he
    obtain rfl : q = p := Table.eq_of_key hq hp (hid.trans same)
    rw [decremented, matched]
    simp only [stockEntries_qty he, same]
  · have unmatched : matchingEntry (stockEntries resolved) p = none := by
      cases hm : matchingEntry (stockEntries resolved) p with
      | none => rfl
      | some e =>
        obtain ⟨mem, same, -⟩ := matchingEntry_spec hm
        exact (ordered (same ▸ List.mem_map_of_mem mem)).elim
    have nothing : quantityOf resolved p.id = 0 := by
      have absent : (resolved.filter fun i => decide (i.productID = p.id)) = [] := by
        rw [List.filter_eq_nil_iff]
        intro i hi same
        exact ordered ((ids p.id).2 (of_decide_eq_true same ▸ List.mem_map_of_mem hi))
      rw [quantityOf, absent]
      rfl
    rw [decremented, unmatched, nothing]
    simp

/-! ## The transaction -/

/-- The tables let the transaction commit. -/
structure Accepts (d : CheckoutTx) (db : Database) : Prop where
  orderable : ∃ s ∈ orderableStates, db.stateOf d.conversationID = some s
  total : ∃ total : Money, Numeric.ofDecimal d.totalAmount = some total
  freshOrder : ∀ o ∈ db.orders.rows, o.id ≠ d.orderID
  freshKey : idempotencyKeyTaken db (crmText d.sourceMessageID) = false
  refers : OrderRefers d db
  freshItems : ∃ rows, insertAll db.orderItems d.items = some rows
  knownProducts : ∀ i ∈ d.items, (db.products.find? i.productID).isSome = true
  stockInRange : StockInRange (stockEntries d.resolved) db
  stockSuffices : StockSuffices (stockEntries d.resolved) db

/-- What `ConvertOrderIntent` leaves of an intent. -/
def convertedIntent (d : CheckoutTx) (i : OrderIntent) : OrderIntent :=
  if d.orderIntentID.bind crmText = some i.id ∧ OrderIntent.convertible i = true then
    { i with status := .converted, orderID := crmText d.orderID }
  else i

/-- What a committed transaction leaves, table by table. -/
structure Placed (d : CheckoutTx) (db db' : Database) : Prop where
  order : ∃ total : Money, Numeric.ofDecimal d.totalAmount = some total ∧
    db'.orders.rows = db.orders.rows ++ [d.order total]
  items : db'.orderItems.rows = db.orderItems.rows ++ d.items
  stock : db'.products.rows = db.products.rows.map fun p =>
    { p with stock := p.stock - (Int32.ofInt (quantityOf d.resolved p.id)).toInt }
  claimed : ∀ k, db'.stateOf k = if k = d.conversationID then some .invoicing else db.stateOf k
  intents : db'.orderIntents.rows = db.orderIntents.rows.map (convertedIntent d)
  events : db'.domainEvents.rows = db.domainEvents.rows ++ [Events.orderCreatedEvent d.created] ∨
    (∃ e ∈ db.domainEvents.rows, e.key = (Events.orderCreatedEvent d.created).key) ∧
      db'.domainEvents = db.domainEvents
  rest : ∃ conversations products orders orderItems orderIntents domainEvents,
    db' = { db with conversations, products, orders, orderItems, orderIntents, domainEvents }

theorem convertOrderIntent_spec (d : CheckoutTx) (db : Database) :
    ∃ intents, convertOrderIntent d.orderIntentID d.orderID db = .ok ((), { db with orderIntents := intents }) ∧
      intents.rows = db.orderIntents.rows.map (convertedIntent d) := by
  unfold convertOrderIntent
  cases hi : d.orderIntentID.bind crmText with
  | none =>
    refine ⟨db.orderIntents, rfl, ?_⟩
    have unchanged : convertedIntent d = id := by
      funext i
      simp [convertedIntent, hi]
    rw [unchanged, List.map_id]
  | some id =>
    refine ⟨_, rfl, ?_⟩
    rw [Table.update_rows]
    apply List.map_congr_left
    intro i _
    by_cases hid : i.id = id
    · simp [Table.rewrite, convertedIntent, hi, hid]
    · simp [Table.rewrite, convertedIntent, hi, hid, Ne.symm hid]

/-- The transaction commits when the tables accept it, and then places its order. -/
theorem checkoutTx_commits {d : CheckoutTx} {db : Database} (h : Accepts d db) :
    ∃ db', checkoutTx d db = .ok ((), db') := by
  obtain ⟨total, htotal⟩ := h.total
  obtain ⟨orders, horders⟩ : ∃ orders, db.orders.insert (d.order total) = some orders := by
    cases hi : db.orders.insert (d.order total) with
    | some orders => exact ⟨orders, rfl⟩
    | none =>
      obtain ⟨o, ho, same⟩ := Table.insert_eq_none.1 hi
      exact (h.freshOrder o ho same).elim
  obtain ⟨items, hitems⟩ := h.freshItems
  let claimed := (Domain.compareAndSet d.conversationID orderableStates .invoicing db).2
  let ordered : Database := { claimed with orders := orders }
  obtain ⟨intents, converts, -⟩ := convertOrderIntent_spec d ordered
  let decremented_ : Database := { ordered with
    orderIntents := intents
    orderItems := items
    products := db.products.update (fun _ => true) (decremented (stockEntries d.resolved)) (decremented_id _) }
  obtain ⟨b, last, emits⟩ : ∃ b last, Events.insert (Events.orderCreatedEvent d.created) decremented_ = .ok (b, last) := by
    rcases Events.insert_cases (Events.orderCreatedEvent d.created) decremented_ with ⟨_, _, _, h⟩ | ⟨_, h⟩
    · exact ⟨_, _, h⟩
    · exact ⟨_, _, h⟩
  refine ⟨last, ?_⟩
  unfold checkoutTx
  simp only [Tx.bind_eq_ok]
  have refers : OrderRefers d claimed := by
    refine ⟨h.refers.business, fun id hid => ?_, h.refers.customer, h.refers.location⟩
    have here := h.refers.conversation id hid
    simpa [claimed, Domain.compareAndSet, Table.find?_update] using here
  exact ⟨(), claimed, claimConversation_eq_ok.2 ⟨h.orderable, rfl⟩,
    (), ordered, insertOrder_eq_ok.2 ⟨total, orders, htotal, horders, h.freshKey, refers, rfl⟩,
    (), _, converts,
    (), _, insertOrderItems_eq_ok.2 ⟨items, hitems, h.knownProducts, rfl⟩,
    (), decremented_, decrementStock_eq_ok.2 ⟨h.stockInRange, h.stockSuffices, rfl⟩,
    b, last, emits, rfl⟩

/-- A transaction that commits was acceptable and placed its order. -/
theorem checkoutTx_ok {d : CheckoutTx} {db db' : Database} (h : checkoutTx d db = .ok ((), db')) :
    Accepts d db ∧ Placed d db db' := by
  unfold checkoutTx at h
  simp only [Tx.bind_eq_ok] at h
  obtain ⟨_, claimed, claims, _, ordered, orders_, _, converted, converts, _, listed, lists, _, taken, takes,
    b, last, emits, done⟩ := h
  obtain ⟨orderable, rfl⟩ := claimConversation_eq_ok.1 claims
  obtain ⟨total, orders, htotal, horders, freshKey, refers, rfl⟩ := insertOrder_eq_ok.1 orders_
  obtain ⟨intents, converts', hintents⟩ := convertOrderIntent_spec d
    { (Domain.compareAndSet d.conversationID orderableStates .invoicing db).2 with orders := orders }
  obtain rfl : _ = converted := (Prod.mk.inj (Except.ok.inj (converts'.symm.trans converts))).2
  obtain ⟨items, hitems, known, rfl⟩ := insertOrderItems_eq_ok.1 lists
  obtain ⟨inRange, enough, rfl⟩ := decrementStock_eq_ok.1 takes
  obtain rfl : last = db' := (Prod.mk.inj (Except.ok.inj done)).2
  obtain ⟨freshOrder, ordersRows⟩ := Table.insert_eq_some.1 horders
  have refers' : OrderRefers d db := by
    refine ⟨refers.business, fun id hid => ?_, refers.customer, refers.location⟩
    have here := refers.conversation id hid
    simpa [Domain.compareAndSet, Table.find?_update] using here
  refine ⟨⟨orderable, ⟨total, htotal⟩, freshOrder, freshKey, refers', ⟨items, hitems⟩, known, inRange, enough⟩, ?_⟩
  have state : ∀ k, (Domain.compareAndSet d.conversationID orderableStates .invoicing db).2.stateOf k =
      if k = d.conversationID then some .invoicing else db.stateOf k := by
    intro k
    rw [Domain.stateOf_compareAndSet]
    simp only [Domain.compareAndSet_fst.2 orderable, and_true]
  have stock : ∀ p ∈ db.products.rows, Table.rewrite (fun _ => true) (decremented (stockEntries d.resolved)) p =
      { p with stock := p.stock - (Int32.ofInt (quantityOf d.resolved p.id)).toInt } := fun p hp => decremented_eq enough hp
  rcases Events.insert_cases (Events.orderCreatedEvent d.created) _ with ⟨evts, -, rows, eq⟩ | ⟨taken, eq⟩
  · obtain rfl : _ = last := (Prod.mk.inj (Except.ok.inj (eq.symm.trans emits))).2
    exact ⟨⟨total, htotal, ordersRows⟩, insertAll_rows hitems, List.map_congr_left stock, state, hintents, .inl rows,
      ⟨_, _, _, _, _, _, rfl⟩⟩
  · obtain rfl : _ = last := (Prod.mk.inj (Except.ok.inj (eq.symm.trans emits))).2
    exact ⟨⟨total, htotal, ordersRows⟩, insertAll_rows hitems, List.map_congr_left stock, state, hintents,
      .inr ⟨taken, rfl⟩, ⟨_, _, _, _, _, _, rfl⟩⟩

end NovoApex.Workers
