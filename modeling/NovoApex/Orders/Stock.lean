import NovoApex.Orders.Placement

/-!
# What a checkout takes from the stock

The lines of a product are summed and the sum is cut to 32 bits before the
conditional decrement, so the decrement compares and subtracts another number as
soon as the sum does not fit. `checkout_stock_iff` says when that shows.
-/

namespace NovoApex.Orders
set_option autoImplicit false
open Lib Program Workers

/-- A commit takes the summed quantity from every product and leaves no stock below zero; when a product holds less
than its lines ask for there is no commit. -/
structure StockExact (resolved : List CheckoutResolvedItem) (db db' : Database) : Prop where
  taken : db' = db ∨ db'.products.rows = db.products.rows.map (fun p => { p with stock := p.stock - quantityOf resolved p.id }) ∧
    ∀ p ∈ db'.products.rows, 0 ≤ p.stock
  short : (∃ p ∈ db.products.rows, p.stock < quantityOf resolved p.id) → db' = db

/-- Everything but the stock lets the transaction commit. -/
structure OtherwiseAccepts (tx : CheckoutTx) (db : Database) : Prop where
  orderable : ∃ s ∈ orderableStates, db.stateOf tx.conversationID = some s
  total : ∃ total : Money, Numeric.ofDecimal tx.totalAmount = some total
  freshOrder : ∀ o ∈ db.orders.rows, o.id ≠ tx.orderID
  freshKey : idempotencyKeyTaken db (crmText tx.sourceMessageID) = false
  refers : OrderRefers tx db
  freshItems : ∃ rows, insertAll db.orderItems tx.items = some rows
  knownProducts : ∀ i ∈ tx.items, (db.products.find? i.productID).isSome = true

/-- Every ordered product holds what is left of its summed quantity modulo 2 ^ 32, and can be stored less that. -/
def Covered (resolved : List CheckoutResolvedItem) (db : Database) : Prop :=
  ∀ item ∈ resolved, ∃ p ∈ db.products.rows, p.id = item.productID ∧
    (quantityOf resolved item.productID).bmod (2 ^ 32) ≤ p.stock ∧
      p.stock - (quantityOf resolved item.productID).bmod (2 ^ 32) < 2 ^ 31

/-! ## The stock check -/

/-- An entry asks for the rest of its product's quantity. -/
theorem entry_rest {resolved : List CheckoutResolvedItem} {e : CheckoutStockEntry} (mem : e ∈ stockEntries resolved) :
    e.qty.toInt = (quantityOf resolved e.id).bmod (2 ^ 32) := by
  rw [stockEntries_qty mem, Int32.toInt_ofInt]
  rfl

/-- The count of matched products is that of the entries when every entry has its product. -/
theorem stockSuffices_of_products {entries : List CheckoutStockEntry} {db : Database}
    (nodup : (entries.map CheckoutStockEntry.id).Nodup)
    (held : ∀ e ∈ entries, ∃ p ∈ db.products.rows, p.id = e.id ∧ e.qty.toInt ≤ p.stock) : StockSuffices entries db := by
  let matched := (db.products.rows.filter fun p => (matchingEntry entries p).isSome).map Product.id
  have distinct : matched.Nodup := (List.filter_sublist.map Product.id).nodup db.products.unique
  have same : ∀ id, id ∈ matched ↔ id ∈ entries.map CheckoutStockEntry.id := by
    intro id
    constructor
    · intro mem
      obtain ⟨p, hp, rfl⟩ := List.mem_map.1 mem
      obtain ⟨e, found⟩ := Option.isSome_iff_exists.1 (List.mem_filter.1 hp).2
      obtain ⟨mem, sameID, -⟩ := matchingEntry_spec found
      exact sameID ▸ List.mem_map_of_mem mem
    · intro mem
      obtain ⟨e, he, rfl⟩ := List.mem_map.1 mem
      obtain ⟨p, hp, sameID, enough⟩ := held e he
      have isSome : (matchingEntry entries p).isSome = true := by
        unfold matchingEntry
        rw [List.find?_isSome]
        exact ⟨e, he, by simp [sameID, enough]⟩
      exact sameID ▸ List.mem_map_of_mem (List.mem_filter.2 ⟨hp, isSome⟩)
  have perm := (List.perm_ext_iff_of_nodup distinct nodup).2 same
  have length := perm.length_eq
  rw [List.length_map, List.length_map] at length
  unfold StockSuffices
  rw [Table.affected, List.countP_eq_length_filter]
  exact length

/-- The stock check passes exactly when the rests are covered. -/
theorem covered_iff {resolved : List CheckoutResolvedItem} {db : Database} :
    StockInRange (stockEntries resolved) db ∧ StockSuffices (stockEntries resolved) db ↔ Covered resolved db := by
  obtain ⟨nodup, ids⟩ := stockEntries_ids resolved
  constructor
  · rintro ⟨inRange, suffices_⟩ item hitem
    obtain ⟨e, he, named⟩ := List.mem_map.1 ((ids item.productID).2 (List.mem_map_of_mem hitem))
    obtain ⟨p, hp, sameID, found⟩ := suffices_.matches nodup he
    obtain ⟨-, -, enough⟩ := matchingEntry_spec found
    have stored := List.all_eq_true.1 inRange p hp
    rw [found, decremented, found] at stored
    simp only [Option.isNone_some, Bool.false_or, fitsInt32, Bool.and_eq_true, decide_eq_true_eq] at stored
    rw [entry_rest he, named] at enough stored
    exact ⟨p, hp, sameID.trans named, enough, stored.2⟩
  · intro covered
    have held : ∀ e ∈ stockEntries resolved, ∃ p ∈ db.products.rows, p.id = e.id ∧ e.qty.toInt ≤ p.stock ∧
        p.stock - e.qty.toInt < 2 ^ 31 := by
      intro e he
      obtain ⟨item, hitem, named⟩ := List.mem_map.1 ((ids e.id).1 (List.mem_map_of_mem he))
      obtain ⟨p, hp, sameID, enough, stored⟩ := covered item hitem
      rw [named] at sameID enough stored
      rw [entry_rest he]
      exact ⟨p, hp, sameID, enough, stored⟩
    constructor
    · refine List.all_eq_true.2 fun p hp => ?_
      cases found : matchingEntry (stockEntries resolved) p with
      | none => rfl
      | some e =>
        obtain ⟨he, sameID, enough⟩ := matchingEntry_spec found
        obtain ⟨q, hq, sameID', -, stored⟩ := held e he
        obtain rfl : q = p := Table.eq_of_key hq hp (sameID'.trans sameID)
        rw [decremented, found]
        simp only [Option.isNone_some, Bool.false_or, fitsInt32, Bool.and_eq_true, decide_eq_true_eq]
        omega
    · refine stockSuffices_of_products nodup fun e he => ?_
      obtain ⟨p, hp, sameID, enough, -⟩ := held e he
      exact ⟨p, hp, sameID, enough⟩

theorem accepts_iff {tx : CheckoutTx} {db : Database} : Accepts tx db ↔ OtherwiseAccepts tx db ∧ Covered tx.resolved db := by
  rw [← covered_iff]
  constructor
  · rintro ⟨orderable, total, freshOrder, freshKey, refers, freshItems, known, inRange, enough⟩
    exact ⟨⟨orderable, total, freshOrder, freshKey, refers, freshItems, known⟩, inRange, enough⟩
  · rintro ⟨⟨orderable, total, freshOrder, freshKey, refers, freshItems, known⟩, inRange, enough⟩
    exact ⟨orderable, total, freshOrder, freshKey, refers, freshItems, known, inRange, enough⟩

/-! ## The transaction -/

theorem StockExact.unchanged (resolved : List CheckoutResolvedItem) (db : Database) : StockExact resolved db db :=
  ⟨.inl rfl, fun _ => rfl⟩

/-- What a commit leaves when the sums fit. -/
theorem StockExact.of_fit {tx : CheckoutTx} {db db' : Database} (stocked : ∀ p ∈ db.products.rows, 0 ≤ p.stock)
    (accepts : Accepts tx db) (placed : Placed tx db db') (fit : QuantitiesFit tx.resolved) : StockExact tx.resolved db db' := by
  have enough : ∀ p ∈ db.products.rows, quantityOf tx.resolved p.id ≤ p.stock := by
    intro p hp
    by_cases ordered : p.id ∈ tx.resolved.map CheckoutResolvedItem.productID
    · obtain ⟨item, hitem, named⟩ := List.mem_map.1 ordered
      obtain ⟨q, hq, sameID, rest, -⟩ := (accepts_iff.1 accepts).2 item hitem
      obtain rfl : q = p := Table.eq_of_key hq hp (sameID.trans named)
      have whole := ofInt_quantityOf fit q.id
      rw [Int32.toInt_ofInt] at whole
      rw [named, show (2 ^ 32 : Nat) = Int32.size from rfl, whole] at rest
      exact rest
    · have nothing : (tx.resolved.filter fun i => decide (i.productID = p.id)) = [] := by
        rw [List.filter_eq_nil_iff]
        intro i hi same
        exact ordered (of_decide_eq_true same ▸ List.mem_map_of_mem hi)
      rw [quantityOf, nothing]
      exact stocked p hp
  have rows : db'.products.rows = db.products.rows.map fun p => { p with stock := p.stock - quantityOf tx.resolved p.id } := by
    rw [placed.stock]
    apply List.map_congr_left
    intro p _
    rw [ofInt_quantityOf fit p.id]
  refine ⟨.inr ⟨rows, fun p' hp' => ?_⟩, ?_⟩
  · rw [rows] at hp'
    obtain ⟨p, hp, rfl⟩ := List.mem_map.1 hp'
    exact Int.sub_nonneg.2 (enough p hp)
  · rintro ⟨p, hp, short⟩
    exact absurd (enough p hp) (Int.not_le.2 short)

/-- The transaction keeps the stock exact in the states in which it is refused or the sums fit. -/
theorem checkoutTx_stock_iff (tx : CheckoutTx) {db : Database} (stocked : ∀ p ∈ db.products.rows, 0 ≤ p.stock) :
    StockExact tx.resolved db (exec (.checkoutTx tx) db).2 ↔
      (OtherwiseAccepts tx db → Covered tx.resolved db → QuantitiesFit tx.resolved) := by
  show StockExact tx.resolved db (beginFunc (checkoutTx tx) db).2 ↔ _
  constructor
  · intro exact_ orderable covered item hitem
    have accepts := accepts_iff.2 ⟨orderable, covered⟩
    obtain ⟨db', commits⟩ := checkoutTx_commits accepts
    obtain ⟨-, placed⟩ := checkoutTx_ok commits
    rw [beginFunc_ok commits] at exact_
    obtain ⟨p, hp, named, -⟩ := covered item hitem
    rcases exact_.taken with same | ⟨rows, -⟩
    · obtain ⟨total, -, rows⟩ := placed.order
      have grown := congrArg List.length rows
      have same : db' = db := same
      rw [same, List.length_append, List.length_singleton] at grown
      omega
    · have same := List.map_inj_left.1 (placed.stock.symm.trans rows) p hp
      have stock : p.stock - (Int32.ofInt (quantityOf tx.resolved p.id)).toInt = p.stock - quantityOf tx.resolved p.id :=
        (congrArg Product.stock same :)
      rw [named] at stock
      exact (toInt_ofInt_iff _).1 (by omega)
  · intro sound
    rcases beginFunc_cases (checkoutTx tx) db with ⟨_, db', ok, eq⟩ | ⟨e, -, eq⟩
    · rw [eq]
      obtain ⟨accepts, placed⟩ := checkoutTx_ok ok
      obtain ⟨orderable, covered⟩ := accepts_iff.1 accepts
      exact .of_fit stocked accepts placed (sound orderable covered)
    · rw [eq]
      exact .unchanged _ db

/-- A checkout, and its transaction for any list of resolved items, takes the exact sums and oversells nothing exactly when no
transaction commits with a sum that does not fit 32 bits. -/
theorem checkout_stock_iff {db : Database} (stocked : ∀ p ∈ db.products.rows, 0 ≤ p.stock) :
    (∀ tx, StockExact tx.resolved db (exec (.checkoutTx tx) db).2 ↔
      (OtherwiseAccepts tx db → Covered tx.resolved db → QuantitiesFit tx.resolved)) ∧
    ∀ job d, StockExact (resolvedItems db job.businessID job.detectedItems) db ((handleCheckout job d).run exec db).2 ↔
      ∀ tx, openedTx job d db = some tx → OtherwiseAccepts tx db → Covered tx.resolved db → QuantitiesFit tx.resolved := by
  refine ⟨fun tx => checkoutTx_stock_iff tx stocked, fun job d => ?_⟩
  rw [run_handleCheckout]
  cases opened : openedTx job d db with
  | none =>
    constructor
    · intro _ tx absurd
      cases absurd
    · exact fun _ => .unchanged _ db
  | some tx =>
    obtain ⟨currency, rfl⟩ := openedTx_eq opened
    simp only [Option.some.injEq, forall_eq']
    exact checkoutTx_stock_iff (job.tx d _ currency (fulfillmentOf db job)) stocked

/-- A line of two pieces where a hundred are in stock. -/
theorem checkout_stock_two_pieces :
    (∀ p ∈ shop.products.rows, 0 ≤ p.stock) ∧
      StockExact (resolvedItems shop "biz" [⟨"0a1b2c3d", 2⟩]) shop
        ((handleCheckout (confirm "m1" [⟨"0a1b2c3d", 2⟩] none) firstDelivery).run exec shop).2 := by
  have stocked : ∀ p ∈ shop.products.rows, 0 ≤ p.stock := by decide
  refine ⟨stocked, ((checkout_stock_iff stocked).2 (confirm "m1" [⟨"0a1b2c3d", 2⟩] none) firstDelivery).2 ?_⟩
  intro tx opened _ _
  obtain ⟨currency, rfl⟩ := openedTx_eq opened
  exact (by decide +kernel : QuantitiesFit (resolvedItems shop "biz" [⟨"0a1b2c3d", 2⟩]))

/-- Two lines of the largest quantity are sold out of a stock of a hundred, which grows to 102. -/
theorem two_huge_lines_oversell :
    (∀ p ∈ shop.products.rows, 0 ≤ p.stock) ∧
      (∀ item ∈ resolvedItems shop "biz" hugeOrder.detectedItems, 1 ≤ item.quantity.toInt) ∧
      ¬ StockExact (resolvedItems shop "biz" hugeOrder.detectedItems) shop ((handleCheckout hugeOrder firstDelivery).run exec shop).2 := by
  refine ⟨by decide, by decide +kernel, fun h => ?_⟩
  have short : ∃ p ∈ shop.products.rows, p.stock < quantityOf (resolvedItems shop "biz" hugeOrder.detectedItems) p.id := by
    decide +kernel
  exact absurd (congrArg (fun db => db.products.rows.map Product.stock) (h.short short)) (by decide +kernel)

end NovoApex.Orders
