import NovoApex.Orchestrator.Llm
import NovoApex.Orders.Placement

/-!
# Orders out of model output

The quantity of a detected item is whatever number the model wrote. No check looks
at it: it is narrowed to 32 bits, zero is read as one, and the total and the stock
entries are computed from the rest as it is. `checkout_sound_iff` says for which
outputs the order that comes of it is one a shop would accept.
-/

namespace NovoApex.Orders
set_option autoImplicit false
open Lib Program Workers Turns

/-- Every price of the catalogue is positive. -/
def PricesPositive (db : Database) : Prop := ∀ p ∈ db.products.rows, 0 < p.price.units

instance (db : Database) : Decidable (PricesPositive db) := inferInstanceAs (Decidable (∀ p ∈ db.products.rows, _))

/-- What an order may do to the shop: its lines ask for one piece at least, it costs something, and it leaves no product with more
stock than there was. -/
structure OrderSound (db db' : Database) : Prop where
  quantities : ∀ i ∈ db'.orderItems.rows, i ∉ db.orderItems.rows → 1 ≤ i.quantity.toInt
  total : ∀ o ∈ db'.orders.rows, o ∉ db.orders.rows → 0 < o.totalAmount.toDecimal
  stock : ∀ p' ∈ db'.products.rows, ∀ p ∈ db.products.rows, p'.id = p.id → p'.stock ≤ p.stock

/-! ## The items that resolve -/

section Found

variable (int32 : ℚ → Int32)

/-- An item as the checkout job carries it. -/
def narrow (item : Orchestrator.DetectedItem) : DetectedItem := ⟨item.productID, int32 item.quantity⟩

/-- The items of an output that name a product of the business, in their order, each with the product it was found to name. -/
structure Found (businessID : String) (items : List Orchestrator.DetectedItem)
    (found : List (Orchestrator.DetectedItem × Product)) : Prop where
  items : (found.map Prod.fst).Sublist items
  offered : ∀ f ∈ found, f.2.businessID = businessID ∧ f.2.isAvailable = true ∧ likeShortID f.2.id f.1.productID = true
  priced : ∀ f ∈ found, 0 < f.2.price.units

/-- The order lines they become. -/
def linesOf (found : List (Orchestrator.DetectedItem × Product)) : List CheckoutResolvedItem :=
  found.map fun f => resolvedItem (narrow int32 f.1) f.2

/-- The pieces an item asks for: none stands for one. -/
def pieces (item : Orchestrator.DetectedItem) : Int := if int32 item.quantity = 0 then 1 else (int32 item.quantity).toInt

/-- The pieces the items ask of a product, all in all. -/
def piecesOf (found : List (Orchestrator.DetectedItem × Product)) (productID : String) : Int :=
  ((found.filter fun f => decide (f.2.id = productID)).map fun f => pieces int32 f.1).sum

/-- No quantity is negative, and no product's sum of quantities is once it is cut to 32 bits. -/
structure Orderable (found : List (Orchestrator.DetectedItem × Product)) : Prop where
  quantities : ∀ f ∈ found, 0 ≤ (int32 f.1.quantity).toInt
  sums : ∀ f ∈ found, 0 ≤ (Int32.ofInt (piecesOf int32 found f.2.id)).toInt

end Found

variable {int32 : ℚ → Int32} {businessID : String} {found : List (Orchestrator.DetectedItem × Product)}

theorem resolvedItem_quantity (item : Orchestrator.DetectedItem) (p : Product) :
    (resolvedItem (narrow int32 item) p).quantity.toInt = pieces int32 item := by
  unfold resolvedItem narrow pieces
  split <;> rfl

/-- A line asks for a piece exactly when its quantity is not negative. -/
theorem pieces_pos (item : Orchestrator.DetectedItem) : 1 ≤ pieces int32 item ↔ 0 ≤ (int32 item.quantity).toInt := by
  unfold pieces
  split
  · rename_i zero
    rw [zero]
    decide
  · rename_i nonzero
    have : (int32 item.quantity).toInt ≠ 0 := fun zero => nonzero (Int32.toInt_inj.1 zero)
    omega

theorem quantityOf_linesOf (productID : String) : quantityOf (linesOf int32 found) productID = piecesOf int32 found productID := by
  unfold quantityOf piecesOf linesOf
  rw [List.filter_map, List.map_map]
  have filters : ((fun i : CheckoutResolvedItem => decide (i.productID = productID)) ∘ fun f => resolvedItem (narrow int32 f.1) f.2) =
      fun f : Orchestrator.DetectedItem × Product => decide (f.2.id = productID) := rfl
  rw [filters]
  congr 1
  exact List.map_congr_left fun f _ => resolvedItem_quantity f.1 f.2

/-- What the lookups of a checkout can find. -/
theorem finds_resolveProducts {A : Stmt → Prop} (reads : ∀ b s, A (.resolveProductByShortID b s))
    (items : List Orchestrator.DetectedItem) : (checkoutResolveProducts businessID (items.map (narrow int32))).Finds exec
      PricesPositive A fun r => ∀ resolved, r = .ok resolved → ∃ found, Found businessID items found ∧ resolved = linesOf int32 found := by
  induction items with
  | nil =>
    intro resolved same
    obtain rfl := Except.ok.inj same
    exact ⟨[], ⟨List.Sublist.refl _, by simp, by simp⟩, rfl⟩
  | cons item rest ih =>
    have skip : ∀ {resolved : List CheckoutResolvedItem},
        (∃ found, Found businessID rest found ∧ resolved = linesOf int32 found) →
          ∃ found, Found businessID (item :: rest) found ∧ resolved = linesOf int32 found := by
      rintro resolved ⟨found, h, same⟩
      exact ⟨found, ⟨h.items.cons item, h.offered, h.priced⟩, same⟩
    rw [List.map_cons]
    unfold checkoutResolveProducts
    split
    · refine Finds.bind ⟨reads _ _, fun db positive => ?_, ?_⟩
      · show ((checkoutResolveProducts businessID (rest.map (narrow int32))).bind _).Finds exec PricesPositive A _
        refine Finds.bind (ih.mono fun r known => ?_)
        cases r with
        | error e => exact fun resolved same => by cases same
        | ok resolved =>
          cases hit : resolveProductByShortID businessID (narrow int32 item).productID db with
          | none =>
            intro _ same
            obtain rfl := Except.ok.inj same
            exact skip (known resolved rfl)
          | some p =>
            intro _ same
            obtain rfl := Except.ok.inj same
            obtain ⟨found, h, rfl⟩ := known resolved rfl
            have mem : p ∈ db.products.rows := List.mem_of_find?_eq_some hit
            have named := List.find?_some hit
            simp only [Bool.and_eq_true, decide_eq_true_eq] at named
            refine ⟨(item, p) :: found, ⟨h.items.cons_cons item, ?_, ?_⟩, rfl⟩
            · intro f hf
              rcases List.mem_cons.1 hf with rfl | hf
              · exact ⟨named.1.1, named.1.2, named.2⟩
              · exact h.offered f hf
            · intro f hf
              rcases List.mem_cons.1 hf with rfl | hf
              · exact positive p mem
              · exact h.priced f hf
      · exact fun resolved same => by cases same
    · exact ih.mono fun r known resolved same => skip (known resolved same)

/-- The order transaction a checkout of the output opens: its lines are those of items found. -/
def OpensFor (int32 : ℚ → Int32) (items : List Orchestrator.DetectedItem) (businessID orderID : String) : Stmt → Prop
  | .checkoutTx tx => tx.orderID = orderID ∧ tx.totalAmount = totalAmount tx.resolved ∧
      ∃ found, Found businessID items found ∧ found ≠ [] ∧ tx.resolved = linesOf int32 found
  | _ => True

/-- The transaction of a checkout is over the lines of the items found. -/
theorem handleCheckout_opensFor {job : CheckoutJob} {items : List Orchestrator.DetectedItem}
    (carries : job.detectedItems = items.map (narrow int32)) (d : Delivery) :
    (handleCheckout job d).Finds exec PricesPositive (OpensFor int32 items job.businessID d.orderID) fun _ => True := by
  unfold handleCheckout
  split
  · trivial
  · rw [carries]
    refine Finds.bind ((finds_resolveProducts (fun _ _ => trivial) items).mono fun r known => ?_)
    cases r with
    | error e => trivial
    | ok resolved =>
      obtain ⟨found, h, rfl⟩ := known resolved rfl
      simp only
      split
      · trivial
      · rename_i some_
        have nonempty : found ≠ [] := by
          rintro rfl
          exact some_ rfl
        refine Finds.of_uses (Uses.bind (uses_call.2 trivial) fun business => ?_)
        split
        · trivial
        · refine (checkoutResolveFulfillment_uses (fun _ _ => trivial) job).bind fun fulfillment =>
            Uses.bind (uses_call.2 ⟨rfl, rfl, found, h, nonempty, rfl⟩).attempt fun outcome => ?_
          cases outcome with
          | ok _ => trivial
          | error e => simp only; split <;> trivial

/-! ## The total -/

theorem totalAmount_pos {resolved : List CheckoutResolvedItem} (some_ : resolved ≠ [])
    (positive : ∀ i ∈ resolved, 0 < i.unitPrice.units ∧ 0 < i.quantity.toInt) : 0 < totalAmount resolved := by
  have line : ∀ i ∈ resolved, (0 : ℚ) < i.unitPrice.toDecimal * i.quantity.toInt := by
    intro i mem
    obtain ⟨price, quantity⟩ := positive i mem
    have price' : (0 : ℚ) < i.unitPrice.toDecimal := by
      rw [Money.toDecimal_eq]
      have : (0 : ℚ) < i.unitPrice.units := by exact_mod_cast price
      positivity
    have quantity' : (0 : ℚ) < i.quantity.toInt := by exact_mod_cast quantity
    positivity
  have grows : ∀ (items : List CheckoutResolvedItem) (start : ℚ), (∀ i ∈ items, (0 : ℚ) < i.unitPrice.toDecimal * i.quantity.toInt) →
      start ≤ items.foldl (fun (total : ℚ) item => total + item.unitPrice.toDecimal * item.quantity.toInt) start := by
    intro items
    induction items with
    | nil => exact fun start _ => le_refl start
    | cons item rest ih =>
      intro start pos
      have head := pos item List.mem_cons_self
      have tail := ih (start + item.unitPrice.toDecimal * item.quantity.toInt) fun i mem => pos i (List.mem_cons_of_mem _ mem)
      exact le_trans (by linarith) tail
  cases resolved with
  | nil => exact absurd rfl some_
  | cons item rest =>
    have head := line item List.mem_cons_self
    have tail := grows rest (0 + item.unitPrice.toDecimal * item.quantity.toInt) fun i mem => line i (List.mem_cons_of_mem _ mem)
    exact lt_of_lt_of_le (by linarith) tail

/-- What a checkout leaves of an order is what it asked for. -/
theorem orderSound_iff {tx : CheckoutTx} {db db' : Database} (accepts : Accepts tx db) (placed : Placed tx db db')
    (priced : ∀ i ∈ tx.resolved, 0 < i.unitPrice.units) (some_ : tx.resolved ≠ [])
    (total : tx.totalAmount = totalAmount tx.resolved) :
    OrderSound db db' ↔ (∀ i ∈ tx.resolved, 1 ≤ i.quantity.toInt) ∧
      ∀ i ∈ tx.resolved, 0 ≤ (Int32.ofInt (quantityOf tx.resolved i.productID)).toInt := by
  obtain ⟨amount, stored, orders⟩ := placed.order
  obtain ⟨items, inserts⟩ := accepts.freshItems
  have fresh : ∀ i ∈ tx.items, i ∉ db.orderItems.rows := by
    intro i mem old
    have nodup : (db.orderItems.rows ++ tx.items).Nodup := by
      rw [← insertAll_rows inserts]
      exact List.Nodup.of_map OrderItem.id items.unique
    exact (List.nodup_append.1 nodup).2.2 i old i mem rfl
  constructor
  · intro sound
    constructor
    · intro i mem
      obtain ⟨n, bound, rfl⟩ := List.getElem_of_mem mem
      have bound' : n < tx.items.length := by simpa [CheckoutTx.items] using bound
      have row : tx.items[n] ∈ tx.items := List.getElem_mem bound'
      have asked := sound.quantities tx.items[n] (by rw [placed.items]; exact List.mem_append_right _ row) (fresh _ row)
      simpa [CheckoutTx.items] using asked
    · intro i mem
      obtain ⟨row, mem', same⟩ := exists_item mem
      obtain ⟨p, found⟩ := Option.isSome_iff_exists.1 (accepts.knownProducts row mem')
      obtain ⟨hp, id⟩ := Table.find?_eq_some.1 found
      have left := sound.stock { p with stock := p.stock - (Int32.ofInt (quantityOf tx.resolved p.id)).toInt }
        (by rw [placed.stock]; exact List.mem_map_of_mem hp) p hp rfl
      simp only at left
      rw [id, same] at left
      omega
  · rintro ⟨quantities, sums⟩
    refine ⟨fun i mem new => ?_, fun o mem new => ?_, fun p' mem' p mem id => ?_⟩
    · rw [placed.items] at mem
      rcases List.mem_append.1 mem with old | mem
      · exact absurd old new
      · obtain ⟨n, bound, rfl⟩ := List.getElem_of_mem mem
        have bound' : n < tx.resolved.length := by simpa [CheckoutTx.items] using bound
        simpa [CheckoutTx.items] using quantities tx.resolved[n] (List.getElem_mem bound')
    · rw [orders] at mem
      rcases List.mem_append.1 mem with old | mem
      · exact absurd old new
      · obtain rfl := List.mem_singleton.1 mem
        obtain ⟨m, grid⟩ := totalAmount_grid tx.resolved
        show 0 < amount.toDecimal
        rw [Numeric.toDecimal_of_grid (total ▸ grid) stored, total]
        exact totalAmount_pos some_ fun i mem => ⟨priced i mem, quantities i mem⟩
    · rw [placed.stock] at mem'
      obtain ⟨q, hq, rfl⟩ := List.mem_map.1 mem'
      obtain rfl : q = p := Table.eq_of_key hq mem id
      simp only
      by_cases ordered : ∃ i ∈ tx.resolved, i.productID = q.id
      · obtain ⟨i, hi, same⟩ := ordered
        have := sums i hi
        rw [same] at this
        omega
      · have nothing : (tx.resolved.filter fun i => decide (i.productID = q.id)) = [] := by
          rw [List.filter_eq_nil_iff]
          intro i hi same
          exact ordered ⟨i, hi, of_decide_eq_true same⟩
        rw [quantityOf, nothing]
        simp

/-- An order that a checkout commits out of an accepted output is sound exactly when no quantity of the items found is negative and
no product's sum of them is, cut to 32 bits. The lookups may each see another state of the catalogue, as may the transaction. -/
theorem checkout_sound_iff {number : ℚ → String} {quote : String → String} {raw : Except String Json} {resp : Orchestrator.LlmResponse}
    (_accepted : Orchestrator.validateLlmOutput number quote raw = .ok resp) {oc : OrchContext} {latest : Option Db.InboundMessage}
    {orderIntentID : Option String} {d : Delivery} {tx : CheckoutTx}
    (issued : Issued exec PricesPositive (handleCheckout (orchCheckoutJob oc latest (resp.narrowed int32) orderIntentID) d)
      (.checkoutTx tx)) {db db' : Database} (committed : exec (.checkoutTx tx) db = (.ok (), db')) :
    (∃ found, Found oc.businessID resp.crmSignals.detectedItems found ∧ tx.resolved = linesOf int32 found) ∧
      ∀ found, Found oc.businessID resp.crmSignals.detectedItems found → tx.resolved = linesOf int32 found →
        (OrderSound db db' ↔ Orderable int32 found) := by
  obtain ⟨-, total, found, h, some_, lines⟩ := (@handleCheckout_opensFor _ _ resp.crmSignals.detectedItems rfl d).issued issued
  refine ⟨⟨found, h, lines⟩, fun found' h' lines' => ?_⟩
  have nonempty : tx.resolved ≠ [] := by
    rw [lines]
    exact fun none => some_ (List.map_eq_nil_iff.1 none)
  have ran : checkoutTx tx db = .ok ((), db') := by
    rcases beginFunc_cases (checkoutTx tx) db with ⟨_, t, ok, eq⟩ | ⟨e, -, eq⟩
    · have same : (Except.ok (), t) = ((Except.ok (), db') : Except Err Unit × Database) := eq.symm.trans committed
      rw [ok, (Prod.mk.inj same).2]
    · have same : (Except.error e, db) = ((Except.ok (), db') : Except Err Unit × Database) := eq.symm.trans committed
      cases (Prod.mk.inj same).1
  obtain ⟨accepts, placed⟩ := checkoutTx_ok ran
  have priced : ∀ i ∈ tx.resolved, 0 < i.unitPrice.units := by
    rw [lines']
    intro i mem
    obtain ⟨f, hf, rfl⟩ := List.mem_map.1 mem
    exact h'.priced f hf
  rw [orderSound_iff accepts placed priced nonempty total, lines']
  simp only [linesOf, List.forall_mem_map]
  constructor
  · rintro ⟨quantities, sums⟩
    refine ⟨fun f hf => ?_, fun f hf => ?_⟩
    · have one := quantities f hf
      rwa [resolvedItem_quantity, pieces_pos] at one
    · have sum := sums f hf
      rwa [← linesOf, quantityOf_linesOf] at sum
  · rintro ⟨quantities, sums⟩
    refine ⟨fun f hf => ?_, fun f hf => ?_⟩
    · rw [resolvedItem_quantity, pieces_pos]
      exact quantities f hf
    · rw [← linesOf, quantityOf_linesOf]
      exact sums f hf

/-! ## A negative quantity -/

theorem openedTx_issued {job : CheckoutJob} {d : Delivery} {db : Database} {tx : CheckoutTx} (positive : PricesPositive db)
    (opened : openedTx job d db = some tx) : Issued exec PricesPositive (handleCheckout job d) (.checkoutTx tx) := by
  unfold openedTx at opened
  simp only at opened
  split at opened
  · cases opened
  · rename_i some_
    obtain ⟨currency, charged, rfl⟩ := Option.map_eq_some_iff.1 opened
    have items : ¬ job.detectedItems.isEmpty = true := by
      intro none_
      rw [List.isEmpty_iff.1 none_] at some_
      exact some_ rfl
    unfold handleCheckout
    rw [if_neg items]
    refine Issued.after positive (run_checkoutResolveProducts db _ _) (checkoutResolveProducts_uses (fun _ _ => rfl) _ _) ?_
    rw [if_neg some_]
    have business : (call (I := store) (.getBusinessForOrder job.businessID)).run exec db =
        (.ok (getBusinessForOrder job.businessID db), db) := rfl
    refine Issued.after positive business (uses_call.2 rfl) ?_
    rw [charged]
    exact Issued.after positive (run_checkoutResolveFulfillment db job) (checkoutResolveFulfillment_uses (fun _ _ => rfl) job) .here

/-- An output that confirms an order for some of the shop's product. -/
def confirmingOutput (literal : String) (quantity : ℚ) : Json :=
  .object [("reply_text", .string "Thank you!"), ("internal_confidence", .number "1" 1), ("intent", .string "checkout_request"),
    ("customer_requested_images", .bool false), ("send_product_image_ids", .array []), ("referenced_product_ids", .array []),
    ("crm_signals", .object [("order_confirmed", .bool true),
      ("detected_items", .array [.object [("product_id", .string "0a1b2c3d"), ("quantity", .number literal quantity)]]),
      ("delivery_area", .null), ("customer_name", .null), ("detected_preferences", .array []), ("sentiment", .string "positive")])]

/-- What it decodes to. -/
def confirmingResponse (quantity : ℚ) : Orchestrator.LlmResponse where
  replyText := "Thank you!"
  internalConfidence := 1
  intent := "checkout_request"
  customerRequestedImages := false
  sendProductImageIDs := []
  referencedProductIDs := []
  crmSignals := ⟨true, [⟨"0a1b2c3d", quantity⟩], none, none, none, none, [], none, "positive"⟩

/-- The output passes. -/
def accepts (literal : String) (quantity : ℚ) : Bool :=
  match Orchestrator.validateLlmOutput (fun _ => "") (fun _ => "") (.ok (confirmingOutput literal quantity)) with
  | .ok resp => decide (resp = confirmingResponse quantity)
  | .error _ => false

theorem accepts_ok {literal : String} {quantity : ℚ} (h : accepts literal quantity = true) :
    Orchestrator.validateLlmOutput (fun _ => "") (fun _ => "") (.ok (confirmingOutput literal quantity)) =
      .ok (confirmingResponse quantity) := by
  unfold accepts at h
  split at h
  · rename_i eq
    rw [eq, of_decide_eq_true h]
  · cases h

/-- The conversion of a binary64 by way of 64 bits. -/
def int32By64 (q : ℚ) : Int32 := Int32.ofInt (truncate q)

/-- The job of the turn that got the output. -/
def confirmedJob (quantity : ℚ) : CheckoutJob :=
  orchCheckoutJob ⟨"biz", "GHS", "cust", "+233200000001", "conv", .browsing, false⟩ none
    ((confirmingResponse quantity).narrowed int32By64) none

/-- The transaction it opens in the shop. -/
def confirmedTx (quantity : ℚ) : CheckoutTx :=
  (confirmedJob quantity).tx firstDelivery (resolvedItems shop "biz" (confirmedJob quantity).detectedItems) "GHS" (.delivery, none)

theorem confirmedTx_issued {quantity : ℚ}
    (resolves : (resolvedItems shop "biz" (confirmedJob quantity).detectedItems).isEmpty = false) :
    Issued exec PricesPositive (handleCheckout (confirmedJob quantity) firstDelivery) (.checkoutTx (confirmedTx quantity)) := by
  refine @openedTx_issued _ _ shop _ (by decide) ?_
  unfold openedTx
  show (if (resolvedItems shop "biz" (confirmedJob quantity).detectedItems).isEmpty = true then none
    else (orderCurrency (getBusinessForOrder "biz" shop)).map _) = _
  rw [resolves]
  rfl

theorem exec_isOk {tx : CheckoutTx} {db : Database} (h : (exec (.checkoutTx tx) db).1.isOk = true) :
    exec (.checkoutTx tx) db = (.ok (), (exec (.checkoutTx tx) db).2) := by
  rcases ran : exec (.checkoutTx tx) db with ⟨_ | _, _⟩
  · rw [ran] at h
    cases h
  · rfl

/-- An output that asks for minus three pieces is accepted, and the order it makes pays the customer and fills the stock. -/
theorem negative_quantity_ordered :
    Orchestrator.validateLlmOutput (fun _ => "") (fun _ => "") (.ok (confirmingOutput "-3" (-3))) = .ok (confirmingResponse (-3)) ∧
      PricesPositive shop ∧
      ∃ tx, Issued exec PricesPositive (handleCheckout (confirmedJob (-3)) firstDelivery) (.checkoutTx tx) ∧
        ∃ db', exec (.checkoutTx tx) shop = (.ok (), db') ∧ ¬ OrderSound shop db' ∧
          ∃ o ∈ db'.orders.rows, o ∉ shop.orders.rows ∧ o.totalAmount.units < 0 := by
  refine ⟨accepts_ok (by decide +kernel), by decide, confirmedTx (-3), confirmedTx_issued (by decide +kernel), _,
    exec_isOk (by decide +kernel), fun sound => ?_, by decide +kernel⟩
  have line : ∃ i ∈ (exec (.checkoutTx (confirmedTx (-3))) shop).2.orderItems.rows, i ∉ shop.orderItems.rows ∧ ¬ 1 ≤ i.quantity.toInt := by
    decide +kernel
  obtain ⟨i, mem, new, negative⟩ := line
  exact negative (sound.quantities i mem new)

/-- The order of two pieces is sound. -/
theorem checkout_sound_two : OrderSound shop (exec (.checkoutTx (confirmedTx 2)) shop).2 := by
  have accepted : Orchestrator.validateLlmOutput (fun _ => "") (fun _ => "") (.ok (confirmingOutput "2" 2)) = .ok (confirmingResponse 2) :=
    accepts_ok (by decide +kernel)
  have committed : exec (.checkoutTx (confirmedTx 2)) shop = (.ok (), (exec (.checkoutTx (confirmedTx 2)) shop).2) :=
    exec_isOk (by decide +kernel)
  obtain ⟨-, iff⟩ := checkout_sound_iff accepted (confirmedTx_issued (by decide +kernel)) committed
  have found : Found "biz" (confirmingResponse 2).crmSignals.detectedItems
      [(⟨"0a1b2c3d", 2⟩, ⟨"0a1b2c3d-0000", "biz", "Shea butter", ⟨500, by decide⟩, 100, true⟩)] :=
    ⟨List.Sublist.refl _, by decide +kernel, by decide⟩
  exact (iff _ found (by decide +kernel)).2 ⟨by decide +kernel, by decide +kernel⟩

end NovoApex.Orders
