import NovoApex.Workers.Restock
import NovoApex.Orders.OneOrder
import NovoApex.Lib.TableSum

/-!
# What restocks add back

Over every interleaving of `order.cancelled` deliveries with each other and with the
other handlers: what restocks have added to a product is the quantity of its lines in
exactly the orders that carry the restock marker. The claim locks the order's row until
the products are updated, so marker and quantities become visible together.
-/

namespace NovoApex.Restocks
set_option autoImplicit false
open Lib Program Workers

/-- The quantity of a product over the lines of the orders that are restocked. -/
def restoredQuantity (db : Database) (productID : String) : Int :=
  ((db.orders.rows.filter fun o => o.stockRestoredAt.isSome).map fun o => orderedQuantity db o.id productID).sum

/-! ## Sums -/

/-- What an order counts for. -/
def restoredWeight (db : Database) (productID : String) (o : Order) : Int :=
  if o.stockRestoredAt.isSome then orderedQuantity db o.id productID else 0

theorem restoredQuantity_eq (db : Database) (productID : String) :
    restoredQuantity db productID = (db.orders.rows.map (restoredWeight db productID)).sum :=
  Table.sum_map_filter _ _ _

/-- Each product of the order is listed once, with all its lines. -/
theorem quantityIn_totalQuantities {db : Database} {orderID : String} {p : Product} (mem : p ∈ db.products.rows) :
    quantityIn (totalQuantities db orderID) p.id = orderedQuantity db orderID p.id := by
  unfold quantityIn totalQuantities
  rw [Table.sum_map_filter, List.map_map, Table.sum_map_filter,
    Table.sum_map_keyed db.products mem _ fun u _ other => by simp [other]]
  simp only [Function.comp_apply, decide_true, if_true]
  split
  · rfl
  · -- no line names the product
    rename_i absent
    unfold orderedQuantity
    rw [List.filter_eq_nil_iff.2]
    · rfl
    · intro i listed own
      exact absent (List.any_eq_true.2 ⟨i, listed, own⟩)

/-! ## The other handlers -/

/-- What another handler's statement leaves of what a restock looks at. -/
structure Kept (db db' : Database) : Prop where
  total : ∀ p, restoredQuantity db' p = restoredQuantity db p
  products : ∀ p' ∈ db'.products.rows, ∃ p ∈ db.products.rows, p.id = p'.id
  orders : ∀ o ∈ db.orders.rows, ∃ o' ∈ db'.orders.rows, o'.id = o.id ∧ o'.stockRestoredAt = o.stockRestoredAt
  quantities : ∀ o ∈ db.orders.rows, ∀ p, orderedQuantity db' o.id p = orderedQuantity db o.id p

/-- Rows are rewritten in place, and keep their marker. -/
theorem kept_of_map {db db' : Database} {f : Order → Order} (ids : ∀ o, (f o).id = o.id) (stamps : ∀ o, (f o).stockRestoredAt = o.stockRestoredAt)
    (orders : db'.orders.rows = db.orders.rows.map f) (items : db'.orderItems = db.orderItems) (products : db'.products = db.products) :
    Kept db db' := by
  have quantities : ∀ o p, orderedQuantity db' o p = orderedQuantity db o p := by
    intro o p
    unfold orderedQuantity
    rw [items]
  refine ⟨fun p => ?_, fun p' mem => ⟨p', products ▸ mem, rfl⟩, fun o mem => ⟨f o, orders ▸ List.mem_map_of_mem mem, ids o, stamps o⟩,
    fun o _ => quantities o.id⟩
  rw [restoredQuantity_eq, restoredQuantity_eq, orders, List.map_map]
  refine congrArg List.sum (List.map_congr_left fun o _ => ?_)
  simp only [Function.comp_apply, restoredWeight, ids, stamps, quantities]

/-- A checkout adds an order of its own, and lines of that order only. -/
theorem kept_of_placed {d : CheckoutTx} {db db' : Database} (accepts : Accepts d db) (h : Placed d db db') : Kept db db' := by
  obtain ⟨total, -, orders⟩ := h.order
  have quantities : ∀ o ∈ db.orders.rows, ∀ p, orderedQuantity db' o.id p = orderedQuantity db o.id p := by
    intro o mem p
    have apart : d.items.filter (fun i => decide (i.orderID = o.id) && decide (i.productID = p)) = [] := by
      refine List.filter_eq_nil_iff.2 fun i listed own => accepts.freshOrder o mem ?_
      obtain ⟨n, hn, rfl⟩ := List.mem_mapIdx.1 listed
      simp only [Bool.and_eq_true, decide_eq_true_eq] at own
      exact own.1.symm
    unfold orderedQuantity
    rw [h.items, List.filter_append, apart, List.append_nil]
  refine ⟨fun p => ?_, fun p' mem => ?_, fun o mem => ⟨o, ?_, rfl, rfl⟩, quantities⟩
  · rw [restoredQuantity_eq, restoredQuantity_eq, orders, List.map_append, List.sum_append, List.map_singleton, List.sum_singleton]
    have new : restoredWeight db' p (d.order total) = 0 := rfl
    rw [new, add_zero]
    refine congrArg List.sum (List.map_congr_left fun o mem => ?_)
    simp only [restoredWeight, quantities o mem]
  · rw [h.stock] at mem
    obtain ⟨p, listed, rfl⟩ := List.mem_map.1 mem
    exact ⟨p, listed, rfl⟩
  · rw [orders]
    exact List.mem_append_left _ mem

/-- Only checkouts write order lines and, restocks apart, products. -/
theorem exec_items {op : Stmt} (db : Database) (other : isRestock op = false) :
    (∃ d, op = .checkoutTx d) ∨ ((exec op db).2.orderItems = db.orderItems ∧ (exec op db).2.products = db.products) := by
  cases op with
  | checkoutTx d => exact .inl ⟨d, rfl⟩
  | restock o now => cases other
  | transition c src dst =>
    obtain ⟨cs, h⟩ := Domain.transition_frame c src dst db
    refine .inr ?_
    show (Domain.transition c src dst db).2.orderItems = _ ∧ (Domain.transition c src dst db).2.products = _
    rw [h]
    exact ⟨rfl, rfl⟩
  | cancelOrder o reason now =>
    obtain ⟨_, _, _, h⟩ := cancelOrder_frame o reason now db
    rw [h]
    exact .inr ⟨rfl, rfl⟩
  | insertPayment p =>
    obtain ⟨_, h⟩ := insertPayment_frame p db
    rw [h]
    exact .inr ⟨rfl, rfl⟩
  | insertOutbound m =>
    refine .inr ?_
    show (Workers.insertOutbound m db).2.orderItems = _ ∧ (Workers.insertOutbound m db).2.products = _
    unfold Workers.insertOutbound
    split <;> exact ⟨rfl, rfl⟩
  | insertScheduledFollowUp f =>
    refine .inr ?_
    show (Db.insertScheduledFollowUp f db).2.orderItems = _ ∧ (Db.insertScheduledFollowUp f db).2.products = _
    unfold Db.insertScheduledFollowUp
    split
    · exact ⟨rfl, rfl⟩
    · split
      · exact ⟨rfl, rfl⟩
      · split <;> exact ⟨rfl, rfl⟩
  | _ => exact .inr ⟨rfl, rfl⟩

/-- Any statement but a checkout and a restock keeps the markers. -/
theorem Effect.stamps {db db' : Database} {op : Stmt} (h : Effect db op db') (noRestock : isRestock op = false)
    (noCheckout : ∀ d, op ≠ .checkoutTx d) : ∃ f : Order → Order, (∀ o, (f o).id = o.id) ∧ (∀ o, (f o).stockRestoredAt = o.stockRestoredAt) ∧
      db'.orders.rows = db.orders.rows.map f := by
  have same : db'.orders = db.orders → ∃ f : Order → Order, (∀ o, (f o).id = o.id) ∧ (∀ o, (f o).stockRestoredAt = o.stockRestoredAt) ∧
      db'.orders.rows = db.orders.rows.map f := fun h => ⟨id, fun _ => rfl, fun _ => rfl, by rw [h, List.map_id]⟩
  have status : ∀ (sel : Order → Bool) (status : OrderStatus) (now : Nat), ∃ f : Order → Order, (∀ o, (f o).id = o.id) ∧
      (∀ o, (f o).stockRestoredAt = o.stockRestoredAt) ∧ (setStatus sel status now db.orders).rows = db.orders.rows.map f := by
    intro sel status now
    refine ⟨Table.rewrite sel fun o => { o with status := status, updatedAt := now }, fun o => ?_, fun o => ?_, rfl⟩
    · unfold Table.rewrite
      split <;> rfl
    · unfold Table.rewrite
      split <;> rfl
  cases h with
  | same h => exact same h.orders
  | placed accepts h => exact (noCheckout _ rfl).elim
  | paid => exact status _ _ _
  | moved orders domainEvents states => exact same orders
  | cancelled h =>
    rw [h.orders]
    exact status _ _ _
  | restocked h => cases noRestock
  | fulfilled => exact status _ _ _
  | escalated h => exact same h.orders
  | taken h => exact same h.orders
  | released h => exact same h.orders

/-- What any other handler's statement does. -/
theorem kept_exec {op : Stmt} (db : Database) (other : isRestock op = false) : Kept db (exec op db).2 := by
  by_cases checkout : ∃ d, op = .checkoutTx d
  · obtain ⟨d, rfl⟩ := checkout
    show Kept db (beginFunc (Workers.checkoutTx d) db).2
    rcases beginFunc_cases (Workers.checkoutTx d) db with ⟨_, db', ok, eq⟩ | ⟨e, -, eq⟩
    · rw [eq]
      obtain ⟨accepts, placed⟩ := checkoutTx_ok ok
      exact kept_of_placed accepts placed
    · rw [eq]
      exact kept_of_map (fun _ => rfl) (fun _ => rfl) (List.map_id _).symm rfl rfl
  · obtain ⟨f, ids, stamps, orders⟩ := Effect.stamps (exec_effect op db) other fun d same => checkout ⟨d, same⟩
    obtain ⟨items, products⟩ := (exec_items db other).resolve_left checkout
    exact kept_of_map ids stamps orders items products

/-! ## The protocol -/

/-- An open restock: the order it claimed is not restocked, and its quantities are those of the order. -/
structure RestockSound (db : Database) (t : RestockTx) : Prop where
  claimed : ∀ orderID, t.claimed = some orderID → ∃ o ∈ db.orders.rows, o.id = orderID ∧ o.stockRestoredAt = none
  quantities : ∀ quantities, t.quantities = some quantities → ∃ orderID, t.claimed = some orderID ∧
    ∀ p ∈ db.products.rows, quantityIn quantities p.id = orderedQuantity db orderID p.id

/-- What was added is what the restocked orders hold. -/
structure Balanced (w : RestockWorld) : Prop where
  books : ∀ p ∈ w.db.products.rows, w.added p.id = restoredQuantity w.db p.id
  sound : ∀ t ∈ w.restocks.rows, t.ended = false → RestockSound w.db t
  exclusive : ∀ t ∈ w.restocks.rows, ∀ t' ∈ w.restocks.rows, t.ended = false → t'.ended = false → t.claimed ≠ none →
    t.claimed = t'.claimed → t.id = t'.id

/-- What a restock relies on: nobody touches its transaction, except to end it. -/
def OwnTransaction (tx : String) (w w' : RestockWorld) : Prop := ∀ t, openRestock tx w' = some t → openRestock tx w = some t

/-- What each name relies on. -/
def restockRely : RestockName → RestockWorld → RestockWorld → Prop
  | .restock tx, w, w' => OwnTransaction tx w w'
  | _, _, _ => True

/-- The protocol of the restocks. -/
def restockProtocol : Protocol RestockName RestockWorld where
  inv := Balanced
  rely := restockRely
  refl i w := by
    cases i with
    | restock tx => exact fun _ h => h
    | other n => trivial
    | server n => trivial
  trans i u v w h h' := by
    cases i with
    | restock tx => exact fun t isOpen => h t (h' t isOpen)
    | other n => trivial
    | server n => trivial

/-- A statement of `i` keeps the protocol. -/
structure KeepsBalance (i : RestockName) (w w' : RestockWorld) : Prop where
  inv : Balanced w'
  own : ∀ tx, i ≠ .restock tx → OwnTransaction tx w w'

theorem KeepsBalance.rely {i j : RestockName} {w w' : RestockWorld} (h : KeepsBalance i w w') (other : j ≠ i) : restockRely j w w' := by
  cases j with
  | restock tx => exact h.own tx (Ne.symm other)
  | other n => trivial
  | server n => trivial

section Statements

variable {i : RestockName} {tx : String} {w w' : RestockWorld}

theorem Balanced.same (inv : Balanced w) : KeepsBalance i w w := ⟨inv, fun _ _ _ h => h⟩

theorem openRestock_eq {t : RestockTx} : openRestock tx w = some t ↔ t ∈ w.restocks.rows ∧ t.id = tx ∧ t.ended = false := by
  unfold openRestock
  rw [Option.filter_eq_some_iff, Table.find?_eq_some, and_assoc]
  simp

theorem mem_setRestock {f : RestockTx → RestockTx} {keeps : ∀ t, (f t).id = t.id} {t : RestockTx} :
    t ∈ (setRestock tx f keeps w).restocks.rows ↔ (t ∈ w.restocks.rows ∧ t.id ≠ tx) ∨ ∃ old ∈ w.restocks.rows, old.id = tx ∧ t = f old :=
  @Table.mem_update_keyed _ _ _ _ w.restocks tx f keeps t

theorem openRestock_setRestock_ne {f : RestockTx → RestockTx} {keeps : ∀ t, (f t).id = t.id} {tx' : String} (other : tx' ≠ tx) :
    openRestock tx' (setRestock tx f keeps w) = openRestock tx' w := by
  unfold openRestock setRestock
  rw [Table.find?_update_of_ne _ f keeps other]

/-- A statement on the transaction of `tx`. -/
theorem keepsBalance_setRestock {f : RestockTx → RestockTx} {keeps : ∀ t, (f t).id = t.id} (inv : Balanced w)
    (owner : i = .restock tx ∨ ∀ t, (f t).ended = true)
    (own : ∀ t ∈ w.restocks.rows, t.id = tx → (f t).ended = false → t.ended = false ∧ RestockSound w.db (f t) ∧
      ∀ t' ∈ w.restocks.rows, t'.id ≠ tx → t'.ended = false → (f t).claimed ≠ none → t'.claimed ≠ (f t).claimed) :
    KeepsBalance i w (setRestock tx f keeps w) := by
  refine ⟨⟨inv.books, fun t mem alive => ?_, fun t mem t' mem' alive alive' some same => ?_⟩, fun tx' other t isOpen => ?_⟩
  · rcases mem_setRestock.1 mem with ⟨mem, -⟩ | ⟨old, hold, named, rfl⟩
    · exact inv.sound t mem alive
    · exact (own old hold named alive).2.1
  · rcases mem_setRestock.1 mem with ⟨mem, apart⟩ | ⟨old, hold, named, rfl⟩
    · rcases mem_setRestock.1 mem' with ⟨mem', -⟩ | ⟨old, hold, named, rfl⟩
      · exact inv.exclusive t mem t' mem' alive alive' some same
      · exact ((own old hold named alive').2.2 t mem apart alive (same ▸ some) same).elim
    · rcases mem_setRestock.1 mem' with ⟨mem', apart⟩ | ⟨old', hold', named', rfl⟩
      · exact ((own old hold named alive).2.2 t' mem' apart alive' some same.symm).elim
      · rw [keeps, keeps, named, named']
  · by_cases same : tx' = tx
    · subst same
      rcases owner with rfl | ended
      · exact (other rfl).elim
      · obtain ⟨mem, named, alive⟩ := openRestock_eq.1 isOpen
        rcases mem_setRestock.1 mem with ⟨-, apart⟩ | ⟨old, -, -, rfl⟩
        · exact (apart named).elim
        · rw [ended old] at alive
          cases alive
    · rw [openRestock_setRestock_ne same] at isOpen
      exact isOpen

theorem keepsBalance_end (inv : Balanced w) : KeepsBalance i w (setRestock tx (fun t => { t with ended := true }) (fun _ => rfl) w) :=
  keepsBalance_setRestock inv (.inr fun _ => rfl) fun _ _ _ alive => nomatch alive

/-- A statement of another handler. -/
theorem keepsBalance_statement {op : Stmt} (inv : Balanced w) (other : isRestock op = false) :
    KeepsBalance i w { w with db := (exec op w.db).2 } := by
  have kept := kept_exec w.db other
  refine ⟨⟨fun p' mem => ?_, fun t mem alive => ⟨fun orderID claims => ?_, fun quantities got => ?_⟩, inv.exclusive⟩, fun _ _ _ isOpen => isOpen⟩
  · obtain ⟨p, hp, same⟩ := kept.products p' mem
    rw [kept.total p'.id, ← same]
    exact inv.books p hp
  · obtain ⟨o, ho, named, unstamped⟩ := (inv.sound t mem alive).claimed orderID claims
    obtain ⟨o', ho', named', stamp⟩ := kept.orders o ho
    exact ⟨o', ho', named'.trans named, stamp.trans unstamped⟩
  · obtain ⟨orderID, claims, listed⟩ := (inv.sound t mem alive).quantities quantities got
    obtain ⟨o, ho, rfl, -⟩ := (inv.sound t mem alive).claimed orderID claims
    refine ⟨o.id, claims, fun p' mem' => ?_⟩
    obtain ⟨p, hp, same⟩ := kept.products p' mem'
    rw [kept.quantities o ho, ← same]
    exact listed p hp

/-! ## Commit -/

variable {t : RestockTx} {orderID : String} {quantities : List (String × Int)}

theorem stockOf_restored {db : Database} {p : Product} (mem : p ∈ db.products.rows) :
    stockOf p.id (restored t db) - stockOf p.id db = quantityIn (t.quantities.getD []) p.id := by
  have found : db.products.find? p.id = some p := Table.find?_eq_some.2 ⟨mem, rfl⟩
  unfold stockOf restored
  rw [Table.find?_update, found]
  simp [Table.rewrite]

/-- The other orders stay as they are. -/
theorem mem_restored {db : Database} {o : Order} (mem : o ∈ db.orders.rows) (other : t.claimed ≠ some o.id) :
    o ∈ (restored t db).orders.rows := by
  unfold restored
  rw [Table.update_rows]
  exact List.mem_map.2 ⟨o, mem, Table.rewrite_of_neg (p := fun o : Order => decide (t.claimed = some o.id)) (decide_eq_false other)⟩

/-- The marker of one more order. -/
theorem restoredQuantity_restored {db : Database} {o : Order} (claims : t.claimed = some o.id) (mem : o ∈ db.orders.rows)
    (unstamped : o.stockRestoredAt = none) (p : String) :
    restoredQuantity (restored t db) p = restoredQuantity db p + orderedQuantity db o.id p := by
  have weights : restoredWeight (restored t db) p = restoredWeight db p := rfl
  have rows : (restored t db).orders = db.orders.update (fun u => decide (u.id = o.id)) (fun o => { o with stockRestoredAt := some t.now })
      fun _ => rfl := by
    unfold restored
    simp only [claims, Option.some.injEq, eq_comm]
  have before : restoredWeight db p o = 0 := by
    unfold restoredWeight
    rw [unstamped]
    rfl
  have after : restoredWeight db p { o with stockRestoredAt := some t.now } = orderedQuantity db o.id p := rfl
  rw [restoredQuantity_eq, restoredQuantity_eq, rows, weights, Table.sum_update_keyed db.orders mem, before, after, sub_zero]

/-- A restock commits with its order claimed and its products updated. -/
theorem keepsBalance_commit (inv : Balanced w) (isOpen : openRestock tx w = some t) (claims : t.claimed = some orderID)
    (got : t.quantities = some quantities) :
    KeepsBalance (.restock tx) w (setRestock tx (fun t => { t with ended := true }) (fun _ => rfl)
      { w with
        db := restored t w.db
        added := fun p => w.added p + (stockOf p (restored t w.db) - stockOf p w.db) }) := by
  obtain ⟨mem, named, alive⟩ := openRestock_eq.1 isOpen
  obtain ⟨orderID', claims', listed⟩ := (inv.sound t mem alive).quantities quantities got
  obtain rfl : orderID = orderID' := Option.some.inj (claims.symm.trans claims')
  obtain ⟨o, ho, rfl, unstamped⟩ := (inv.sound t mem alive).claimed orderID claims
  have products : ∀ p' ∈ (restored t w.db).products.rows, ∃ p ∈ w.db.products.rows, p.id = p'.id := by
    intro p' mem'
    unfold restored at mem'
    rw [Table.update_rows] at mem'
    obtain ⟨p, hp, rfl⟩ := List.mem_map.1 mem'
    exact ⟨p, hp, rfl⟩
  refine ⟨⟨fun p' mem' => ?_, fun t' mem' alive' => ?_, fun t₁ mem₁ t₂ mem₂ alive₁ alive₂ some same => ?_⟩, fun tx' other t' isOpen' => ?_⟩
  · obtain ⟨p, hp, same⟩ := products p' mem'
    show w.added p'.id + (stockOf p'.id (restored t w.db) - stockOf p'.id w.db) = restoredQuantity (restored t w.db) p'.id
    rw [← same, stockOf_restored hp, restoredQuantity_restored claims ho unstamped, inv.books p hp, got]
    exact congrArg (restoredQuantity w.db p.id + ·) (listed p hp)
  · rcases mem_setRestock.1 mem' with ⟨mem', apart⟩ | ⟨old, -, -, rfl⟩
    · have before := inv.sound t' mem' alive'
      refine ⟨fun orderID' claims' => ?_, fun quantities' got' => ?_⟩
      · obtain ⟨o', ho', rfl, unstamped'⟩ := before.claimed orderID' claims'
        have other : o'.id ≠ o.id := by
          intro again
          refine apart ((inv.exclusive t' mem' t mem alive' alive ?_ ?_).trans named)
          · rw [claims']
            exact Option.some_ne_none _
          · rw [claims', claims, again]
        refine ⟨o', mem_restored ho' fun again => other ?_, rfl, unstamped'⟩
        exact (Option.some.inj (claims.symm.trans again)).symm
      · obtain ⟨orderID', claims', listed'⟩ := before.quantities quantities' got'
        refine ⟨orderID', claims', fun p' hp' => ?_⟩
        obtain ⟨p, hp, same⟩ := products p' hp'
        rw [← same]
        exact listed' p hp
    · cases alive'
  · rcases mem_setRestock.1 mem₁ with ⟨mem₁, -⟩ | ⟨old, -, -, rfl⟩
    · rcases mem_setRestock.1 mem₂ with ⟨mem₂, -⟩ | ⟨old, -, -, rfl⟩
      · exact inv.exclusive t₁ mem₁ t₂ mem₂ alive₁ alive₂ some same
      · cases alive₂
    · cases alive₁
  · have other : tx' ≠ tx := fun same => other (same ▸ rfl)
    rw [openRestock_setRestock_ne other] at isOpen'
    exact isOpen'

end Statements

/-! ## Deliveries -/

section Deliveries

variable {i : RestockName} {tx : String} {w : RestockWorld}

/-- One statement. -/
theorem safe_restock {op : RestockStmt} {Q : Except Err op.Reply → RestockWorld → Prop}
    (executed : ∀ t, restockRely i w t → Balanced t → restockProceeds t op →
      KeepsBalance i t (restockExec op t).2 ∧ Q (restockExec op t).1 (restockExec op t).2 ∧ Q (.error .transient) (restockExec op t).2)
    (failed : ∀ t, Q (.error .transient) t) : Safe restockFlow restockProtocol i Q (call (I := restockStore) op) w := by
  refine Safe.call (fun t rely inv may => ?_) (fun t _ _ _ => failed t) fun _ _ _ _ => trivial
  obtain ⟨keeps, replied, unreplied⟩ := executed t rely inv may
  exact ⟨keeps.inv, fun j other => keeps.rely other, replied, fun _ => unreplied⟩

/-- A statement of the delivery on its transaction; nothing is known after an error. -/
theorem safe_within {op : RestockStmt} {body : RestockWorld → RestockTx → Except Err op.Reply × RestockWorld} {A : op.Reply → RestockWorld → Prop}
    (runs : ∀ t, restockExec op t = withinRestock tx t (body t))
    (executed : ∀ t tr, OwnTransaction tx w t → Balanced t → restockProceeds t op → openRestock tx t = some tr →
      KeepsBalance (.restock tx) t (body t tr).2 ∧ Replied A (fun _ => True) (body t tr).1 (body t tr).2) :
    Safe restockFlow restockProtocol (.restock tx) (Replied A fun _ => True) (call (I := restockStore) op) w := by
  refine safe_restock (fun t rely inv may => ?_) fun _ => trivial
  rw [runs t, withinRestock]
  cases isOpen : openRestock tx t with
  | none => exact ⟨inv.same, trivial, trivial⟩
  | some tr =>
    obtain ⟨keeps, after⟩ := executed t tr rely inv may isOpen
    exact ⟨keeps, after, trivial⟩

/-- The transaction, if it is open, is new. -/
def Begun (tx : String) (w : RestockWorld) : Prop := ∀ t, openRestock tx w = some t → t.claimed = none ∧ t.quantities = none

/-- The transaction, if it is open, has claimed the order. -/
def Claimed (tx orderID : String) (w : RestockWorld) : Prop := ∀ t, openRestock tx w = some t → t.claimed = some orderID

/-- The transaction, if it is open, has claimed an order and updated the products. -/
def Updated (tx : String) (w : RestockWorld) : Prop :=
  ∀ t, openRestock tx w = some t → (∃ orderID, t.claimed = some orderID) ∧ ∃ quantities, t.quantities = some quantities

/-- The transaction after a statement on it. -/
theorem openRestock_setRestock {f : RestockTx → RestockTx} {keeps : ∀ t, (f t).id = t.id} {t t' : RestockTx} (isOpen : openRestock tx w = some t)
    (isOpen' : openRestock tx (setRestock tx f keeps w) = some t') : t' = f t := by
  obtain ⟨mem, named, -⟩ := openRestock_eq.1 isOpen
  obtain ⟨mem', named', -⟩ := openRestock_eq.1 isOpen'
  rcases mem_setRestock.1 mem' with ⟨-, other⟩ | ⟨old, hold, same, rfl⟩
  · exact (other named').elim
  · rw [Table.eq_of_key hold mem (same.trans named.symm)]

/-- The claim of the order. -/
theorem safe_claim {orderID : String} (begun : Begun tx w) :
    Safe restockFlow restockProtocol (.restock tx) (Replied (fun affected t => affected ≠ 0 → Claimed tx orderID t) fun _ => True)
      (call (I := restockStore) (.claim tx orderID)) w := by
  refine safe_within (fun _ => rfl) fun t tr rely inv free isOpen => ?_
  simp only
  split
  · rename_i none'
    exact ⟨inv.same, fun some => (some none').elim⟩
  · rename_i some'
    obtain ⟨o, ho, selected⟩ := Table.affected_ne_zero.1 some'
    simp only [unrestored, Bool.and_eq_true, decide_eq_true_eq, Option.isNone_iff_eq_none] at selected
    obtain ⟨unclaimed, unlisted⟩ := begun tr (rely tr isOpen)
    obtain ⟨mem, named, alive⟩ := openRestock_eq.1 isOpen
    refine ⟨keepsBalance_setRestock inv (.inl rfl) fun old hold same alive' => ?_, fun _ t' isOpen' => ?_⟩
    · obtain rfl := Table.eq_of_key hold mem (same.trans named.symm)
      refine ⟨alive, ⟨fun orderID' claims => ?_, fun quantities got => ?_⟩, fun t' mem' other alive' _ => free t' mem' other alive'⟩
      · obtain rfl := Option.some.inj claims
        exact ⟨o, ho, selected.1, selected.2⟩
      · have got : old.quantities = some quantities := got
        rw [unlisted] at got
        cases got
    · rw [openRestock_setRestock isOpen isOpen']

/-- The update of the products. -/
theorem safe_addBack {orderID : String} (claims : Claimed tx orderID w) :
    Safe restockFlow restockProtocol (.restock tx) (Replied (fun _ => Updated tx) fun _ => True)
      (call (I := restockStore) (.addBack tx orderID)) w := by
  refine safe_within (fun _ => rfl) fun t tr rely inv _ isOpen => ?_
  split
  · have claimed := claims tr (rely tr isOpen)
    obtain ⟨mem, named, alive⟩ := openRestock_eq.1 isOpen
    refine ⟨keepsBalance_setRestock inv (.inl rfl) fun old hold same _ => ?_, fun t' isOpen' => ?_⟩
    · obtain rfl := Table.eq_of_key hold mem (same.trans named.symm)
      refine ⟨alive, ⟨(inv.sound old hold alive).claimed, fun quantities got => ⟨orderID, claimed, fun p hp => ?_⟩⟩,
        fun t' mem' other alive' some again => other ?_⟩
      · rw [← Option.some.inj got]
        exact quantityIn_totalQuantities hp
      · have some' : t'.claimed ≠ none := by
          rw [again]
          exact some
        exact (inv.exclusive t' mem' old hold alive' alive some' again).trans named
    · rw [openRestock_setRestock isOpen isOpen']
      exact ⟨⟨orderID, claimed⟩, _, rfl⟩
  · exact ⟨inv.same, trivial⟩

theorem safe_commit (updated : Updated tx w) :
    Safe restockFlow restockProtocol (.restock tx) (Replied (fun _ _ => True) fun _ => True) (call (I := restockStore) (.commit tx)) w := by
  refine safe_within (fun _ => rfl) fun t tr rely inv _ isOpen => ?_
  obtain ⟨⟨orderID, claims⟩, quantities, got⟩ := updated tr (rely tr isOpen)
  exact ⟨keepsBalance_commit inv isOpen claims got, trivial⟩

theorem safe_restockBody {evt : OrderCancelled} (begun : Begun tx w) :
    Safe restockFlow restockProtocol (.restock tx) (Replied (fun _ => Updated tx) fun _ => True) (restockBody tx evt) w := by
  unfold restockBody
  refine Safe.bind ((safe_claim begun).mono fun affected t after => ?_)
  cases affected with
  | error e => exact trivial
  | ok affected =>
    simp only
    split
    · exact trivial
    · rename_i some
      exact safe_addBack (after some)

theorem safe_restockTransaction {evt : OrderCancelled} {now : Nat} :
    Safe restockFlow restockProtocol (.restock tx) (fun _ _ => True) (restockTransaction tx evt now) w := by
  unfold restockTransaction
  have begins : Safe restockFlow restockProtocol (.restock tx) (Replied (fun _ => Begun tx) fun _ => True)
      (call (I := restockStore) (.begin tx now)) w := by
    refine safe_restock (fun t _ inv _ => ?_) fun _ => trivial
    simp only [restockExec]
    split
    · rename_i restocks inserted
      obtain ⟨unused, rows⟩ := Table.insert_eq_some.1 inserted
      have added : ∀ tr ∈ restocks.rows, tr ∈ t.restocks.rows ∨ tr = ⟨tx, false, now, none, none⟩ := by
        intro tr mem
        rwa [rows, List.mem_append, List.mem_singleton] at mem
      refine ⟨⟨⟨inv.books, fun tr mem alive => ?_, fun t₁ mem₁ t₂ mem₂ alive₁ alive₂ some same => ?_⟩, fun tx' other tr isOpen => ?_⟩,
        fun tr isOpen => ?_, trivial⟩
      · rcases added tr mem with mem | rfl
        · exact inv.sound tr mem alive
        · exact ⟨fun _ claims => (nomatch claims), fun _ got => (nomatch got)⟩
      · rcases added t₁ mem₁ with mem₁ | rfl
        · rcases added t₂ mem₂ with mem₂ | rfl
          · exact inv.exclusive t₁ mem₁ t₂ mem₂ alive₁ alive₂ some same
          · exact (some same).elim
        · exact (some rfl).elim
      · obtain ⟨mem, named, alive⟩ := openRestock_eq.1 isOpen
        rcases added tr mem with mem | rfl
        · exact openRestock_eq.2 ⟨mem, named, alive⟩
        · exact (other (named ▸ rfl)).elim
      · obtain ⟨mem, named, -⟩ := openRestock_eq.1 isOpen
        rcases added tr mem with mem | rfl
        · exact (unused tr mem named).elim
        · exact ⟨rfl, rfl⟩
    · exact ⟨inv.same, trivial, trivial⟩
  refine Safe.bind (begins.mono fun began t after => ?_)
  cases began with
  | error e => exact trivial
  | ok _ =>
    refine Safe.bind (Safe.attempt ((safe_restockBody after).mono fun done u after => ?_))
    cases done with
    | ok _ => exact (safe_commit after).mono fun _ _ _ => trivial
    | error e =>
      refine Safe.bind (Safe.bind (Safe.attempt ?_))
      exact safe_restock (fun v _ inv _ => ⟨keepsBalance_end inv, trivial, trivial⟩) fun _ => trivial

theorem safe_handleRestock {evt : OrderCancelled} {now : Nat} :
    Safe restockFlow restockProtocol (.restock tx) (fun _ _ => True) (handleRestock tx evt now) w := by
  unfold handleRestock
  refine Safe.bind (Safe.attempt (safe_restockTransaction.mono fun outcome t _ => ?_))
  simp only
  split <;> exact trivial

end Deliveries

/-! ## Runs -/

/-- Every job keeps the protocol wherever it starts. -/
theorem safe_restockJob {i : RestockName} {p : RestockHandler Unit} {w : RestockWorld} (may : restockFlow.job i p) :
    Safe restockFlow restockProtocol i (fun _ => restockProtocol.idle i) p w := by
  cases may with
  | deliver tx evt now => exact safe_handleRestock
  | statement n op other =>
    refine Safe.bind (safe_restock (fun t _ inv _ => ⟨keepsBalance_statement inv other, ?_, trivial⟩) fun _ => trivial)
    split <;> exact trivial
  | rollback n tx => exact safe_restock (fun t _ inv _ => ⟨keepsBalance_end inv, trivial, trivial⟩) fun _ => trivial

/-- The tables, with no restock under way and none done. -/
def untouched (db : Database) : RestockWorld := ⟨db, Table.empty, fun _ => 0⟩

/-- In every run of deliveries and other handlers, what restocks have added to a product is the quantity of its lines in the orders
that carry the marker. -/
theorem restocked_quantities {db : Database} {c : Crew restockStore RestockName RestockWorld}
    (unrestored : ∀ o ∈ db.orders.rows, o.stockRestoredAt = none) (reach : restockFlow.Reach ⟨untouched db, []⟩ c) :
    ∀ p ∈ c.state.db.products.rows, c.state.added p.id = restoredQuantity c.state.db p.id := by
  have start : Balanced (untouched db) := by
    refine ⟨fun p _ => ?_, fun t mem => (nomatch mem), fun t mem => (nomatch mem)⟩
    show (0 : Int) = restoredQuantity db p.id
    unfold restoredQuantity
    rw [List.filter_eq_nil_iff.2]
    · rfl
    · intro o mem stamped
      rw [unrestored o mem] at stamped
      cases stamped
  have safe : ∀ i p s, restockFlow.job i p → restockProtocol.inv s → restockProtocol.idle i s →
      Safe restockFlow restockProtocol i (fun _ => restockProtocol.idle i) p s := fun i p s may _ _ => safe_restockJob may
  exact (Protocol.invariant safe reach start fun _ => trivial).books

/-- An order with two lines of one product. -/
def twoLines : Database :=
  runJobs [.checkout (Orders.confirm "m1" [⟨"0a1b2c3d", 1⟩, ⟨"0a1b2c3d", 2⟩] none) ⟨"order-1", fun i => if i = 0 then "item-0" else "item-1", 0⟩]
    Orders.shop

/-- The deliveries of its cancellation. -/
def delivery (tx : String) : RestockHandler Unit := handleRestock tx ⟨"order-1", "expired"⟩ 1

/-- Two deliveries add its three pieces once. -/
theorem restocked_quantities_redelivery :
    ∃ c : Crew restockStore RestockName RestockWorld, restockFlow.Reach ⟨untouched twoLines, []⟩ c ∧
      c.state.added "0a1b2c3d-0000" = 3 ∧ ∀ p ∈ c.state.db.products.rows, c.state.added p.id = restoredQuantity c.state.db p.id := by
  have first := restockFlow.reach_job (i := .restock "t1") (s := untouched twoLines) (.deliver "t1" ⟨"order-1", "expired"⟩ 1)
    (by decide +kernel)
  have second := restockFlow.reach_job (i := .restock "t2") (.deliver "t2" ⟨"order-1", "expired"⟩ 1)
    (by decide +kernel : restockFlow.Follows (delivery "t2") ((delivery "t1").run restockExec (untouched twoLines)).2)
  have reach := first.trans second
  exact ⟨_, reach, by decide +kernel, restocked_quantities (by decide +kernel) reach⟩

end NovoApex.Restocks
