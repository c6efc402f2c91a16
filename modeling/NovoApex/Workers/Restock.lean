import NovoApex.Db.Store
import NovoApex.Lib.Crew

/-!
# HandleRestock, statement by statement

`internal/workers/restock.go` with its transaction taken apart: the claim of the order
and the update of the products are statements of their own, their writes become visible
at the commit, and until then the rows they wrote are locked. The other handlers of the
pipeline run next to it. `added` is what committed restocks have added to each product's
stock; the code never reads it.
-/

namespace NovoApex.Restocks
set_option autoImplicit false
open Lib Program Workers

/-- The transaction of a restock: the order it claimed, and what it adds to which products once it got there. -/
structure RestockTx where
  id : String
  ended : Bool
  now : Nat
  claimed : Option String
  quantities : Option (List (String × Int))
  deriving DecidableEq

/-- The tables, the transactions of the restocks and what they added. -/
structure RestockWorld where
  db : Database
  restocks : Table RestockTx.id
  added : String → Int

/-- The statements of a restock, and those of the other handlers. -/
inductive RestockStmt where
  | begin (tx : String) (now : Nat)
  | claim (tx orderID : String)
  | addBack (tx orderID : String)
  | commit (tx : String)
  | rollback (tx : String)
  | statement (op : Stmt)

/-- What a statement answers; the claim, how many rows it changed. -/
@[reducible] def RestockStmt.Reply : RestockStmt → Type
  | claim .. => Nat
  | statement op => op.Reply
  | _ => Unit

/-- The interface of the restocks. -/
abbrev restockStore : Interface := ⟨RestockStmt, RestockStmt.Reply, Err, .transient⟩

/-- A handler of the restocks. -/
abbrev RestockHandler (α : Type) : Type := Program restockStore α

/-- The transaction of a restock, while it is open. -/
def openRestock (tx : String) (w : RestockWorld) : Option RestockTx := (w.restocks.find? tx).filter fun t => !t.ended

/-- Rewrite one transaction. -/
def setRestock (tx : String) (f : RestockTx → RestockTx) (keeps : ∀ t, (f t).id = t.id) (w : RestockWorld) : RestockWorld :=
  { w with restocks := w.restocks.update (fun t => decide (t.id = tx)) f keeps }

/-- A statement of an open transaction. -/
def withinRestock {α : Type} (tx : String) (w : RestockWorld) (f : RestockTx → Except Err α × RestockWorld) : Except Err α × RestockWorld :=
  match openRestock tx w with
  | some t => f t
  | none => (.error .transient, w)

/-- `SELECT product_id, SUM(quantity) ... GROUP BY product_id`, of the products there are. -/
def totalQuantities (db : Database) (orderID : String) : List (String × Int) :=
  (db.products.rows.filter (inOrder db orderID)).map fun p => (p.id, orderedQuantity db orderID p.id)

/-- The quantity of a product in such a list. -/
def quantityIn (quantities : List (String × Int)) (productID : String) : Int :=
  ((quantities.filter fun q => decide (q.1 = productID)).map Prod.snd).sum

/-- The tables after the commit of a restock. -/
def restored (t : RestockTx) (db : Database) : Database :=
  { db with
    orders := db.orders.update (fun o => decide (t.claimed = some o.id)) (fun o => { o with stockRestoredAt := some t.now }) fun _ => rfl
    products := db.products.update (fun _ => true)
      (fun p => { p with stock := p.stock + quantityIn (t.quantities.getD []) p.id }) fun _ => rfl }

/-- The stock of a product. -/
def stockOf (productID : String) (db : Database) : Int := ((db.products.find? productID).map Product.stock).getD 0

/-- Execute one statement. -/
def restockExec : restockStore.Exec RestockWorld
  | .begin tx now, w =>
    match w.restocks.insert ⟨tx, false, now, none, none⟩ with
    | some restocks => (.ok (), { w with restocks := restocks })
    | none => (.error .transient, w)
  | .claim tx orderID, w => withinRestock tx w fun _ =>
    let affected := w.db.orders.affected (unrestored orderID)
    (.ok affected, if affected = 0 then w else setRestock tx (fun t => { t with claimed := some orderID }) (fun _ => rfl) w)
  | .addBack tx orderID, w => withinRestock tx w fun _ =>
    if w.db.products.rows.all fun p => !inOrder w.db orderID p || fitsInt32 (p.stock + orderedQuantity w.db orderID p.id) then
      (.ok (), setRestock tx (fun t => { t with quantities := some (totalQuantities w.db orderID) }) (fun _ => rfl) w)
    else (.error .outOfRange, w)
  | .commit tx, w => withinRestock tx w fun t =>
    (.ok (), setRestock tx (fun t => { t with ended := true }) (fun _ => rfl)
      { w with
        db := restored t w.db
        added := fun p => w.added p + (stockOf p (restored t w.db) - stockOf p w.db) })
  | .rollback tx, w => (.ok (), setRestock tx (fun t => { t with ended := true }) (fun _ => rfl) w)
  | .statement op, w => ((exec op w.db).1, { w with db := (exec op w.db).2 })

/-- The order whose row a statement of another handler updates. -/
def orderWritten : Stmt → Option String
  | .markOrderPaid orderID _ => some orderID
  | .cancelOrder orderID _ _ => some orderID
  | .updateOrderFulfillment _ id _ _ => some id
  | _ => none

/-- The products whose rows it updates. -/
def productsWritten : Stmt → List String
  | .checkoutTx d => (stockEntries d.resolved).map CheckoutStockEntry.id
  | _ => []

/-- The products whose rows a restock has updated. -/
def RestockTx.products (t : RestockTx) : List String := (t.quantities.getD []).map Prod.fst

/-- When a statement proceeds: a row waits for the restock that wrote it. -/
def restockProceeds (w : RestockWorld) : RestockStmt → Prop
  | .claim tx orderID => ∀ t ∈ w.restocks.rows, t.id ≠ tx → t.ended = false → t.claimed ≠ some orderID
  | .addBack tx orderID => ∀ t ∈ w.restocks.rows, t.id ≠ tx → t.ended = false →
    ∀ q ∈ totalQuantities w.db orderID, q.1 ∉ t.products
  | .statement op => ∀ t ∈ w.restocks.rows, t.ended = false →
    (∀ orderID ∈ orderWritten op, t.claimed ≠ some orderID) ∧ ∀ p ∈ productsWritten op, p ∉ t.products
  | _ => True

instance (w : RestockWorld) : DecidablePred (restockProceeds w) := fun op => by
  unfold restockProceeds
  split <;> infer_instance

/-- The body of the transaction. -/
def restockBody (tx : String) (evt : OrderCancelled) : RestockHandler Unit := do
  let affected : Nat ← call (I := restockStore) (.claim tx evt.orderID)
  if affected = 0 then raise .stockAlreadyRestored else call (I := restockStore) (.addBack tx evt.orderID)

/-- `pgx.BeginFunc`. -/
def restockTransaction (tx : String) (evt : OrderCancelled) (now : Nat) : RestockHandler Unit := do
  let _ : Unit ← call (I := restockStore) (.begin tx now)
  let done ← attempt (restockBody tx evt)
  match done with
  | .ok _ => call (I := restockStore) (.commit tx)
  | .error e => do
    ignore (attempt (call (I := restockStore) (.rollback tx)))
    raise e

/-- `HandleRestock`: a redelivery for an order already restocked is not an error. -/
def handleRestock (tx : String) (evt : OrderCancelled) (now : Nat) : RestockHandler Unit := do
  let outcome ← attempt (restockTransaction tx evt now)
  match outcome with
  | .ok _ => pure ()
  | .error .stockAlreadyRestored => pure ()
  | .error e => raise e

/-! ## Runs -/

/-- Who acts: a delivery by the name of its transaction, another handler, the database server. -/
inductive RestockName where
  | restock (tx : String)
  | other (n : Nat)
  | server (n : Nat)
  deriving DecidableEq

/-- The restock of the pipeline, which is the one taken apart here. -/
def isRestock : Stmt → Bool
  | .restock .. => true
  | _ => false

/-- What a name may run: a delivery of any event, a statement of any other handler, checkouts among them, or the end of a
transaction whose connection is gone. -/
inductive RestockJob : RestockName → RestockHandler Unit → Prop where
  | deliver (tx evt now) : RestockJob (.restock tx) (handleRestock tx evt now)
  | statement (n op) (other : isRestock op = false) : RestockJob (.other n) (ignore (call (I := restockStore) (.statement op)))
  | rollback (n tx) : RestockJob (.server n) (call (I := restockStore) (.rollback tx))

/-- The runs of restocks and other handlers: any statement may fail, lose its reply or be the last of its handler. -/
def restockFlow : Roster restockStore RestockName RestockWorld where
  exec := restockExec
  job := RestockJob
  allow := restockProceeds

instance (w : RestockWorld) (op : RestockStmt) : Decidable (restockFlow.allow w op) := inferInstanceAs (Decidable (restockProceeds w op))

end NovoApex.Restocks
