import NovoApex.Db.OpsWrites
import NovoApex.Workers.OrderStatements
import NovoApex.Lib.Program

/-!
# The store of the orders pipeline

Every statement the modelled handlers issue, with what it answers and what it
does to the tables. A transaction is one statement: its writes become visible at
commit, and a fault anywhere in it rolls it back, which is a fault of the whole.
-/

namespace NovoApex
set_option autoImplicit false
open Lib Workers Db

/-- The statements and transactions of the orders pipeline. -/
inductive Stmt where
  | resolveProductByShortID (businessID shortID : String)
  | getBusinessForOrder (businessID : String)
  | resolvePickupLocationByShortID (businessID shortID : String)
  | checkoutTx (d : CheckoutTx)
  | paymentByReference (reference : String)
  | orderByReference (reference : String)
  | phoneRows (phone businessID : String)
  | markOrderPaid (orderID : String) (now : Nat)
  | conversationOfOrder (orderID : String)
  | transition (conversationID : String) (src dst : ConversationState)
  | cancelOrder (orderID reason : String) (now : Nat)
  | cancelFollowUps (orderID : String) (now : Nat)
  | insertPayment (p : PaymentInsert)
  | setPreferredPaymentNetwork (bank customerID : String)
  | customerPhone (customerID : String)
  | conversationByPhone (businessID phone : String)
  | insertOutbound (m : OutboundMessage)
  | expiredOrders (cutoff : Nat)
  | restock (orderID : String) (now : Nat)
  | getOrderByIDAndBusiness (id businessID : String)
  | updateOrderFulfillment (status : OrderStatus) (id businessID : String) (now : Nat)
  | insertScheduledFollowUp (f : ScheduledFollowUp)
  | escalateConversationByID (id : String)
  | takeoverConversation (id businessID : String)
  | releaseConversation (id businessID : String)

/-- What a statement answers. -/
@[reducible] def Stmt.Reply : Stmt → Type
  | resolveProductByShortID .. => Option Product
  | getBusinessForOrder .. => Option String
  | resolvePickupLocationByShortID .. => Option String
  | checkoutTx .. => Unit
  | paymentByReference .. => Option String
  | orderByReference .. => Option ReferencedOrder
  | phoneRows .. => List PhoneRow
  | markOrderPaid .. => Unit
  | conversationOfOrder .. => Option String
  | transition .. => Bool
  | cancelOrder .. => Unit
  | cancelFollowUps .. => Unit
  | insertPayment .. => Unit
  | setPreferredPaymentNetwork .. => Unit
  | customerPhone .. => Option String
  | conversationByPhone .. => Option String
  | insertOutbound .. => Unit
  | expiredOrders .. => List String
  | restock .. => Unit
  | getOrderByIDAndBusiness .. => Option Order
  | updateOrderFulfillment .. => Nat
  | insertScheduledFollowUp .. => Unit
  | escalateConversationByID .. => Nat
  | takeoverConversation .. => Nat
  | releaseConversation .. => Nat

/-- The interface of the store. -/
abbrev store : Interface := ⟨Stmt, Stmt.Reply, Err, .transient⟩

/-- A query answers and writes nothing. -/
def query {α : Type} (answer : α) (db : Database) : Except Err α × Database := (.ok answer, db)

/-- Execute one statement. -/
def exec : store.Exec Database
  | .resolveProductByShortID b s, db => query (Workers.resolveProductByShortID b s db) db
  | .getBusinessForOrder b, db => query (Workers.getBusinessForOrder b db) db
  | .resolvePickupLocationByShortID b s, db => query (Workers.resolvePickupLocationByShortID b s db) db
  | .checkoutTx d, db => beginFunc (Workers.checkoutTx d) db
  | .paymentByReference r, db => query (Workers.paymentByReference r db) db
  | .orderByReference r, db => query (Workers.orderByReference r db) db
  | .phoneRows p b, db => query (Workers.phoneRows p b db) db
  | .markOrderPaid o now, db => (.ok (), Workers.markOrderPaid o now db)
  | .conversationOfOrder o, db => (Workers.conversationOfOrder o db, db)
  | .transition c src dst, db => (.ok (Domain.transition c src dst db).1, (Domain.transition c src dst db).2)
  | .cancelOrder o reason now, db => beginFunc (cancelOrderTx o reason now) db
  | .cancelFollowUps o now, db => (.ok (), Workers.cancelFollowUps o now db)
  | .insertPayment p, db => beginFunc (Workers.insertPayment p) db
  | .setPreferredPaymentNetwork bank c, db => (.ok (), Workers.setPreferredPaymentNetwork bank c db)
  | .customerPhone c, db => query ((db.customers.find? c).map Customer.phone) db
  | .conversationByPhone b p, db => query (Workers.conversationByPhone b p db) db
  | .insertOutbound m, db => Workers.insertOutbound m db
  | .expiredOrders cutoff, db => query (Workers.expiredOrders cutoff db) db
  | .restock o now, db => beginFunc (restockTx o now) db
  | .getOrderByIDAndBusiness o b, db => query (Db.getOrderByIDAndBusiness o b db) db
  | .updateOrderFulfillment st o b now, db =>
    (.ok (Db.updateOrderFulfillment st o b now db).1, (Db.updateOrderFulfillment st o b now db).2)
  | .insertScheduledFollowUp f, db => Db.insertScheduledFollowUp f db
  | .escalateConversationByID c, db => (.ok (Db.escalateConversationByID c db).1, (Db.escalateConversationByID c db).2)
  | .takeoverConversation c b, db => (.ok (Db.takeoverConversation c b db).1, (Db.takeoverConversation c b db).2)
  | .releaseConversation c b, db => (.ok (Db.releaseConversation c b db).1, (Db.releaseConversation c b db).2)

/-- A handler over the store. -/
abbrev Handler (α : Type) : Type := Program store α

end NovoApex
