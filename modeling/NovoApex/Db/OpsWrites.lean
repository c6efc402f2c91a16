import NovoApex.Db.Schema

/-!
# Vendor statements

`internal/db/queries/ops_writes.sql`, orders and conversations: the statements of
the vendor endpoints. They write the status and state columns directly, without
the transition table.
-/

namespace NovoApex.Db
set_option autoImplicit false
open Lib

/-- `GetOrderByIDAndBusiness`. -/
def getOrderByIDAndBusiness (id businessID : String) (db : Database) : Option Order :=
  (db.orders.find? id).filter fun o => decide (o.businessID = businessID)

/-- `UpdateOrderFulfillment`. -/
def updateOrderFulfillment (status : OrderStatus) (id businessID : String) (now : Nat) (db : Database) : Nat × Database :=
  let sel : Order → Bool := fun o => decide (o.id = id) && decide (o.businessID = businessID)
  (db.orders.affected sel,
    { db with orders := setStatus sel status now db.orders })

/-- Set the state and the escalation flag of the conversations selected. -/
def setConversation (sel : Conversation → Bool) (state : ConversationState) (escalated : Bool) (db : Database) :
    Nat × Database :=
  (db.conversations.affected sel,
    { db with
      conversations := db.conversations.update sel
        (fun c => { c with state := state, isEscalatedToHuman := escalated }) fun _ => rfl })

/-- `EscalateConversationByID`. -/
def escalateConversationByID (id : String) (db : Database) : Nat × Database :=
  setConversation (fun c => decide (c.id = id)) .escalated true db

/-- `TakeoverConversation`. -/
def takeoverConversation (id businessID : String) (db : Database) : Nat × Database :=
  setConversation (fun c => decide (c.id = id) && decide (c.businessID = businessID)) .escalated true db

/-- `ReleaseConversation`. -/
def releaseConversation (id businessID : String) (db : Database) : Nat × Database :=
  setConversation (fun c => decide (c.id = id) && decide (c.businessID = businessID)) .lead false db

/-- `InsertScheduledFollowUp`. -/
def insertScheduledFollowUp (f : ScheduledFollowUp) (db : Database) : Except Err Unit × Database :=
  match db.scheduledFollowUps.insert f with
  | none => (.error (.uniqueViolation "scheduled_follow_ups_pkey"), db)
  | some rows =>
    if (db.orders.find? f.orderID).isNone then (.error (.foreignKeyViolation "scheduled_follow_ups_order_id_fkey"), db)
    else if (db.businesses.find? f.businessID).isNone then
      (.error (.foreignKeyViolation "scheduled_follow_ups_business_id_fkey"), db)
    else (.ok (), { db with scheduledFollowUps := rows })

end NovoApex.Db
