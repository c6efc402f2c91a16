import NovoApex.Db.Schema

/-!
# Domain events

`internal/events/events.go`: producers insert an event in the transaction of the
state change it describes. The NOTIFY that wakes the dispatcher on commit carries
no data and is left out.
-/

namespace NovoApex.Events
set_option autoImplicit false
open Lib

/-- `AggregateTypeOrder`. -/
def aggregateTypeOrder : String := "order"

/-- The `order.created` row of an order. -/
def orderCreatedEvent (payload : OrderCreated) : DomainEvent where
  aggregateType := aggregateTypeOrder
  aggregateID := payload.orderID
  eventType := .orderCreated
  payload := .orderCreated payload

/-- The `order.cancelled` row of an order. -/
def orderCancelledEvent (payload : OrderCancelled) : DomainEvent where
  aggregateType := aggregateTypeOrder
  aggregateID := payload.orderID
  eventType := .orderCancelled
  payload := .orderCancelled payload

/-- `Insert`: `ON CONFLICT DO NOTHING`; false means already emitted. -/
def insert (e : DomainEvent) : Tx Bool := fun db =>
  match db.domainEvents.insert e with
  | some events => .ok (true, { db with domainEvents := events })
  | none => .ok (false, db)

/-- `Insert` adds the row unless its key is taken, and never fails. -/
theorem insert_cases (e : DomainEvent) (db : Database) :
    (∃ events, (∀ u ∈ db.domainEvents.rows, u.key ≠ e.key) ∧ events.rows = db.domainEvents.rows ++ [e] ∧
      insert e db = .ok (true, { db with domainEvents := events })) ∨
    (∃ u ∈ db.domainEvents.rows, u.key = e.key) ∧ insert e db = .ok (false, db) := by
  unfold insert
  cases h : db.domainEvents.insert e with
  | some events =>
    obtain ⟨fresh, rows⟩ := Table.insert_eq_some.1 h
    exact .inl ⟨events, fresh, rows, rfl⟩
  | none => exact .inr ⟨Table.insert_eq_none.1 h, rfl⟩

end NovoApex.Events
