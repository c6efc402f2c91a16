import NovoApex.Lib.TaskQueue
import NovoApex.Workers.PaymentEvents
import Mathlib.Logic.Relation

/-!
# The payments webhook

`wp_handle` (`internal/handlers/webhooks_payments.go`) from the verified body on,
and the worker behind it (`RegisterPaymentEvents`). Of the body the endpoint decodes
the reference only: a body whose `data` or `reference` has another type is answered
with a 500 and never queued, every other one is. The task id is built from the
reference alone, so while a task of a reference is live or archived every further
event of that reference is dropped at ingest. The unique lock over the payload is
left out: the payload carries the arrival time.
-/

namespace NovoApex.Handlers
set_option autoImplicit false
open Lib Program Paystack Workers

/-- The reference a body carries; the empty string when it has none. -/
def referenceOf (body : WebhookBody) : String := (body.data.map WebhookData.reference).getD ""

/-- The task id of an event. -/
def paymentTaskID (providerName : String) (body : WebhookBody) (receivedAt : Nat) : String :=
  let externalReference :=
    if referenceOf body = "" then providerName ++ ":" ++ toString receivedAt else referenceOf body
  "payment:" ++ providerName ++ ":" ++ externalReference

/-- `MaxRetry` of the payment-events queue. -/
def paymentMaxRetry : Nat := 4

/-- The handler behind `TaskPaymentProcess`. -/
def processPayment (body : WebhookBody) (a : Attempt) : Handler Unit :=
  match parseWebhookEvent body with
  | .error message => raise (.invalidPayload ("payment-events: parse webhook (paystack): " ++ message))
  | .ok evt => handlePaymentEvent evt a

/-- The tables and the payment-events queue. -/
structure Ingest where
  db : Database
  queue : TaskQueue WebhookBody

/-- What the worker does with the task under an id. -/
def Ingest.process (s : Ingest) (id : String) (body : WebhookBody) (retried : Nat) (a : Attempt) : Ingest :=
  let outcome := (processPayment body a).run exec s.db
  ⟨outcome.2, match outcome.1 with
    | .ok _ => s.queue.complete id
    | .error _ => s.queue.fail paymentMaxRetry id body retried⟩

/-- An event arrives, or the worker takes up a live task under a fresh payment id. Without infrastructure errors
an attempt runs undisturbed: a live task excludes every other task of its reference. -/
inductive Ingest.Step (bodies : WebhookBody → Prop) : Ingest → Ingest → Prop where
  | receive {s body} (receivedAt : Nat) (may : bodies body) :
      Step bodies s { s with queue := s.queue.enqueue (paymentTaskID "paystack" body receivedAt) body }
  | process {s id body retried} (a : Attempt) (live : s.queue.slot id = .live body retried)
      (fresh : ∀ p ∈ s.db.payments.rows, p.id ≠ a.paymentID) : Step bodies s (s.process id body retried a)

/-- The states a run of ingest and worker over the given events reaches. -/
def Ingest.Reach (bodies : WebhookBody → Prop) : Ingest → Ingest → Prop := Relation.ReflTransGen (Step bodies)

end NovoApex.Handlers
