import NovoApex.Db.Schema
import NovoApex.Lib.Program

/-!
# The store of the payout flow

The statements of `payouts_write.go` (`analytics_payouts.sql`, `ops_writes.sql`)
one by one, also inside the reservation's transaction: what it inserts becomes
visible at its commit, and the advisory lock it took is held until it ends. Next to
the tables stand the transactions and the transfers the provider has executed. The
sums are read before the insert, so a transaction's own row does not enter them.
-/

namespace NovoApex.Db
set_option autoImplicit false
open Lib

/-- A zod issue of a request body. -/
structure FieldIssue where
  code : String
  path : String
  message : String
  deriving DecidableEq, Repr

/-- The errors of the payout flow. -/
inductive PayoutErr where
  | db (e : Err)
  /-- The transaction has ended. -/
  | txClosed
  /-- The provider answered with an error. -/
  | provider
  | validation (issues : List FieldIssue)
  | http (status : Nat) (message : String)
  deriving DecidableEq, Repr

/-- `paystack.CreateRecipientRequest`. -/
structure CreateRecipientRequest where
  name : String
  accountNumber : String
  bankCode : String
  currency : String
  deriving DecidableEq

/-- `paystack.TransferRequest`. -/
structure TransferRequest where
  amountMinor : Int64
  recipient : String
  reason : String
  currency : String
  reference : String
  deriving DecidableEq

/-- `paystack.TransferResult`. -/
structure TransferResult where
  transferCode : String
  status : String
  deriving DecidableEq

/-- What the provider does with a transfer: whether it executes it, and its answer, if any. -/
structure TransferOutcome where
  executed : Bool
  answer : Option TransferResult
  deriving DecidableEq

/-- `gen.InsertPendingPayoutParams`. -/
structure InsertPendingPayoutParams where
  id : String
  businessID : String
  amount : ℚ
  currency : String
  reference : String
  deriving DecidableEq

/-- The row `InsertPendingPayout` writes, once its amount is a column value. -/
def InsertPendingPayoutParams.row (p : InsertPendingPayoutParams) (amount : Money) : Payout where
  id := p.id
  businessID := p.businessID
  amount := amount
  currency := p.currency
  status := .pending
  reference := some p.reference
  paystackTransferID := none

/-- A transaction: the advisory lock it holds and the row it inserted. -/
structure Transaction where
  id : String
  ended : Bool
  key : Option String
  row : Option Payout
  deriving DecidableEq

/-- The tables of the payout flow, its transactions and the provider's ledger. -/
structure PayoutWorld where
  businesses : Table Business.id
  payments : Table Payment.id
  payouts : Table Payout.id
  transactions : Table Transaction.id
  transfers : List TransferRequest

/-- The statements of the payout flow and the provider's calls, with what the provider does. -/
inductive PayoutStmt where
  | getBusinessForPayout (id : String)
  | begin (tx : String)
  | lockPayoutBalanceKey (tx key : String)
  | sumSuccessfulPaymentAmounts (tx businessID : String)
  | sumCommittedPayoutAmounts (tx businessID : String)
  | insertPendingPayout (tx : String) (p : InsertPendingPayoutParams)
  | commit (tx : String)
  | rollback (tx : String)
  | createTransferRecipient (r : CreateRecipientRequest) (answer : Option String)
  | setPaystackRecipientCode (code id : String)
  | initiateTransfer (r : TransferRequest) (outcome : TransferOutcome)
  | completePayout (transferID : String) (status : PaymentStatus) (id : String)
  | markPayoutFailed (id : String)
  | insertPayment (p : Payment)

/-- What a statement answers. -/
@[reducible] def PayoutStmt.Reply : PayoutStmt → Type
  | getBusinessForPayout .. => Option Business
  | begin .. => Unit
  | lockPayoutBalanceKey .. => Unit
  | sumSuccessfulPaymentAmounts .. => ℚ
  | sumCommittedPayoutAmounts .. => ℚ
  | insertPendingPayout .. => Payout
  | commit .. => Unit
  | rollback .. => Unit
  | createTransferRecipient .. => String
  | setPaystackRecipientCode .. => Unit
  | initiateTransfer .. => TransferResult
  | completePayout .. => Payout
  | markPayoutFailed .. => Unit
  | insertPayment .. => Unit

/-- The interface of the payout flow. -/
abbrev payoutStore : Interface := ⟨PayoutStmt, PayoutStmt.Reply, PayoutErr, .db .transient⟩

/-- `SUM(amount)` of the business's SUCCESS payments. -/
def sumSuccessfulPaymentAmounts (businessID : String) (w : PayoutWorld) : ℚ :=
  ((w.payments.rows.filter fun p => decide (p.businessID = businessID) && decide (p.status = .success)).map
    fun p => p.amount.toDecimal).sum

/-- A payout that counts against the balance. -/
def committedTo (businessID : String) (p : Payout) : Bool :=
  decide (p.businessID = businessID) && (decide (p.status = .success) || decide (p.status = .pending))

/-- `SUM(amount)` of the business's SUCCESS and PENDING payouts. -/
def sumCommittedPayoutAmounts (businessID : String) (w : PayoutWorld) : ℚ :=
  ((w.payouts.rows.filter (committedTo businessID)).map fun p => p.amount.toDecimal).sum

/-- The transaction, while it is open. -/
def openTransaction (tx : String) (w : PayoutWorld) : Option Transaction :=
  (w.transactions.find? tx).filter fun t => !t.ended

/-- A statement of an open transaction. -/
def within {α : Type} (tx : String) (w : PayoutWorld) (f : Transaction → Except PayoutErr α × PayoutWorld) :
    Except PayoutErr α × PayoutWorld :=
  match openTransaction tx w with
  | some t => f t
  | none => (.error .txClosed, w)

/-- Rewrite one transaction. -/
def setTransaction (tx : String) (f : Transaction → Transaction) (keeps : ∀ t, (f t).id = t.id) (w : PayoutWorld) : PayoutWorld :=
  { w with transactions := w.transactions.update (fun t => decide (t.id = tx)) f keeps }

/-- End a transaction: its lock is released, its row forgotten. -/
def endTransaction (tx : String) (w : PayoutWorld) : PayoutWorld :=
  setTransaction tx (fun t => { t with ended := true }) (fun _ => rfl) w

/-- `InsertPendingPayout`, with the constraints of the table. -/
def insertPendingPayout (p : InsertPendingPayoutParams) (w : PayoutWorld) : Except PayoutErr Payout :=
  match Numeric.ofDecimal p.amount with
  | none => .error (.db .outOfRange)
  | some amount =>
    if (w.payouts.find? p.id).isSome then .error (.db (.uniqueViolation "payouts_pkey"))
    else if w.payouts.rows.any fun q => decide (q.reference = some p.reference) then
      .error (.db (.uniqueViolation "payouts_reference_key"))
    else if (w.businesses.find? p.businessID).isNone then .error (.db (.foreignKeyViolation "payouts_business_id_fkey"))
    else .ok (p.row amount)

/-- Make a transaction's row visible; another one may have taken its id or its reference meanwhile. -/
def publish (row : Option Payout) (w : PayoutWorld) : Except PayoutErr PayoutWorld :=
  match row with
  | none => .ok w
  | some row =>
    if w.payouts.rows.any fun q => row.reference.isSome && decide (q.reference = row.reference) then
      .error (.db (.uniqueViolation "payouts_reference_key"))
    else
      match w.payouts.insert row with
      | some payouts => .ok { w with payouts := payouts }
      | none => .error (.db (.uniqueViolation "payouts_pkey"))

/-- `UPDATE payouts SET status` of one payout. -/
def setPayoutStatus (id : String) (f : Payout → Payout) (keeps : ∀ p, (f p).id = p.id) (w : PayoutWorld) : PayoutWorld :=
  { w with payouts := w.payouts.update (fun p => decide (p.id = id)) f keeps }

/-- Execute one statement. -/
def payoutExec : payoutStore.Exec PayoutWorld
  | .getBusinessForPayout id, w => (.ok (w.businesses.find? id), w)
  | .begin tx, w =>
    match w.transactions.insert ⟨tx, false, none, none⟩ with
    | some transactions => (.ok (), { w with transactions := transactions })
    | none => (.error .txClosed, w)
  | .lockPayoutBalanceKey tx key, w =>
    within tx w fun _ => (.ok (), setTransaction tx (fun t => { t with key := some key }) (fun _ => rfl) w)
  | .sumSuccessfulPaymentAmounts tx businessID, w => within tx w fun _ => (.ok (sumSuccessfulPaymentAmounts businessID w), w)
  | .sumCommittedPayoutAmounts tx businessID, w => within tx w fun _ => (.ok (sumCommittedPayoutAmounts businessID w), w)
  | .insertPendingPayout tx p, w => within tx w fun _ =>
    match insertPendingPayout p w with
    | .ok row => (.ok row, setTransaction tx (fun t => { t with row := some row }) (fun _ => rfl) w)
    | .error e => (.error e, w)
  | .commit tx, w => within tx w fun t =>
    match publish t.row w with
    | .ok w' => (.ok (), endTransaction tx w')
    | .error e => (.error e, endTransaction tx w)
  | .rollback tx, w => (.ok (), endTransaction tx w)
  | .createTransferRecipient _ answer, w =>
    match answer with
    | some code => (.ok code, w)
    | none => (.error .provider, w)
  | .setPaystackRecipientCode code id, w =>
    (.ok (), { w with
      businesses := w.businesses.update (fun b => decide (b.id = id))
        (fun b => { b with paystackRecipientCode := some code }) fun _ => rfl })
  | .initiateTransfer r outcome, w =>
    let w' := if outcome.executed then { w with transfers := w.transfers ++ [r] } else w
    match outcome.answer with
    | some result => (.ok result, w')
    | none => (.error .provider, w')
  | .completePayout transferID status id, w =>
    match w.payouts.find? id with
    | some p => (.ok { p with paystackTransferID := some transferID, status := status },
      setPayoutStatus id (fun p => { p with paystackTransferID := some transferID, status := status }) (fun _ => rfl) w)
    | none => (.error (.db .noRows), w)
  | .markPayoutFailed id, w => (.ok (), setPayoutStatus id (fun p => { p with status := .failed }) (fun _ => rfl) w)
  | .insertPayment p, w =>
    match w.payments.insert p with
    | some payments => (.ok (), { w with payments := payments })
    | none => (.error (.db (.uniqueViolation "payments_pkey")), w)

/-- `pg_advisory_xact_lock` waits while another open transaction holds the key. -/
def proceeds (w : PayoutWorld) : PayoutStmt → Prop
  | .lockPayoutBalanceKey tx key => ∀ t ∈ w.transactions.rows, t.id ≠ tx → t.ended = false → t.key ≠ some key
  | _ => True

instance (w : PayoutWorld) : DecidablePred (proceeds w) := fun op => by
  unfold proceeds
  split <;> infer_instance

end NovoApex.Db
