import NovoApex.Db.Payouts
import NovoApex.Lib.Crew

/-!
# POST /payouts/request

`internal/handlers/payouts_write.go`: decode the body, reserve the amount as a
PENDING payout inside a transaction that holds the business's advisory lock, then
move the money and complete the payout or release the reservation. A request is
named by the payout id it mints; its transaction goes by the same name.
-/

namespace NovoApex.Handlers
set_option autoImplicit false
open Lib Program Db

/-! ## The request body -/

/-- A raw JSON value. A number token is the decimal it parses to, `none` when it is out of range. -/
inductive JsonValue where
  | string (s : String)
  | number (d : Option ℚ)
  | object | array | boolean | null
  deriving DecidableEq

/-- `wo_jsonTypeName`. -/
def jsonTypeName : JsonValue → String
  | .string _ => "string"
  | .number _ => "number"
  | .object => "object"
  | .array => "array"
  | .boolean => "boolean"
  | .null => "null"

/-- `wo_payoutDTO`. -/
structure PayoutDTO where
  amount : ℚ
  accountNumber : String
  bankCode : String
  accountName : String
  deriving DecidableEq

/-- The amount: a positive number. -/
def decodeAmount : Option JsonValue → Except FieldIssue ℚ
  | none => .error ⟨"invalid_type", "amount", "Required"⟩
  | some (.number none) => .error ⟨"invalid_type", "amount", "Expected number, received number"⟩
  | some (.number (some d)) =>
    if 0 < d then .ok d else .error ⟨"too_small", "amount", "Number must be greater than 0"⟩
  | some v => .error ⟨"invalid_type", "amount", "Expected number, received " ++ jsonTypeName v⟩

/-- A string of at least one character. JSON null unmarshals into the empty string. -/
def decodeText (key : String) : Option JsonValue → Except FieldIssue String
  | none => .error ⟨"invalid_type", key, "Required"⟩
  | some (.string s) =>
    if s = "" then .error ⟨"too_small", key, "String must contain at least 1 character(s)"⟩ else .ok s
  | some .null => .error ⟨"too_small", key, "String must contain at least 1 character(s)"⟩
  | some v => .error ⟨"invalid_type", key, "Expected string, received " ++ jsonTypeName v⟩

/-- The issue of a field, if it has one. -/
def issueOf {α : Type} : Except FieldIssue α → List FieldIssue
  | .ok _ => []
  | .error issue => [issue]

/-- `wo_decodePayoutDTO`: the issues come in field order; `none` is a body that is no object. -/
def decodePayoutDTO (body : Option (String → Option JsonValue)) : Except (List FieldIssue) PayoutDTO :=
  match body with
  | none => .error [⟨"invalid_type", "", "Expected object"⟩]
  | some raw =>
    let amount := decodeAmount (raw "amount")
    let accountNumber := decodeText "accountNumber" (raw "accountNumber")
    let bankCode := decodeText "bankCode" (raw "bankCode")
    let accountName := decodeText "accountName" (raw "accountName")
    match amount, accountNumber, bankCode, accountName with
    | .ok amount, .ok accountNumber, .ok bankCode, .ok accountName => .ok ⟨amount, accountNumber, bankCode, accountName⟩
    | _, _, _, _ => .error (issueOf amount ++ issueOf accountNumber ++ issueOf bankCode ++ issueOf accountName)

/-- An accepted body has a positive amount. -/
theorem decodePayoutDTO_positive {body : Option (String → Option JsonValue)} {dto : PayoutDTO}
    (h : decodePayoutDTO body = .ok dto) : 0 < dto.amount := by
  unfold decodePayoutDTO at h
  split at h
  · cases h
  · rename_i raw
    simp only at h
    split at h
    · rename_i amount _ _ _ decoded _ _ _
      cases h
      unfold decodeAmount at decoded
      split at decoded
      · cases decoded
      · cases decoded
      · split at decoded
        · cases decoded
          assumption
        · cases decoded
      · cases decoded
    · cases h

/-! ## Reservation and transfer -/

/-- `wo_moneyEpsilon`. -/
def moneyEpsilon : ℚ := 1 / 1000

/-- `wo_transferReason`. -/
def transferReason : String := "Vendor Payout"

/-- The key of a business's balance lock. -/
def balanceKey (businessID : String) : String := "payout:" ++ businessID

/-- The available balance, floored at 0. -/
def availableBalance (revenue committed : ℚ) : ℚ := if revenue - committed < 0 then 0 else revenue - committed

/-- `d.StringFixed(2)`. -/
def fixed2 (d : ℚ) : String := stringFixed2 (roundHalfAway (d * 100))

/-- The answer to a request the balance does not cover. -/
def insufficientBalance (currency : String) (available amount : ℚ) : PayoutErr :=
  .http 400 ("Insufficient balance. Available: " ++ currency ++ " " ++ fixed2 available ++ ", requested: " ++ currency ++ " " ++
    fixed2 amount)

/-- A handler of the payout flow. -/
abbrev PayoutHandler (α : Type) : Type := Program payoutStore α

/-- The body of the reservation's transaction. -/
def reserveWithin (id reference businessID currency : String) (amount : ℚ) : PayoutHandler Payout := do
  let _ : Unit ← call (I := payoutStore) (.lockPayoutBalanceKey id (balanceKey businessID))
  let revenue : ℚ ← call (I := payoutStore) (.sumSuccessfulPaymentAmounts id businessID)
  let committed : ℚ ← call (I := payoutStore) (.sumCommittedPayoutAmounts id businessID)
  let available := availableBalance revenue committed
  if available + moneyEpsilon < amount then raise (insufficientBalance currency available amount)
  else do
    let payout : Payout ← call (I := payoutStore) (.insertPendingPayout id ⟨id, businessID, amount, currency, reference⟩)
    let _ : Unit ← call (I := payoutStore) (.commit id)
    pure payout

/-- `wo_reservePayout`: any error rolls the transaction back, and a failed rollback is ignored. -/
def reservePayout (id reference businessID currency : String) (amount : ℚ) : PayoutHandler Payout := do
  let _ : Unit ← call (I := payoutStore) (.begin id)
  let reserved ← attempt (reserveWithin id reference businessID currency amount)
  match reserved with
  | .ok payout => pure payout
  | .error e => do
    ignore (attempt (call (I := payoutStore) (.rollback id)))
    raise e

/-- `PaystackMover`: what the provider does with the calls of one request. -/
structure PaystackMover where
  createTransferRecipient : CreateRecipientRequest → Option String
  initiateTransfer : TransferRequest → TransferOutcome

/-- The recipient code: cached, or created and cached. -/
def recipientCodeFor (mover : PaystackMover) (businessID cached currency : String) (dto : PayoutDTO) : PayoutHandler String :=
  if cached ≠ "" then pure cached
  else do
    let req : CreateRecipientRequest := ⟨dto.accountName, dto.accountNumber, dto.bankCode, currency⟩
    let created ← attempt (call (I := payoutStore) (.createTransferRecipient req (mover.createTransferRecipient req)))
    match created with
    | .error _ => raise (.http 400 "Failed to create transfer recipient with provided bank details")
    | .ok code =>
      if code = "" then raise (.http 400 "Failed to create transfer recipient with provided bank details")
      else do
        let _ : Unit ← call (I := payoutStore) (.setPaystackRecipientCode code businessID)
        pure code

/-- The transfer of a payout: its amount in minor units, under its reference. -/
def transferOf (recipient currency : String) (dto : PayoutDTO) (payout : Payout) : TransferRequest where
  amountMinor := toMinorUnits dto.amount
  recipient := recipient
  reason := transferReason
  currency := currency
  reference := payout.reference.getD ""

/-- `wo_executeTransfer`. -/
def executeTransfer (mover : PaystackMover) (businessID cached currency : String) (dto : PayoutDTO) (payout : Payout) :
    PayoutHandler Payout := do
  let recipient ← recipientCodeFor mover businessID cached currency dto
  let req := transferOf recipient currency dto payout
  let moved ← attempt (call (I := payoutStore) (.initiateTransfer req (mover.initiateTransfer req)))
  match moved with
  | .error _ => raise (.http 400 "Failed to initiate transfer via Paystack")
  | .ok result =>
    call (I := payoutStore) (.completePayout result.transferCode (if result.status = "success" then .success else .pending) payout.id)

/-- The error a failed transfer answers with. -/
def transferFailure : PayoutErr → PayoutErr
  | .http status message => .http status message
  | _ => .http 400 "Payout could not be completed. Please try again."

/-- A request: its business, its body, the reference it mints and what the provider does. -/
structure PayoutRequest where
  businessID : String
  body : Option (String → Option JsonValue)
  reference : String
  mover : PaystackMover

/-- The second phase: complete the payout, or mark it FAILED and answer the failure. -/
def settlePayout (r : PayoutRequest) (business : Business) (dto : PayoutDTO) (payout : Payout) : PayoutHandler Unit := do
  let final ← attempt (executeTransfer r.mover r.businessID (business.paystackRecipientCode.getD "") business.currency dto payout)
  match final with
  | .ok _ => pure ()
  | .error e => do
    -- an error of the release is logged only
    ignore (attempt (call (I := payoutStore) (.markPayoutFailed payout.id)))
    raise (transferFailure e)

/-- `payoutsRequest`. -/
def payoutsRequest (id : String) (r : PayoutRequest) : PayoutHandler Unit :=
  match decodePayoutDTO r.body with
  | .error issues => raise (.validation issues)
  | .ok dto => do
    let business : Option Business ← call (I := payoutStore) (.getBusinessForPayout r.businessID)
    match business with
    | none => raise (.http 400 "Business not found")
    | some business => do
      let payout ← reservePayout id r.reference r.businessID business.currency dto.amount
      settlePayout r business dto payout

/-- What runs over the payout tables: requests, incoming payments, and the server ending a lost transaction. -/
inductive PayoutJob where
  | request (r : PayoutRequest)
  | payment (p : Payment)
  | connectionLost (tx : String)

/-- The program of a job under its name. -/
def PayoutJob.program (id : String) : PayoutJob → PayoutHandler Unit
  | request r => payoutsRequest id r
  | payment p => call (I := payoutStore) (.insertPayment p)
  | connectionLost tx => call (I := payoutStore) (.rollback tx)

/-- Money that comes in is not negative. -/
def PayoutJob.admissible : PayoutJob → Prop
  | payment p => 0 ≤ p.amount.units
  | _ => True

instance (j : PayoutJob) : Decidable j.admissible := by
  unfold PayoutJob.admissible
  split <;> infer_instance

/-- The payout flow. -/
def payoutFlow : Roster payoutStore String PayoutWorld where
  exec := payoutExec
  job id p := ∃ j : PayoutJob, j.admissible ∧ p = j.program id
  allow := proceeds

instance (w : PayoutWorld) (op : PayoutStmt) : Decidable (payoutFlow.allow w op) := inferInstanceAs (Decidable (proceeds w op))

/-! ## Answered transfers -/

/-- The provider has executed the transfer of a payout. -/
def transferred (id : String) (w : PayoutWorld) : Bool :=
  (w.payouts.find? id).any fun p => w.transfers.any fun t => decide (p.reference = some t.reference)

/-- Every transfer the provider executes for the job is answered. -/
def PayoutJob.answered : PayoutJob → Prop
  | request r => ∀ req, (r.mover.initiateTransfer req).executed = true → (r.mover.initiateTransfer req).answer.isSome = true
  | _ => True

/-- The completion of a payout fails only while its transfer is not executed. -/
def completes (w : PayoutWorld) : PayoutStmt → Prop
  | .completePayout _ _ id => transferred id w = false
  | _ => True

/-- The answer to an executed transfer is not lost, nor is the one to the completion that follows. -/
def arrives (w : PayoutWorld) : PayoutStmt → Prop
  | .initiateTransfer _ outcome => outcome.executed = false
  | op => completes w op

/-- The runs of the payout flow in which every executed transfer is answered and its payout completed. -/
def answeredFlow : Roster payoutStore String PayoutWorld where
  exec := payoutExec
  job id p := ∃ j : PayoutJob, j.admissible ∧ j.answered ∧ p = j.program id
  allow := proceeds
  faults := completes
  loses := arrives

instance (w : PayoutWorld) (op : PayoutStmt) : Decidable (answeredFlow.allow w op) := inferInstanceAs (Decidable (proceeds w op))

end NovoApex.Handlers
