import NovoApex.Lib.Vouches
import NovoApex.Payouts.Requests

/-!
# What is reserved is what is sent

The amount of a request is rounded twice: the column rounds what the reservation
inserts, `ToMinorUnits` rounds the request's amount again for the provider.
`reserved_is_sent_iff` compares the two whenever a request is about to call the
provider, whatever else runs: they always agree, and both are zero when the amount is
less than half a minor unit.
-/

namespace NovoApex.Payouts
set_option autoImplicit false
open Lib Program Db Handlers

/-- The runs of the payout flow in which a name belongs to one request. -/
def requestRuns (i : String) (r : PayoutRequest) : Roster payoutStore String PayoutWorld :=
  { payoutFlow with job := fun j p => if j = i then p = payoutsRequest i r else payoutFlow.job j p }

/-- The transfer a handler is about to ask the provider for. -/
def asked {α : Type} : PayoutHandler α → Option TransferRequest
  | .stmt (.initiateTransfer req _) _ => some req
  | _ => none

/-- The provider is told exactly what the row holds: a hundred times its amount, not wrapped, and something. -/
structure SentAsReserved (dto : PayoutDTO) (payout : Payout) (req : TransferRequest) : Prop where
  exact : (req.amountMinor.toInt : ℚ) = 100 * payout.amount.toDecimal
  whole : req.amountMinor.toInt = roundHalfAway (dto.amount * 100)
  positive : 1 ≤ req.amountMinor.toInt

/-! ## What the others leave alone -/

/-- The amount and the reference of a payout stay, and its transaction is not touched unless it is closed. -/
structure Stays (i : String) (w w' : PayoutWorld) : Prop where
  payout : ∀ p, w.payouts.find? i = some p → ∃ q, w'.payouts.find? i = some q ∧ q.amount = p.amount ∧ q.reference = p.reference
  transaction : openTransaction i w' = openTransaction i w ∨ openTransaction i w' = none

theorem Stays.refl (i : String) (w : PayoutWorld) : Stays i w w := ⟨fun p found => ⟨p, found, rfl, rfl⟩, .inl rfl⟩

theorem Stays.trans {i : String} {u v w : PayoutWorld} (h : Stays i u v) (h' : Stays i v w) : Stays i u w := by
  constructor
  · intro p found
    obtain ⟨q, found, amount, named⟩ := h.payout p found
    obtain ⟨q', found, amount', named'⟩ := h'.payout q found
    exact ⟨q', found, amount'.trans amount, named'.trans named⟩
  · rcases h'.transaction with same | closed
    · rw [same]
      exact h.transaction
    · exact .inr closed

/-- Names are independent: nothing is claimed of the store as a whole. -/
def untouched : Protocol String PayoutWorld where
  inv _ := True
  rely := Stays
  refl := Stays.refl
  trans _ _ _ _ h h' := h.trans h'

section Stays

variable {i tx : String} {w : PayoutWorld}

theorem Stays.setTransaction {f : Transaction → Transaction} {keeps : ∀ t, (f t).id = t.id} (other : i ≠ tx) :
    Stays i w (setTransaction tx f keeps w) :=
  ⟨(Stays.refl i w).payout, .inl (openTransaction_setTransaction_of_ne other)⟩

theorem Stays.endTransaction : Stays i w (endTransaction tx w) :=
  ⟨(Stays.refl i w).payout, (relies_endTransaction i).transaction⟩

theorem Stays.setPayoutStatus {id : String} {f : Payout → Payout} {keeps : ∀ p, (f p).id = p.id}
    (fixed : ∀ p, (f p).amount = p.amount ∧ (f p).reference = p.reference) : Stays i w (setPayoutStatus id f keeps w) := by
  refine ⟨fun p found => ?_, .inl rfl⟩
  unfold Db.setPayoutStatus
  by_cases same : i = id
  · subst same
    simp only [Table.find?_update_keyed, found, Option.map_some]
    exact ⟨f p, rfl, fixed p⟩
  · simp only [Table.find?_update_of_ne _ f keeps same, found]
    exact ⟨p, rfl, rfl, rfl⟩

/-- A row that is already there stays when another transaction publishes its own. -/
theorem Stays.publish {row : Option Payout} {w' : PayoutWorld} (published : publish row w = .ok w') : Stays i w w' := by
  unfold Db.publish at published
  cases row with
  | none =>
    cases published
    exact .refl i w
  | some row =>
    simp only at published
    split at published
    · cases published
    · split at published
      · rename_i payouts inserted
        cases published
        refine ⟨fun p found => ⟨p, ?_, rfl, rfl⟩, .inl rfl⟩
        obtain ⟨mem, id⟩ := Table.find?_eq_some.1 found
        refine Table.find?_eq_some.2 ⟨?_, id⟩
        show p ∈ payouts.rows
        rw [(Table.insert_eq_some.1 inserted).2]
        exact List.mem_append_left _ mem
      · cases published

/-- A statement of a transaction goes to the transaction of the handler's own name. -/
def OwnTransaction (i : String) : PayoutStmt → Prop
  | .begin tx => tx = i
  | .lockPayoutBalanceKey tx _ => tx = i
  | .sumSuccessfulPaymentAmounts tx _ => tx = i
  | .sumCommittedPayoutAmounts tx _ => tx = i
  | .insertPendingPayout tx _ => tx = i
  | .commit tx => tx = i
  | _ => True

theorem Stays.within {α : Type} {j : String} {f : Transaction → Except PayoutErr α × PayoutWorld} (inside : ∀ t, Stays i w (f t).2) :
    Stays i w (within j w f).2 := by
  unfold Db.within
  split
  · exact inside _
  · exact .refl i w

/-- A statement leaves what the others rely on alone. -/
theorem stays_exec {op : PayoutStmt} (own : OwnTransaction tx op) (other : i ≠ tx) : Stays i w (payoutExec op w).2 := by
  cases op with
  | begin t =>
    obtain rfl : t = tx := own
    simp only [payoutExec]
    split
    · rename_i transactions inserted
      refine ⟨(Stays.refl i w).payout, .inl ?_⟩
      show (transactions.find? i).filter _ = (w.transactions.find? i).filter _
      rw [Table.find?_insert_of_ne inserted other]
    · exact .refl i w
  | lockPayoutBalanceKey t key =>
    obtain rfl : t = tx := own
    exact Stays.within fun _ => .setTransaction other
  | insertPendingPayout t p =>
    obtain rfl : t = tx := own
    refine Stays.within fun _ => ?_
    split
    · exact .setTransaction other
    · exact .refl i w
  | commit t =>
    refine Stays.within fun _ => ?_
    split
    · rename_i published
      exact (Stays.publish published).trans .endTransaction
    · exact .endTransaction
  | rollback t => exact .endTransaction
  | sumSuccessfulPaymentAmounts t b => exact Stays.within fun _ => .refl i w
  | sumCommittedPayoutAmounts t b => exact Stays.within fun _ => .refl i w
  | getBusinessForPayout id => exact .refl i w
  | createTransferRecipient r answer => cases answer <;> exact .refl i w
  | setPaystackRecipientCode code id => exact ⟨(Stays.refl i w).payout, .inl rfl⟩
  | initiateTransfer r outcome =>
    simp only [payoutExec]
    cases outcome.executed <;> cases outcome.answer <;> exact ⟨(Stays.refl i w).payout, .inl rfl⟩
  | completePayout transferID status id =>
    simp only [payoutExec]
    split
    · exact .setPayoutStatus fun _ => ⟨rfl, rfl⟩
    · exact .refl i w
  | markPayoutFailed id => exact .setPayoutStatus fun _ => ⟨rfl, rfl⟩
  | insertPayment p =>
    simp only [payoutExec]
    split
    · exact ⟨(Stays.refl i w).payout, .inl rfl⟩
    · exact .refl i w

end Stays

/-! ## The statements of a job -/

/-- A statement of the name's own that is not the transfer. -/
def Preparing (i : String) (op : PayoutStmt) : Prop := OwnTransaction i op ∧ ∀ req outcome, op ≠ .initiateTransfer req outcome

theorem preparing {i : String} {op : PayoutStmt} (own : OwnTransaction i op)
    (other : ∀ req outcome, op ≠ .initiateTransfer req outcome) : (call (I := payoutStore) op).Uses (Preparing i) :=
  uses_call.2 ⟨own, other⟩

theorem reserveWithin_uses (i reference b currency : String) (amount : ℚ) :
    (reserveWithin i reference b currency amount).Uses (Preparing i) := by
  refine Uses.bind (preparing rfl (by simp)) fun _ => ?_
  refine Uses.bind (preparing rfl (by simp)) fun revenue => ?_
  refine Uses.bind (preparing rfl (by simp)) fun committed => ?_
  simp only
  split
  · trivial
  · refine Uses.bind (preparing rfl (by simp)) fun _ => ?_
    exact Uses.bind (preparing rfl (by simp)) fun _ => trivial

theorem reservePayout_uses (i reference b currency : String) (amount : ℚ) :
    (reservePayout i reference b currency amount).Uses (Preparing i) := by
  refine Uses.bind (preparing rfl (by simp)) fun _ => Uses.bind (reserveWithin_uses i reference b currency amount).attempt fun r => ?_
  cases r with
  | ok payout => trivial
  | error e => exact Uses.bind (Uses.ignore (Uses.attempt (preparing trivial (by simp)))) fun _ => trivial

theorem recipientCodeFor_uses (i : String) (mover : PaystackMover) (b cached currency : String) (dto : PayoutDTO) :
    (recipientCodeFor mover b cached currency dto).Uses fun op => Preparing i op ∧ Aside op := by
  unfold recipientCodeFor
  split
  · trivial
  · refine Uses.bind (Uses.attempt (uses_call.2 ⟨⟨trivial, by simp⟩, aside_createTransferRecipient⟩)) fun r => ?_
    cases r with
    | error e => trivial
    | ok code =>
      simp only
      split
      · trivial
      · exact Uses.bind (uses_call.2 ⟨⟨trivial, by simp⟩, fun _ => ⟨rfl, rfl, rfl⟩⟩) fun _ => trivial

/-- What follows the second phase. -/
theorem release_uses (i : String) (payout : Payout) (e : PayoutErr) :
    ((ignore (attempt (call (I := payoutStore) (.markPayoutFailed payout.id)))).bind fun _ =>
      (raise (transferFailure e) : PayoutHandler Unit)).Uses (Preparing i) :=
  Uses.bind (Uses.ignore (Uses.attempt (preparing trivial (by simp)))) fun _ => trivial

theorem executeTransfer_uses (i : String) (mover : PaystackMover) (b cached currency : String) (dto : PayoutDTO) (payout : Payout) :
    (executeTransfer mover b cached currency dto payout).Uses (OwnTransaction i) := by
  refine Uses.bind ((recipientCodeFor_uses i mover b cached currency dto).mono fun _ h => h.1.1) fun recipient => ?_
  refine Uses.bind (Uses.attempt (uses_call.2 trivial)) fun moved => ?_
  cases moved with
  | error e => trivial
  | ok result => exact uses_call.2 trivial

theorem payoutsRequest_uses (i : String) (r : PayoutRequest) : (payoutsRequest i r).Uses (OwnTransaction i) := by
  unfold payoutsRequest
  split
  · trivial
  · refine Uses.bind (uses_call.2 trivial) fun business => ?_
    cases business with
    | none => trivial
    | some business =>
      refine Uses.bind ((reservePayout_uses i r.reference r.businessID business.currency _).mono fun _ h => h.1) fun payout => ?_
      refine Uses.bind (executeTransfer_uses i r.mover r.businessID _ business.currency _ payout).attempt fun final => ?_
      cases final with
      | ok _ => trivial
      | error e => exact (release_uses i payout e).mono fun _ h => h.1

/-- Every job keeps to its own transaction. -/
theorem job_uses {i j : String} {r : PayoutRequest} {p : Program payoutStore Unit} (may : (requestRuns i r).job j p) :
    p.Uses (OwnTransaction j) := by
  have may : if j = i then p = payoutsRequest i r else payoutFlow.job j p := may
  split at may
  · rename_i same
    rw [may, same]
    exact payoutsRequest_uses i r
  · obtain ⟨job, -, rfl⟩ := may
    cases job with
    | request r => exact payoutsRequest_uses j r
    | payment p => exact uses_call.2 trivial
    | connectionLost tx => exact uses_call.2 trivial

/-! ## The reservation -/

/-- The payout is there, with what the column made of the amount. -/
def Stored (i reference : String) (amount : ℚ) (w : PayoutWorld) : Prop :=
  ∃ p, w.payouts.find? i = some p ∧ Numeric.ofDecimal amount = some p.amount ∧ p.reference = some reference

theorem Stored.stays {i reference : String} {amount : ℚ} {w w' : PayoutWorld} (h : Stored i reference amount w) (stays : Stays i w w') :
    Stored i reference amount w' := by
  obtain ⟨p, found, fits, named⟩ := h
  obtain ⟨q, found', amount', named'⟩ := stays.payout p found
  exact ⟨q, found', by rw [amount', fits], named'.trans named⟩

section Reservation

variable {i reference : String} {r : PayoutRequest} {w : PayoutWorld}

/-- One statement of a name's own whose errors end the handler. -/
theorem untouched_stmt {op : PayoutStmt} {Q : Except PayoutErr op.Reply → PayoutWorld → Prop} (own : OwnTransaction i op)
    (failed : ∀ e t, Q (.error e) t) (executed : ∀ t, Stays i w t → Q (payoutExec op t).1 (payoutExec op t).2) :
    Safe (requestRuns i r) untouched i Q (call (I := payoutStore) op) w :=
  Safe.call (fun t rely _ _ => ⟨trivial, fun _ other => stays_exec own other, executed t rely, fun _ => failed _ _⟩)
    (fun t _ _ _ => failed _ t) fun _ _ _ _ => trivial

/-- A statement inside the transaction: the server may have closed it. -/
theorem untouched_within {op : PayoutStmt} {Q : Except PayoutErr op.Reply → PayoutWorld → Prop} {tr : Transaction}
    {body : PayoutWorld → Transaction → Except PayoutErr op.Reply × PayoutWorld} (own : OwnTransaction i op)
    (runs : ∀ t, payoutExec op t = within i t (body t)) (isOpen : openTransaction i w = some tr) (failed : ∀ e t, Q (.error e) t)
    (executed : ∀ t, openTransaction i t = some tr → Q (body t tr).1 (body t tr).2) :
    Safe (requestRuns i r) untouched i Q (call (I := payoutStore) op) w := by
  refine untouched_stmt own failed fun t rely => ?_
  rw [runs t, within]
  rcases rely.transaction with same | closed
  · rw [same.trans isOpen]
    exact executed t (same.trans isOpen)
  · rw [closed]
    exact failed _ t

theorem untouched_begin {Q : Except PayoutErr Unit → PayoutWorld → Prop} (failed : ∀ e t, Q (.error e) t)
    (next : ∀ t tr, openTransaction i t = some tr → Q (.ok ()) t) :
    Safe (requestRuns i r) untouched i Q (call (I := payoutStore) (.begin i)) w := by
  refine untouched_stmt rfl failed fun t _ => ?_
  simp only [payoutExec]
  split
  · rename_i transactions inserted
    refine next _ ⟨i, false, none, none⟩ (openTransaction_eq_some.2 ⟨?_, rfl, rfl⟩)
    show _ ∈ transactions.rows
    rw [(Table.insert_eq_some.1 inserted).2]
    exact List.mem_append_right _ (List.mem_singleton_self _)
  · exact failed _ t

/-- The insert keeps the row for the commit. -/
theorem untouched_insert {Q : Except PayoutErr Payout → PayoutWorld → Prop} {p : InsertPendingPayoutParams} {tr : Transaction}
    (isOpen : openTransaction i w = some tr) (failed : ∀ e t, Q (.error e) t)
    (next : ∀ amount t tr, Numeric.ofDecimal p.amount = some amount → openTransaction i t = some tr → tr.row = some (p.row amount) →
      Q (.ok (p.row amount)) t) :
    Safe (requestRuns i r) untouched i Q (call (I := payoutStore) (.insertPendingPayout i p)) w := by
  refine untouched_within rfl (fun _ => rfl) isOpen failed fun t still => ?_
  simp only
  cases inserts : insertPendingPayout p t with
  | error e => exact failed e t
  | ok row =>
    obtain ⟨amount, fits, rfl⟩ := insertPendingPayout_ok inserts
    obtain ⟨mem, id, alive⟩ := openTransaction_eq_some.1 still
    refine next amount _ { tr with row := some (p.row amount) } fits ?_ rfl
    rw [openTransaction_setTransaction, Table.find?_eq_some.2 ⟨mem, id⟩]
    simp [alive]

/-- The commit publishes the row it has kept. -/
theorem untouched_commit {Q : Except PayoutErr Unit → PayoutWorld → Prop} {tr : Transaction} {row : Payout}
    (isOpen : openTransaction i w = some tr) (kept : tr.row = some row) (named : row.id = i) (failed : ∀ e t, Q (.error e) t)
    (next : ∀ t, t.payouts.find? i = some row → Q (.ok ()) t) :
    Safe (requestRuns i r) untouched i Q (call (I := payoutStore) (.commit i)) w := by
  refine untouched_within rfl (fun _ => rfl) isOpen failed fun t _ => ?_
  rw [kept]
  simp only [publish]
  split
  · rename_i published
    split at published
    · cases published
    · split at published
      · rename_i payouts inserted
        cases published
        refine next _ ?_
        show payouts.find? i = some row
        rw [← named]
        exact Table.find?_insert inserted
      · cases published
  · exact failed _ _

/-- A reservation that succeeds has stored the amount. -/
theorem untouched_reserve {b currency : String} {amount : ℚ} :
    Safe (requestRuns i r) untouched i (Replied (fun payout t => payout.reference = some reference ∧ Stored i reference amount t)
      fun _ => True) (reservePayout i reference b currency amount) w := by
  unfold reservePayout
  refine Safe.bind (untouched_begin (fun _ _ => trivial) fun t tr isOpen => ?_)
  refine Safe.bind (Safe.attempt (Safe.mono ?_ fun r u (reserved : Replied
    (fun payout t => payout.reference = some reference ∧ Stored i reference amount t) (fun _ => True) r u) => ?_))
  · unfold reserveWithin
    refine Safe.bind (untouched_within rfl (fun _ => rfl) isOpen (fun _ _ => trivial) fun t still => ?_)
    obtain ⟨mem, id, alive⟩ := openTransaction_eq_some.1 still
    have locked : openTransaction i (setTransaction i (fun t => { t with key := some (balanceKey b) }) (fun _ => rfl) t) =
        some { tr with key := some (balanceKey b) } := by
      rw [openTransaction_setTransaction, Table.find?_eq_some.2 ⟨mem, id⟩]
      simp [alive]
    refine Safe.bind (untouched_within rfl (fun _ => rfl) locked (fun _ _ => trivial) fun u locked => ?_)
    refine Safe.bind (untouched_within rfl (fun _ => rfl) locked (fun _ _ => trivial) fun v locked => ?_)
    simp only
    split
    · trivial
    · refine Safe.bind (untouched_insert locked (fun _ _ => trivial) fun stored x tr fits isOpen kept => ?_)
      refine Safe.bind (untouched_commit isOpen kept rfl (fun _ _ => trivial) fun y found => ?_)
      exact ⟨rfl, _, found, fits, rfl⟩
  · cases r with
    | ok payout => exact reserved
    | error e =>
      refine Safe.bind (Safe.bind (Safe.attempt (untouched_stmt trivial (fun _ _ => ?_) fun _ _ => ?_)))
      · trivial
      · trivial

/-! ## The transfer -/

/-- A transfer goes out under the request's reference, over its amount, and over what is stored under its name. -/
def Sends (i : String) (r : PayoutRequest) (dto : PayoutDTO) : PayoutStmt → PayoutWorld → Prop
  | .initiateTransfer req _, w => req.reference = r.reference ∧ req.amountMinor = toMinorUnits dto.amount ∧
      Stored i r.reference dto.amount w
  | _, _ => True

theorem Preparing.sends {dto : PayoutDTO} {op : PayoutStmt} (h : Preparing i op) (t : PayoutWorld) : Sends i r dto op t := by
  cases op with
  | initiateTransfer req outcome => exact absurd rfl (h.2 req outcome)
  | _ => trivial

theorem Aside.stays {op : PayoutStmt} (h : Aside op) (j : String) : Stays j w (payoutExec op w).2 := by
  obtain ⟨-, payouts, transactions⟩ := h w
  refine ⟨fun p found => ⟨p, by rw [payouts, found], rfl, rfl⟩, .inl ?_⟩
  unfold openTransaction
  rw [transactions]

theorem vouches_executeTransfer {b cached currency : String} {dto : PayoutDTO} {payout : Payout}
    (named : payout.reference = some r.reference) (stored : Stored i r.reference dto.amount w) :
    Vouches (requestRuns i r) untouched i (Sends i r dto) (executeTransfer r.mover b cached currency dto payout) w := by
  have recipient := recipientCodeFor_uses i r.mover b cached currency dto
  refine Vouches.bind (.of_uses recipient fun op t h => h.1.sends t) (Safe.mono (Safe.of_uses_known recipient
    (fun _ _ stays known => Stored.stays known stays) stored (fun op t h known _ _ => ⟨trivial, fun j _ => h.2.stays j, known.stays (h.2.stays i)⟩)
    fun _ _ => trivial) fun result u known recipientCode _ => ?_)
  refine Vouches.bind (.attempt (.call fun v stays _ => ⟨?_, rfl, known.stays stays⟩))
    (Safe.attempt (untouched_stmt trivial (fun e _ _ _ => ?_) fun _ _ moved same => ?_))
  · simp [transferOf, named]
  · rename_i moved same
    cases same
    trivial
  · cases same
    split
    · trivial
    · exact .call fun _ _ _ => trivial

theorem vouches_payoutsRequest {dto : PayoutDTO} (accepted : decodePayoutDTO r.body = .ok dto) :
    Vouches (requestRuns i r) untouched i (Sends i r dto) (payoutsRequest i r) w := by
  unfold payoutsRequest
  rw [accepted]
  refine Vouches.bind (.call fun _ _ _ => trivial) (untouched_stmt trivial (fun _ _ _ same => ?_) fun t _ business same => ?_)
  · cases same
  · cases business with
    | none => trivial
    | some business =>
      refine Vouches.bind (.of_uses (reservePayout_uses i r.reference r.businessID business.currency dto.amount) fun op t h => h.sends t)
        (untouched_reserve.mono fun result u reserved payout same => ?_)
      subst same
      obtain ⟨named, stored⟩ := reserved
      refine Vouches.bind (Vouches.attempt (vouches_executeTransfer named stored))
        ((Safe.of_uses (executeTransfer_uses i r.mover _ _ _ dto payout).attempt (fun op t own _ _ => ⟨trivial, fun j other =>
          stays_exec own other⟩) fun _ => trivial).mono fun _ _ _ final _ => ?_)
      cases final with
      | ok _ => trivial
      | error e => exact .of_uses (release_uses i payout e) fun op t h => h.sends t

end Reservation

/-! ## Runs -/

/-- An amount rounds to something exactly from half a minor unit on. -/
theorem round_positive_iff {q : ℚ} (positive : 0 < q) : 1 ≤ roundHalfAway (q * 100) ↔ 1 / 200 ≤ q := by
  have something : 0 < roundHalfAway (q * 100) ↔ 1 / 2 ≤ q * 100 := roundHalfAway_pos_iff (by linarith)
  rw [Int.lt_iff_add_one_le, zero_add] at something
  rw [something]
  constructor <;> intro h <;> linarith

/-- Whenever a request is about to call the provider, among any other requests, payments and lost connections, its row is
committed and the provider is told exactly what it holds, not wrapped; that is something exactly when the request's amount
is at least half a minor unit. -/
theorem reserved_is_sent_iff {i : String} {r : PayoutRequest} {dto : PayoutDTO} {w : PayoutWorld}
    {c : Crew payoutStore String PayoutWorld} {p : PayoutHandler Unit} {req : TransferRequest}
    (accepted : decodePayoutDTO r.body = .ok dto) (reach : (requestRuns i r).Reach ⟨w, []⟩ c) (flight : (i, p) ∈ c.threads)
    (asks : asked p = some req) :
    ∃ payout ∈ c.state.payouts.rows, payout.id = i ∧ payout.reference = some req.reference ∧
      (req.amountMinor.toInt : ℚ) = 100 * payout.amount.toDecimal ∧ req.amountMinor.toInt = roundHalfAway (dto.amount * 100) ∧
      (SentAsReserved dto payout req ↔ 1 / 200 ≤ dto.amount) := by
  unfold asked at asks
  split at asks
  · rename_i asked_ outcome next
    obtain rfl := Option.some.inj asks
    have safe : ∀ j p s, (requestRuns i r).job j p → untouched.inv s → untouched.idle j s →
        Safe (requestRuns i r) untouched j (fun _ => untouched.idle j) p s := fun j p s may _ _ =>
      Safe.of_uses (job_uses may) (fun op t own _ _ => ⟨trivial, fun k other => stays_exec own other⟩) fun _ => trivial
    let A : String → PayoutStmt → PayoutWorld → Prop := fun j op t => j = i → Sends i r dto op t
    have vouches : ∀ j p s, (requestRuns i r).job j p → untouched.inv s → untouched.idle j s →
        Vouches (requestRuns i r) untouched j (A j) p s := by
      intro j p s may _ _
      by_cases same : j = i
      · subst same
        have request : p = payoutsRequest j r := by
          have may : if j = j then p = payoutsRequest j r else payoutFlow.job j p := may
          rwa [if_pos rfl] at may
        rw [request]
        exact (vouches_payoutsRequest accepted).mono fun _ _ sends _ => sends
      · exact .of_uses (job_uses may) fun op t _ absurd_ => absurd absurd_ same
    obtain ⟨reference, minor, payout, found, fits, named⟩ := Protocol.vouched Protocol.promise_idle safe vouches reach trivial
      (fun _ => trivial) flight rfl
    obtain ⟨mem, id⟩ := Table.find?_eq_some.1 found
    have units : payout.amount.units = roundHalfAway (dto.amount * 100) := by
      rw [Numeric.ofDecimal_units fits]
      norm_num
    have whole : asked_.amountMinor.toInt = payout.amount.units := by rw [minor, toMinorUnits_stored fits]
    have exact_ : (asked_.amountMinor.toInt : ℚ) = 100 * payout.amount.toDecimal := by
      rw [whole, Money.toDecimal_eq]
      ring
    have condition := round_positive_iff (decodePayoutDTO_positive accepted)
    refine ⟨payout, mem, id, by rw [named, reference], exact_, whole.trans units, fun sent => ?_, fun enough => ?_⟩
    · refine condition.1 ?_
      rw [← sent.whole]
      exact sent.positive
    · refine ⟨exact_, whole.trans units, ?_⟩
      rw [whole, units]
      exact condition.2 enough
  · cases asks

/-- A request with the amount alone changed. -/
def requestOf (amount : ℚ) : PayoutRequest :=
  { eightOut with body := some fun key => if key = "amount" then some (.number (some amount)) else some (.string "0240000000") }

/-- The account when the request is about to call the provider. -/
def calling (amount : ℚ) (w : PayoutWorld) : PayoutHandler Unit × PayoutWorld :=
  (payoutsRequest "p1" (requestOf amount)).steps payoutExec 7 w

theorem reach_calling {amount : ℚ} {w : PayoutWorld}
    (follows : (requestRuns "p1" (requestOf amount)).FollowsFor 7 (payoutsRequest "p1" (requestOf amount)) w) :
    (requestRuns "p1" (requestOf amount)).Reach ⟨w, []⟩ ⟨(calling amount w).2, [("p1", (calling amount w).1)]⟩ := by
  have may : (requestRuns "p1" (requestOf amount)).job "p1" (payoutsRequest "p1" (requestOf amount)) := by
    show if "p1" = "p1" then payoutsRequest "p1" (requestOf amount) = payoutsRequest "p1" (requestOf amount)
      else payoutFlow.job "p1" (payoutsRequest "p1" (requestOf amount))
    rw [if_pos rfl]
  exact .head (.spawn may List.not_mem_nil) ((requestRuns "p1" (requestOf amount)).reach_steps 7 [] [] follows)

instance (amount : ℚ) (w : PayoutWorld) (op : PayoutStmt) : Decidable ((requestRuns "p1" (requestOf amount)).allow w op) :=
  inferInstanceAs (Decidable (proceeds w op))

/-- A transfer to the cached recipient. -/
def transferOver (minor : Int64) : TransferRequest := ⟨minor, "RCP_1", transferReason, "GHS", "payout_1"⟩

/-- What the decoder makes of the request. -/
def bodyOf (amount : ℚ) : PayoutDTO := ⟨amount, "0240000000", "0240000000", "0240000000"⟩

theorem requestOf_accepted {amount : ℚ} (positive : 0 < amount) : decodePayoutDTO (requestOf amount).body = .ok (bodyOf amount) := by
  simp [requestOf, decodePayoutDTO, decodeAmount, decodeText, bodyOf, positive]

theorem reserved_is_sent_eight : ∃ payout ∈ (calling (80009 / 10000) paidIn).2.payouts.rows,
    SentAsReserved (bodyOf (80009 / 10000)) payout (transferOver 800) := by
  have accepted := requestOf_accepted (by norm_num : (0 : ℚ) < 80009 / 10000)
  have asks : asked (calling (80009 / 10000) paidIn).1 = some (transferOver 800) := by decide +kernel
  obtain ⟨payout, mem, -, -, -, -, condition⟩ := reserved_is_sent_iff accepted (reach_calling (by decide +kernel))
    (List.mem_singleton_self _) asks
  exact ⟨payout, mem, condition.2 (by norm_num [bodyOf])⟩

/-- A tenth of a minor unit is reserved without any balance, as nothing, and nothing is asked of the provider. -/
theorem tenth_of_a_minor_unit_sent : decodePayoutDTO (requestOf (1 / 1000)).body = .ok (bodyOf (1 / 1000)) ∧
    (requestRuns "p1" (requestOf (1 / 1000))).Reach ⟨account, []⟩
      ⟨(calling (1 / 1000) account).2, [("p1", (calling (1 / 1000) account).1)]⟩ ∧
    asked (calling (1 / 1000) account).1 = some (transferOver 0) ∧
    ∀ payout, ¬ SentAsReserved (bodyOf (1 / 1000)) payout (transferOver 0) := by
  refine ⟨requestOf_accepted (by norm_num), reach_calling (by decide +kernel), by decide +kernel, fun payout sent => ?_⟩
  exact absurd sent.positive (by decide)

end NovoApex.Payouts
