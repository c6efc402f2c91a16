import NovoApex.Payouts.Books

/-!
# The payout request, statement by statement

Each statement of a request keeps the protocol of the payout flow; what the request
knows in between is its transaction, its payout, and whether the provider has executed
its transfer. From this follow two facts about every run: payouts are covered by
payments, and, as long as executed transfers are answered, so is the money the
provider has moved.
-/

namespace NovoApex.Payouts
set_option autoImplicit false
open Lib Program Db Handlers

/-- The runs of the payout flow, narrowed to answered transfers where `answered` says so. -/
def payoutRuns (answered : Prop) : Roster payoutStore String PayoutWorld where
  exec := payoutExec
  job id p := ∃ j : PayoutJob, j.admissible ∧ (answered → j.answered) ∧ p = j.program id
  allow := proceeds
  faults w op := answered → completes w op
  loses w op := answered → arrives w op

theorem payoutFlow_within : payoutFlow.Within (payoutRuns False) := by
  refine ⟨rfl, fun i p may => ?_, fun _ _ may => may, fun _ _ _ no => no.elim, fun _ _ _ no => no.elim, fun _ _ _ => trivial⟩
  obtain ⟨job, admissible, eq⟩ := may
  exact ⟨job, admissible, False.elim, eq⟩

theorem answeredFlow_within : answeredFlow.Within (payoutRuns True) := by
  refine ⟨rfl, fun i p may => ?_, fun _ _ may => may, fun _ _ may _ => may, fun _ _ may _ => may, fun _ _ _ => trivial⟩
  obtain ⟨job, admissible, isAnswered, eq⟩ := may
  exact ⟨job, admissible, fun _ => isAnswered, eq⟩

section Requests

variable {answered : Prop} {i reference : String} {minor : Int} {w : PayoutWorld}

/-! ## Statements that end the request when they fail -/

theorem Covered.same (h : Covered w) : Keeps i w w := ⟨h, fun j _ => .refl j w⟩

theorem Relies.open_cases {t : PayoutWorld} {tr : Transaction} (h : Relies i w t) (isOpen : openTransaction i w = some tr) :
    openTransaction i t = some tr ∨ openTransaction i t = none := by
  rcases h.transaction with same | closed
  · exact .inl (same.trans isOpen)
  · exact .inr closed

/-- One statement of a request. -/
theorem safe_call {op : PayoutStmt} {Q : Except PayoutErr op.Reply → PayoutWorld → Prop}
    (executed : ∀ t, (payoutProtocol answered).rely i w t → Covered t → (answered → Booked t) → proceeds t op →
      KeepsBooks answered i t (payoutExec op t).2 ∧ Q (payoutExec op t).1 (payoutExec op t).2 ∧
        ((answered → arrives t op) → Q (.error (.db .transient)) (payoutExec op t).2))
    (failed : ∀ t, (payoutProtocol answered).rely i w t → (answered → completes t op) → Q (.error (.db .transient)) t) :
    Safe (payoutRuns answered) (payoutProtocol answered) i Q (call (I := payoutStore) op) w := by
  refine Safe.call (fun t rely inv may => ?_) (fun t rely _ faults => failed t rely faults) fun _ _ _ _ => trivial
  obtain ⟨⟨⟨covered, others⟩, books⟩, replied, unreplied⟩ := executed t rely inv.1 inv.2 may
  exact ⟨⟨covered, fun yes => (books yes).1⟩, fun j other => ⟨others j other, fun yes => (books yes).2 j other⟩, replied, unreplied⟩

/-- A statement whose errors end the request. -/
theorem safe_stmt {op : PayoutStmt} {Q : Except PayoutErr op.Reply → PayoutWorld → Prop} (failed : ∀ e t, Q (.error e) t)
    (executed : ∀ t, (payoutProtocol answered).rely i w t → Covered t → (answered → Booked t) → proceeds t op →
      KeepsBooks answered i t (payoutExec op t).2 ∧ Q (payoutExec op t).1 (payoutExec op t).2) :
    Safe (payoutRuns answered) (payoutProtocol answered) i Q (call (I := payoutStore) op) w := by
  refine safe_call (fun t rely inv books may => ?_) fun t _ _ => failed _ t
  obtain ⟨keeps, ends⟩ := executed t rely inv books may
  exact ⟨keeps, ends, fun _ => failed _ _⟩

/-- A statement of the request's own transaction: it fails when the server has ended the transaction. -/
theorem safe_within {op : PayoutStmt} {Q : Except PayoutErr op.Reply → PayoutWorld → Prop} {tr : Transaction}
    {body : PayoutWorld → Transaction → Except PayoutErr op.Reply × PayoutWorld}
    (runs : ∀ t, payoutExec op t = within i t (body t)) (isOpen : openTransaction i w = some tr) (failed : ∀ e t, Q (.error e) t)
    (executed : ∀ t, Relies i w t → Covered t → (answered → Booked t) → proceeds t op → openTransaction i t = some tr →
      KeepsBooks answered i t (body t tr).2 ∧ Q (body t tr).1 (body t tr).2) :
    Safe (payoutRuns answered) (payoutProtocol answered) i Q (call (I := payoutStore) op) w := by
  refine safe_stmt failed fun t rely inv books may => ?_
  rw [runs t, within]
  rcases rely.1.open_cases isOpen with still | ended
  · rw [still]
    exact executed t rely.1 inv books may still
  · rw [ended]
    exact ⟨inv.same.books books rfl rfl, failed _ t⟩

/-! ## The reservation -/

/-- The request's payout, as its reservation left it: PENDING, under its reference, and nothing executed for it. -/
structure Owned (answered : Prop) (i reference : String) (minor : Int) (w : PayoutWorld) : Prop where
  payout : ∃ p, w.payouts.find? i = some p ∧ p.status = .pending ∧ 0 ≤ p.amount.toDecimal ∧ p.reference = some reference ∧
    p.amount.units = minor
  unpaid : answered → ¬ Executed reference w

theorem Owned.relies {t : PayoutWorld} (h : Owned answered i reference minor w) (rely : (payoutProtocol answered).rely i w t) :
    Owned answered i reference minor t := by
  obtain ⟨p, found, pending, nonneg, named, units⟩ := h.payout
  refine ⟨⟨p, rely.1.payout.trans found, pending, nonneg, named, units⟩, fun yes executed => ?_⟩
  exact h.unpaid yes ((rely.2 yes p reference found named).1 executed)

/-- What a reservation ends in. -/
def Reserved (answered : Prop) (i reference : String) (minor : Int) : Except PayoutErr Payout → PayoutWorld → Prop
  | .ok payout, w => payout.id = i ∧ payout.reference = some reference ∧ Owned answered i reference minor w
  | .error _, _ => True

theorem safe_lock {Q : Except PayoutErr Unit → PayoutWorld → Prop} {key : String} (failed : ∀ e t, Q (.error e) t)
    (began : openTransaction i w = some ⟨i, false, none, none⟩)
    (next : ∀ t, openTransaction i t = some ⟨i, false, some key, none⟩ → Q (.ok ()) t) :
    Safe (payoutRuns answered) (payoutProtocol answered) i Q (call (I := payoutStore) (.lockPayoutBalanceKey i key)) w := by
  refine safe_within (fun _ => rfl) began failed fun t _ inv books may isOpen => ?_
  have keeps : Keeps i t (setTransaction i (fun t => { t with key := some key }) (fun _ => rfl) t) :=
    ⟨inv.lock isOpen rfl may, fun j other => relies_setTransaction other⟩
  refine ⟨keeps.books books rfl rfl, next _ ?_⟩
  obtain ⟨mem, id, -⟩ := openTransaction_eq_some.1 isOpen
  rw [openTransaction_setTransaction, Table.find?_eq_some.2 ⟨mem, id⟩]
  rfl

/-- The two sums, read in the transaction. -/
theorem safe_revenue {Q : Except PayoutErr ℚ → PayoutWorld → Prop} {b : String} {tr : Transaction} (failed : ∀ e t, Q (.error e) t)
    (isOpen : openTransaction i w = some tr)
    (next : ∀ t, openTransaction i t = some tr → Q (.ok (sumSuccessfulPaymentAmounts b t)) t) :
    Safe (payoutRuns answered) (payoutProtocol answered) i Q (call (I := payoutStore) (.sumSuccessfulPaymentAmounts i b)) w :=
  safe_within (fun _ => rfl) isOpen failed fun t _ inv books _ still => ⟨inv.same.books books rfl rfl, next t still⟩

theorem safe_committed {Q : Except PayoutErr ℚ → PayoutWorld → Prop} {b : String} {tr : Transaction}
    (failed : ∀ e t, Q (.error e) t) (isOpen : openTransaction i w = some tr)
    (next : ∀ t, Relies i w t → openTransaction i t = some tr → Q (.ok (sumCommittedPayoutAmounts b t)) t) :
    Safe (payoutRuns answered) (payoutProtocol answered) i Q (call (I := payoutStore) (.sumCommittedPayoutAmounts i b)) w :=
  safe_within (fun _ => rfl) isOpen failed fun t rely inv books _ still => ⟨inv.same.books books rfl rfl, next t rely still⟩

theorem insertPendingPayout_ok {p : InsertPendingPayoutParams} {row : Payout} (h : insertPendingPayout p w = .ok row) :
    ∃ amount, Numeric.ofDecimal p.amount = some amount ∧ row = p.row amount := by
  unfold insertPendingPayout at h
  split at h
  · cases h
  · rename_i amount fits
    split at h
    · cases h
    · split at h
      · cases h
      · split at h
        · cases h
        · cases h
          exact ⟨amount, fits, rfl⟩

/-- The reservation: what the guard let pass is covered by the balance as it is now. -/
theorem safe_insert {Q : Except PayoutErr Payout → PayoutWorld → Prop} {p : InsertPendingPayoutParams} {revenue : ℚ}
    (failed : ∀ e t, Q (.error e) t) (named : p.id = i)
    (isOpen : openTransaction i w = some ⟨i, false, some (balanceKey p.businessID), none⟩)
    (earlier : revenue ≤ sumSuccessfulPaymentAmounts p.businessID w)
    (covers : ∀ amount : Money, Numeric.ofDecimal p.amount = some amount →
      amount.toDecimal ≤ availableBalance revenue (sumCommittedPayoutAmounts p.businessID w))
    (next : ∀ amount t, Numeric.ofDecimal p.amount = some amount →
      openTransaction i t = some ⟨i, false, some (balanceKey p.businessID), some (p.row amount)⟩ → Q (.ok (p.row amount)) t) :
    Safe (payoutRuns answered) (payoutProtocol answered) i Q (call (I := payoutStore) (.insertPendingPayout i p)) w := by
  refine safe_within (fun _ => rfl) isOpen failed fun t rely inv books _ still => ?_
  cases inserts : insertPendingPayout p t with
  | error e => exact ⟨inv.same.books books rfl rfl, failed e t⟩
  | ok row =>
    obtain ⟨amount, fits, rfl⟩ := insertPendingPayout_ok inserts
    have held : sumCommittedPayoutAmounts p.businessID t ≤ sumCommittedPayoutAmounts p.businessID w :=
      rely.committed p.businessID ⟨_, still, rfl⟩
    have grown := rely.revenue p.businessID
    have balance := inv.balance p.businessID
    have stored := covers amount fits
    have covered : sumCommittedPayoutAmounts p.businessID t + amount.toDecimal ≤ sumSuccessfulPaymentAmounts p.businessID t := by
      unfold availableBalance at stored
      split at stored <;> linarith
    have keeps : Keeps i t (setTransaction i (fun t => { t with row := some (p.row amount) }) (fun _ => rfl) t) :=
      ⟨inv.reserve still named rfl covered, fun j other => relies_setTransaction other⟩
    refine ⟨keeps.books books rfl rfl, next amount _ fits ?_⟩
    obtain ⟨mem, id, -⟩ := openTransaction_eq_some.1 still
    rw [openTransaction_setTransaction, Table.find?_eq_some.2 ⟨mem, id⟩]
    rfl

/-- The commit: the payout is visible and nothing is executed under its reference, or another one has its id or its
reference and the transaction is gone. -/
theorem safe_commit {Q : Except PayoutErr Unit → PayoutWorld → Prop} {key : String} {row : Payout} (failed : ∀ e t, Q (.error e) t)
    (isOpen : openTransaction i w = some ⟨i, false, some key, some row⟩) (named : row.id = i) (nonneg : 0 ≤ row.amount.units)
    (referenced : row.reference = some reference)
    (next : ∀ t, t.payouts.find? i = some row → (answered → ¬ Executed reference t) → Q (.ok ()) t) :
    Safe (payoutRuns answered) (payoutProtocol answered) i Q (call (I := payoutStore) (.commit i)) w := by
  refine safe_within (fun _ => rfl) isOpen failed fun t _ inv books _ still => ?_
  have refused : KeepsBooks answered i t (endTransaction i t) :=
    Keeps.books ⟨inv.endTransaction, fun j _ => relies_endTransaction j⟩ books rfl rfl
  simp only [publish]
  by_cases taken : (t.payouts.rows.any fun q => row.reference.isSome && decide (q.reference = row.reference)) = true
  · rw [if_pos taken]
    exact ⟨refused, failed _ _⟩
  rw [if_neg taken]
  have fresh : ∀ q ∈ t.payouts.rows, q.reference ≠ some reference := by
    intro q hq same
    exact taken (List.any_eq_true.2 ⟨q, hq, by simp [referenced, same]⟩)
  cases inserts : t.payouts.insert row with
  | none => exact ⟨refused, failed _ _⟩
  | some payouts =>
    refine ⟨⟨inv.keeps_commit still rfl inserts, fun yes => ⟨?_, fun _ _ => unmoved_of_transfers rfl⟩⟩,
      next _ (Table.find?_eq_some.2 ⟨?_, named⟩) ?_⟩
    · refine (books yes).commit nonneg (fun q hq ref same => ?_) inserts
      obtain rfl : reference = ref := Option.some.inj (referenced.symm.trans same)
      exact fresh q hq
    · show row ∈ payouts.rows
      rw [(Table.insert_eq_some.1 inserts).2]
      exact List.mem_append_right _ (List.mem_singleton_self _)
    · rintro yes ⟨u, hu, rfl⟩
      obtain ⟨p, hp, pref, -⟩ := (books yes).owner u hu
      exact fresh p hp pref

/-- The body of the transaction. -/
theorem safe_reserveWithin {b currency : String} {amount : ℚ} (positive : 0 < amount)
    (began : openTransaction i w = some ⟨i, false, none, none⟩) :
    Safe (payoutRuns answered) (payoutProtocol answered) i (Reserved answered i reference (toMinorUnits amount).toInt)
      (reserveWithin i reference b currency amount) w := by
  unfold reserveWithin
  refine Safe.bind (safe_lock (fun _ _ => trivial) began fun t locked => ?_)
  refine Safe.bind (safe_revenue (fun _ _ => trivial) locked fun u locked => ?_)
  refine Safe.bind (safe_committed (fun _ _ => trivial) locked fun v rely locked => ?_)
  simp only
  by_cases short : availableBalance (sumSuccessfulPaymentAmounts b u) (sumCommittedPayoutAmounts b v) + moneyEpsilon < amount
  · rw [if_pos short]
    exact trivial
  · rw [if_neg short]
    obtain ⟨n, grid⟩ := availableBalance_grid b u v
    refine Safe.bind (safe_insert (fun _ _ => trivial) rfl locked (rely.revenue b) (fun stored fits => ?_) ?_)
    · exact stored_le grid short fits
    · intro stored x fits inserted
      have nonneg : 0 ≤ stored.units := by
        rw [Numeric.ofDecimal_units fits]
        exact roundHalfAway_nonneg (by linarith)
      refine Safe.bind (safe_commit (fun _ _ => trivial) inserted rfl nonneg rfl fun y found unpaid => ?_)
      exact ⟨rfl, rfl, ⟨_, found, rfl, stored_nonneg positive fits, rfl, toMinorUnits_stored fits⟩, unpaid⟩

theorem safe_begin {Q : Except PayoutErr Unit → PayoutWorld → Prop} (failed : ∀ e t, Q (.error e) t)
    (next : ∀ t, openTransaction i t = some ⟨i, false, none, none⟩ → Q (.ok ()) t) :
    Safe (payoutRuns answered) (payoutProtocol answered) i Q (call (I := payoutStore) (.begin i)) w := by
  refine safe_stmt failed fun t _ inv books _ => ?_
  cases inserts : t.transactions.insert ⟨i, false, none, none⟩ with
  | none =>
    have eq : payoutExec (.begin i) t = (.error .txClosed, t) := by
      simp only [payoutExec, inserts]
    rw [eq]
    exact ⟨inv.same.books books rfl rfl, failed _ t⟩
  | some transactions =>
    have eq : payoutExec (.begin i) t = (.ok (), { t with transactions := transactions }) := by
      simp only [payoutExec, inserts]
    rw [eq]
    refine ⟨(inv.begin inserts).books books rfl rfl, next _ (openTransaction_eq_some.2 ⟨?_, rfl, rfl⟩)⟩
    show _ ∈ transactions.rows
    rw [(Table.insert_eq_some.1 inserts).2]
    exact List.mem_append_right _ (List.mem_singleton_self _)

/-- Ending any transaction is safe for everybody. -/
theorem safe_rollback {tx : String} :
    Safe (payoutRuns answered) (payoutProtocol answered) i (fun _ _ => True) (call (I := payoutStore) (.rollback tx)) w := by
  refine safe_stmt (fun _ _ => trivial) fun t _ inv books _ => ⟨?_, trivial⟩
  exact Keeps.books ⟨inv.endTransaction, fun j _ => relies_endTransaction j⟩ books rfl rfl

/-- The reservation: it leaves a PENDING payout of the request's own, or an error. -/
theorem safe_reservePayout {b currency : String} {amount : ℚ} (positive : 0 < amount) :
    Safe (payoutRuns answered) (payoutProtocol answered) i (Reserved answered i reference (toMinorUnits amount).toInt)
      (reservePayout i reference b currency amount) w := by
  unfold reservePayout
  refine Safe.bind (safe_begin (fun _ _ => trivial) fun t began => ?_)
  refine Safe.bind (Safe.attempt ((safe_reserveWithin positive began).mono fun r u reserved => ?_))
  cases r with
  | ok payout => exact reserved
  | error e =>
    refine Safe.bind (Safe.bind (Safe.attempt (safe_rollback.mono fun _ _ _ => ?_)))
    exact trivial

/-! ## The transfer -/

/-- What releasing the payout needs: it counts for something that is not negative, and nothing is executed for it. -/
def Funded (answered : Prop) (i : String) (w : PayoutWorld) : Prop :=
  ∀ p, w.payouts.find? i = some p → 0 ≤ p.amount.toDecimal ∧ (answered → ∀ ref, p.reference = some ref → ¬ Executed ref w)

theorem Funded.relies {t : PayoutWorld} (h : Funded answered i w) (rely : (payoutProtocol answered).rely i w t) :
    Funded answered i t := by
  intro p found
  have before := rely.1.payout.symm.trans found
  obtain ⟨nonneg, unpaid⟩ := h p before
  exact ⟨nonneg, fun yes ref named executed => unpaid yes ref named ((rely.2 yes p ref before named).1 executed)⟩

theorem Owned.funded (h : Owned answered i reference minor w) : Funded answered i w := by
  obtain ⟨p, found, -, nonneg, named, -⟩ := h.payout
  intro q found'
  obtain rfl := Option.some.inj (found.symm.trans found')
  refine ⟨nonneg, fun yes ref named' => ?_⟩
  obtain rfl : reference = ref := Option.some.inj (named.symm.trans named')
  exact h.unpaid yes

/-- The payout still is PENDING, whatever the provider has done. -/
def Held (i : String) (w : PayoutWorld) : Prop := ∃ p, w.payouts.find? i = some p ∧ p.status = .pending ∧ 0 ≤ p.amount.toDecimal

theorem Owned.held (h : Owned answered i reference minor w) : Held i w := by
  obtain ⟨p, found, pending, nonneg, -⟩ := h.payout
  exact ⟨p, found, pending, nonneg⟩

/-- The errors of a transfer leave a payout that may be released. -/
def Settles (answered : Prop) (i : String) {α : Type} : Except PayoutErr α → PayoutWorld → Prop
  | .ok _, _ => True
  | .error _, w => Funded answered i w

/-- The statement touches neither payments nor payouts nor transactions. -/
def Aside (op : PayoutStmt) : Prop := ∀ t, (payoutExec op t).2.payments = t.payments ∧ (payoutExec op t).2.payouts = t.payouts ∧
  (payoutExec op t).2.transactions = t.transactions

theorem Aside.keeps {op : PayoutStmt} (h : Aside op) (inv : Covered w) : Keeps i w (payoutExec op w).2 := by
  obtain ⟨payments, payouts, transactions⟩ := h w
  refine inv.keeps transactions (fun b => ?_) (fun b => ?_) fun j _ => by rw [payouts]
  · rw [sumSuccessfulPaymentAmounts, sumSuccessfulPaymentAmounts, payments]
  · rw [sumCommittedPayoutAmounts, sumCommittedPayoutAmounts, payouts]

theorem aside_createTransferRecipient {req : CreateRecipientRequest} {answer : Option String} :
    Aside (.createTransferRecipient req answer) := by
  intro t
  cases answer <;> exact ⟨rfl, rfl, rfl⟩

theorem aside_initiateTransfer {req : TransferRequest} {outcome : TransferOutcome} : Aside (.initiateTransfer req outcome) := by
  intro t
  obtain ⟨executed, answer⟩ := outcome
  cases executed <;> cases answer <;> exact ⟨rfl, rfl, rfl⟩

/-- A statement of the second phase that does not reach the provider's ledger. -/
theorem safe_aside {op : PayoutStmt} {Q : Except PayoutErr op.Reply → PayoutWorld → Prop} (aside : Aside op)
    (transfers : ∀ t, (payoutExec op t).2.transfers = t.transfers) (owned : Owned answered i reference minor w)
    (next : ∀ r t, Owned answered i reference minor t → Q r t) :
    Safe (payoutRuns answered) (payoutProtocol answered) i Q (call (I := payoutStore) op) w := by
  refine safe_call (fun t rely inv books _ => ?_) fun t rely _ => next _ t (owned.relies rely)
  have mine : Owned answered i reference minor (payoutExec op t).2 := by
    have before := owned.relies rely
    refine ⟨?_, fun yes => ?_⟩
    · rw [(aside t).2.1]
      exact before.payout
    · unfold Executed
      rw [transfers t]
      exact before.unpaid yes
  exact ⟨(aside.keeps inv).books books (aside t).2.1 (transfers t), next _ _ mine, fun _ => next _ _ mine⟩

theorem safe_recipientCodeFor {mover : PaystackMover} {b cached currency : String} {dto : PayoutDTO}
    (owned : Owned answered i reference minor w) :
    Safe (payoutRuns answered) (payoutProtocol answered) i (fun _ => Owned answered i reference minor)
      (recipientCodeFor mover b cached currency dto) w := by
  unfold recipientCodeFor
  split
  · exact owned
  · have unseen : ∀ t, (payoutExec (.createTransferRecipient ⟨dto.accountName, dto.accountNumber, dto.bankCode, currency⟩
        (mover.createTransferRecipient ⟨dto.accountName, dto.accountNumber, dto.bankCode, currency⟩)) t).2.transfers = t.transfers := by
      intro t
      simp only [payoutExec]
      split <;> rfl
    refine Safe.bind (Safe.attempt (safe_aside aside_createTransferRecipient unseen owned fun r t mine => ?_))
    cases r with
    | error e => exact mine
    | ok code =>
      simp only
      split
      · exact mine
      · refine Safe.bind (safe_aside (fun _ => ⟨rfl, rfl, rfl⟩) (fun _ => rfl) mine fun r u mine => ?_)
        cases r with
        | error e => exact mine
        | ok _ => exact mine

/-- What a transfer call ends in: the payout is there to be completed, or it may be released. -/
def Initiated (answered : Prop) (i : String) : Except PayoutErr TransferResult → PayoutWorld → Prop
  | .ok _, w => Held i w
  | .error _, w => Funded answered i w

/-- The answer of the provider, if it gives one. -/
theorem initiateTransfer_reply (req : TransferRequest) (outcome : TransferOutcome) (t : PayoutWorld) :
    (payoutExec (.initiateTransfer req outcome) t).1 = outcome.answer.elim (.error .provider) .ok := by
  simp only [payoutExec]
  cases outcome.answer <;> rfl

/-- A transfer the provider does not execute. -/
theorem initiateTransfer_skipped {req : TransferRequest} {outcome : TransferOutcome} {t : PayoutWorld} (h : outcome.executed = false) :
    (payoutExec (.initiateTransfer req outcome) t).2 = t := by
  simp only [payoutExec, h]
  cases outcome.answer <;> rfl

/-- A transfer the provider executes. -/
theorem initiateTransfer_executed {req : TransferRequest} {outcome : TransferOutcome} {t : PayoutWorld} (h : outcome.executed = true) :
    (payoutExec (.initiateTransfer req outcome) t).2 = { t with transfers := t.transfers ++ [req] } := by
  simp only [payoutExec, h]
  cases outcome.answer <;> rfl

/-- The transfer: where it is answered, an error means that nothing was executed. -/
theorem safe_initiateTransfer {req : TransferRequest} {outcome : TransferOutcome} (owned : Owned answered i reference minor w)
    (named : req.reference = reference) (units : minor = req.amountMinor.toInt)
    (answers : answered → outcome.executed = true → outcome.answer.isSome = true) :
    Safe (payoutRuns answered) (payoutProtocol answered) i (Initiated answered i)
      (call (I := payoutStore) (.initiateTransfer req outcome)) w := by
  refine safe_call (fun t rely inv books _ => ?_) fun t rely _ => (owned.relies rely).funded
  have before := owned.relies rely
  have aside : Aside (.initiateTransfer req outcome) := aside_initiateTransfer
  have keeps : Keeps i t (payoutExec (.initiateTransfer req outcome) t).2 := aside.keeps inv
  have held : Held i (payoutExec (.initiateTransfer req outcome) t).2 := by
    unfold Held
    rw [(aside t).2.1]
    exact before.held
  rw [initiateTransfer_reply]
  cases executed : outcome.executed with
  | false =>
    have released : Funded answered i (payoutExec (.initiateTransfer req outcome) t).2 := by
      rw [initiateTransfer_skipped executed]
      exact before.funded
    refine ⟨keeps.books books (aside t).2.1 (by rw [initiateTransfer_skipped executed]), ?_, fun _ => released⟩
    cases outcome.answer with
    | some result => exact held
    | none => exact released
  | true =>
    obtain ⟨p, found, pending, nonneg, pref, punits⟩ := before.payout
    -- an executed transfer without an answer is what `answered` excludes
    have released : ¬ answered → Funded answered i (payoutExec (.initiateTransfer req outcome) t).2 := by
      intro no q found'
      rw [(aside t).2.1] at found'
      obtain rfl := Option.some.inj (found.symm.trans found')
      exact ⟨nonneg, fun yes => (no yes).elim⟩
    refine ⟨⟨keeps, fun yes => ?_⟩, ?_, fun loses => ?_⟩
    · rw [initiateTransfer_executed executed]
      exact (books yes).execute found (named ▸ pref) (punits.trans units) (.inr pending) (named ▸ before.unpaid yes)
    · cases answer : outcome.answer with
      | some result => exact held
      | none => exact released fun yes => by simpa [answer] using answers yes executed
    · refine released fun yes => ?_
      have arrived : outcome.executed = false := loses yes
      rw [executed] at arrived
      cases arrived

theorem unpaid_of_transferred {t : PayoutWorld} {p : Payout} (found : t.payouts.find? i = some p) (none : transferred i t = false)
    (ref : String) (named : p.reference = some ref) : ¬ Executed ref t := by
  rintro ⟨u, hu, rfl⟩
  simp only [transferred, found, Option.any_some, List.any_eq_false, decide_eq_true_eq] at none
  exact none u hu named

/-- Completing a reserved payout leaves its weight as it is; it fails only while nothing is executed. -/
theorem safe_complete {transferID : String} {status : PaymentStatus} (held : Held i w)
    (counts : status = .success ∨ status = .pending) :
    Safe (payoutRuns answered) (payoutProtocol answered) i (Settles answered i)
      (call (I := payoutStore) (.completePayout transferID status i)) w := by
  obtain ⟨p, found, pending, nonneg⟩ := held
  refine safe_call (fun t rely inv books _ => ?_) fun t rely faults => ?_
  · replace found := rely.1.payout.trans found
    have eq : payoutExec (.completePayout transferID status i) t =
        (.ok { p with paystackTransferID := some transferID, status := status },
          setPayoutStatus i (fun p => { p with paystackTransferID := some transferID, status := status }) (fun _ => rfl) t) := by
      simp only [payoutExec, found]
    rw [eq]
    refine ⟨⟨?_, fun yes => ⟨?_, fun j other => unmoved_of_transfers rfl⟩⟩, trivial, fun loses q found' => ?_⟩
    · refine inv.setPayoutStatus fun q found' b => ?_
      obtain rfl := Option.some.inj (found.symm.trans found')
      rcases counts with rfl | rfl <;> simp [weight, committedTo, pending]
    · exact (books yes).setPayoutStatus (fun _ => ⟨rfl, rfl⟩) fun _ _ _ _ _ => counts
    · simp only [setPayoutStatus, Table.find?_update_keyed, found, Option.map_some, Option.some.injEq] at found'
      subst found'
      have unpaid : answered → ∀ ref, p.reference = some ref → ¬ Executed ref t := fun yes => unpaid_of_transferred found (loses yes)
      exact ⟨nonneg, unpaid⟩
  · intro q found'
    replace found := rely.1.payout.trans found
    obtain rfl := Option.some.inj (found.symm.trans found')
    exact ⟨nonneg, fun yes => unpaid_of_transferred found (faults yes)⟩

/-- Releasing a payout takes its weight away. -/
theorem safe_markFailed (funded : Funded answered i w) :
    Safe (payoutRuns answered) (payoutProtocol answered) i (fun _ _ => True) (call (I := payoutStore) (.markPayoutFailed i)) w := by
  refine safe_stmt (fun _ _ => trivial) fun t rely inv books _ => ⟨⟨?_, fun yes => ⟨?_, fun _ _ => unmoved_of_transfers rfl⟩⟩, trivial⟩
  · refine inv.setPayoutStatus fun p found b => ?_
    have released : weight b { p with status := .failed } = 0 := by simp [weight, committedTo]
    rw [released]
    exact weight_nonneg b (funded.relies rely p found).1
  · refine (books yes).setPayoutStatus (fun _ => ⟨rfl, rfl⟩) fun p found ref named executed => ?_
    exact ((funded.relies rely p found).2 yes ref named executed).elim

theorem safe_executeTransfer {mover : PaystackMover} {b cached currency : String} {dto : PayoutDTO} {payout : Payout}
    (answers : answered → ∀ req, (mover.initiateTransfer req).executed = true → (mover.initiateTransfer req).answer.isSome = true)
    (owned : Owned answered i reference (toMinorUnits dto.amount).toInt w) (named : payout.id = i)
    (referenced : payout.reference = some reference) :
    Safe (payoutRuns answered) (payoutProtocol answered) i (Settles answered i)
      (executeTransfer mover b cached currency dto payout) w := by
  unfold executeTransfer
  refine Safe.bind ((safe_recipientCodeFor owned).mono fun r t mine => ?_)
  cases r with
  | error e => exact mine.funded
  | ok recipient =>
    have under : (transferOf recipient currency dto payout).reference = reference := by
      simp [transferOf, referenced]
    refine Safe.bind (Safe.attempt ((safe_initiateTransfer mine under rfl fun yes => answers yes _).mono fun r u ends => ?_))
    cases r with
    | error e => exact ends
    | ok result =>
      rw [named]
      refine safe_complete ends ?_
      split
      · exact .inl rfl
      · exact .inr rfl

theorem safe_settlePayout {r : PayoutRequest} {business : Business} {dto : PayoutDTO} {payout : Payout}
    (answers : answered → (PayoutJob.request r).answered)
    (owned : Owned answered i reference (toMinorUnits dto.amount).toInt w) (named : payout.id = i)
    (referenced : payout.reference = some reference) :
    Safe (payoutRuns answered) (payoutProtocol answered) i (fun _ _ => True) (settlePayout r business dto payout) w := by
  unfold settlePayout
  refine Safe.bind (Safe.attempt ((safe_executeTransfer answers owned named referenced).mono fun final t settles => ?_))
  cases final with
  | ok _ => exact trivial
  | error e =>
    rw [named]
    exact Safe.bind (Safe.bind (Safe.attempt ((safe_markFailed settles).mono fun _ _ _ => trivial)))

theorem safe_payoutsRequest {r : PayoutRequest} (answers : answered → (PayoutJob.request r).answered) :
    Safe (payoutRuns answered) (payoutProtocol answered) i (fun _ _ => True) (payoutsRequest i r) w := by
  unfold payoutsRequest
  split
  · exact trivial
  · rename_i dto decoded
    refine Safe.bind (safe_stmt (fun _ _ => trivial) fun t _ inv books _ => ⟨inv.same.books books rfl rfl, ?_⟩)
    simp only [payoutExec]
    cases t.businesses.find? r.businessID with
    | none => exact trivial
    | some business =>
      refine Safe.bind ((safe_reservePayout (decodePayoutDTO_positive decoded)).mono fun reserved u holds => ?_)
      cases reserved with
      | error e => exact trivial
      | ok payout => exact safe_settlePayout answers holds.2.2 holds.1 holds.2.1

theorem safe_insertPayment {p : Payment} (nonneg : 0 ≤ p.amount.units) :
    Safe (payoutRuns answered) (payoutProtocol answered) i (fun _ _ => True) (call (I := payoutStore) (.insertPayment p)) w := by
  refine safe_stmt (fun _ _ => trivial) fun t _ inv books _ => ⟨?_, trivial⟩
  simp only [payoutExec]
  split
  · rename_i inserted
    exact (inv.insertPayment nonneg inserted).books books rfl rfl
  · exact inv.same.books books rfl rfl

/-- Every job of the payout flow keeps the protocol wherever it starts. -/
theorem safe_job {p : Program payoutStore Unit} (may : (payoutRuns answered).job i p) :
    Safe (payoutRuns answered) (payoutProtocol answered) i (fun _ _ => True) p w := by
  obtain ⟨job, admissible, answers, rfl⟩ := may
  cases job with
  | request r => exact safe_payoutsRequest answers
  | payment p => exact safe_insertPayment admissible
  | connectionLost tx => exact safe_rollback

end Requests

/-! ## Runs -/

theorem covered_start {w : PayoutWorld} (start : ∀ b, sumCommittedPayoutAmounts b w ≤ sumSuccessfulPaymentAmounts b w)
    (idle : w.transactions.rows = []) : Covered w := by
  refine ⟨start, fun t ht => ?_, fun t ht => ?_⟩
  · rw [idle] at ht
    cases ht
  · rw [idle] at ht
    cases ht

/-- In every interleaving of payout requests and incoming payments, with lost replies, failures and crashes, the
payouts that are SUCCESS or PENDING never exceed the SUCCESS payments. -/
theorem committed_le_revenue {w : PayoutWorld} {c : Crew payoutStore String PayoutWorld} (b : String)
    (start : ∀ b, sumCommittedPayoutAmounts b w ≤ sumSuccessfulPaymentAmounts b w) (idle : w.transactions.rows = [])
    (reach : payoutFlow.Reach ⟨w, []⟩ c) :
    sumCommittedPayoutAmounts b c.state ≤ sumSuccessfulPaymentAmounts b c.state := by
  have inv := (payoutProtocol False).invariant (fun _ _ _ may _ _ => safe_job may) (payoutFlow_within.reach reach)
    ⟨covered_start start idle, False.elim⟩ fun _ => trivial
  exact inv.1.balance b

/-- A business without payments or payouts. -/
def account : PayoutWorld where
  businesses := ⟨[⟨"biz", "GHS", some "RCP_1"⟩], by decide⟩
  payments := Table.empty
  payouts := Table.empty
  transactions := Table.empty
  transfers := []

/-- 8.00 come in. -/
def eightIn : Payment where
  id := "pay"
  businessID := "biz"
  customerID := none
  orderID := none
  externalReference := some "ref"
  amount := ⟨800, by decide⟩
  currency := "GHS"
  provider := "paystack"
  network := none
  status := .success
  paidAt := none
  reconciledAt := none
  rawWebhookPayload := ⟨"charge.success", none, none⟩

/-- A request for 8.0009, which the tolerance lets pass. -/
def eightOut : PayoutRequest where
  businessID := "biz"
  body := some fun key => if key = "amount" then some (.number (some (80009 / 10000))) else some (.string "0240000000")
  reference := "payout_1"
  mover := ⟨fun _ => none, fun _ => ⟨true, some ⟨"TRF_1", "success"⟩⟩⟩

/-- The account after the payment, and after the request that follows it. -/
def paidIn : PayoutWorld := (((PayoutJob.payment eightIn).program "w1").run payoutFlow.exec account).2

def paidOut : PayoutWorld := (((PayoutJob.request eightOut).program "p1").run payoutFlow.exec paidIn).2

theorem reach_paidOut : payoutFlow.Reach ⟨account, []⟩ ⟨paidOut, []⟩ := by
  have payment := payoutFlow.reach_job (i := "w1") (s := account) ⟨.payment eightIn, by decide, rfl⟩ (by decide +kernel)
  have request := payoutFlow.reach_job (i := "p1") (s := paidIn) ⟨.request eightOut, trivial, rfl⟩ (by decide +kernel)
  exact payment.trans request

theorem committed_le_revenue_at_tolerance : sumCommittedPayoutAmounts "biz" paidOut = 8 ∧
    sumCommittedPayoutAmounts "biz" paidOut ≤ sumSuccessfulPaymentAmounts "biz" paidOut := by
  have start : ∀ b, sumCommittedPayoutAmounts b account ≤ sumSuccessfulPaymentAmounts b account := by
    simp [sumCommittedPayoutAmounts, sumSuccessfulPaymentAmounts, account, Table.empty]
  have covered := committed_le_revenue "biz" start rfl reach_paidOut
  exact ⟨by decide +kernel, covered⟩

/-- As long as every executed transfer is answered and its payout completed, the transfers the provider has executed for
a business never exceed its SUCCESS payments, each belongs to a payout, and no released payout was executed. -/
theorem executed_le_revenue {w : PayoutWorld} {c : Crew payoutStore String PayoutWorld}
    (start : ∀ b, sumCommittedPayoutAmounts b w ≤ sumSuccessfulPaymentAmounts b w) (idle : w.transactions.rows = [])
    (books : Booked w) (reach : answeredFlow.Reach ⟨w, []⟩ c) :
    (∀ b, executedAmount b c.state ≤ sumSuccessfulPaymentAmounts b c.state) ∧
      (∀ t ∈ c.state.transfers, ∃ p ∈ c.state.payouts.rows, p.reference = some t.reference) ∧
      ∀ p ∈ c.state.payouts.rows, p.status = .failed → ∀ t ∈ c.state.transfers, p.reference ≠ some t.reference := by
  have inv := (payoutProtocol True).invariant (fun _ _ _ may _ _ => safe_job may) (answeredFlow_within.reach reach)
    ⟨covered_start start idle, fun _ => books⟩ fun _ => trivial
  have booked := inv.2 trivial
  refine ⟨fun b => le_trans (booked.executed_le b) (inv.1.balance b), fun t ht => ?_, fun p hp failed t ht named => ?_⟩
  · obtain ⟨p, hp, named, -⟩ := booked.owner t ht
    exact ⟨p, hp, named⟩
  · obtain ⟨q, hq, qnamed, -, counts⟩ := booked.owner t ht
    obtain rfl := booked.references p hp q hq _ named qnamed
    rw [failed] at counts
    rcases counts with absurd | absurd <;> cases absurd

theorem booked_account : Booked account := by
  refine ⟨fun t ht => ?_, List.nodup_nil, fun p hp => ?_, fun p hp => ?_⟩
  · cases ht
  · cases hp
  · cases hp

theorem executed_le_revenue_paid_out : executedAmount "biz" paidOut = 8 ∧
    executedAmount "biz" paidOut ≤ sumSuccessfulPaymentAmounts "biz" paidOut := by
  have start : ∀ b, sumCommittedPayoutAmounts b account ≤ sumSuccessfulPaymentAmounts b account := by
    simp [sumCommittedPayoutAmounts, sumSuccessfulPaymentAmounts, account, Table.empty]
  have payment := answeredFlow.reach_job (i := "w1") (s := account) ⟨.payment eightIn, by decide, trivial, rfl⟩ (by decide +kernel)
  have request := answeredFlow.reach_job (i := "p1") (s := paidIn) ⟨.request eightOut, trivial, fun _ _ => rfl, rfl⟩
    (by decide +kernel)
  have reach : answeredFlow.Reach ⟨account, []⟩ ⟨paidOut, []⟩ := payment.trans request
  have executed := (executed_le_revenue start rfl booked_account reach).1 "biz"
  exact ⟨by decide +kernel, executed⟩

/-- The same request, under another reference, with a provider that executes the transfer and whose answer is lost. -/
def eightUnanswered : PayoutRequest :=
  { eightOut with reference := "payout_0", mover := ⟨fun _ => none, fun _ => ⟨true, none⟩⟩ }

/-- The account after the unanswered request, and after the one the released balance lets pass. -/
def unanswered : PayoutWorld := (((PayoutJob.request eightUnanswered).program "p0").run payoutFlow.exec paidIn).2

def paidTwice : PayoutWorld := (((PayoutJob.request eightOut).program "p1").run payoutFlow.exec unanswered).2

/-- 8.00 came in and the provider has moved 16.00: the first payout was released although its transfer was executed. -/
theorem released_although_executed : payoutFlow.Reach ⟨account, []⟩ ⟨paidTwice, []⟩ ∧
    executedAmount "biz" paidTwice = 16 ∧ sumSuccessfulPaymentAmounts "biz" paidTwice = 8 ∧
    (paidTwice.payouts.find? "p0").map Payout.status = some .failed ∧ transferred "p0" paidTwice = true := by
  have payment := payoutFlow.reach_job (i := "w1") (s := account) ⟨.payment eightIn, by decide, rfl⟩ (by decide +kernel)
  have first := payoutFlow.reach_job (i := "p0") (s := paidIn) ⟨.request eightUnanswered, trivial, rfl⟩ (by decide +kernel)
  have second := payoutFlow.reach_job (i := "p1") (s := unanswered) ⟨.request eightOut, trivial, rfl⟩ (by decide +kernel)
  refine ⟨(payment.trans first).trans second, ?_⟩
  decide +kernel

end NovoApex.Payouts
