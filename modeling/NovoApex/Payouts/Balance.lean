import NovoApex.Handlers.PayoutsWrite
import Mathlib.Algebra.Order.BigOperators.Group.List

/-!
# No payout without its payments

The payouts that count against a business's balance never exceed its successful
payments. Each request reads the two sums under the business's advisory lock: after
that the revenue only grows, and only the holder of the lock adds to what is
committed. The guard compares the unrounded amount with a tolerance of 0.001; what
is stored is rounded to whole minor units, where the tolerance disappears.
-/

namespace NovoApex.Payouts
set_option autoImplicit false
open Lib Program Db Handlers

/-! ## Rounding -/

theorem sum_toDecimal {R : Type} (rows : List R) (amount : R → Money) :
    (rows.map fun r => (amount r).toDecimal).sum = ((rows.map fun r => (amount r).units).sum : Int) / 100 := by
  induction rows with
  | nil => simp
  | cons r rest ih =>
    rw [List.map_cons, List.sum_cons, ih, List.map_cons, List.sum_cons, Money.toDecimal_eq]
    push_cast
    ring

/-- A sum of money columns is a whole number of minor units. -/
theorem availableBalance_grid (businessID : String) (w w' : PayoutWorld) :
    ∃ n : Int, availableBalance (sumSuccessfulPaymentAmounts businessID w) (sumCommittedPayoutAmounts businessID w') = n / 100 := by
  unfold availableBalance sumSuccessfulPaymentAmounts sumCommittedPayoutAmounts
  rw [sum_toDecimal, sum_toDecimal]
  generalize (List.map (fun r => Numeric.units r.amount) (w.payments.rows.filter _)).sum = revenue
  generalize (List.map (fun r => Numeric.units r.amount) (w'.payouts.rows.filter _)).sum = committed
  split
  · exact ⟨0, by simp⟩
  · exact ⟨revenue - committed, by push_cast; ring⟩

/-- What is stored of an amount the guard lets pass is covered without the tolerance. -/
theorem stored_le {available amount : ℚ} {stored : Money} {n : Int} (grid : available = n / 100)
    (guard : ¬ available + moneyEpsilon < amount) (stores : Numeric.ofDecimal amount = some stored) :
    stored.toDecimal ≤ available := by
  have near : amount * 10 ^ 2 < (n : ℚ) + 1 / 2 := by
    rw [grid, moneyEpsilon] at guard
    linarith
  have units : stored.units ≤ n := by
    rw [Numeric.ofDecimal_units stores]
    exact roundHalfAway_le near
  have cast : (stored.units : ℚ) ≤ n := by exact_mod_cast units
  rw [Money.toDecimal_eq, grid]
  linarith

theorem stored_nonneg {amount : ℚ} {stored : Money} (positive : 0 < amount) (stores : Numeric.ofDecimal amount = some stored) :
    0 ≤ stored.toDecimal := by
  have units : 0 ≤ stored.units := by
    rw [Numeric.ofDecimal_units stores]
    exact roundHalfAway_nonneg (by linarith)
  have cast : (0 : ℚ) ≤ stored.units := by exact_mod_cast units
  rw [Money.toDecimal_eq]
  linarith

/-! ## The protocol -/

/-- The transaction is open and holds the key. -/
def HoldsLock (tx key : String) (w : PayoutWorld) : Prop := ∃ t, openTransaction tx w = some t ∧ t.key = some key

/-- The invariant: payouts are covered, a key has one holder, and what a transaction is about to commit is covered
by a balance that it holds the key of. -/
structure Covered (w : PayoutWorld) : Prop where
  balance : ∀ b, sumCommittedPayoutAmounts b w ≤ sumSuccessfulPaymentAmounts b w
  exclusive : ∀ t ∈ w.transactions.rows, ∀ t' ∈ w.transactions.rows, t.ended = false → t'.ended = false →
    ∀ key, t.key = some key → t'.key = some key → t.id = t'.id
  reserved : ∀ t ∈ w.transactions.rows, t.ended = false → ∀ r, t.row = some r →
    r.id = t.id ∧ t.key = some (balanceKey r.businessID) ∧
      sumCommittedPayoutAmounts r.businessID w + r.amount.toDecimal ≤ sumSuccessfulPaymentAmounts r.businessID w

/-- What a request relies on: nobody else touches its transaction or its payout, except that the server may end the
transaction; revenue does not shrink; and while it holds a balance's key nobody commits to it. -/
structure Relies (i : String) (w w' : PayoutWorld) : Prop where
  transaction : openTransaction i w' = openTransaction i w ∨ openTransaction i w' = none
  payout : w'.payouts.find? i = w.payouts.find? i
  revenue : ∀ b, sumSuccessfulPaymentAmounts b w ≤ sumSuccessfulPaymentAmounts b w'
  committed : ∀ b, HoldsLock i (balanceKey b) w' → sumCommittedPayoutAmounts b w' ≤ sumCommittedPayoutAmounts b w

theorem Relies.refl (i : String) (w : PayoutWorld) : Relies i w w := ⟨.inl rfl, rfl, fun _ => le_refl _, fun _ _ => le_refl _⟩

/-- A lock held after the others moved was held before. -/
theorem Relies.held {i key : String} {w w' : PayoutWorld} (h : Relies i w w') (held : HoldsLock i key w') : HoldsLock i key w := by
  obtain ⟨t, isOpen, hkey⟩ := held
  rcases h.transaction with same | closed
  · exact ⟨t, same ▸ isOpen, hkey⟩
  · rw [closed] at isOpen
    cases isOpen

theorem Relies.trans {i : String} {u v w : PayoutWorld} (h : Relies i u v) (h' : Relies i v w) : Relies i u w := by
  refine ⟨?_, h'.payout.trans h.payout, fun b => le_trans (h.revenue b) (h'.revenue b), fun b held => ?_⟩
  · rcases h'.transaction with same | closed
    · rw [same]
      exact h.transaction
    · exact .inr closed
  · exact le_trans (h'.committed b held) (h.committed b (h'.held held))

/-- A statement of `i` keeps the balance, and what the others rely on. -/
def Keeps (i : String) (w w' : PayoutWorld) : Prop := Covered w' ∧ ∀ j, j ≠ i → Relies j w w'

/-! ## Statements of a transaction -/

section Transactions

variable {i tx : String} {w : PayoutWorld} {t : Transaction}

theorem openTransaction_eq_some : openTransaction tx w = some t ↔ t ∈ w.transactions.rows ∧ t.id = tx ∧ t.ended = false := by
  unfold openTransaction
  rw [Option.filter_eq_some_iff, Table.find?_eq_some]
  simp [and_assoc]

theorem mem_setTransaction {f : Transaction → Transaction} {keeps : ∀ t, (f t).id = t.id} {u : Transaction} :
    u ∈ (setTransaction tx f keeps w).transactions.rows ↔
      (u ∈ w.transactions.rows ∧ u.id ≠ tx) ∨ ∃ t ∈ w.transactions.rows, t.id = tx ∧ u = f t :=
  @Table.mem_update_keyed _ _ _ _ w.transactions tx f keeps u

theorem openTransaction_setTransaction {f : Transaction → Transaction} {keeps : ∀ t, (f t).id = t.id} :
    openTransaction tx (setTransaction tx f keeps w) = ((w.transactions.find? tx).map f).filter fun t => !t.ended := by
  unfold openTransaction setTransaction
  simp only [Table.find?_update_keyed]

theorem openTransaction_setTransaction_of_ne {f : Transaction → Transaction} {keeps : ∀ t, (f t).id = t.id} {j : String}
    (other : j ≠ tx) : openTransaction j (setTransaction tx f keeps w) = openTransaction j w := by
  unfold openTransaction setTransaction
  simp only [Table.find?_update_of_ne _ f keeps other]

/-- Writing its own transaction disturbs nobody. -/
theorem relies_setTransaction {f : Transaction → Transaction} {keeps : ∀ t, (f t).id = t.id} {j : String} (other : j ≠ tx) :
    Relies j w (setTransaction tx f keeps w) :=
  ⟨.inl (openTransaction_setTransaction_of_ne other), rfl, fun _ => le_refl _, fun _ _ => le_refl _⟩

/-- Ending a transaction disturbs nobody, not even its owner. -/
theorem relies_endTransaction (j : String) : Relies j w (endTransaction tx w) := by
  refine ⟨?_, rfl, fun _ => le_refl _, fun _ _ => le_refl _⟩
  by_cases same : j = tx
  · right
    rw [same, endTransaction, openTransaction_setTransaction]
    cases w.transactions.find? tx <;> rfl
  · exact .inl (openTransaction_setTransaction_of_ne same)

/-- What is open after a transaction ended was open before, and is another one. -/
theorem open_of_endTransaction {u : Transaction} (hu : u ∈ (endTransaction tx w).transactions.rows) (isOpen : u.ended = false) :
    u ∈ w.transactions.rows ∧ u.id ≠ tx := by
  unfold endTransaction at hu
  rcases mem_setTransaction.1 hu with old | ⟨t, -, -, rfl⟩
  · exact old
  · cases isOpen

theorem Covered.endTransaction (h : Covered w) : Covered (endTransaction tx w) := by
  refine ⟨h.balance, fun t ht t' ht' isOpen isOpen' => ?_, fun t ht isOpen => ?_⟩
  · exact h.exclusive t (open_of_endTransaction ht isOpen).1 t' (open_of_endTransaction ht' isOpen').1 isOpen isOpen'
  · exact h.reserved t (open_of_endTransaction ht isOpen).1 isOpen

/-- A key has one holder. -/
theorem Covered.alone {key : String} (h : Covered w) (isOpen : openTransaction i w = some t) (held : t.key = some key) {u : Transaction}
    (hu : u ∈ w.transactions.rows) (live : u.ended = false) (held' : u.key = some key) : u.id = i := by
  obtain ⟨ht, tid, live'⟩ := openTransaction_eq_some.1 isOpen
  exact (h.exclusive u hu t ht live live' key held' held).trans tid

/-- A transaction takes a key that no other one holds. -/
theorem Covered.lock {key : String} (h : Covered w) (isOpen : openTransaction i w = some t) (empty : t.row = none)
    (free : ∀ u ∈ w.transactions.rows, u.id ≠ i → u.ended = false → u.key ≠ some key) :
    Covered (setTransaction i (fun t => { t with key := some key }) (fun _ => rfl) w) := by
  obtain ⟨ht, tid, -⟩ := openTransaction_eq_some.1 isOpen
  refine ⟨h.balance, fun u hu u' hu' uOpen uOpen' k hk hk' => ?_, fun u hu uOpen r row => ?_⟩
  · rcases mem_setTransaction.1 hu with ⟨hu, other⟩ | ⟨v, -, same, rfl⟩
    · rcases mem_setTransaction.1 hu' with ⟨hu', -⟩ | ⟨v', -, -, rfl⟩
      · exact h.exclusive u hu u' hu' uOpen uOpen' k hk hk'
      · exact (free u hu other uOpen (hk.trans hk'.symm)).elim
    · rcases mem_setTransaction.1 hu' with ⟨hu', other'⟩ | ⟨v', -, same', rfl⟩
      · exact (free u' hu' other' uOpen' (hk'.trans hk.symm)).elim
      · exact same.trans same'.symm
  · rcases mem_setTransaction.1 hu with ⟨hu, -⟩ | ⟨v, hv, same, rfl⟩
    · exact h.reserved u hu uOpen r row
    · obtain rfl := Table.eq_of_key hv ht (same.trans tid.symm)
      have none : v.row = some r := row
      rw [empty] at none
      cases none

/-- A transaction that holds the key of a balance reserves what the balance covers. -/
theorem Covered.reserve {r : Payout} (h : Covered w) (isOpen : openTransaction i w = some t) (rid : r.id = i)
    (held : t.key = some (balanceKey r.businessID))
    (covers : sumCommittedPayoutAmounts r.businessID w + r.amount.toDecimal ≤ sumSuccessfulPaymentAmounts r.businessID w) :
    Covered (setTransaction i (fun t => { t with row := some r }) (fun _ => rfl) w) := by
  obtain ⟨ht, tid, -⟩ := openTransaction_eq_some.1 isOpen
  -- the keys stay as they were
  have old : ∀ u ∈ (setTransaction i (fun t => { t with row := some r }) (fun _ => rfl) w).transactions.rows,
      ∃ v ∈ w.transactions.rows, v.id = u.id ∧ v.ended = u.ended ∧ v.key = u.key := by
    intro u hu
    rcases mem_setTransaction.1 hu with ⟨hu, -⟩ | ⟨v, hv, -, rfl⟩
    · exact ⟨u, hu, rfl, rfl, rfl⟩
    · exact ⟨v, hv, rfl, rfl, rfl⟩
  refine ⟨h.balance, fun u hu u' hu' uOpen uOpen' k hk hk' => ?_, fun u hu uOpen r' row => ?_⟩
  · obtain ⟨v, hv, id, ended, key⟩ := old u hu
    obtain ⟨v', hv', id', ended', key'⟩ := old u' hu'
    rw [← id, ← id']
    exact h.exclusive v hv v' hv' (ended.trans uOpen) (ended'.trans uOpen') k (key.trans hk) (key'.trans hk')
  · rcases mem_setTransaction.1 hu with ⟨hu, -⟩ | ⟨v, hv, same, rfl⟩
    · exact h.reserved u hu uOpen r' row
    · obtain rfl := Table.eq_of_key hv ht (same.trans tid.symm)
      obtain rfl : r = r' := Option.some.inj row
      exact ⟨rid.trans tid.symm, held, covers⟩

end Transactions

/-! ## Statements on the tables -/

section Tables

variable {i : String} {w w' : PayoutWorld}

/-- Revenue grows, what is committed shrinks, and only the own payout changes. -/
theorem Covered.keeps (h : Covered w) (transactions : w'.transactions = w.transactions)
    (revenue : ∀ b, sumSuccessfulPaymentAmounts b w ≤ sumSuccessfulPaymentAmounts b w')
    (committed : ∀ b, sumCommittedPayoutAmounts b w' ≤ sumCommittedPayoutAmounts b w)
    (payout : ∀ j, j ≠ i → w'.payouts.find? j = w.payouts.find? j) : Keeps i w w' := by
  refine ⟨⟨fun b => ?_, ?_, ?_⟩, fun j other => ⟨.inl ?_, payout j other, revenue, fun b _ => committed b⟩⟩
  · exact le_trans (committed b) (le_trans (h.balance b) (revenue b))
  · rw [transactions]
    exact h.exclusive
  · intro t ht isOpen r row
    rw [transactions] at ht
    obtain ⟨rid, key, covers⟩ := h.reserved t ht isOpen r row
    have grown := revenue r.businessID
    have shrunk := committed r.businessID
    exact ⟨rid, key, by linarith⟩
  · unfold openTransaction
    rw [transactions]

/-- What a payout counts against the balance of a business. -/
def weight (b : String) (p : Payout) : ℚ := if committedTo b p = true then p.amount.toDecimal else 0

theorem weight_nonneg (b : String) {p : Payout} (nonneg : 0 ≤ p.amount.toDecimal) : 0 ≤ weight b p := by
  unfold weight
  split
  · exact nonneg
  · exact le_refl _

theorem sumCommitted_eq (b : String) (w : PayoutWorld) : sumCommittedPayoutAmounts b w = (w.payouts.rows.map (weight b)).sum := by
  unfold sumCommittedPayoutAmounts
  induction w.payouts.rows with
  | nil => rfl
  | cons p rest ih =>
    rw [List.map_cons, List.sum_cons, ← ih, weight, List.filter_cons]
    split
    · rw [List.map_cons, List.sum_cons]
    · rw [zero_add]

/-- A write of one payout that does not add to its weight. -/
theorem Covered.setPayoutStatus {f : Payout → Payout} {same : ∀ p, (f p).id = p.id} (h : Covered w)
    (lighter : ∀ p, w.payouts.find? i = some p → ∀ b, weight b (f p) ≤ weight b p) : Keeps i w (setPayoutStatus i f same w) := by
  refine h.keeps rfl (fun _ => le_refl _) (fun b => ?_) fun j other => Table.find?_update_of_ne _ f same other
  rw [sumCommitted_eq, sumCommitted_eq]
  show ((w.payouts.rows.map _).map (weight b)).sum ≤ _
  rw [List.map_map]
  refine List.sum_le_sum fun p hp => ?_
  simp only [Function.comp_apply, Table.rewrite]
  split
  · rename_i sel
    exact lighter p (Table.find?_eq_some.2 ⟨hp, of_decide_eq_true sel⟩) b
  · exact le_refl _

/-- A payment comes in. -/
theorem Covered.insertPayment {p : Payment} {payments : Table Payment.id} (h : Covered w) (nonneg : 0 ≤ p.amount.units)
    (inserted : w.payments.insert p = some payments) : Keeps i w { w with payments := payments } := by
  refine h.keeps rfl (fun b => ?_) (fun _ => le_refl _) fun _ _ => rfl
  have amount : 0 ≤ p.amount.toDecimal := by
    have cast : (0 : ℚ) ≤ p.amount.units := by exact_mod_cast nonneg
    rw [Money.toDecimal_eq]
    linarith
  unfold sumSuccessfulPaymentAmounts
  rw [(Table.insert_eq_some.1 inserted).2, List.filter_append, List.map_append, List.sum_append, List.filter_cons]
  split
  · simpa using amount
  · simp

theorem weight_of_ne {b : String} {p : Payout} (other : b ≠ p.businessID) : weight b p = 0 := by
  simp [weight, committedTo, other.symm]

section Commit

variable {t : Transaction} {r : Payout} {payouts : Table Payout.id}

theorem sumCommitted_commit (inserted : w.payouts.insert r = some payouts) (b : String) :
    sumCommittedPayoutAmounts b (Db.endTransaction i { w with payouts := payouts }) = sumCommittedPayoutAmounts b w + weight b r := by
  rw [sumCommitted_eq, sumCommitted_eq]
  show (payouts.rows.map (weight b)).sum = _
  rw [(Table.insert_eq_some.1 inserted).2, List.map_append, List.sum_append, List.map_singleton, List.sum_singleton]

/-- The committed row is covered, and it takes nothing from what the others have reserved. -/
theorem Covered.commit (h : Covered w) (isOpen : openTransaction i w = some t) (row : t.row = some r)
    (inserted : w.payouts.insert r = some payouts) : Covered (Db.endTransaction i { w with payouts := payouts }) := by
  obtain ⟨ht, tid, live⟩ := openTransaction_eq_some.1 isOpen
  obtain ⟨rid, key, covers⟩ := h.reserved t ht live r row
  refine ⟨fun b => ?_, fun u hu u' hu' live live' => ?_, fun u hu live' r' row' => ?_⟩
  · rw [sumCommitted_commit inserted]
    show _ ≤ sumSuccessfulPaymentAmounts b w
    by_cases own : b = r.businessID
    · subst own
      unfold weight
      split
      · exact covers
      · rw [add_zero]
        exact h.balance _
    · rw [weight_of_ne own, add_zero]
      exact h.balance b
  · exact h.exclusive u (open_of_endTransaction hu live).1 u' (open_of_endTransaction hu' live').1 live live'
  · obtain ⟨old, other⟩ := open_of_endTransaction hu live'
    obtain ⟨rid', key', covers'⟩ := h.reserved u old live' r' row'
    have elsewhere : r'.businessID ≠ r.businessID := fun same => other (h.alone isOpen key old live' (same ▸ key'))
    refine ⟨rid', key', ?_⟩
    rw [sumCommitted_commit inserted, weight_of_ne elsewhere, add_zero]
    exact covers'

/-- A transaction commits its row. -/
theorem Covered.keeps_commit (h : Covered w) (isOpen : openTransaction i w = some t) (row : t.row = some r)
    (inserted : w.payouts.insert r = some payouts) : Keeps i w (Db.endTransaction i { w with payouts := payouts }) := by
  obtain ⟨ht, tid, live⟩ := openTransaction_eq_some.1 isOpen
  obtain ⟨rid, key, -⟩ := h.reserved t ht live r row
  refine ⟨h.commit isOpen row inserted, fun j other => ⟨.inl ?_, ?_, fun _ => le_refl _, fun b held => ?_⟩⟩
  · exact openTransaction_setTransaction_of_ne other
  · show payouts.find? j = w.payouts.find? j
    unfold Table.find?
    rw [(Table.insert_eq_some.1 inserted).2, List.find?_append]
    simp [rid, tid, other.symm]
  · rw [sumCommitted_commit inserted]
    by_cases own : b = r.businessID
    · -- nobody else holds the key of the balance committed to
      obtain ⟨u, isOpen', key'⟩ := held
      obtain ⟨hu, uid, live'⟩ := openTransaction_eq_some.1 isOpen'
      obtain ⟨old, other'⟩ := open_of_endTransaction hu live'
      exact (other' (h.alone isOpen key old live' (own ▸ key'))).elim
    · rw [weight_of_ne own, add_zero]

end Commit

/-- A transaction begins. -/
theorem Covered.begin {transactions : Table Transaction.id} (h : Covered w)
    (inserted : w.transactions.insert ⟨i, false, none, none⟩ = some transactions) :
    Keeps i w { w with transactions := transactions } := by
  have rows : transactions.rows = w.transactions.rows ++ [⟨i, false, none, none⟩] := (Table.insert_eq_some.1 inserted).2
  -- it holds nothing yet
  have old : ∀ t ∈ transactions.rows, t.key ≠ none ∨ t.row ≠ none → t ∈ w.transactions.rows := by
    intro t ht holds
    rw [rows] at ht
    rcases List.mem_append.1 ht with ht | ht
    · exact ht
    · rw [List.mem_singleton.1 ht] at holds
      simp at holds
  refine ⟨⟨h.balance, fun t ht t' ht' live live' key hk hk' => ?_, fun t ht live r row => ?_⟩, fun j other => ⟨.inl ?_, rfl,
    fun _ => le_refl _, fun _ _ => le_refl _⟩⟩
  · exact h.exclusive t (old t ht (.inl (by simp [hk]))) t' (old t' ht' (.inl (by simp [hk']))) live live' key hk hk'
  · exact h.reserved t (old t ht (.inr (by simp [row]))) live r row
  · unfold openTransaction Table.find?
    rw [rows, List.find?_append]
    simp [other.symm]

end Tables

end NovoApex.Payouts
