import NovoApex.Payouts.Balance

/-!
# The provider's books

What the provider has executed, set against the payouts. Every executed transfer
belongs to one payout, was executed once, over the payout's stored amount, and the
payout is not FAILED: it still counts against the balance. That last part holds only
in the runs in which an executed transfer is answered, so the protocol of the payout
flow carries the books under a proposition, `answered`.
-/

namespace NovoApex.Payouts
set_option autoImplicit false
open Lib Program Db Handlers

/-- The provider has executed a transfer under the reference. -/
def Executed (reference : String) (w : PayoutWorld) : Prop := ∃ t ∈ w.transfers, t.reference = reference

/-- The books agree with the payouts. -/
structure Booked (w : PayoutWorld) : Prop where
  owner : ∀ t ∈ w.transfers, ∃ p ∈ w.payouts.rows, p.reference = some t.reference ∧ p.amount.units = t.amountMinor.toInt ∧
    (p.status = .success ∨ p.status = .pending)
  once : (w.transfers.map TransferRequest.reference).Nodup
  /-- `payouts_reference_key`. -/
  references : ∀ p ∈ w.payouts.rows, ∀ q ∈ w.payouts.rows, ∀ ref, p.reference = some ref → q.reference = some ref → p = q
  nonneg : ∀ p ∈ w.payouts.rows, 0 ≤ p.amount.units

/-- Nobody else executes or takes back the transfer of the payout. -/
def Unmoved (i : String) (w w' : PayoutWorld) : Prop :=
  ∀ p ref, w.payouts.find? i = some p → p.reference = some ref → (Executed ref w' ↔ Executed ref w)

theorem unmoved_of_transfers {i : String} {w w' : PayoutWorld} (transfers : w'.transfers = w.transfers) : Unmoved i w w' := by
  intro p ref _ _
  unfold Executed
  rw [transfers]

/-- The protocol of the payout flow, with the books where transfers are answered. -/
def payoutProtocol (answered : Prop) : Protocol String PayoutWorld where
  inv w := Covered w ∧ (answered → Booked w)
  rely i w w' := Relies i w w' ∧ (answered → Unmoved i w w')
  refl i w := ⟨.refl i w, fun _ => unmoved_of_transfers rfl⟩
  trans i u v w h h' := by
    refine ⟨h.1.trans h'.1, fun yes p ref found named => ?_⟩
    exact (h'.2 yes p ref (h.1.payout.trans found) named).trans (h.2 yes p ref found named)

/-- A statement of `i` keeps the protocol. -/
def KeepsBooks (answered : Prop) (i : String) (w w' : PayoutWorld) : Prop :=
  Keeps i w w' ∧ (answered → Booked w' ∧ ∀ j, j ≠ i → Unmoved j w w')

section Statements

variable {answered : Prop} {i : String} {w w' : PayoutWorld}

theorem Booked.congr (h : Booked w) (payouts : w'.payouts = w.payouts) (transfers : w'.transfers = w.transfers) : Booked w' := by
  refine ⟨?_, ?_, ?_, ?_⟩
  · rw [transfers, payouts]
    exact h.owner
  · rw [transfers]
    exact h.once
  · rw [payouts]
    exact h.references
  · rw [payouts]
    exact h.nonneg

/-- A statement that touches neither the payouts nor the provider. -/
theorem Keeps.books (h : Keeps i w w') (booked : answered → Booked w) (payouts : w'.payouts = w.payouts)
    (transfers : w'.transfers = w.transfers) : KeepsBooks answered i w w' :=
  ⟨h, fun yes => ⟨(booked yes).congr payouts transfers, fun _ _ => unmoved_of_transfers transfers⟩⟩

/-- A payout under a reference that no payout has. -/
theorem Booked.commit {r : Payout} {payouts : Table Payout.id} (h : Booked w) (nonneg : 0 ≤ r.amount.units)
    (fresh : ∀ q ∈ w.payouts.rows, ∀ ref, r.reference = some ref → q.reference ≠ some ref)
    (inserted : w.payouts.insert r = some payouts) : Booked (Db.endTransaction i { w with payouts := payouts }) := by
  have rows : payouts.rows = w.payouts.rows ++ [r] := (Table.insert_eq_some.1 inserted).2
  refine ⟨fun t ht => ?_, h.once, fun p hp q hq ref pref qref => ?_, fun p hp => ?_⟩
  · obtain ⟨p, hp, facts⟩ := h.owner t ht
    refine ⟨p, ?_, facts⟩
    show p ∈ payouts.rows
    rw [rows]
    exact List.mem_append_left _ hp
  · have hp : p ∈ payouts.rows := hp
    have hq : q ∈ payouts.rows := hq
    rw [rows, List.mem_append, List.mem_singleton] at hp hq
    rcases hp with hp | rfl
    · rcases hq with hq | rfl
      · exact h.references p hp q hq ref pref qref
      · exact (fresh p hp ref qref pref).elim
    · rcases hq with hq | rfl
      · exact (fresh q hq ref pref qref).elim
      · rfl
  · have hp : p ∈ payouts.rows := hp
    rw [rows, List.mem_append, List.mem_singleton] at hp
    rcases hp with hp | rfl
    · exact h.nonneg p hp
    · exact nonneg

theorem mem_setPayoutStatus {f : Payout → Payout} {same : ∀ p, (f p).id = p.id} {p : Payout} :
    p ∈ (setPayoutStatus i f same w).payouts.rows ↔
      (p ∈ w.payouts.rows ∧ p.id ≠ i) ∨ ∃ q ∈ w.payouts.rows, q.id = i ∧ p = f q :=
  @Table.mem_update_keyed _ _ _ _ w.payouts i f same p

/-- A status write: FAILED only where nothing was executed. -/
theorem Booked.setPayoutStatus {f : Payout → Payout} {same : ∀ p, (f p).id = p.id} (h : Booked w)
    (fixed : ∀ p, (f p).reference = p.reference ∧ (f p).amount = p.amount)
    (live : ∀ p, w.payouts.find? i = some p → ∀ ref, p.reference = some ref → Executed ref w →
      (f p).status = .success ∨ (f p).status = .pending) :
    Booked (setPayoutStatus i f same w) := by
  -- a row after the write and the row it was
  have old : ∀ p ∈ (Db.setPayoutStatus i f same w).payouts.rows, ∃ q ∈ w.payouts.rows, p.id = q.id ∧ p.reference = q.reference ∧
      p.amount = q.amount := by
    intro p hp
    rcases mem_setPayoutStatus.1 hp with ⟨hp, -⟩ | ⟨q, hq, -, rfl⟩
    · exact ⟨p, hp, rfl, rfl, rfl⟩
    · exact ⟨q, hq, same q, (fixed q).1, (fixed q).2⟩
  refine ⟨fun t ht => ?_, h.once, fun p hp q hq ref pref qref => ?_, fun p hp => ?_⟩
  · obtain ⟨p, hp, named, units, alive⟩ := h.owner t ht
    by_cases own : p.id = i
    · refine ⟨f p, mem_setPayoutStatus.2 (.inr ⟨p, hp, own, rfl⟩), (fixed p).1.trans named, ?_, ?_⟩
      · rw [(fixed p).2]
        exact units
      · exact live p (Table.find?_eq_some.2 ⟨hp, own⟩) _ named ⟨t, ht, rfl⟩
    · exact ⟨p, mem_setPayoutStatus.2 (.inl ⟨hp, own⟩), named, units, alive⟩
  · obtain ⟨p', hp', pid, pref', -⟩ := old p hp
    obtain ⟨q', hq', qid, qref', -⟩ := old q hq
    obtain rfl := h.references p' hp' q' hq' ref (pref'.symm.trans pref) (qref'.symm.trans qref)
    exact Table.eq_of_key hp hq (pid.trans qid.symm)
  · obtain ⟨q, hq, -, -, amount⟩ := old p hp
    rw [amount]
    exact h.nonneg q hq

/-- The provider executes the transfer of a payout that has none. -/
theorem Booked.execute {p : Payout} {t : TransferRequest} (h : Booked w) (found : w.payouts.find? i = some p)
    (named : p.reference = some t.reference) (units : p.amount.units = t.amountMinor.toInt) (alive : p.status = .success ∨ p.status = .pending)
    (first : ¬ Executed t.reference w) :
    Booked { w with transfers := w.transfers ++ [t] } ∧
      ∀ j, j ≠ i → Unmoved j w { w with transfers := w.transfers ++ [t] } := by
  obtain ⟨hp, pid⟩ := Table.find?_eq_some.1 found
  refine ⟨⟨fun u hu => ?_, ?_, h.references, h.nonneg⟩, fun j other q ref found' named' => ?_⟩
  · rcases List.mem_append.1 hu with hu | hu
    · exact h.owner u hu
    · rw [List.mem_singleton.1 hu]
      exact ⟨p, hp, named, units, alive⟩
  · show ((w.transfers ++ [t]).map TransferRequest.reference).Nodup
    rw [List.map_append, List.map_singleton]
    refine List.nodup_append.2 ⟨h.once, List.nodup_singleton _, fun r hr r' hr' same => ?_⟩
    obtain ⟨u, hu, rfl⟩ := List.mem_map.1 hr
    rw [List.mem_singleton.1 hr'] at same
    exact first ⟨u, hu, same⟩
  · -- the other payout has another reference
    obtain ⟨hq, qid⟩ := Table.find?_eq_some.1 found'
    have apart : t.reference ≠ ref := by
      intro same
      obtain rfl := h.references p hp q hq ref (same ▸ named) named'
      exact other (qid.symm.trans pid)
    constructor
    · rintro ⟨u, hu, uref⟩
      rcases List.mem_append.1 hu with hu | hu
      · exact ⟨u, hu, uref⟩
      · rw [List.mem_singleton.1 hu] at uref
        exact (apart uref).elim
    · rintro ⟨u, hu, uref⟩
      exact ⟨u, List.mem_append_left _ hu, uref⟩

end Statements

/-! ## What the books add up to -/

/-- The executed transfers that belong to payouts of a business. -/
def executedTransfers (businessID : String) (w : PayoutWorld) : List TransferRequest :=
  w.transfers.filter fun t => w.payouts.rows.any fun p => decide (p.businessID = businessID) && decide (p.reference = some t.reference)

/-- Their amount. -/
def executedAmount (businessID : String) (w : PayoutWorld) : ℚ :=
  ((executedTransfers businessID w).map fun t => fromMinorUnits t.amountMinor).sum

/-- The payouts behind a list of transfers of a business: distinct, counted against its balance, of the same amounts. -/
theorem Booked.payouts {w : PayoutWorld} (h : Booked w) (b : String) {transfers : List TransferRequest}
    (sub : ∀ t ∈ transfers, t ∈ w.transfers ∧ ∃ p ∈ w.payouts.rows, p.businessID = b ∧ p.reference = some t.reference)
    (once : (transfers.map TransferRequest.reference).Nodup) :
    ∃ ps : List Payout, ps.Nodup ∧ (∀ p ∈ ps, p ∈ w.payouts.rows ∧ ∃ t ∈ transfers, p.reference = some t.reference) ∧
      (transfers.map fun t => fromMinorUnits t.amountMinor).sum = (ps.map (weight b)).sum := by
  induction transfers with
  | nil => exact ⟨[], List.nodup_nil, fun _ mem => (nomatch mem), rfl⟩
  | cons t rest ih =>
    rw [List.map_cons, List.nodup_cons] at once
    obtain ⟨ps, distinct, members, sum⟩ := ih (fun u hu => sub u (List.mem_cons_of_mem _ hu)) once.2
    obtain ⟨ht, p, hp, business, named⟩ := sub t List.mem_cons_self
    obtain ⟨q, hq, qnamed, units, alive⟩ := h.owner t ht
    obtain rfl := h.references p hp q hq _ named qnamed
    refine ⟨p :: ps, List.nodup_cons.2 ⟨fun mem => ?_, distinct⟩, fun r hr => ?_, ?_⟩
    · obtain ⟨-, u, hu, uref⟩ := members p mem
      exact once.1 (List.mem_map.2 ⟨u, hu, Option.some.inj (uref.symm.trans named)⟩)
    · rcases List.mem_cons.1 hr with rfl | hr
      · exact ⟨hp, t, List.mem_cons_self, named⟩
      · obtain ⟨mem, u, hu, uref⟩ := members r hr
        exact ⟨mem, u, List.mem_cons_of_mem _ hu, uref⟩
    · have counted : committedTo b p = true := by
        unfold committedTo
        rcases alive with status | status <;> simp [status, business]
      rw [List.map_cons, List.sum_cons, List.map_cons, List.sum_cons, sum, weight, if_pos counted, Money.toDecimal_eq, units]
      rfl

/-- What the provider executed for a business is within what counts against its balance. -/
theorem Booked.executed_le {w : PayoutWorld} (h : Booked w) (b : String) : executedAmount b w ≤ sumCommittedPayoutAmounts b w := by
  have weights : ∀ q ∈ w.payouts.rows.map (weight b), 0 ≤ q := by
    intro q hq
    obtain ⟨p, hp, rfl⟩ := List.mem_map.1 hq
    refine weight_nonneg b ?_
    have cast : (0 : ℚ) ≤ p.amount.units := by exact_mod_cast h.nonneg p hp
    rw [Money.toDecimal_eq]
    linarith
  have owned : ∀ t ∈ executedTransfers b w, t ∈ w.transfers ∧
      ∃ p ∈ w.payouts.rows, p.businessID = b ∧ p.reference = some t.reference := by
    intro t ht
    obtain ⟨ht, owned⟩ := List.mem_filter.1 ht
    obtain ⟨p, hp, facts⟩ := List.any_eq_true.1 owned
    simp only [Bool.and_eq_true, decide_eq_true_eq] at facts
    exact ⟨ht, p, hp, facts⟩
  obtain ⟨ps, distinct, members, sum⟩ := h.payouts b owned (h.once.sublist (List.filter_sublist.map _))
  rw [executedAmount, sum, sumCommitted_eq]
  obtain ⟨l, perm, sub⟩ := List.subperm_of_subset distinct fun p hp => (members p hp).1
  rw [← (perm.map (weight b)).sum_eq]
  exact (sub.map (weight b)).sum_le_sum weights

end NovoApex.Payouts
