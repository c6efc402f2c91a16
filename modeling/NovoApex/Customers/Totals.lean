import NovoApex.Workers.ProfileStats
import NovoApex.Lib.TableSum

/-!
# The totals of a customer

Deliveries of the `order.created` events of one customer, interleaved in any way: as long
as no delivery writes a profile that another one has committed since it was read, the
totals are the initial ones plus those of the orders counted. Two deliveries that read
the same row lose one of their updates.
-/

namespace NovoApex.ProfileStats
set_option autoImplicit false
open Lib Program

/-- The order is counted. -/
def recorded (orderID : String) (w : StatsWorld) : Bool := (w.orders.find? orderID).any fun o => o.statsRecordedAt.isSome

/-- The profile a delivery writes was not committed by another one since it was read. -/
def writesFresh (w : StatsWorld) : StatsStmt → Prop
  | .updateProfileOrderStats tx _ _ _ _ => ∀ t ∈ w.transactions.rows, t.id = tx → t.ended = false → t.stale = false
  | _ => True

/-- The same, computed. -/
def writesFreshNow (w : StatsWorld) : StatsStmt → Bool
  | .updateProfileOrderStats tx _ _ _ _ => w.transactions.rows.all fun t => t.id != tx || t.ended || !t.stale
  | _ => true

theorem writesFreshNow_iff (w : StatsWorld) (op : StatsStmt) : writesFreshNow w op = true ↔ writesFresh w op := by
  unfold writesFreshNow writesFresh
  split <;> simp [imp_iff_not_or, or_assoc]

instance (w : StatsWorld) : DecidablePred (writesFresh w) := fun op => decidable_of_iff _ (writesFreshNow_iff w op)

/-- The runs in which no delivery overwrites what it has not seen. -/
def freshFlow (evts : List OrderCreated) : Roster statsStore StatsName StatsWorld where
  exec := statsExec
  job := StatsJob evts
  allow w op := statsProceeds w op ∧ writesFresh w op

instance (evts : List OrderCreated) (w : StatsWorld) (op : StatsStmt) : Decidable ((freshFlow evts).allow w op) :=
  inferInstanceAs (Decidable (statsProceeds w op ∧ writesFresh w op))

/-! ## The protocol -/

/-- A sum over the events counted. -/
def countedSum {M : Type} [AddCommGroup M] (g : OrderCreated → M) (evts : Table OrderCreated.orderID) (w : StatsWorld) : M :=
  (evts.rows.map fun evt => if recorded evt.orderID w = true then g evt else 0).sum

/-- How many of the events are counted. -/
def countOf (evts : Table OrderCreated.orderID) (w : StatsWorld) : Int := countedSum (fun _ => 1) evts w

/-- What the events counted come to. -/
def spentOf (evts : Table OrderCreated.orderID) (w : StatsWorld) : ℚ := countedSum OrderCreated.totalAmount evts w

/-- The customer, its events and its first totals. -/
structure CustomerOrders where
  id : String
  evts : Table OrderCreated.orderID
  totalOrders : Int32
  totalSpent : Money
  /-- The events are the customer's, and name totals of orders. -/
  own : ∀ evt ∈ evts.rows, evt.customerID = id ∧ ∃ total : Money, evt.totalAmount = total.toDecimal
  /-- All of them can be counted. -/
  fits : totalOrders.toInt + evts.rows.length < 2 ^ 31

/-- A profile with one more order. -/
structure OneMore (evt : OrderCreated) (old new : Profile) : Prop where
  customer : new.customerID = old.customerID
  orders : new.totalOrders.toInt = old.totalOrders.toInt + 1
  spent : new.totalSpent.toDecimal = old.totalSpent.toDecimal + evt.totalAmount

/-- An open transaction: its order is not counted, what it has seen is current unless it is stale, and what it wrote is one more. -/
structure TxSound (k : CustomerOrders) (w : StatsWorld) (t : StatsTx) : Prop where
  claimed : ∀ orderID, t.claimed = some orderID → ∃ o ∈ w.orders.rows, o.id = orderID ∧ o.statsRecordedAt = none
  seen : ∀ p, t.seen = some p → t.stale = false → w.profiles.find? k.id = some p
  write : ∀ new, t.write = some new → ∃ evt ∈ k.evts.rows, t.claimed = some evt.orderID ∧
    ∃ old, w.profiles.find? k.id = some old ∧ OneMore evt old new

/-- The totals are those of the orders counted. -/
structure Totalled (k : CustomerOrders) (w : StatsWorld) : Prop where
  totals : ∃ p, w.profiles.find? k.id = some p ∧ p.totalOrders.toInt = k.totalOrders.toInt + countOf k.evts w ∧
    p.totalSpent.toDecimal = k.totalSpent.toDecimal + spentOf k.evts w
  sound : ∀ t ∈ w.transactions.rows, t.ended = false → TxSound k w t
  oneClaim : ∀ t ∈ w.transactions.rows, ∀ t' ∈ w.transactions.rows, t.ended = false → t'.ended = false → t.claimed ≠ none →
    t.claimed = t'.claimed → t.id = t'.id
  oneWrite : ∀ t ∈ w.transactions.rows, ∀ t' ∈ w.transactions.rows, t.ended = false → t'.ended = false → t.write ≠ none →
    t'.write ≠ none → t.id = t'.id

/-- What a delivery relies on: nobody touches its transaction, except to end it or to make what it has seen stale. -/
def OwnTransaction (tx : String) (w w' : StatsWorld) : Prop :=
  ∀ t', openStats tx w' = some t' → ∃ t, openStats tx w = some t ∧ t'.claimed = t.claimed ∧ t'.seen = t.seen ∧ t'.write = t.write

/-- What each name relies on. -/
def statsRely : StatsName → StatsWorld → StatsWorld → Prop
  | .deliver tx, w, w' => OwnTransaction tx w w'
  | .server _, _, _ => True

theorem OwnTransaction.refl (tx : String) (w : StatsWorld) : OwnTransaction tx w w := fun t isOpen => ⟨t, isOpen, rfl, rfl, rfl⟩

theorem OwnTransaction.trans {tx : String} {u v w : StatsWorld} (h : OwnTransaction tx u v) (h' : OwnTransaction tx v w) :
    OwnTransaction tx u w := by
  intro t'' isOpen
  obtain ⟨t', isOpen', claimed', seen', write'⟩ := h' t'' isOpen
  obtain ⟨t, isOpen, claimed, seen, write⟩ := h t' isOpen'
  exact ⟨t, isOpen, claimed'.trans claimed, seen'.trans seen, write'.trans write⟩

/-- The protocol of the deliveries. -/
def statsProtocol (k : CustomerOrders) : Protocol StatsName StatsWorld where
  inv := Totalled k
  rely := statsRely
  refl i w := by
    cases i with
    | deliver tx => exact .refl tx w
    | server n => trivial
  trans i u v w h h' := by
    cases i with
    | deliver tx => exact OwnTransaction.trans h h'
    | server n => trivial

/-- A statement of `i` keeps the protocol. -/
structure KeepsTotals (k : CustomerOrders) (i : StatsName) (w w' : StatsWorld) : Prop where
  inv : Totalled k w'
  own : ∀ tx, i ≠ .deliver tx → OwnTransaction tx w w'

theorem KeepsTotals.rely {k : CustomerOrders} {i j : StatsName} {w w' : StatsWorld} (h : KeepsTotals k i w w') (other : j ≠ i) : statsRely j w w' := by
  cases j with
  | deliver tx => exact h.own tx (Ne.symm other)
  | server n => trivial

section Statements

variable {k : CustomerOrders} {i : StatsName} {tx : String} {w w' : StatsWorld} {t t' : StatsTx}

theorem Totalled.same (inv : Totalled k w) : KeepsTotals k i w w := ⟨inv, fun tx _ => .refl tx w⟩

theorem openStats_eq : openStats tx w = some t ↔ t ∈ w.transactions.rows ∧ t.id = tx ∧ t.ended = false := by
  unfold openStats
  rw [Option.filter_eq_some_iff, Table.find?_eq_some, and_assoc]
  simp

theorem mem_setStats {f : StatsTx → StatsTx} {keeps : ∀ t, (f t).id = t.id} :
    t ∈ (setStats tx f keeps w).transactions.rows ↔
      (t ∈ w.transactions.rows ∧ t.id ≠ tx) ∨ ∃ old ∈ w.transactions.rows, old.id = tx ∧ t = f old :=
  @Table.mem_update_keyed _ _ _ _ w.transactions tx f keeps t

theorem openStats_setStats_ne {f : StatsTx → StatsTx} {keeps : ∀ t, (f t).id = t.id} {tx' : String} (other : tx' ≠ tx) :
    openStats tx' (setStats tx f keeps w) = openStats tx' w := by
  unfold openStats setStats
  rw [Table.find?_update_of_ne _ f keeps other]

/-- The transaction after a statement on it. -/
theorem openStats_setStats {f : StatsTx → StatsTx} {keeps : ∀ t, (f t).id = t.id} (isOpen : openStats tx w = some t)
    (isOpen' : openStats tx (setStats tx f keeps w) = some t') : t' = f t := by
  obtain ⟨mem, named, -⟩ := openStats_eq.1 isOpen
  obtain ⟨mem', named', -⟩ := openStats_eq.1 isOpen'
  rcases mem_setStats.1 mem' with ⟨-, other⟩ | ⟨old, hold, same, rfl⟩
  · exact (other named').elim
  · rw [Table.eq_of_key hold mem (same.trans named.symm)]

theorem TxSound.congr (h : TxSound k w t) (orders : w'.orders = w.orders) (profiles : w'.profiles = w.profiles) : TxSound k w' t := by
  obtain ⟨claimed, seen, write⟩ := h
  rw [← orders, ← profiles] at *
  exact ⟨claimed, seen, write⟩

/-- A statement on the transaction of `tx`, which is open. -/
theorem keepsTotals_setStats {f : StatsTx → StatsTx} {keeps : ∀ t, (f t).id = t.id} (inv : Totalled k w) (isOpen : openStats tx w = some t)
    (sound : TxSound k w (f t))
    (claim : (f t).claimed = t.claimed ∨ ∀ t' ∈ w.transactions.rows, t'.id ≠ tx → t'.ended = false → t'.claimed ≠ (f t).claimed)
    (write : (f t).write = t.write ∨ ∀ t' ∈ w.transactions.rows, t'.id ≠ tx → t'.ended = false → t'.write = none) :
    KeepsTotals k (.deliver tx) w (setStats tx f keeps w) := by
  obtain ⟨mem, named, alive⟩ := openStats_eq.1 isOpen
  have only : ∀ u ∈ w.transactions.rows, u.id = tx → u = t := fun u hu same => Table.eq_of_key hu mem (same.trans named.symm)
  -- a claim or a write of another transaction is not this one's
  have claims : ∀ u ∈ w.transactions.rows, u.id ≠ tx → u.ended = false → u.claimed ≠ none → u.claimed ≠ (f t).claimed := by
    intro u hu other alive' some same
    rcases claim with kept | free
    · exact other ((inv.oneClaim u hu t mem alive' alive some (same.trans kept)).trans named)
    · exact free u hu other alive' same
  have writes : ∀ u ∈ w.transactions.rows, u.id ≠ tx → u.ended = false → u.write ≠ none → (f t).write ≠ none → False := by
    intro u hu other alive' some some'
    rcases write with kept | free
    · exact other ((inv.oneWrite u hu t mem alive' alive some (kept ▸ some')).trans named)
    · exact some (free u hu other alive')
  refine ⟨⟨inv.totals, fun u hu alive' => ?_, fun u hu v hv alive₁ alive₂ some same => ?_, fun u hu v hv alive₁ alive₂ some some' => ?_⟩,
    fun tx' other => ?_⟩
  · rcases mem_setStats.1 hu with ⟨hu, -⟩ | ⟨old, hold, same, rfl⟩
    · exact (inv.sound u hu alive').congr rfl rfl
    · exact only old hold same ▸ sound.congr rfl rfl
  · rcases mem_setStats.1 hu with ⟨hu, apart⟩ | ⟨old, hold, old_eq, rfl⟩
    · rcases mem_setStats.1 hv with ⟨hv, -⟩ | ⟨old', hold', old_eq', rfl⟩
      · exact inv.oneClaim u hu v hv alive₁ alive₂ some same
      · exact (claims u hu apart alive₁ some (only old' hold' old_eq' ▸ same)).elim
    · rcases mem_setStats.1 hv with ⟨hv, apart⟩ | ⟨old', hold', old_eq', rfl⟩
      · exact (claims v hv apart alive₂ (same ▸ some) (only old hold old_eq ▸ same.symm)).elim
      · rw [keeps, keeps, old_eq, old_eq']
  · rcases mem_setStats.1 hu with ⟨hu, apart⟩ | ⟨old, hold, old_eq, rfl⟩
    · rcases mem_setStats.1 hv with ⟨hv, -⟩ | ⟨old', hold', old_eq', rfl⟩
      · exact inv.oneWrite u hu v hv alive₁ alive₂ some some'
      · exact (writes u hu apart alive₁ some (only old' hold' old_eq' ▸ some')).elim
    · rcases mem_setStats.1 hv with ⟨hv, apart⟩ | ⟨old', hold', old_eq', rfl⟩
      · exact (writes v hv apart alive₂ some' (only old hold old_eq ▸ some)).elim
      · rw [keeps, keeps, old_eq, old_eq']
  · have other : tx' ≠ tx := fun same => other (same ▸ rfl)
    intro u isOpen'
    rw [openStats_setStats_ne other] at isOpen'
    exact ⟨u, isOpen', rfl, rfl, rfl⟩

/-- Transactions that are open after a rewrite were open before, with the same claim and write. -/
theorem Totalled.transactions {transactions : Table StatsTx.id} (inv : Totalled k w)
    (from' : ∀ u ∈ transactions.rows, u.ended = false → ∃ old ∈ w.transactions.rows, old.id = u.id ∧ old.ended = false ∧
      u.claimed = old.claimed ∧ u.write = old.write)
    (sound : ∀ u ∈ transactions.rows, u.ended = false → TxSound k w u) : Totalled k { w with transactions := transactions } := by
  refine ⟨inv.totals, fun u hu alive => (sound u hu alive).congr rfl rfl, fun u hu v hv alive₁ alive₂ some same => ?_, fun u hu v hv alive₁ alive₂ some some' => ?_⟩
  · obtain ⟨old, hold, named, alive, claimed, -⟩ := from' u hu alive₁
    obtain ⟨old', hold', named', alive', claimed', -⟩ := from' v hv alive₂
    rw [← named, ← named']
    exact inv.oneClaim old hold old' hold' alive alive' (claimed ▸ some) (claimed.symm.trans (same.trans claimed'))
  · obtain ⟨old, hold, named, alive, -, write⟩ := from' u hu alive₁
    obtain ⟨old', hold', named', alive', -, write'⟩ := from' v hv alive₂
    rw [← named, ← named']
    exact inv.oneWrite old hold old' hold' alive alive' (write ▸ some) (write' ▸ some')

theorem keepsTotals_end (inv : Totalled k w) : KeepsTotals k i w (endStats tx w) := by
  have from' : ∀ u ∈ (endStats tx w).transactions.rows, u.ended = false → u ∈ w.transactions.rows ∧ u.id ≠ tx := by
    intro u hu alive
    rcases mem_setStats.1 hu with old | ⟨old, -, -, rfl⟩
    · exact old
    · cases alive
  refine ⟨inv.transactions (fun u hu alive => ⟨u, (from' u hu alive).1, rfl, alive, rfl, rfl⟩)
    fun u hu alive => inv.sound u (from' u hu alive).1 alive, fun tx' _ u isOpen => ?_⟩
  obtain ⟨mem, named, alive⟩ := openStats_eq.1 isOpen
  exact ⟨u, openStats_eq.2 ⟨(from' u mem alive).1, named, alive⟩, rfl, rfl, rfl⟩

end Statements

/-! ## Sums -/

section Sums

variable {evts : Table OrderCreated.orderID} {evt : OrderCreated} {o : CountedOrder} {w w' : StatsWorld}

theorem recorded_applyClaim {now : Nat} (mem : o ∈ w.orders.rows) (orderID : String) :
    recorded orderID (applyClaim (some o.id) now w) = (decide (orderID = o.id) || recorded orderID w) := by
  unfold recorded applyClaim
  rw [Table.find?_update]
  by_cases same : orderID = o.id
  · subst same
    have found : w.orders.find? o.id = some o := Table.find?_eq_some.2 ⟨mem, rfl⟩
    simp [found, Table.rewrite]
  · cases found : w.orders.find? orderID with
    | none => simp [same]
    | some u =>
      have named : u.id = orderID := (Table.find?_eq_some.1 found).2
      have other : ¬ o.id = u.id := fun again => same (named.symm.trans again.symm)
      simp [same, Table.rewrite, other]

/-- One more event is counted. -/
theorem countedSum_record {M : Type} [AddCommGroup M] (g : OrderCreated → M) (mem : evt ∈ evts.rows) (unrecorded : recorded evt.orderID w = false)
    (records : ∀ orderID, recorded orderID w' = (decide (orderID = evt.orderID) || recorded orderID w)) :
    countedSum g evts w' = countedSum g evts w + g evt := by
  have split : ∀ u ∈ evts.rows, (if recorded u.orderID w' = true then g u else 0) =
      (if recorded u.orderID w = true then g u else 0) + if u.orderID = evt.orderID then g u else 0 := by
    intro u _
    rw [records u.orderID]
    by_cases same : u.orderID = evt.orderID
    · rw [same, unrecorded]
      simp
    · simp [same]
  unfold countedSum
  rw [List.map_congr_left split, List.sum_map_add, Table.sum_map_keyed evts mem (fun u => if u.orderID = evt.orderID then g u else 0)
    fun u _ other => if_neg other, if_pos rfl]

theorem countOf_le (evts : Table OrderCreated.orderID) (w : StatsWorld) : countOf evts w ≤ evts.rows.length := by
  simp only [countOf, countedSum]
  generalize evts.rows = rows
  induction rows with
  | nil => simp
  | cons u rest ih =>
    rw [List.map_cons, List.sum_cons, List.length_cons]
    have one : (if recorded u.orderID w = true then (1 : Int) else 0) ≤ 1 := by split <;> omega
    omega

/-- When all are counted, the sum is over all. -/
theorem countedSum_all {M : Type} [AddCommGroup M] (g : OrderCreated → M) (all : ∀ evt ∈ evts.rows, recorded evt.orderID w = true) :
    countedSum g evts w = (evts.rows.map g).sum := by
  unfold countedSum
  refine congrArg List.sum (List.map_congr_left fun evt mem => ?_)
  rw [if_pos (all evt mem)]

theorem unrecorded_of_mem (mem : o ∈ w.orders.rows) (unstamped : o.statsRecordedAt = none) : recorded o.id w = false := by
  have found : w.orders.find? o.id = some o := Table.find?_eq_some.2 ⟨mem, rfl⟩
  unfold recorded
  rw [found]
  simp [unstamped]

end Sums

/-! ## One more order -/

theorem toInt_succ {n : Int32} (fits : n.toInt + 1 < 2 ^ 31) : (n + 1).toInt = n.toInt + 1 := by
  have low := Int32.le_toInt n
  have one : (1 : Int32).toInt = 1 := rfl
  rw [Int32.toInt_add, one, Int.bmod_eq_of_le] <;> omega

/-- The row a delivery writes is the one it has seen, with one more order. -/
theorem oneMore_profileRow {k : CustomerOrders} {evt : OrderCreated} {old new : Profile} {average : ℚ} (mem : evt ∈ k.evts.rows)
    (named : old.customerID = k.id) (fits : old.totalOrders.toInt + 1 < 2 ^ 31)
    (written : profileRow evt.customerID (old.totalOrders + 1) (old.totalSpent.toDecimal + evt.totalAmount) average = some new) :
    OneMore evt old new := by
  obtain ⟨customer, total, amount⟩ := k.own evt mem
  unfold profileRow at written
  split at written
  · rename_i spent average' stored _
    obtain rfl := Option.some.inj written
    refine ⟨customer.trans named.symm, toInt_succ fits, ?_⟩
    refine Numeric.toDecimal_of_grid (m := old.totalSpent.units + total.units) ?_ stored
    rw [amount, add_mul, Numeric.toDecimal_mul, Numeric.toDecimal_mul, Int.cast_add]
  · cases written

/-! ## Commit -/

section Commit

variable {k : CustomerOrders} {tx : String} {w : StatsWorld} {t : StatsTx} {new : Profile}

/-- The transactions that are open after a commit were open before; those that have seen the profile are stale. -/
theorem open_after_commit {u : StatsTx}
    (mem : u ∈ (endStats tx (applyWrite tx (some new) (applyClaim t.claimed t.now w))).transactions.rows) (alive : u.ended = false) :
    u.id ≠ tx ∧ ∃ old ∈ w.transactions.rows, old.id = u.id ∧ old.ended = false ∧ u.claimed = old.claimed ∧ u.seen = old.seen ∧
      u.write = old.write ∧ (u.stale = false → old.stale = false ∧ ∀ p, old.seen = some p → p.customerID ≠ new.customerID) := by
  rcases mem_setStats.1 mem with ⟨mem, other⟩ | ⟨old, -, -, rfl⟩
  · have mem : u ∈ w.transactions.rows.map (Table.rewrite (outdated tx new) fun t => { t with stale := true }) := mem
    obtain ⟨old, hold, same⟩ := List.mem_map.1 mem
    refine ⟨other, old, hold, ?_⟩
    by_cases sel : outdated tx new old = true
    · rw [Table.rewrite_of_pos sel] at same
      subst same
      exact ⟨rfl, alive, rfl, rfl, rfl, fun absurd => nomatch absurd⟩
    · rw [Bool.not_eq_true] at sel
      rw [Table.rewrite_of_neg sel] at same
      subst same
      refine ⟨rfl, alive, rfl, rfl, rfl, fun fresh => ⟨fresh, fun p seen again => ?_⟩⟩
      unfold outdated at sel
      rw [seen] at sel
      simp [other, again] at sel
  · cases alive

/-- A delivery commits with the profile written. -/
theorem keepsTotals_commit (inv : Totalled k w) (isOpen : openStats tx w = some t) (written : t.write = some new) :
    KeepsTotals k (.deliver tx) w (endStats tx (applyWrite tx t.write (applyClaim t.claimed t.now w))) := by
  obtain ⟨mem, named, alive⟩ := openStats_eq.1 isOpen
  obtain ⟨evt, hevt, claims, old, found, oneMore⟩ := (inv.sound t mem alive).write new written
  obtain ⟨o, ho, order, unstamped⟩ := (inv.sound t mem alive).claimed evt.orderID claims
  obtain ⟨hold, customer⟩ := Table.find?_eq_some.1 found
  have writes : new.customerID = k.id := oneMore.customer.trans customer
  have unrecorded := unrecorded_of_mem ho unstamped
  rw [written]
  -- the order is counted, and the others as before
  have records : ∀ orderID, recorded orderID (endStats tx (applyWrite tx (some new) (applyClaim t.claimed t.now w))) =
      (decide (orderID = evt.orderID) || recorded orderID w) := by
    intro orderID
    rw [claims, ← order]
    exact recorded_applyClaim ho orderID
  have profile : (endStats tx (applyWrite tx (some new) (applyClaim t.claimed t.now w))).profiles.find? k.id =
      some { new with customerID := old.customerID } := by
    have updated : (endStats tx (applyWrite tx (some new) (applyClaim t.claimed t.now w))).profiles =
        w.profiles.update (fun p => decide (p.customerID = new.customerID)) (fun p => { new with customerID := p.customerID }) fun _ => rfl := rfl
    rw [updated, Table.find?_update, found]
    simp [Table.rewrite, writes, customer]
  have orders : ∀ orderID, orderID ≠ evt.orderID → ∀ o' ∈ w.orders.rows, o'.id = orderID →
      o' ∈ (endStats tx (applyWrite tx (some new) (applyClaim t.claimed t.now w))).orders.rows := by
    intro orderID other o' ho' same
    show o' ∈ (w.orders.rows.map (Table.rewrite (fun o => decide (t.claimed = some o.id)) _))
    refine List.mem_map.2 ⟨o', ho', Table.rewrite_of_neg (p := fun o : CountedOrder => decide (t.claimed = some o.id)) (decide_eq_false ?_)⟩
    rw [claims]
    exact fun again => other (same.symm.trans (Option.some.inj again).symm)
  obtain ⟨p, found', ordersTotal, spentTotal⟩ := inv.totals
  obtain rfl : p = old := Option.some.inj (found'.symm.trans found)
  refine ⟨⟨⟨_, profile, ?_, ?_⟩, fun u hu alive' => ?_, fun u hu v hv alive₁ alive₂ some same => ?_, fun u hu v hv alive₁ alive₂ some some' => ?_⟩,
    fun tx' other u isOpen' => ?_⟩
  · show new.totalOrders.toInt = _
    rw [oneMore.orders, ordersTotal, countOf, countOf, countedSum_record _ hevt (order ▸ unrecorded) records, add_assoc]
  · show new.totalSpent.toDecimal = _
    rw [oneMore.spent, spentTotal, spentOf, spentOf, countedSum_record _ hevt (order ▸ unrecorded) records, add_assoc]
  · obtain ⟨apart, before, hbefore, same, wasAlive, claimed, seen, write, fresh⟩ := open_after_commit hu alive'
    have sound := inv.sound before hbefore wasAlive
    have apart : before.id ≠ t.id := fun again => apart (same.symm.trans (again.trans named))
    refine ⟨fun orderID claims' => ?_, fun p' seen' notStale => ?_, fun new' write' => ?_⟩
    · rw [claimed] at claims'
      obtain ⟨o', ho', order', unstamped'⟩ := sound.claimed orderID claims'
      refine ⟨o', orders orderID (fun again => apart ?_) o' ho' order', order', unstamped'⟩
      refine inv.oneClaim before hbefore t mem wasAlive alive ?_ ?_
      · rw [claims']
        exact Option.some_ne_none _
      · rw [claims', claims, again]
    · obtain ⟨notStale, elsewhere⟩ := fresh notStale
      rw [seen] at seen'
      have current := sound.seen p' seen' notStale
      exact (elsewhere p' seen' ((Table.find?_eq_some.1 current).2.trans writes.symm)).elim
    · rw [write] at write'
      refine (apart (inv.oneWrite before hbefore t mem wasAlive alive ?_ ?_)).elim
      · rw [write']
        exact Option.some_ne_none _
      · rw [written]
        exact Option.some_ne_none _
  · obtain ⟨-, old₁, hold₁, same₁, wasAlive₁, claimed₁, -, -, -⟩ := open_after_commit hu alive₁
    obtain ⟨-, old₂, hold₂, same₂, wasAlive₂, claimed₂, -, -, -⟩ := open_after_commit hv alive₂
    rw [← same₁, ← same₂]
    exact inv.oneClaim old₁ hold₁ old₂ hold₂ wasAlive₁ wasAlive₂ (claimed₁ ▸ some) (claimed₁.symm.trans (same.trans claimed₂))
  · obtain ⟨-, old₁, hold₁, same₁, wasAlive₁, -, -, write₁, -⟩ := open_after_commit hu alive₁
    obtain ⟨-, old₂, hold₂, same₂, wasAlive₂, -, -, write₂, -⟩ := open_after_commit hv alive₂
    rw [← same₁, ← same₂]
    exact inv.oneWrite old₁ hold₁ old₂ hold₂ wasAlive₁ wasAlive₂ (write₁ ▸ some) (write₂ ▸ some')
  · obtain ⟨hu, same, alive'⟩ := openStats_eq.1 isOpen'
    obtain ⟨-, before, hbefore, same', wasAlive, claimed, seen, write, -⟩ := open_after_commit hu alive'
    exact ⟨before, openStats_eq.2 ⟨hbefore, same'.trans same, wasAlive⟩, claimed, seen, write⟩

end Commit

/-! ## Deliveries -/

section Deliveries

variable {k : CustomerOrders} {i : StatsName} {tx : String} {w t : StatsWorld} {evt : OrderCreated}

/-- One statement. -/
theorem safe_stats {op : StatsStmt} {Q : Except StatsErr op.Reply → StatsWorld → Prop}
    (executed : ∀ t, statsRely i w t → Totalled k t → statsProceeds t op → writesFresh t op →
      KeepsTotals k i t (statsExec op t).2 ∧ Q (statsExec op t).1 (statsExec op t).2 ∧ Q (.error (.db .transient)) (statsExec op t).2)
    (failed : ∀ t, Q (.error (.db .transient)) t) :
    Safe (freshFlow k.evts.rows) (statsProtocol k) i Q (call (I := statsStore) op) w := by
  refine Safe.call (fun t rely inv may => ?_) (fun t _ _ _ => failed t) fun _ _ _ _ => trivial
  obtain ⟨keeps, replied, unreplied⟩ := executed t rely inv may.1 may.2
  exact ⟨keeps.inv, fun j other => keeps.rely other, replied, fun _ => unreplied⟩

/-- A statement of the delivery on its transaction; nothing is known after an error. -/
theorem safe_within {op : StatsStmt} {body : StatsWorld → StatsTx → Except StatsErr op.Reply × StatsWorld} {A : op.Reply → StatsWorld → Prop}
    (runs : ∀ t, statsExec op t = withinStats tx t (body t))
    (executed : ∀ t tr, OwnTransaction tx w t → Totalled k t → statsProceeds t op → writesFresh t op → openStats tx t = some tr →
      KeepsTotals k (.deliver tx) t (body t tr).2 ∧ Replied A (fun _ => True) (body t tr).1 (body t tr).2) :
    Safe (freshFlow k.evts.rows) (statsProtocol k) (.deliver tx) (Replied A fun _ => True) (call (I := statsStore) op) w := by
  refine safe_stats (fun t rely inv may fresh => ?_) fun _ => trivial
  rw [runs t, withinStats]
  cases isOpen : openStats tx t with
  | none => exact ⟨inv.same, trivial, trivial⟩
  | some tr =>
    obtain ⟨keeps, after⟩ := executed t tr rely inv may fresh isOpen
    exact ⟨keeps, after, trivial⟩

/-- How far the transaction of a delivery is, if it is open. -/
def AtStage (tx : String) (claimed : Option String) (seen : Option Profile) (written : Bool) (w : StatsWorld) : Prop :=
  ∀ t, openStats tx w = some t → t.claimed = claimed ∧ t.seen = seen ∧ t.write.isSome = written

theorem AtStage.relies {claimed : Option String} {seen : Option Profile} {written : Bool} (h : AtStage tx claimed seen written w)
    (rely : OwnTransaction tx w t) : AtStage tx claimed seen written t := by
  intro t' isOpen
  obtain ⟨old, isOpen', claimed', seen', write'⟩ := rely t' isOpen
  obtain ⟨claimedOld, seenOld, writeOld⟩ := h old isOpen'
  exact ⟨claimed'.trans claimedOld, seen'.trans seenOld, (congrArg Option.isSome write').trans writeOld⟩

/-- The claim of the order. -/
theorem safe_claim (begun : AtStage tx none none false w) :
    Safe (freshFlow k.evts.rows) (statsProtocol k) (.deliver tx)
      (Replied (fun affected t => affected ≠ 0 → AtStage tx (some evt.orderID) none false t) fun _ => True)
      (call (I := statsStore) (.claim tx evt.orderID)) w := by
  refine safe_within (fun _ => rfl) fun t tr rely inv free _ isOpen => ?_
  simp only
  split
  · rename_i none'
    exact ⟨inv.same, fun some => (some none').elim⟩
  · rename_i some'
    obtain ⟨o, ho, selected⟩ := Table.affected_ne_zero.1 some'
    simp only [uncounted, Bool.and_eq_true, decide_eq_true_eq, Option.isNone_iff_eq_none] at selected
    obtain ⟨unclaimed, unseen, unwritten⟩ := begun.relies rely tr isOpen
    have unwritten : tr.write = none := by simpa using unwritten
    refine ⟨keepsTotals_setStats inv isOpen ⟨fun orderID claims => ?_, fun p seen => ?_, fun new write => ?_⟩ (.inr free) (.inl rfl),
      fun _ t' isOpen' => ?_⟩
    · obtain rfl := Option.some.inj claims
      exact ⟨o, ho, selected.1, selected.2⟩
    · exact nomatch unseen.symm.trans seen
    · exact nomatch unwritten.symm.trans write
    · rw [openStats_setStats isOpen isOpen']
      exact ⟨rfl, unseen, by rw [unwritten]; rfl⟩

/-- The read of the profile, which there is. -/
theorem safe_getCustomerProfile (claimed : AtStage tx (some evt.orderID) none false w) (own : evt.customerID = k.id) :
    Safe (freshFlow k.evts.rows) (statsProtocol k) (.deliver tx)
      (Replied (fun p t => ∃ row, p = some row ∧ row.customerID = k.id ∧ AtStage tx (some evt.orderID) (some row) false t) fun _ => True)
      (call (I := statsStore) (.getCustomerProfile tx evt.customerID)) w := by
  refine safe_within (fun _ => rfl) fun t tr rely inv _ _ isOpen => ?_
  obtain ⟨row, found, -⟩ := inv.totals
  obtain ⟨claims, -, unwritten⟩ := claimed.relies rely tr isOpen
  have unwritten' : tr.write = none := by simpa using unwritten
  obtain ⟨mem, -, alive⟩ := openStats_eq.1 isOpen
  rw [own, found]
  refine ⟨keepsTotals_setStats inv isOpen ⟨(inv.sound tr mem alive).claimed, fun p seen _ => ?_, fun new write => ?_⟩ (.inl rfl) (.inl rfl),
    row, rfl, (Table.find?_eq_some.1 found).2, fun t' isOpen' => ?_⟩
  · exact found.trans seen
  · exact nomatch unwritten'.symm.trans write
  · rw [openStats_setStats isOpen isOpen']
    exact ⟨claims, rfl, unwritten⟩

/-- The write of the new totals: nobody has committed the profile since it was read. -/
theorem safe_updateProfileOrderStats {row : Profile} {average : ℚ} (mem : evt ∈ k.evts.rows) (named : row.customerID = k.id)
    (read : AtStage tx (some evt.orderID) (some row) false w) :
    Safe (freshFlow k.evts.rows) (statsProtocol k) (.deliver tx) (Replied (fun _ => AtStage tx (some evt.orderID) (some row) true) fun _ => True)
      (call (I := statsStore) (.updateProfileOrderStats tx evt.customerID (row.totalOrders + 1) (row.totalSpent.toDecimal + evt.totalAmount)
        average)) w := by
  refine safe_within (fun _ => rfl) fun t tr rely inv free fresh isOpen => ?_
  obtain ⟨own, -⟩ := k.own evt mem
  obtain ⟨claims, seen, -⟩ := read.relies rely tr isOpen
  obtain ⟨hmem, hnamed, alive⟩ := openStats_eq.1 isOpen
  have sound := inv.sound tr hmem alive
  have current := sound.seen row seen (fresh tr hmem hnamed alive)
  obtain ⟨o, ho, order, unstamped⟩ := sound.claimed evt.orderID claims
  obtain ⟨p, found, orders, -⟩ := inv.totals
  obtain rfl : p = row := Option.some.inj (found.symm.trans current)
  -- there is an order left to count, so the counter does not wrap
  have fits : p.totalOrders.toInt + 1 < 2 ^ 31 := by
    have next : countedSum (fun _ => (1 : Int)) k.evts (applyClaim (some o.id) 0 t) = countOf k.evts t + 1 :=
      countedSum_record _ mem (order ▸ unrecorded_of_mem ho unstamped) fun orderID => order ▸ recorded_applyClaim ho orderID
    have le := countOf_le k.evts (applyClaim (some o.id) 0 t)
    have fits := k.fits
    rw [countOf, next] at le
    omega
  rw [own, current]
  simp only
  rw [← own]
  split
  · exact ⟨inv.same, trivial⟩
  · rename_i new written
    refine ⟨keepsTotals_setStats inv isOpen ⟨sound.claimed, sound.seen, fun new' write => ?_⟩ (.inl rfl) (.inr fun t' mem' other alive' => ?_),
      fun t' isOpen' => ?_⟩
    · obtain rfl := Option.some.inj write
      exact ⟨evt, mem, claims, p, current, oneMore_profileRow mem named fits written⟩
    · -- a write of another transaction would be to the same row
      cases write : t'.write with
      | none => rfl
      | some new' =>
        obtain ⟨_, _, -, old, found', oneMore⟩ := (inv.sound t' mem' alive').write new' write
        have same := oneMore.customer.trans (Table.find?_eq_some.1 found').2
        exact (free t' mem' other alive' new' write (same.trans own.symm)).elim
    · rw [openStats_setStats isOpen isOpen']
      exact ⟨claims, seen, rfl⟩

theorem safe_commit {row : Profile} (written : AtStage tx (some evt.orderID) (some row) true w) :
    Safe (freshFlow k.evts.rows) (statsProtocol k) (.deliver tx) (Replied (fun _ _ => True) fun _ => True)
      (call (I := statsStore) (.commit tx)) w := by
  refine safe_within (fun _ => rfl) fun t tr rely inv _ _ isOpen => ?_
  obtain ⟨-, -, write⟩ := written.relies rely tr isOpen
  obtain ⟨new, write⟩ := Option.isSome_iff_exists.1 write
  exact ⟨keepsTotals_commit inv isOpen write, trivial⟩

/-- The body of the transaction: once it is through, the profile is written. -/
theorem safe_recordStats (mem : evt ∈ k.evts.rows) (begun : AtStage tx none none false w) :
    Safe (freshFlow k.evts.rows) (statsProtocol k) (.deliver tx)
      (Replied (fun _ t => ∃ row, AtStage tx (some evt.orderID) (some row) true t) fun _ => True) (recordStats tx evt) w := by
  obtain ⟨own, -⟩ := k.own evt mem
  unfold recordStats
  refine Safe.bind ((safe_claim begun).mono fun affected t claimed => ?_)
  cases affected with
  | error e => exact trivial
  | ok affected =>
    simp only
    split
    · exact trivial
    · rename_i some
      refine Safe.bind ((safe_getCustomerProfile (claimed some) own).mono fun profile u read => ?_)
      cases profile with
      | error e => exact trivial
      | ok profile =>
        obtain ⟨row, rfl, named, read⟩ := read
        simp only
        split
        · exact trivial
        · have updates : ∀ {v : StatsWorld}, AtStage tx (Option.some evt.orderID) (Option.some row) false v →
              Safe (freshFlow k.evts.rows) (statsProtocol k) (.deliver tx)
                (Replied (fun _ t => ∃ row, AtStage tx (Option.some evt.orderID) (Option.some row) true t) fun _ => True)
                (ignore (call (I := statsStore) (.updateProfileOrderStats tx evt.customerID (row.totalOrders + 1)
                  (row.totalSpent.toDecimal + evt.totalAmount)
                  (divide (row.totalSpent.toDecimal + evt.totalAmount) (row.totalOrders + 1).toInt)))) v := by
            intro v read
            refine Safe.bind ((safe_updateProfileOrderStats mem named read).mono fun r x written => ?_)
            cases r with
            | ok _ => exact ⟨row, written⟩
            | error e => exact trivial
          split
          · have reads : Safe (freshFlow k.evts.rows) (statsProtocol k) (.deliver tx)
                (Replied (fun _ => AtStage tx (Option.some evt.orderID) (Option.some row) false) fun _ => True)
                (call (I := statsStore) (.getCustomerFirstContactAt tx evt.customerID)) u :=
              safe_within (fun _ => rfl) fun v _ rely inv _ _ _ => ⟨inv.same, read.relies rely⟩
            refine Safe.bind (reads.mono fun r v read => ?_)
            cases r with
            | ok _ => exact updates read
            | error e => exact trivial
          · exact updates read

theorem safe_statsTransaction {now : Nat} (mem : evt ∈ k.evts.rows) :
    Safe (freshFlow k.evts.rows) (statsProtocol k) (.deliver tx) (fun _ _ => True) (statsTransaction tx evt now) w := by
  unfold statsTransaction
  have begins : Safe (freshFlow k.evts.rows) (statsProtocol k) (.deliver tx) (Replied (fun _ => AtStage tx none none false) fun _ => True)
      (call (I := statsStore) (.begin tx now)) w := by
    refine safe_stats (fun t _ inv _ _ => ?_) fun _ => trivial
    simp only [statsExec]
    split
    · rename_i transactions inserted
      obtain ⟨unused, rows⟩ := Table.insert_eq_some.1 inserted
      have added : ∀ tr ∈ transactions.rows, tr ∈ t.transactions.rows ∨ tr = ⟨tx, false, now, none, none, false, none⟩ := by
        intro tr mem
        rwa [rows, List.mem_append, List.mem_singleton] at mem
      refine ⟨⟨⟨inv.totals, fun tr mem alive => ?_, fun u hu v hv alive₁ alive₂ some same => ?_, fun u hu v hv alive₁ alive₂ some some' => ?_⟩,
        fun tx' other tr isOpen => ?_⟩, fun tr isOpen => ?_, trivial⟩
      · rcases added tr mem with mem | rfl
        · exact (inv.sound tr mem alive).congr rfl rfl
        · exact ⟨fun _ claims => (nomatch claims), fun _ seen => (nomatch seen), fun _ write => (nomatch write)⟩
      · rcases added u hu with hu | rfl
        · rcases added v hv with hv | rfl
          · exact inv.oneClaim u hu v hv alive₁ alive₂ some same
          · exact (some same).elim
        · exact (some rfl).elim
      · rcases added u hu with hu | rfl
        · rcases added v hv with hv | rfl
          · exact inv.oneWrite u hu v hv alive₁ alive₂ some some'
          · exact (some' rfl).elim
        · exact (some rfl).elim
      · obtain ⟨mem, named, alive⟩ := openStats_eq.1 isOpen
        rcases added tr mem with mem | rfl
        · exact ⟨tr, openStats_eq.2 ⟨mem, named, alive⟩, rfl, rfl, rfl⟩
        · exact (other (named ▸ rfl)).elim
      · obtain ⟨mem, named, -⟩ := openStats_eq.1 isOpen
        rcases added tr mem with mem | rfl
        · exact (unused tr mem named).elim
        · exact ⟨rfl, rfl, rfl⟩
    · exact ⟨inv.same, trivial, trivial⟩
  refine Safe.bind (begins.mono fun began t after => ?_)
  cases began with
  | error e => exact trivial
  | ok _ =>
    refine Safe.bind (Safe.attempt ((safe_recordStats mem after).mono fun done u after => ?_))
    cases done with
    | ok _ =>
      obtain ⟨row, written⟩ := after
      exact (safe_commit written).mono fun _ _ _ => trivial
    | error e =>
      refine Safe.bind (Safe.bind (Safe.attempt ?_))
      exact safe_stats (fun v _ inv _ _ => ⟨keepsTotals_end inv, trivial, trivial⟩) fun _ => trivial

end Deliveries

/-! ## Runs -/

/-- Every job keeps the protocol wherever it starts. -/
theorem safe_statsJob {k : CustomerOrders} {i : StatsName} {p : StatsHandler Unit} {w : StatsWorld} (may : (freshFlow k.evts.rows).job i p) :
    Safe (freshFlow k.evts.rows) (statsProtocol k) i (fun _ => (statsProtocol k).idle i) p w := by
  cases may with
  | deliver tx evt now one =>
    unfold handleProfileStats
    refine Safe.bind (Safe.attempt ((safe_statsTransaction one).mono fun outcome t _ => ?_))
    simp only
    split <;> exact trivial
  | rollback n tx => exact safe_stats (fun t _ inv _ _ => ⟨keepsTotals_end inv, trivial, trivial⟩) fun _ => trivial

/-- The profile has the totals of the customer's orders on top of its first ones. -/
def HasTotals (k : CustomerOrders) (w : StatsWorld) : Prop :=
  ∃ p, w.profiles.find? k.id = some p ∧ p.totalOrders.toInt = k.totalOrders.toInt + k.evts.rows.length ∧
    p.totalSpent.toDecimal = k.totalSpent.toDecimal + (k.evts.rows.map OrderCreated.totalAmount).sum

instance (k : CustomerOrders) (w : StatsWorld) : Decidable (HasTotals k w) :=
  match found : w.profiles.find? k.id with
  | none => isFalse fun h => by
    obtain ⟨p, found', -⟩ := h
    exact nomatch found.symm.trans found'
  | some p => decidable_of_iff (p.totalOrders.toInt = k.totalOrders.toInt + k.evts.rows.length ∧
      p.totalSpent.toDecimal = k.totalSpent.toDecimal + (k.evts.rows.map OrderCreated.totalAmount).sum)
    ⟨fun h => ⟨p, found, h⟩, fun ⟨p', found', h⟩ => by
      obtain rfl := Option.some.inj (found.symm.trans found')
      exact h⟩

/-- As long as no delivery writes a profile that another one has committed since it was read, the totals are right once every order
is counted. -/
theorem totals_of_fresh {k : CustomerOrders} {w : StatsWorld} {c : Crew statsStore StatsName StatsWorld}
    (profile : ∃ p, w.profiles.find? k.id = some p ∧ p.totalOrders = k.totalOrders ∧ p.totalSpent = k.totalSpent)
    (uncounted : ∀ evt ∈ k.evts.rows, recorded evt.orderID w = false) (quiet : w.transactions.rows = [])
    (reach : (freshFlow k.evts.rows).Reach ⟨w, []⟩ c) (all : ∀ evt ∈ k.evts.rows, recorded evt.orderID c.state = true) :
    HasTotals k c.state := by
  have nothing : ∀ {M : Type} [AddCommGroup M] (g : OrderCreated → M), countedSum g k.evts w = 0 := by
    intro M _ g
    unfold countedSum
    refine List.sum_eq_zero fun x mem => ?_
    obtain ⟨evt, hevt, rfl⟩ := List.mem_map.1 mem
    rw [uncounted evt hevt]
    rfl
  have start : Totalled k w := by
    obtain ⟨p, found, orders, spent⟩ := profile
    refine ⟨⟨p, found, ?_, ?_⟩, fun t mem => ?_, fun t mem => ?_, fun t mem => ?_⟩
    · rw [countOf, nothing, add_zero, orders]
    · rw [spentOf, nothing, add_zero, spent]
    · rw [quiet] at mem
      cases mem
    · rw [quiet] at mem
      cases mem
    · rw [quiet] at mem
      cases mem
  have safe : ∀ i p s, (freshFlow k.evts.rows).job i p → (statsProtocol k).inv s → (statsProtocol k).idle i s →
      Safe (freshFlow k.evts.rows) (statsProtocol k) i (fun _ => (statsProtocol k).idle i) p s := fun i p s may _ _ => safe_statsJob may
  obtain ⟨p, found, orders, spent⟩ := (Protocol.invariant safe reach start fun _ => trivial).totals
  refine ⟨p, found, ?_, ?_⟩
  · rw [orders, countOf, countedSum_all _ all]
    simp
  · rw [spent, spentOf, countedSum_all _ all]

/-- Two orders of one customer, of 10.00 and 5.00. -/
def firstOrder : OrderCreated := ⟨"o1", "biz", "cust", "conv", 10, "GHS"⟩

@[inherit_doc firstOrder] def secondOrder : OrderCreated := ⟨"o2", "biz", "cust", "conv", 5, "GHS"⟩

/-- A customer with these orders, and none before. -/
def twoOrders : CustomerOrders where
  id := "cust"
  evts := ⟨[firstOrder, secondOrder], by decide⟩
  totalOrders := 0
  totalSpent := ⟨0, by decide⟩
  own := by
    intro evt mem
    rcases List.mem_cons.1 mem with rfl | mem
    · exact ⟨rfl, ⟨1000, by decide⟩, by decide +kernel⟩
    · obtain rfl := List.mem_singleton.1 mem
      exact ⟨rfl, ⟨500, by decide⟩, by decide +kernel⟩
  fits := by decide

/-- Nothing is counted yet. -/
def beforeOrders : StatsWorld where
  orders := ⟨[⟨"o1", none⟩, ⟨"o2", none⟩], by decide⟩
  profiles := ⟨[⟨"cust", 0, ⟨0, by decide⟩, none⟩], by decide⟩
  transactions := Table.empty

/-- One delivery after the other, and a redelivery. -/
theorem totals_of_fresh_in_turn :
    ∃ c : Crew statsStore StatsName StatsWorld, (freshFlow twoOrders.evts.rows).Reach ⟨beforeOrders, []⟩ c ∧ HasTotals twoOrders c.state := by
  have first := (freshFlow twoOrders.evts.rows).reach_job (i := .deliver "t1") (s := beforeOrders) (.deliver "t1" firstOrder 1 (by decide))
    (by decide +kernel)
  have second := (freshFlow twoOrders.evts.rows).reach_job (i := .deliver "t2") (.deliver "t2" secondOrder 2 (by decide))
    (by decide +kernel : (freshFlow twoOrders.evts.rows).Follows (handleProfileStats "t2" secondOrder 2)
      ((handleProfileStats "t1" firstOrder 1).run statsExec beforeOrders).2)
  have reach := first.trans second
  exact ⟨_, reach, totals_of_fresh (by decide +kernel) (by decide +kernel) rfl reach (by decide +kernel)⟩

/-- The first delivery has read the profile. -/
def firstRead : StatsHandler Unit × StatsWorld := (handleProfileStats "t1" firstOrder 1).steps statsExec 3 beforeOrders

/-- So has the second. -/
def secondRead : StatsHandler Unit × StatsWorld := (handleProfileStats "t2" secondOrder 2).steps statsExec 3 firstRead.2

/-- Two deliveries that have read the same profile: both orders are counted, and the profile has one of them. -/
theorem update_lost :
    ¬ ∀ c : Crew statsStore StatsName StatsWorld, (statsFlow twoOrders.evts.rows).Reach ⟨beforeOrders, []⟩ c →
      (∀ evt ∈ twoOrders.evts.rows, recorded evt.orderID c.state = true) → HasTotals twoOrders c.state := by
  intro totals
  have spawned : (statsFlow twoOrders.evts.rows).Reach ⟨beforeOrders, []⟩
      ⟨beforeOrders, [] ++ (.deliver "t1", handleProfileStats "t1" firstOrder 1) :: []⟩ :=
    .single (.spawn (.deliver "t1" firstOrder 1 (by decide)) List.not_mem_nil)
  have first := spawned.trans ((statsFlow twoOrders.evts.rows).reach_steps 3 [] [] (by decide +kernel))
  have again := first.tail (.spawn (.deliver "t2" secondOrder 2 (by decide)) (by decide))
  have second := again.trans ((statsFlow twoOrders.evts.rows).reach_steps 3 [] [(.deliver "t1", firstRead.1)] (by decide +kernel))
  have firstEnds := second.trans ((statsFlow twoOrders.evts.rows).reach_end [(.deliver "t2", secondRead.1)] [] (by decide +kernel))
  have bothEnd := firstEnds.trans ((statsFlow twoOrders.evts.rows).reach_end []
    [(.deliver "t1", .ret (firstRead.1.run statsExec secondRead.2).1)] (by decide +kernel))
  exact absurd (totals _ bothEnd (by decide +kernel)) (by decide +kernel)

end NovoApex.ProfileStats
