import NovoApex.Handlers.Revenue
import NovoApex.Payments.Amounts

/-!
# What the revenue reports add up to

The five reads of the revenue service look at the same payments and orders through
different groupings. Every successful payment is in one period, one day lies in one month,
every payment has one status, and every line of an order that counts is one product's. So
the reports agree: the periods add up to the total revenue, the days of a month to the
month, the statuses to all payments, and the products to the totals of the orders, which
rests on the ledger of the pipeline.
-/

namespace NovoApex.Payments
set_option autoImplicit false
open Lib Aggregates Calendar Handlers

/-! ## The orders of the rows -/

theorem newer_total (p q : Option Int) : newer p q ∨ newer q p := by
  cases p with
  | none => exact .inl trivial
  | some p =>
    cases q with
    | none => exact .inr trivial
    | some q => exact le_total q p

theorem newer_trans {p q r : Option Int} (first : newer p q) (second : newer q r) : newer p r := by
  cases p with
  | none => trivial
  | some p =>
    cases q with
    | none => exact first.elim
    | some q =>
      cases r with
      | none => exact second.elim
      | some r => exact le_trans (b := q) second first

instance : Std.Total newestFirst := ⟨fun a b => newer_total a.period b.period⟩

instance : IsTrans RevenuePeriodEntry newestFirst := ⟨fun _ _ _ first second => newer_trans first second⟩

theorem moreFirst_total (a b : PaymentStatusBreakdown) : moreFirst a b ∨ moreFirst b a := by
  rcases lt_trichotomy a.count b.count with less | same | more
  · exact .inr (.inl less)
  · rcases String.le_total (paymentStatusText a.status) (paymentStatusText b.status) with le | le
    · exact .inl (.inr ⟨same, le⟩)
    · exact .inr (.inr ⟨same.symm, le⟩)
  · exact .inl (.inl more)

theorem moreFirst_trans {a b c : PaymentStatusBreakdown} (first : moreFirst a b) (second : moreFirst b c) : moreFirst a c := by
  rcases first with more | ⟨same, le⟩ <;> rcases second with more' | ⟨same', le'⟩
  · exact .inl (more'.trans more)
  · exact .inl (same' ▸ more)
  · exact .inl (same ▸ more')
  · exact .inr ⟨same.trans same', String.le_trans le le'⟩

instance : Std.Total moreFirst := ⟨moreFirst_total⟩

instance : IsTrans PaymentStatusBreakdown moreFirst := ⟨fun _ _ _ => moreFirst_trans⟩

instance : Std.Total earnsMore := ⟨fun a b => le_total b.totalRevenue a.totalRevenue⟩

instance : IsTrans TopProduct earnsMore := ⟨fun _ b _ first second => le_trans (b := b.totalRevenue) second first⟩

/-- The rows of a report have the keys of their groups, so no two have one. -/
theorem report_distinct {R K E : Type} [DecidableEq K] {key : R → K} {rows : List R} {before : E → E → Prop} [DecidableRel before]
    (entry : K × List R → E) {keyOf : E → K} (keyed : ∀ g, keyOf (entry g) = g.1) :
    ((orderBy before ((groupBy key rows).map entry)).map keyOf).Nodup := by
  refine ((orderBy_perm before _).map keyOf).nodup_iff.2 ?_
  rw [List.map_map, show (keyOf ∘ entry) = Prod.fst from funext keyed]
  exact groupBy_nodup

/-- A row of a report is that of a group. -/
theorem mem_report {R K E : Type} [DecidableEq K] {key : R → K} {rows : List R} {before : E → E → Prop} [DecidableRel before]
    {entry : K × List R → E} {e : E} (h : e ∈ orderBy before ((groupBy key rows).map entry)) :
    ∃ k, (∃ r ∈ rows, key r = k) ∧ e = entry (k, groupOf key rows k) := by
  obtain ⟨g, mem, rfl⟩ := List.mem_map.1 ((mem_orderBy before).1 h)
  obtain ⟨there, group⟩ := mem_groupBy.1 mem
  exact ⟨g.1, there, congrArg entry (Prod.ext rfl group)⟩

/-- Every row's group has its row in the report. -/
theorem exists_report {R K E : Type} [DecidableEq K] {key : R → K} {rows : List R} (before : E → E → Prop) [DecidableRel before]
    (entry : K × List R → E) {r : R} (mem : r ∈ rows) :
    entry (key r, groupOf key rows (key r)) ∈ orderBy before ((groupBy key rows).map entry) :=
  (mem_orderBy before).2 (List.mem_map_of_mem (mem_groupBy.2 ⟨⟨r, mem, rfl⟩, rfl⟩))

/-- A column that adds up over each group adds up over the report. -/
theorem sum_report {R K E M : Type} [DecidableEq K] [AddCommMonoid M] {key : R → K} {rows : List R} {before : E → E → Prop}
    [DecidableRel before] {entry : K × List R → E} (column : E → M) (f : R → M) (sums : ∀ g, column (entry g) = (g.2.map f).sum) :
    ((orderBy before ((groupBy key rows).map entry)).map column).sum = (rows.map f).sum := by
  rw [sum_orderBy, List.map_map, show (column ∘ entry) = fun g => (g.2.map f).sum from funext sums]
  exact sum_groupBy key rows f

/-! ## Periods -/

theorem truncation_dateTrunc (g : Granularity) : Truncation (dateTrunc g) := by
  cases g with
  | day => exact truncation_day
  | week => exact truncation_week
  | month => exact truncation_month

/-- The report lists the periods of the payments, each with what was paid in it. -/
structure PeriodReport (g : Granularity) (payments : List Payment) (entries : List RevenuePeriodEntry) : Prop where
  newestFirst : entries.Pairwise fun a b => a.period ≠ b.period ∧ newer a.period b.period
  complete : ∀ p ∈ payments, ∃ e ∈ entries, e.period = periodOf g p
  rows : ∀ e ∈ entries, 0 < e.transactionCount ∧ e.transactionCount = (groupOf (periodOf g) payments e.period).length ∧
    e.totalRevenue = sumOf (groupOf (periodOf g) payments e.period)
  transactions : (entries.map RevenuePeriodEntry.transactionCount).sum = payments.length
  revenue : (entries.map RevenuePeriodEntry.totalRevenue).sum = sumOf payments

theorem periodReport (g : Granularity) (payments : List Payment) : PeriodReport g payments (revenueByPeriod g payments) where
  newestFirst := by
    have distinct : ((revenueByPeriod g payments).map RevenuePeriodEntry.period).Nodup :=
      report_distinct periodEntry fun _ => rfl
    exact (List.pairwise_map.1 distinct).and (orderBy_pairwise Handlers.newestFirst _)
  complete p mem := ⟨_, exists_report Handlers.newestFirst periodEntry mem, rfl⟩
  rows e mem := by
    obtain ⟨k, ⟨p, there, rfl⟩, rfl⟩ := mem_report mem
    refine ⟨?_, rfl, rfl⟩
    exact List.length_pos_of_mem (mem_groupOf.2 ⟨there, rfl⟩)
  transactions := by
    rw [revenueByPeriod, sum_report RevenuePeriodEntry.transactionCount (fun _ => 1) fun g => by simp [periodEntry]]
    simp
  revenue := sum_report RevenuePeriodEntry.totalRevenue (fun p : Payment => p.amount.toDecimal) fun _ => rfl

/-- The month a day of a report is in. -/
def monthOfDay (day : Option Int) : Option Int := day.map fun start => truncMonth start.toNat

theorem monthOfDay_period (p : Payment) : monthOfDay (periodOf .day p) = periodOf .month p := by
  have same : ∀ t, truncMonth (truncDay t).toNat = truncMonth t := fun t => truncMonth_of_day (truncDay_start t)
  unfold monthOfDay periodOf
  rw [Option.map_map]
  exact congrArg (fun f => p.paidAt.map f) (funext same)

/-- A month's revenue is that of its days. -/
theorem month_of_days (payments : List Payment) {m : RevenuePeriodEntry} (mem : m ∈ revenueByPeriod .month payments) :
    m.totalRevenue = (((revenueByPeriod .day payments).filter fun d => decide (monthOfDay d.period = m.period)).map
      RevenuePeriodEntry.totalRevenue).sum := by
  have rows := ((periodReport .month payments).rows m mem).2.2
  have rollup := sum_rollup (periodOf .day) monthOfDay payments (fun p => p.amount.toDecimal) m.period
  have same : (fun p => monthOfDay (periodOf .day p)) = periodOf .month := funext monthOfDay_period
  rw [same] at rollup
  rw [rows, sumOf, ← rollup]
  have sorted : ((revenueByPeriod .day payments).filter fun d => decide (monthOfDay d.period = m.period)).Perm
      (((groupBy (periodOf .day) payments).map periodEntry).filter fun d => decide (monthOfDay d.period = m.period)) :=
    (orderBy_perm newestFirst _).filter _
  rw [(sorted.map RevenuePeriodEntry.totalRevenue).sum_eq, List.filter_map, List.map_map]
  rfl

/-! ## Statuses -/

/-- The breakdown lists the statuses of the payments, each with its payments. -/
structure StatusReport (payments : List Payment) (lines : List PaymentStatusBreakdown) : Prop where
  moreFirst : lines.Pairwise fun a b => a.status ≠ b.status ∧ moreFirst a b
  complete : ∀ p ∈ payments, ∃ l ∈ lines, l.status = p.status
  rows : ∀ l ∈ lines, 0 < l.count ∧ l.count = (groupOf Payment.status payments l.status).length ∧
    l.totalAmount = sumOf (groupOf Payment.status payments l.status)
  count : (lines.map PaymentStatusBreakdown.count).sum = payments.length

theorem statusReport (businessID : String) (db : Database) :
    StatusReport (db.payments.rows.filter fun p => decide (p.businessID = businessID)) (getPaymentsByStatus businessID db) where
  moreFirst := by
    have distinct : ((getPaymentsByStatus businessID db).map PaymentStatusBreakdown.status).Nodup := by
      unfold getPaymentsByStatus
      exact report_distinct _ fun _ => rfl
    exact (List.pairwise_map.1 distinct).and (orderBy_pairwise Handlers.moreFirst _)
  complete p mem := ⟨_, exists_report Handlers.moreFirst (fun g => ⟨g.1, g.2.length, sumOf g.2⟩) mem, rfl⟩
  rows l mem := by
    obtain ⟨k, ⟨p, there, rfl⟩, rfl⟩ := mem_report mem
    refine ⟨?_, rfl, rfl⟩
    exact List.length_pos_of_mem (mem_groupOf.2 ⟨there, rfl⟩)
  count := by
    rw [getPaymentsByStatus, sum_report PaymentStatusBreakdown.count (fun _ => 1) fun g => by simp]
    simp

/-- What the breakdown says of the successful payments is the total revenue. -/
theorem success_line {businessID : String} {db : Database} {l : PaymentStatusBreakdown} (mem : l ∈ getPaymentsByStatus businessID db)
    (success : l.status = .success) : l.totalAmount = getTotalRevenue businessID none db := by
  have rows := ((statusReport businessID db).rows l mem).2.2
  rw [rows, success, getTotalRevenue]
  unfold groupOf successfulPayments
  rw [List.filter_filter]
  congr 1
  refine List.filter_congr fun p _ => ?_
  by_cases own : p.businessID = businessID <;> simp [own]

/-! ## Reports over one another -/

/-- For every store, every business and every window, a report by day, week or month lists the periods in which something was
paid, newest first and once each, each period being an interval of time with what was paid in it; its revenue and its counts add
up to the total revenue and the number of the payments, a month's revenue is that of its days, and what the breakdown by status
says of the successful payments is the total revenue. -/
theorem revenue_reports_agree (businessID : String) (dateRange : Option RevenueDateRange) (db : Database) :
    (∀ g : Granularity, Truncation (dateTrunc g) ∧ ∃ entries, getRevenueByPeriod businessID g.text dateRange db = .ok entries ∧
      PeriodReport g (successfulPayments businessID dateRange db) entries ∧
      (entries.map RevenuePeriodEntry.totalRevenue).sum = getTotalRevenue businessID dateRange db) ∧
    (∀ days months, getRevenueByPeriod businessID "day" dateRange db = .ok days →
      getRevenueByPeriod businessID "month" dateRange db = .ok months → ∀ m ∈ months, m.totalRevenue =
        ((days.filter fun d => decide (monthOfDay d.period = m.period)).map RevenuePeriodEntry.totalRevenue).sum) ∧
    StatusReport (db.payments.rows.filter fun p => decide (p.businessID = businessID)) (getPaymentsByStatus businessID db) ∧
    ∀ l ∈ getPaymentsByStatus businessID db, l.status = .success → l.totalAmount = getTotalRevenue businessID none db := by
  refine ⟨fun g => ⟨truncation_dateTrunc g, revenueByPeriod g (successfulPayments businessID dateRange db), ?_, periodReport g _, ?_⟩,
    ?_, statusReport businessID db, fun l mem => success_line mem⟩
  · cases g <;> rfl
  · exact (periodReport g _).revenue
  · intro days months byDay byMonth m mem
    obtain rfl := Except.ok.inj byDay
    obtain rfl := Except.ok.inj byMonth
    exact month_of_days _ mem

/-! ## Products -/

/-- The orders that count. -/
def countedOrders (businessID : String) (db : Database) : List Order := db.orders.rows.filter (counts businessID)

/-- The product of a line, by its identity and by its name when it was ordered. -/
def productOf (i : OrderItem) : String × String := (i.productID, i.productName)

/-- The lines of one order that counts are all its lines. -/
theorem groupOf_countedItems {businessID : String} {db : Database} {o : Order} (mem : o ∈ countedOrders businessID db) :
    groupOf OrderItem.orderID (countedItems businessID db) o.id = db.orderItems.rows.filter fun i => decide (i.orderID = o.id) := by
  obtain ⟨there, counted⟩ := List.mem_filter.1 mem
  have found : db.orders.find? o.id = some o := Table.find?_eq_some.2 ⟨there, rfl⟩
  unfold groupOf countedItems
  rw [List.filter_filter]
  refine List.filter_congr fun i _ => ?_
  by_cases own : i.orderID = o.id <;> simp [own, found, counted]

/-- The lines that count add up to the totals of the orders that count. -/
theorem sum_countedItems {db : Database} (ledger : Orders.Ledger db) (businessID : String) :
    ((countedItems businessID db).map lineRevenue).sum = ((countedOrders businessID db).map fun o => o.totalAmount.toDecimal).sum := by
  have nodup : ((countedOrders businessID db).map Order.id).Nodup := db.orders.unique.sublist (List.filter_sublist.map _)
  have all : ∀ i ∈ countedItems businessID db, i.orderID ∈ (countedOrders businessID db).map Order.id := by
    intro i mem
    obtain ⟨-, counted⟩ := List.mem_filter.1 mem
    obtain ⟨o, found, counted⟩ := (Option.any_eq_true _ _).1 counted
    obtain ⟨there, id⟩ := Table.find?_eq_some.1 found
    exact List.mem_map.2 ⟨o, List.mem_filter.2 ⟨there, counted⟩, id⟩
  rw [← sum_groups nodup lineRevenue all, List.map_map]
  congr 1
  refine List.map_congr_left fun o mem => ?_
  have stored := ledger.total o (List.mem_filter.1 mem).1
  rw [Function.comp_apply, groupOf_countedItems mem, stored, ← itemsTotal_eq]
  rfl

/-- The report lists the products of the lines that count, each with its lines. -/
structure ProductReport (items : List OrderItem) (products : List TopProduct) : Prop where
  distinct : (products.map fun p => (p.productID, p.productName)).Nodup
  complete : ∀ i ∈ items, ∃ p ∈ products, (p.productID, p.productName) = productOf i
  rows : ∀ p ∈ products, p.totalQuantity = ((groupOf productOf items (p.productID, p.productName)).map fun i => i.quantity.toInt).sum ∧
    p.totalRevenue = ((groupOf productOf items (p.productID, p.productName)).map lineRevenue).sum

theorem productReport (businessID : String) (db : Database) : ProductReport (countedItems businessID db) (productsByRevenue businessID db) where
  distinct := report_distinct topProduct fun _ => rfl
  complete i mem := ⟨_, exists_report earnsMore topProduct mem, rfl⟩
  rows p mem := by
    obtain ⟨k, -, rfl⟩ := mem_report mem
    exact ⟨rfl, rfl⟩

/-- What a list of the best products says. -/
structure TopList (limit : Int) (products top : List TopProduct) : Prop where
  listed : top.Sublist products
  ranked : top.Pairwise earnsMore
  length : top.length = min (if limit ≤ 0 then 10 else limit).toNat products.length
  best : ∀ p ∈ products, p ∉ top → ∀ q ∈ top, p.totalRevenue ≤ q.totalRevenue

/-- A limit of 32 bits is asked for as it is, or as ten. -/
theorem cut_limit {limit : Int} (small : limit < 2 ^ 31) :
    (Int32.ofInt (if limit ≤ 0 then 10 else limit)).toInt = if limit ≤ 0 then 10 else limit := by
  apply Int32.toInt_ofInt_of_le
  · split <;> omega
  · split <;> omega

theorem topList (businessID : String) {limit : Int} (db : Database) (small : limit < 2 ^ 31) :
    ∃ top, getTopProducts businessID limit db = .ok top ∧ TopList limit (productsByRevenue businessID db) top := by
  have ordered := orderBy_pairwise earnsMore ((groupBy productOf (countedItems businessID db)).map topProduct)
  have positive : ¬ (if limit ≤ 0 then 10 else limit) < 0 := by
    split <;> omega
  refine ⟨(productsByRevenue businessID db).take (if limit ≤ 0 then 10 else limit).toNat, ?_, ?_⟩
  · unfold getTopProducts
    rw [cut_limit small]
    exact if_neg positive
  · refine ⟨List.take_sublist _ _, ordered.sublist (List.take_sublist _ _), List.length_take, fun p mem out q listed => ?_⟩
    apply take_before ordered _ q listed p
    rw [← List.take_append_drop (if limit ≤ 0 then 10 else limit).toNat (productsByRevenue businessID db)] at mem
    exact (List.mem_append.1 mem).resolve_left out

/-- In every reachable state and for every business, the report by product lists each product and name once with the quantity and
revenue of its lines, and adds up to the totals of the business's orders that are not cancelled; and for every limit below 2^31 the
best products are the first of it by revenue, as many as the limit or all of them, and none that is left out earns more than one
that is listed. -/
theorem products_add_up {jobs : Job → Bool} {allow : Database → Stmt → Prop} {db : Database} {pool : Pool store Database}
    (start : Orders.Ledger db) (run : (pipeline jobs allow).Reach ⟨db, []⟩ pool) (businessID : String) :
    ProductReport (countedItems businessID pool.state) (productsByRevenue businessID pool.state) ∧
    ((productsByRevenue businessID pool.state).map TopProduct.totalRevenue).sum =
      ((countedOrders businessID pool.state).map fun o => o.totalAmount.toDecimal).sum ∧
    ∀ limit < 2 ^ 31, ∃ top, getTopProducts businessID limit pool.state = .ok top ∧
      TopList limit (productsByRevenue businessID pool.state) top := by
  refine ⟨productReport businessID pool.state, ?_, fun limit small => topList businessID pool.state small⟩
  have products : ((productsByRevenue businessID pool.state).map TopProduct.totalRevenue).sum =
      ((countedItems businessID pool.state).map lineRevenue).sum :=
    sum_report TopProduct.totalRevenue lineRevenue fun _ => rfl
  exact products.trans (sum_countedItems (Orders.ledger_reach start run) businessID)

open Orders in
theorem products_add_up_once : (productsByRevenue "biz" (runJobs [orderOne "order-1" "m1"] shop)).length = 1 ∧
    ((productsByRevenue "biz" (runJobs [orderOne "order-1" "m1"] shop)).map TopProduct.totalRevenue).sum =
      ((countedOrders "biz" (runJobs [orderOne "order-1" "m1"] shop)).map fun o => o.totalAmount.toDecimal).sum :=
  ⟨by decide +kernel, (products_add_up (Ledger.of_empty rfl rfl rfl) (reach_jobs (by decide +kernel : Runnable (fun _ => true)
    unrestricted [orderOne "order-1" "m1"] shop)) "biz").2.1⟩

end NovoApex.Payments
