import NovoApex.Db.Schema
import NovoApex.Lib.Aggregates
import NovoApex.Lib.Calendar

/-!
# The revenue reports

`RevenueService` (`internal/handlers/revenue.go`) and the queries it runs
(`analytics_payouts.sql`): one statement each, over the payments, the orders and the order
lines of a business. `SUM` over a `NUMERIC` column is exact.
-/

namespace NovoApex.Handlers
set_option autoImplicit false
open Lib Aggregates Calendar

/-- `RevenueDateRange`, in milliseconds. -/
structure RevenueDateRange where
  first : Nat
  last : Nat
  deriving DecidableEq

/-- What a report ends in where it does not answer. -/
inductive ReportErr where
  /-- `revenue: granularity must be day, week or month, got %q`. -/
  | granularity (got : String)
  /-- SQLSTATE 2201W: LIMIT must not be negative. -/
  | negativeLimit
  deriving DecidableEq

/-- `status = 'SUCCESS'`, and `paid_at >= $2 AND paid_at <= $3` where there is a window. -/
def successfulPayments (businessID : String) (dateRange : Option RevenueDateRange) (db : Database) : List Payment :=
  db.payments.rows.filter fun p => decide (p.businessID = businessID) && decide (p.status = .success) &&
    dateRange.all fun window => p.paidAt.any fun t => decide (window.first ≤ t) && decide (t ≤ window.last)

/-- `COALESCE(SUM(amount), 0)`. -/
def sumOf (payments : List Payment) : ℚ := (payments.map fun p => p.amount.toDecimal).sum

/-- `GetTotalRevenue`: `SumSuccessfulPaymentAmounts` and `SumSuccessfulPaymentAmountsBetween`. -/
def getTotalRevenue (businessID : String) (dateRange : Option RevenueDateRange) (db : Database) : ℚ :=
  sumOf (successfulPayments businessID dateRange db)

/-! ## By period -/

inductive Granularity where
  | day | week | month
  deriving DecidableEq, Repr

def Granularity.text : Granularity → String
  | day => "day"
  | week => "week"
  | month => "month"

/-- `revenueGranularities`. -/
def revenueGranularities (s : String) : Option Granularity :=
  if s = "day" then some .day else if s = "week" then some .week else if s = "month" then some .month else none

/-- `date_trunc(granularity, paid_at)`. -/
def dateTrunc : Granularity → Nat → Int
  | .day => truncDay
  | .week => truncWeek
  | .month => truncMonth

/-- `RevenuePeriodEntry`; the period of payments without a `paid_at` is NULL. -/
structure RevenuePeriodEntry where
  period : Option Int
  totalRevenue : ℚ
  transactionCount : Nat
  deriving DecidableEq

/-- The period of a payment. -/
def periodOf (g : Granularity) (p : Payment) : Option Int := p.paidAt.map (dateTrunc g)

/-- `DESC`, which puts NULL first. -/
def newer : Option Int → Option Int → Prop
  | none, _ => True
  | some _, none => False
  | some p, some q => q ≤ p

instance (p q : Option Int) : Decidable (newer p q) :=
  match p, q with
  | none, _ => isTrue trivial
  | some _, none => isFalse id
  | some p, some q => inferInstanceAs (Decidable (q ≤ p))

/-- `ORDER BY period DESC`. -/
def newestFirst (a b : RevenuePeriodEntry) : Prop := newer a.period b.period

instance (a b : RevenuePeriodEntry) : Decidable (newestFirst a b) := inferInstanceAs (Decidable (newer _ _))

/-- One row of `RevenueByPeriodAllTime` and `RevenueByPeriodBetween`. -/
def periodEntry (g : Option Int × List Payment) : RevenuePeriodEntry := ⟨g.1, sumOf g.2, g.2.length⟩

/-- `GROUP BY period ORDER BY period DESC`. -/
def revenueByPeriod (g : Granularity) (payments : List Payment) : List RevenuePeriodEntry :=
  orderBy newestFirst ((groupBy (periodOf g) payments).map periodEntry)

/-- `GetRevenueByPeriod`. -/
def getRevenueByPeriod (businessID granularity : String) (dateRange : Option RevenueDateRange) (db : Database) :
    Except ReportErr (List RevenuePeriodEntry) :=
  match revenueGranularities granularity with
  | none => .error (.granularity granularity)
  | some g => .ok (revenueByPeriod g (successfulPayments businessID dateRange db))

/-! ## By status -/

/-- `status::text`. -/
def paymentStatusText : PaymentStatus → String
  | .pending => "PENDING"
  | .success => "SUCCESS"
  | .failed => "FAILED"
  | .refunded => "REFUNDED"

/-- `PaymentStatusBreakdown`. -/
structure PaymentStatusBreakdown where
  status : PaymentStatus
  count : Nat
  totalAmount : ℚ
  deriving DecidableEq

/-- `ORDER BY total DESC, status::text ASC`. -/
def moreFirst (a b : PaymentStatusBreakdown) : Prop :=
  b.count < a.count ∨ a.count = b.count ∧ paymentStatusText a.status ≤ paymentStatusText b.status

instance (a b : PaymentStatusBreakdown) : Decidable (moreFirst a b) := inferInstanceAs (Decidable (_ ∨ _ ∧ _))

/-- `GetPaymentsByStatus`: `PaymentTotalsByStatus`. -/
def getPaymentsByStatus (businessID : String) (db : Database) : List PaymentStatusBreakdown :=
  orderBy moreFirst ((groupBy Payment.status (db.payments.rows.filter fun p => decide (p.businessID = businessID))).map
    fun g => ⟨g.1, g.2.length, sumOf g.2⟩)

/-! ## By product -/

/-- `TopProduct`. -/
structure TopProduct where
  productID : String
  productName : String
  totalQuantity : Int
  totalRevenue : ℚ
  deriving DecidableEq

/-- The order counts: it is the business's and not cancelled. -/
def counts (businessID : String) (o : Order) : Bool := decide (o.businessID = businessID) && decide (o.status ≠ .cancelled)

/-- `order_items oi JOIN orders o ON o.id = oi.order_id WHERE …`. -/
def countedItems (businessID : String) (db : Database) : List OrderItem :=
  db.orderItems.rows.filter fun i => (db.orders.find? i.orderID).any (counts businessID)

/-- `quantity * unit_price`. -/
def lineRevenue (i : OrderItem) : ℚ := i.unitPrice.toDecimal * i.quantity.toInt

def topProduct (g : (String × String) × List OrderItem) : TopProduct where
  productID := g.1.1
  productName := g.1.2
  totalQuantity := (g.2.map fun i => i.quantity.toInt).sum
  totalRevenue := (g.2.map lineRevenue).sum

/-- `ORDER BY total_revenue DESC`. -/
def earnsMore (a b : TopProduct) : Prop := b.totalRevenue ≤ a.totalRevenue

instance (a b : TopProduct) : Decidable (earnsMore a b) := inferInstanceAs (Decidable (_ ≤ _))

/-- `GROUP BY oi.product_id, oi.product_name`, before the limit. -/
def productsByRevenue (businessID : String) (db : Database) : List TopProduct :=
  orderBy earnsMore ((groupBy (fun i => (i.productID, i.productName)) (countedItems businessID db)).map topProduct)

/-- `GetTopProducts`: `TopProductsByRevenue`; the limit is cut to 32 bits. -/
def getTopProducts (businessID : String) (limit : Int) (db : Database) : Except ReportErr (List TopProduct) :=
  let n := (Int32.ofInt (if limit ≤ 0 then 10 else limit)).toInt
  if n < 0 then .error .negativeLimit else .ok ((productsByRevenue businessID db).take n.toNat)

end NovoApex.Handlers
