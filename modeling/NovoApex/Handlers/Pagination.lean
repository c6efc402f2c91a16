import NovoApex.Db.Payouts
import NovoApex.Domain.State

/-!
# Paginated lists

`ParsePageQuery` (`internal/httpx/pagination.go`) and the endpoints that list a page:
`ordersList`, `inboxHandoffs` and `payoutsHistory`. The page number has no bound; the
offset is taken in 64 bits and handed to the query in 32.
-/

namespace NovoApex.Handlers
set_option autoImplicit false
open Lib Db

/-- `strconv.Atoi`: a sign or none, decimal digits, and a value of 64 bits. -/
def atoi (s : String) : Option Int64 :=
  let (negative, digits) : Bool × List Char := match s.toList with
    | '-' :: digits => (true, digits)
    | '+' :: digits => (false, digits)
    | digits => (false, digits)
  if digits = [] ∨ ¬ digits.all Char.isDigit then none
  else
    let n : Int := if negative then -(Nat.ofDigitChars 10 digits 0 : Nat) else (Nat.ofDigitChars 10 digits 0 : Nat)
    if -2 ^ 63 ≤ n ∧ n < 2 ^ 63 then some (Int64.ofInt n) else none

/-- What `r.URL.Query().Get` answers; an absent parameter is empty. -/
abbrev Query : Type := String → String

/-- `PageQuery`. -/
structure PageQuery where
  page : Int64
  limit : Int64
  deriving DecidableEq

/-- Why a parameter is refused. -/
inductive PageError where
  | expectedInteger (name raw : String)
  | belowMinimum (name : String) (n min : Int64)
  | aboveMaximum (name : String) (n max : Int64)
  deriving DecidableEq

/-- `pag_queryInt`. -/
def pagQueryInt (name raw : String) (default min max : Int64) : Except PageError Int64 :=
  if raw = "" then .ok default
  else
    match atoi raw with
    | none => .error (.expectedInteger name raw)
    | some n =>
      if n < min then .error (.belowMinimum name n min)
      else if max > 0 ∧ n > max then .error (.aboveMaximum name n max)
      else .ok n

/-- `ParsePageQuery`. -/
def parsePageQuery (q : Query) : Except PageError PageQuery :=
  match pagQueryInt "page" (q "page") 1 1 0 with
  | .error e => .error e
  | .ok page =>
    match pagQueryInt "limit" (q "limit") 20 1 100 with
    | .error e => .error e
    | .ok limit => .ok ⟨page, limit⟩

/-- `int32((pq.Page - 1) * pq.Limit)`. -/
def PageQuery.offset (pq : PageQuery) : Int32 := ((pq.page - 1) * pq.limit).toInt32

/-- `LIMIT $2 OFFSET $3`. -/
def limitOffset {R : Type} (limit offset : Int32) (rows : List R) : Except String (List R) :=
  if offset < 0 then .error "OFFSET must not be negative"
  else if limit < 0 then .error "LIMIT must not be negative"
  else .ok ((rows.drop offset.toInt.toNat).take limit.toInt.toNat)

/-- `Meta`. -/
structure Meta where
  total : Nat
  page : Int64
  limit : Int64
  totalPages : Int
  deriving DecidableEq

/-- `pag_totalPages`. -/
def totalPages (total : Nat) (limit : Int64) : Int :=
  if limit ≤ 0 ∨ total = 0 then 0 else (total + limit.toInt - 1) / limit.toInt

/-- What a list endpoint answers. -/
inductive ListAnswer (R : Type) where
  | invalid (e : PageError)
  | failed (message : String)
  | paginated (data : List R) (info : Meta)

/-- A page of the rows that a business has, in the order of the query. -/
def listPage {R : Type} (rows : List R) (q : Query) : ListAnswer R :=
  match parsePageQuery q with
  | .error e => .invalid e
  | .ok pq =>
    match limitOffset pq.limit.toInt32 pq.offset rows with
    | .error message => .failed message
    | .ok data => .paginated data ⟨rows.length, pq.page, pq.limit, totalPages rows.length pq.limit⟩

/-- `ordersList`; the orders stand newest first. -/
def ordersList (businessID : String) (orders : List Order) (q : Query) : ListAnswer Order :=
  listPage (orders.filter fun o => decide (o.businessID = businessID)) q

/-- `inboxHandoffs`; the conversations stand in the order of their updates, latest first. -/
def inboxHandoffs (businessID : String) (conversations : List Conversation) (q : Query) : ListAnswer Conversation :=
  listPage (conversations.filter fun v => decide (v.businessID = businessID) && v.isEscalatedToHuman) q

/-- `payoutsHistory`; the payouts stand newest first. -/
def payoutsHistory (businessID : String) (payouts : List Payout) (q : Query) : ListAnswer Payout :=
  listPage (payouts.filter fun p => decide (p.businessID = businessID)) q

/-- What an accepted query asks for. -/
structure PageQuery.Sound (pq : PageQuery) : Prop where
  page : 1 ≤ pq.page.toInt
  limit : 1 ≤ pq.limit.toInt
  most : pq.limit.toInt ≤ 100

/-- The number of rows before the page. -/
def PageQuery.skipped (pq : PageQuery) : Int := (pq.page.toInt - 1) * pq.limit.toInt

/-- The rows of a page. -/
def PageQuery.rows {R : Type} (pq : PageQuery) (rows : List R) : List R := (rows.drop pq.skipped.toNat).take pq.limit.toInt.toNat

/-- The answer is that page. -/
def Shows {R : Type} (pq : PageQuery) (rows : List R) (answer : ListAnswer R) : Prop :=
  answer = .paginated (pq.rows rows) ⟨rows.length, pq.page, pq.limit, totalPages rows.length pq.limit⟩

/-- A parameter that is accepted is in its range. -/
theorem pagQueryInt_ok {name raw : String} {default min max n : Int64} (h : pagQueryInt name raw default min max = .ok n)
    (fits : min ≤ default ∧ (max > 0 → default ≤ max)) : min ≤ n ∧ (max > 0 → n ≤ max) := by
  unfold pagQueryInt at h
  split at h
  · cases h
    exact fits
  · split at h
    · cases h
    · split at h
      · cases h
      · rename_i least
        split at h
        · cases h
        · rename_i most
          cases h
          exact ⟨Int64.not_lt.1 least, fun bounded => Int64.not_lt.1 fun beyond => most ⟨bounded, beyond⟩⟩

theorem parsePageQuery_sound {q : Query} {pq : PageQuery} (h : parsePageQuery q = .ok pq) : pq.Sound := by
  unfold parsePageQuery at h
  cases page : pagQueryInt "page" (q "page") 1 1 0 with
  | error e =>
    rw [page] at h
    cases h
  | ok p =>
    cases limit : pagQueryInt "limit" (q "limit") 20 1 100 with
    | error e =>
      simp only [page, limit] at h
      cases h
    | ok l =>
      simp only [page, limit] at h
      cases h
      obtain ⟨first, -⟩ := pagQueryInt_ok page ⟨by decide, by decide⟩
      obtain ⟨least, most⟩ := pagQueryInt_ok limit ⟨by decide, by decide⟩
      exact ⟨Int64.le_iff_toInt_le.1 first, Int64.le_iff_toInt_le.1 least, Int64.le_iff_toInt_le.1 (most (by decide))⟩

/-- The offset is the number of rows before the page where 32 bits hold it. -/
theorem offset_eq_iff {pq : PageQuery} (sound : pq.Sound) : pq.offset.toInt = pq.skipped ↔ pq.skipped < 2 ^ 31 := by
  have offset : pq.offset.toInt = ((pq.page - 1) * pq.limit).toInt.bmod (2 ^ 32) := Int64.toInt_toInt32 _
  constructor
  · intro same
    rw [← same]
    exact Int32.toInt_lt _
  · intro small
    obtain ⟨first, least, most⟩ := sound
    have one : (1 : Int64).toInt = 1 := by decide
    have wide : pq.page.toInt < 2 ^ 63 := Int64.toInt_lt _
    have back : (pq.page - 1).toInt = pq.page.toInt - 1 := by
      rw [Int64.toInt_sub, one]
      exact Int.bmod_eq_of_le (by omega) (by omega)
    have nonneg : 0 ≤ pq.skipped := Int.mul_nonneg (by omega) (by omega)
    rw [offset, Int64.toInt_mul, back]
    show ((pq.skipped).bmod (2 ^ 64)).bmod (2 ^ 32) = pq.skipped
    have wide' : (pq.skipped).bmod (2 ^ 64) = pq.skipped := Int.bmod_eq_of_le (by omega) (by omega)
    rw [wide']
    exact Int.bmod_eq_of_le (by omega) (by omega)

theorem shows_of_small {R : Type} {q : Query} {pq : PageQuery} (accepted : parsePageQuery q = .ok pq) (small : pq.skipped < 2 ^ 31)
    (rows : List R) : Shows pq rows (listPage rows q) := by
  have sound := parsePageQuery_sound accepted
  have offset : pq.offset.toInt = pq.skipped := (offset_eq_iff sound).2 small
  obtain ⟨first, least, most⟩ := sound
  have nonneg : 0 ≤ pq.skipped := Int.mul_nonneg (by omega) (by omega)
  have limit : pq.limit.toInt32.toInt = pq.limit.toInt := by
    rw [Int64.toInt_toInt32]
    exact Int.bmod_eq_of_le (by omega) (by omega)
  have zero : (0 : Int32).toInt = 0 := by decide
  have forward : ¬ pq.offset < 0 := by
    rw [Int32.lt_iff_toInt_lt, offset, zero]
    omega
  have some' : ¬ pq.limit.toInt32 < 0 := by
    rw [Int32.lt_iff_toInt_lt, limit, zero]
    omega
  unfold Shows listPage
  simp only [accepted, limitOffset, if_neg forward, if_neg some', offset, limit]
  rfl

/-- An accepted query shows its page on every list endpoint, under the right offset, exactly where 32 bits hold that. -/
theorem pages_shown_iff {q : Query} {pq : PageQuery} (accepted : parsePageQuery q = .ok pq) :
    (pq.offset.toInt = pq.skipped ∧ 0 ≤ pq.offset.toInt ∧
      (∀ businessID orders, Shows pq (orders.filter fun o => decide (o.businessID = businessID)) (ordersList businessID orders q)) ∧
      (∀ businessID conversations, Shows pq (conversations.filter fun v => decide (v.businessID = businessID) && v.isEscalatedToHuman)
        (inboxHandoffs businessID conversations q)) ∧
      ∀ businessID payouts, Shows pq (payouts.filter fun p => decide (p.businessID = businessID)) (payoutsHistory businessID payouts q)) ↔
      pq.skipped < 2 ^ 31 := by
  have sound := parsePageQuery_sound accepted
  constructor
  · rintro ⟨same, -⟩
    exact (offset_eq_iff sound).1 same
  · intro small
    have same := (offset_eq_iff sound).2 small
    have nonneg : 0 ≤ pq.skipped := Int.mul_nonneg (by have := sound.page; omega) (by have := sound.limit; omega)
    refine ⟨same, same ▸ nonneg, ?_, ?_, ?_⟩
    · exact fun businessID orders => shows_of_small accepted small _
    · exact fun businessID conversations => shows_of_small accepted small _
    · exact fun businessID payouts => shows_of_small accepted small _

/-! ## Queries -/

/-- A query of the two parameters. -/
def pageOf (page limit : String) : Query := fun name => if name = "page" then page else if name = "limit" then limit else ""

/-- The third page of ten. -/
theorem third_page_shown : (⟨3, 10⟩ : PageQuery).offset.toInt = 20 ∧
    ∀ businessID orders, Shows ⟨3, 10⟩ (orders.filter fun o => decide (o.businessID = businessID)) (ordersList businessID orders (pageOf "3" "10")) := by
  have accepted : parsePageQuery (pageOf "3" "10") = .ok ⟨3, 10⟩ := by decide +kernel
  obtain ⟨-, -, orders, -⟩ := (pages_shown_iff accepted).2 (by decide)
  exact ⟨by decide, orders⟩

/-- Page 2 ^ 32 + 1 of one row each is the first page. -/
theorem wrapped_page_shows_first : ¬ ∀ q pq, parsePageQuery q = .ok pq → pq.offset.toInt = pq.skipped := by
  intro right
  have accepted : parsePageQuery (pageOf "4294967297" "1") = .ok ⟨4294967297, 1⟩ := by decide +kernel
  exact absurd (right _ _ accepted) (by decide)

end NovoApex.Handlers
