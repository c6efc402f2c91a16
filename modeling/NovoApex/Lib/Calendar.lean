/-!
# Days, weeks and months

Time is counted in milliseconds from the start of 1970, a Thursday. `truncDay`, `truncWeek`
and `truncMonth` give the start of the day, the week (from Monday) and the month an instant
is in, as `date_trunc` does. Each is a `Truncation`: it never exceeds the instant, keeps the
order, and gives every instant from the start up to this one the same start, so that the
instants of one start are an interval that begins with it.
-/

namespace NovoApex.Lib.Calendar
set_option autoImplicit false

/-! ## Months -/

structure Month where
  year : Nat
  month : Nat
  deriving DecidableEq

def isLeap (year : Nat) : Bool := decide (year % 4 = 0) && (decide (year % 100 ≠ 0) || decide (year % 400 = 0))

/-- The days of a month. -/
def Month.days (m : Month) : Nat :=
  if m.month = 2 then if isLeap m.year then 29 else 28
  else if m.month = 4 ∨ m.month = 6 ∨ m.month = 9 ∨ m.month = 11 then 30
  else 31

def Month.next (m : Month) : Month := if m.month = 12 then ⟨m.year + 1, 1⟩ else ⟨m.year, m.month + 1⟩

theorem Month.days_pos (m : Month) : 0 < m.days := by
  unfold Month.days
  split
  · split <;> omega
  · split <;> omega

/-- The first day of the month that holds the day `rest` days after `start`, the first of `m`. -/
def monthFrom : Nat → Month → Nat → Nat → Nat
  | 0, _, start, _ => start
  | fuel + 1, m, start, rest => if rest < m.days then start else monthFrom fuel m.next (start + m.days) (rest - m.days)

/-- The first day of the month a day is in. -/
def monthStart (day : Nat) : Nat := monthFrom (day + 1) ⟨1970, 1⟩ 0 day

theorem monthFrom_bounds {fuel : Nat} (m : Month) (start : Nat) {rest : Nat} (enough : rest < fuel) :
    start ≤ monthFrom fuel m start rest ∧ monthFrom fuel m start rest ≤ start + rest := by
  induction fuel generalizing m start rest with
  | zero => omega
  | succ fuel ih =>
    have pos := m.days_pos
    unfold monthFrom
    split
    · omega
    · have later := ih m.next (start + m.days) (show rest - m.days < fuel by omega)
      omega

/-- The days from the start of a month up to one of its days are of that month. -/
theorem monthFrom_steady {fuel fuel' start rest rest' : Nat} {m : Month} (enough : rest < fuel) (enough' : rest' < fuel')
    (before : rest' ≤ rest) (since : monthFrom fuel m start rest ≤ start + rest') :
    monthFrom fuel' m start rest' = monthFrom fuel m start rest := by
  induction fuel generalizing m start rest rest' fuel' with
  | zero => omega
  | succ fuel ih =>
    cases fuel' with
    | zero => omega
    | succ fuel' =>
      have pos := m.days_pos
      unfold monthFrom at since ⊢
      split at since
      · rename_i first
        rw [if_pos first, if_pos (by omega)]
      · rename_i later
        have bounds := (monthFrom_bounds m.next (start + m.days) (show rest - m.days < fuel by omega)).1
        rw [if_neg later, if_neg (by omega)]
        exact ih (by omega) (by omega) (by omega) (by omega)

theorem monthFrom_mono {fuel fuel' start rest rest' : Nat} {m : Month} (enough : rest < fuel) (enough' : rest' < fuel')
    (before : rest' ≤ rest) : monthFrom fuel' m start rest' ≤ monthFrom fuel m start rest := by
  by_cases since : monthFrom fuel m start rest ≤ start + rest'
  · exact Nat.le_of_eq (monthFrom_steady enough enough' before since)
  · have bounds := (monthFrom_bounds m start enough').2
    omega

theorem monthStart_le (day : Nat) : monthStart day ≤ day := by
  have bounds := (monthFrom_bounds ⟨1970, 1⟩ 0 (Nat.lt_add_one day)).2
  unfold monthStart
  omega

theorem monthStart_steady {day earlier : Nat} (since : monthStart day ≤ earlier) (before : earlier ≤ day) :
    monthStart earlier = monthStart day :=
  monthFrom_steady (Nat.lt_succ_self day) (Nat.lt_succ_self earlier) before (by rw [Nat.zero_add]; exact since)

theorem monthStart_mono {day earlier : Nat} (before : earlier ≤ day) : monthStart earlier ≤ monthStart day :=
  monthFrom_mono (Nat.lt_succ_self day) (Nat.lt_succ_self earlier) before

example : monthStart 59 = 59 ∧ monthStart 58 = 31 ∧ monthStart 789 = 761 := by decide

/-! ## Truncation -/

/-- The milliseconds of a day. -/
def dayMillis : Nat := 86400000

def truncDay (t : Nat) : Int := (t / dayMillis : Nat) * dayMillis

/-- The start of 1970 is three days after a Monday. -/
def truncWeek (t : Nat) : Int := ((t / dayMillis : Nat) - ((t / dayMillis + 3) % 7 : Nat)) * dayMillis

def truncMonth (t : Nat) : Int := (monthStart (t / dayMillis) : Nat) * dayMillis

/-- The start of the period an instant is in. -/
structure Truncation (f : Nat → Int) : Prop where
  below : ∀ t : Nat, f t ≤ t
  steady : ∀ t u : Nat, f t ≤ u → u ≤ t → f u = f t
  mono : ∀ t u : Nat, u ≤ t → f u ≤ f t

theorem truncation_day : Truncation truncDay := by
  refine ⟨fun t => ?_, fun t u since before => ?_, fun t u before => ?_⟩ <;> unfold truncDay dayMillis at * <;> omega

theorem truncation_week : Truncation truncWeek := by
  refine ⟨fun t => ?_, fun t u since before => ?_, fun t u before => ?_⟩ <;> unfold truncWeek dayMillis at * <;> omega

theorem truncation_month : Truncation truncMonth := by
  refine ⟨fun t => ?_, fun t u since before => ?_, fun t u before => ?_⟩
  · have le := monthStart_le (t / dayMillis)
    unfold truncMonth dayMillis at *
    omega
  · have same : monthStart (u / dayMillis) = monthStart (t / dayMillis) := by
      refine monthStart_steady ?_ (Nat.div_le_div_right before)
      unfold truncMonth dayMillis at since
      unfold dayMillis
      omega
    unfold truncMonth
    rw [same]
  · have le := monthStart_mono (Nat.div_le_div_right (c := dayMillis) before)
    unfold truncMonth dayMillis at *
    omega

/-- The start of a day is on that day. -/
theorem truncDay_start (t : Nat) : truncDay (truncDay t).toNat = truncDay t := by
  have start : 0 ≤ truncDay t := by
    unfold truncDay dayMillis
    omega
  have below := truncation_day.below t
  exact truncation_day.steady t _ (Int.self_le_toNat _) (by omega)

/-- A day lies in one month. -/
theorem truncMonth_of_day {t u : Nat} (same : truncDay t = truncDay u) : truncMonth t = truncMonth u := by
  have day : t / dayMillis = u / dayMillis := by
    unfold truncDay dayMillis at same
    unfold dayMillis
    omega
  unfold truncMonth
  rw [day]

end NovoApex.Lib.Calendar
