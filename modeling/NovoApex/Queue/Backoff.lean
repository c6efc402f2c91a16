import Mathlib.Algebra.Order.Ring.Int
import Mathlib.Data.Nat.Log
import Mathlib.Tactic.Linarith

/-!
# Retry delays

`retryDelay` (`internal/queue/server.go`): the delay before a task is tried again. A
throttled task waits for its window; any other waits the base of its queue, doubled with
every retry and capped at a day. The shift is taken in 64 bits, and the cap is compared
with what is left of it.
-/

namespace NovoApex.Queue
set_option autoImplicit false

/-- `QueuePolicy`; durations in nanoseconds. -/
structure QueuePolicy where
  maxRetry : Int
  backoffBase : Int64
  rateLimit : Int
  rateWindow : Int64
  deriving DecidableEq

/-- `RateLimitedError`. -/
structure RateLimitedError where
  queue : String
  retryIn : Int64
  deadline : Bool
  deriving DecidableEq, Repr

/-- The error a task ends in. -/
inductive TaskError where
  | rateLimited (e : RateLimitedError)
  | other (text : String)
  /-- `fmt.Errorf("text: %w", cause)`. -/
  | context (text : String) (cause : TaskError)

/-- `errors.As(err, &rle)`. -/
def TaskError.asRateLimited : TaskError → Option RateLimitedError
  | rateLimited e => some e
  | other _ => none
  | context _ cause => cause.asRateLimited

/-- `QueueOf`. -/
def queueOf (taskType : String) : String := String.ofList (taskType.toList.takeWhile fun c => decide (c ≠ ':'))

/-- `maxBackoffDelay`: a day. -/
def maxBackoffDelay : Int64 := 86400000000000

/-- `minRetryDelay`. -/
def minRetryDelay : Int64 := 250000000

/-- `p.BackoffBase << min(n, 62)`. -/
def shifted (base : Int64) (n : Nat) : Int64 := ⟨⟨base.toBitVec <<< min n 62⟩⟩

/-- `retryDelay`; `defaultDelay` is asynq's own. -/
def retryDelay (policies : String → Option QueuePolicy) (defaultDelay : Nat → TaskError → String → Int64) (n : Nat) (err : TaskError)
    (taskType : String) : Int64 :=
  match err.asRateLimited with
  | some rle => if rle.retryIn < minRetryDelay then minRetryDelay else rle.retryIn
  | none =>
    match policies (queueOf taskType) with
    | none => defaultDelay n err taskType
    | some p =>
      if p.backoffBase ≤ 0 then defaultDelay n err taskType
      else
        let delay := shifted p.backoffBase n
        if delay > maxBackoffDelay then maxBackoffDelay else delay

/-- The backoff in unbounded integers. -/
def backoff (base : Int) (n : Nat) : Int := min (base * 2 ^ n) maxBackoffDelay.toInt

/-- The product does not exceed the cap, or what is left of it in 64 bits reaches the cap. -/
def Fits (base : Int) (n : Nat) : Prop :=
  base * 2 ^ min n 62 ≤ maxBackoffDelay.toInt ∨
    maxBackoffDelay.toInt ≤ base * 2 ^ min n 62 % 2 ^ 64 ∧ base * 2 ^ min n 62 % 2 ^ 64 < 2 ^ 63

instance (base : Int) (n : Nat) : Decidable (Fits base n) := inferInstanceAs (Decidable (_ ∨ _ ∧ _))

theorem maxBackoffDelay_toInt : maxBackoffDelay.toInt = 86400000000000 := by decide

/-- The shift is the product, as far as 64 bits hold it. -/
theorem shifted_toInt (base : Int64) (n : Nat) : (shifted base n).toInt = (base.toInt * 2 ^ min n 62).bmod (2 ^ 64) := by
  have shift : (shifted base n).toInt = (base.toBitVec <<< min n 62).toInt := rfl
  have value : base.toInt = (base.toBitVec.toNat : Int).bmod (2 ^ 64) := BitVec.toInt_eq_toNat_bmod base.toBitVec
  rw [shift, BitVec.toInt_shiftLeft, value, Nat.shiftLeft_eq, Int.bmod_mul_bmod]
  push_cast
  rfl

/-- After 62 retries the product is past the cap, whatever the base. -/
theorem backoff_min {base : Int} (positive : 0 < base) (n : Nat) : backoff base n = backoff base (min n 62) := by
  unfold backoff
  rcases Nat.le_total n 62 with few | many
  · rw [Nat.min_eq_left few]
  · rw [Nat.min_eq_right many]
    have large : (2 : Int) ^ 62 ≤ base * 2 ^ 62 := le_mul_of_one_le_left (by positivity) positive
    have larger : base * 2 ^ 62 ≤ base * 2 ^ n := mul_le_mul_of_nonneg_left (pow_le_pow_right₀ (by norm_num) many) positive.le
    rw [maxBackoffDelay_toInt]
    omega

theorem backoff_pos {base : Int} (positive : 0 < base) (n : Nat) : 0 < backoff base n :=
  lt_min (mul_pos positive (by positivity)) (by decide)

theorem backoff_mono {base : Int} (positive : 0 < base) {m n : Nat} (le : m ≤ n) : backoff base m ≤ backoff base n :=
  min_le_min_right _ (mul_le_mul_of_nonneg_left (pow_le_pow_right₀ (by norm_num) le) positive.le)

section Delay

variable {policies : String → Option QueuePolicy} {defaultDelay : Nat → TaskError → String → Int64} {n : Nat} {err : TaskError}
  {taskType : String} {p : QueuePolicy}

/-- The delay of a task that failed and was not throttled. -/
theorem retryDelay_unthrottled (unthrottled : err.asRateLimited = none) (found : policies (queueOf taskType) = some p)
    (positive : 0 < p.backoffBase) : (retryDelay policies defaultDelay n err taskType).toInt =
      min ((p.backoffBase.toInt * 2 ^ min n 62).bmod (2 ^ 64)) maxBackoffDelay.toInt := by
  have based : ¬ p.backoffBase ≤ 0 := Int64.not_le.2 positive
  simp only [retryDelay, unthrottled, found, if_neg based]
  rw [← shifted_toInt]
  split
  · rename_i beyond
    exact (min_eq_right (Int64.lt_iff_toInt_lt.1 beyond).le).symm
  · rename_i within
    exact (min_eq_left (Int64.le_iff_toInt_le.1 (Int64.not_lt.1 within))).symm

/-- The wrapped product is as good as the product exactly where it fits. -/
theorem wrapped_eq_iff {base : Int} (positive : 0 < base) (n : Nat) :
    min ((base * 2 ^ min n 62).bmod (2 ^ 64)) maxBackoffDelay.toInt = backoff base n ↔ Fits base n := by
  have product : 0 < base * 2 ^ min n 62 := mul_pos positive (by positivity)
  rw [backoff_min positive]
  unfold Fits backoff
  generalize base * 2 ^ min n 62 = v at product ⊢
  rw [maxBackoffDelay_toInt, Int.bmod_def]
  constructor
  · intro same
    omega
  · intro fits
    omega

/-- The delay is the backoff in unbounded integers exactly where it fits; there it is positive, and it does not shrink from
one such retry to a later one. -/
theorem retryDelay_eq_backoff_iff (unthrottled : err.asRateLimited = none) (found : policies (queueOf taskType) = some p)
    (positive : 0 < p.backoffBase) (n : Nat) :
    ((retryDelay policies defaultDelay n err taskType).toInt = backoff p.backoffBase.toInt n ↔ Fits p.backoffBase.toInt n) ∧
      (Fits p.backoffBase.toInt n → 0 < retryDelay policies defaultDelay n err taskType ∧ ∀ m ≤ n, Fits p.backoffBase.toInt m →
        retryDelay policies defaultDelay m err taskType ≤ retryDelay policies defaultDelay n err taskType) := by
  have base : 0 < p.backoffBase.toInt := Int64.lt_iff_toInt_lt.1 positive
  have exact : ∀ m, (retryDelay policies defaultDelay m err taskType).toInt = backoff p.backoffBase.toInt m ↔ Fits p.backoffBase.toInt m := by
    intro m
    rw [retryDelay_unthrottled unthrottled found positive]
    exact wrapped_eq_iff base m
  refine ⟨exact n, fun fits => ⟨?_, fun m before fits' => ?_⟩⟩
  · apply Int64.lt_iff_toInt_lt.2
    rw [(exact n).2 fits]
    exact backoff_pos base n
  · apply Int64.le_iff_toInt_le.2
    rw [(exact m).2 fits', (exact n).2 fits]
    exact backoff_mono base before

end Delay

/-- Every base but one nanosecond has a retry whose product has the sign bit set. -/
theorem fits_always_iff {base : Int} (positive : 0 < base) (wide : base < 2 ^ 63) : (∀ n, Fits base n) ↔ base = 1 := by
  constructor
  · intro fits
    by_contra other
    obtain ⟨b, rfl⟩ := Int.eq_ofNat_of_zero_le positive.le
    have large : 2 ≤ b := by omega
    have log : 1 ≤ Nat.log 2 b := Nat.log_pos (by norm_num) large
    have least : 2 ^ Nat.log 2 b ≤ b := Nat.pow_log_le_self 2 (by omega)
    have most : b < 2 ^ (Nat.log 2 b + 1) := Nat.lt_pow_succ_log_self (by norm_num) b
    have short : Nat.log 2 b < 63 := Nat.log_lt_of_lt_pow (by omega) (by exact_mod_cast wide)
    have few : 63 - Nat.log 2 b ≤ 62 := by omega
    have split : ∀ k, k ≤ 63 → 2 ^ k * 2 ^ (63 - k) = 2 ^ 63 := fun k le => by rw [← pow_add, Nat.add_sub_cancel' le]
    have lower : 2 ^ 63 ≤ b * 2 ^ (63 - Nat.log 2 b) := by
      calc 2 ^ 63 = 2 ^ Nat.log 2 b * 2 ^ (63 - Nat.log 2 b) := (split _ short.le).symm
        _ ≤ b * 2 ^ (63 - Nat.log 2 b) := Nat.mul_le_mul_right _ least
    have upper : b * 2 ^ (63 - Nat.log 2 b) < 2 ^ 64 := by
      calc b * 2 ^ (63 - Nat.log 2 b) < 2 ^ (Nat.log 2 b + 1) * 2 ^ (63 - Nat.log 2 b) := Nat.mul_lt_mul_of_pos_right most (by positivity)
        _ = 2 * (2 ^ Nat.log 2 b * 2 ^ (63 - Nat.log 2 b)) := by rw [pow_succ', mul_assoc]
        _ = 2 ^ 64 := by rw [split _ short.le]; norm_num
    have bad := fits (63 - Nat.log 2 b)
    unfold Fits at bad
    rw [Nat.min_eq_left few, maxBackoffDelay_toInt] at bad
    have product : ((b : Int) * 2 ^ (63 - Nat.log 2 b)) = ((b * 2 ^ (63 - Nat.log 2 b) : Nat) : Int) := by push_cast; rfl
    rw [product] at bad
    omega
  · rintro rfl n
    have below : (2 : Int) ^ min n 62 ≤ 2 ^ 62 := pow_le_pow_right₀ (by norm_num) (Nat.min_le_right n 62)
    have positive : (0 : Int) < 2 ^ min n 62 := by positivity
    unfold Fits
    rw [one_mul, maxBackoffDelay_toInt]
    omega

/-! ## A queue -/

/-- The policy of the outbound queue. -/
def outboundPolicy : QueuePolicy := ⟨2, 2000000000, 50, 1000000000⟩

def outboundPolicies (queue : String) : Option QueuePolicy := if queue = "outbound-queue" then some outboundPolicy else none

/-- A failed send. -/
def sendFailed : TaskError := .context "outbound: send m1" (.other "timeout")

/-- The last retry of a message waits for eight seconds, as it should. -/
theorem outbound_last_delay : (retryDelay outboundPolicies (fun _ _ _ => 0) 2 sendFailed "outbound-queue:send").toInt = 8000000000 ∧
    0 < retryDelay outboundPolicies (fun _ _ _ => 0) 2 sendFailed "outbound-queue:send" := by
  have fits : Fits outboundPolicy.backoffBase.toInt 2 := by decide
  have unthrottled : sendFailed.asRateLimited = none := rfl
  have found : outboundPolicies (queueOf "outbound-queue:send") = some outboundPolicy := by decide
  obtain ⟨agrees, follows⟩ := retryDelay_eq_backoff_iff unthrottled found (by decide) 2
  exact ⟨(agrees.2 fits).trans (by decide), (follows fits).1⟩

/-- After 33 retries the product has the sign bit set, and the delay is negative. -/
theorem outbound_delay_wraps : ¬ ∀ n, (retryDelay outboundPolicies (fun _ _ _ => 0) n sendFailed "outbound-queue:send").toInt =
    backoff outboundPolicy.backoffBase.toInt n := by
  intro exact
  exact absurd (exact 33) (by decide)

end NovoApex.Queue
