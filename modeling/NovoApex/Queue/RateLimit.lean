import NovoApex.Queue.Backoff
import Mathlib.Logic.Function.Basic

/-!
# The rate limit of a queue

`internal/queue/ratelimit.go`. A window of the clock has a counter in Redis, under a key
made of the queue and the window's index. `allow` counts one more call in the window of
its reading, gives a new counter its time to live, and lets the call pass up to the
limit. A worker whose call is not let through asks again until it is, unless its context
ends or it has waited for too long.

Times are nanoseconds since the epoch, and Redis reads the same clock in milliseconds. A
counter whose time to live is over is gone at some moment from then on.
-/

namespace NovoApex.Queue
set_option autoImplicit false

/-! ## Counters -/

/-- A counter, and the millisecond in which its time to live is over. -/
structure RateCounter where
  count : Nat
  deadline : Option Int
  deriving DecidableEq

/-- The counters in Redis, by their keys. -/
abbrev RateCounters : Type := String → Option RateCounter

/-- `INCR`. -/
def incr (counters : RateCounters) (key : String) : Nat × RateCounters :=
  let c := (counters key).getD ⟨0, none⟩
  (c.count + 1, Function.update counters key (some { c with count := c.count + 1 }))

/-- `PEXPIRE`; without a time left to live the counter is gone. -/
def pexpire (counters : RateCounters) (key : String) (ttl now : Int) : RateCounters :=
  Function.update counters key (if ttl ≤ 0 then none else (counters key).map fun c => { c with deadline := some (now + ttl) })

/-- `PTTL`. -/
def pttl (counters : RateCounters) (key : String) (now : Int) : Int :=
  match counters key with
  | none => -2
  | some c =>
    match c.deadline with
    | none => -1
    | some deadline => max (deadline - now) 0

/-- `rateLimitScript`. -/
def rateLimitScript (counters : RateCounters) (key : String) (limit windowMs now : Int) : (Int × Int) × RateCounters :=
  let (count, counters) := incr counters key
  let counters := if count = 1 then pexpire counters key windowMs now else counters
  if limit < count then ((0, pttl counters key now), counters) else ((1, 0), counters)

/-! ## `allow` -/

/-- `window.Milliseconds()`. -/
def milliseconds (window : Int64) : Int := window.toInt.tdiv 1000000

/-- `UnixMilli` of a reading. -/
def unixMilli (reading : Nat) : Int := reading / 1000000

/-- `windowIdx`. -/
def windowIdx (window : Int64) (reading : Nat) : Int := (unixMilli reading).tdiv (milliseconds window)

/-- `rateLimitKeyPrefix`. -/
def rateLimitKeyPrefix : String := "goqueue:ratelimit:"

/-- The key of a window's counter. -/
def rateKey (queue : String) (idx : Int) : String := rateLimitKeyPrefix ++ queue ++ ":" ++ toString idx

/-- `allow`, from the reading of the clock to the reply of the script: how long to wait, whether the call passes, and the counters. A window
without a millisecond is a division by zero. -/
def allow (counters : RateCounters) (queue : String) (limit : Int) (window : Int64) (reading : Nat) : Option (Int64 × Bool × RateCounters) :=
  if milliseconds window = 0 then none
  else
    let (res, counters) :=
      rateLimitScript counters (rateKey queue (windowIdx window reading)) limit (milliseconds window) (unixMilli reading)
    if res.1 = 1 then some (0, true, counters)
    else
      let waitMs := if res.2 < 0 then milliseconds window else res.2
      some (Int64.ofInt waitMs * 1000000, false, counters)

/-- `pollInterval`. -/
def pollInterval : Int64 := 250000000

/-- `maxBlockWait`. -/
def maxBlockWait (window : Int64) : Int64 := if 0 < 2 * window then 2 * window else 30000000000

/-! ## Workers -/

/-- Where a worker is in the wrapped handler. -/
inductive Standing where
  | idle
  /-- At the head of the loop, since `started`. -/
  | looping (started : Nat)
  /-- `ctx.Err()` was nil. -/
  | asking (started : Nat)
  /-- `allow` has said how long to wait. -/
  | denied (started : Nat) (wait : Int64)
  /-- In the `select`, until the timer fires. -/
  | waiting (started : Nat) (timer : Int)
  /-- `allow` has let the call pass at a reading; `next` has not begun. -/
  | admitted (reading : Nat)
  | running
  deriving DecidableEq

variable {W : Type}

/-- An entry of the history. -/
inductive RateEvent (W : Type) where
  /-- An `allow` let the worker pass. -/
  | admitted (worker : W) (reading : Nat)
  /-- The worker began to execute `next`, for the `allow` of that reading. -/
  | started (worker : W) (reading now : Nat)
  /-- The wrapped handler gave up. -/
  | returned (worker : W) (e : RateLimitedError)
  deriving DecidableEq

/-- The clock, Redis, the workers with their contexts, and what has happened. -/
structure RateState (W : Type) where
  clock : Nat
  counters : RateCounters
  standing : W → Standing
  cancelled : W → Bool
  hist : List (RateEvent W)

/-- Nobody has called yet. -/
def RateState.initial (clock : Nat) : RateState W := ⟨clock, fun _ => none, fun _ => .idle, fun _ => false, []⟩

/-- What happens next. -/
inductive RateStep (W : Type) where
  /-- A task comes to a worker. -/
  | call (worker : W)
  /-- The context of a task ends. -/
  | cancel (worker : W)
  /-- `ctx.Err()`. -/
  | check (worker : W)
  /-- `allow`. -/
  | ask (worker : W)
  /-- A call that was not let through gives up or waits. -/
  | judge (worker : W)
  /-- The timer of the `select`. -/
  | wake (worker : W)
  /-- `ctx.Done()` in the `select`. -/
  | interrupt (worker : W)
  /-- `next` begins. -/
  | enter (worker : W)
  /-- `next` returns. -/
  | finish (worker : W)
  /-- Time passes. -/
  | pass (ns : Nat)
  /-- A counter whose time to live is over is gone. -/
  | expire (key : String)

section Step

variable [DecidableEq W]

/-- The state with a worker elsewhere. -/
def RateState.move (s : RateState W) (w : W) (standing : Standing) : RateState W := { s with standing := Function.update s.standing w standing }

@[simp] theorem RateState.move_self (s : RateState W) (w : W) (standing : Standing) : (s.move w standing).standing w = standing :=
  Function.update_self ..

theorem RateState.move_ne (s : RateState W) {w w' : W} (standing : Standing) (ne : w' ≠ w) : (s.move w standing).standing w' = s.standing w' :=
  Function.update_of_ne ne ..

/-- One more entry. -/
def RateState.log (s : RateState W) (e : RateEvent W) : RateState W := { s with hist := s.hist ++ [e] }

/-- The wrapped handler returns a `RateLimitedError`. -/
def RateState.giveUp (s : RateState W) (w : W) (e : RateLimitedError) : RateState W := (s.move w .idle).log (.returned w e)

/-- `rateLimited`, one step of one worker, or of the clock, or of Redis. -/
def rateLimited (queue : String) (p : QueuePolicy) (s : RateState W) : RateStep W → Option (RateState W)
  | .call w =>
    match s.standing w with
    | .idle => some { s.move w (.looping s.clock) with cancelled := Function.update s.cancelled w false }
    | _ => none
  | .cancel w => some { s with cancelled := Function.update s.cancelled w true }
  | .check w =>
    match s.standing w with
    | .looping started => some (if s.cancelled w then s.giveUp w ⟨queue, minRetryDelay, true⟩ else s.move w (.asking started))
    | _ => none
  | .ask w =>
    match s.standing w with
    | .asking started =>
      (allow s.counters queue p.rateLimit p.rateWindow s.clock).map fun answer =>
        let s := { s with counters := answer.2.2 }
        if answer.2.1 then (s.move w (.admitted s.clock)).log (.admitted w s.clock) else s.move w (.denied started answer.1)
    | _ => none
  | .judge w =>
    match s.standing w with
    | .denied started wait =>
      let blockCap := maxBlockWait p.rateWindow
      some (if blockCap.toInt ≤ (s.clock : Int) - started ∨ blockCap < wait then s.giveUp w ⟨queue, wait, false⟩
        else s.move w (.waiting started (s.clock + (min wait pollInterval).toInt)))
    | _ => none
  | .wake w =>
    match s.standing w with
    | .waiting started timer => if timer ≤ s.clock then some (s.move w (.looping started)) else none
    | _ => none
  | .interrupt w =>
    match s.standing w with
    | .waiting .. => if s.cancelled w then some (s.giveUp w ⟨queue, minRetryDelay, true⟩) else none
    | _ => none
  | .enter w =>
    match s.standing w with
    | .admitted reading => some ((s.move w .running).log (.started w reading s.clock))
    | _ => none
  | .finish w =>
    match s.standing w with
    | .running => some (s.move w .idle)
    | _ => none
  | .pass ns => some { s with clock := s.clock + ns }
  | .expire key =>
    match s.counters key with
    | some c => if (c.deadline.any fun d => decide (d ≤ unixMilli s.clock)) = true then some { s with counters := Function.update s.counters key none } else none
    | none => none

/-- A run. -/
def rateLimitedRun (queue : String) (p : QueuePolicy) (s : RateState W) : List (RateStep W) → Option (RateState W)
  | [] => some s
  | a :: rest => (rateLimited queue p s a).bind fun s' => rateLimitedRun queue p s' rest

end Step

end NovoApex.Queue
