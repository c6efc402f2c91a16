import Mathlib.Data.Int.Init
import Mathlib.Data.List.Basic

/-!
# The throttle of the HTTP layer

`internal/httpx/throttle.go`. A key has a counter of hits; every hit that is counted has
a timer that takes it back one window later. A hit over the limit blocks the key for a
window, and the first request after that starts a new generation of hits, to which the
timers of the old ones mean nothing. A record without hits is dropped.

Times are nanoseconds; a clock reading is an `int64`. What happens is a sequence of
requests and timers in the order in which they hold the lock.
-/

namespace NovoApex.Httpx
set_option autoImplicit false

/-- `throttleRecord`; `none` is the zero time. -/
structure ThrottleRecord where
  hits : Nat
  expiresAt : Int
  blockExpiresAt : Option Int
  blocked : Bool
  gen : UInt64
  deriving DecidableEq

/-- A decrement that `scheduleDecay` has registered, with the reading of its request. -/
structure Decay where
  key : String
  gen : UInt64
  hit : Int
  deriving DecidableEq

/-- `Throttler`, but for its name and its storage. -/
structure Throttler where
  limit : Nat
  /-- `window`, a `time.Duration`. -/
  window : Int64

/-- `Throttler.storage`, and the timers that have not fired. -/
structure ThrottleState where
  storage : String → Option ThrottleRecord
  pending : List Decay

/-- A fresh throttler. -/
def ThrottleState.empty : ThrottleState := ⟨fun _ => none, []⟩

/-- The storage with another record under a key. -/
def ThrottleState.put (s : ThrottleState) (key : String) (record : Option ThrottleRecord) : ThrottleState :=
  { s with storage := fun k => if k = key then record else s.storage k }

/-- `secondsUntil`. -/
def secondsUntil (time : Option Int) (now : Int) : Int :=
  match time with
  | none => 0
  | some time => if time ≤ now then 0 else (time - now + 999999999) / 1000000000

/-- What `increment` returns. -/
structure Increment where
  totalHits : Nat
  timeToExpire : Int
  timeToBlockExpire : Int
  blocked : Bool
  deriving DecidableEq

namespace Throttler

variable (t : Throttler)

/-- The window in nanoseconds. -/
def span : Int := t.window.toInt

/-- The record under a key, or a new one, with an expiry that lies ahead. -/
def current (record : Option ThrottleRecord) (now : Int) : ThrottleRecord :=
  let r := record.getD ⟨0, now + t.span, none, false, 0⟩
  if secondsUntil (some r.expiresAt) now ≤ 0 then { r with expiresAt := now + t.span } else r

/-- A request of a key that is not blocked is a hit, and the timer of the hit. -/
def count (key : String) (r : ThrottleRecord) (now : Int) : ThrottleRecord × List Decay :=
  if r.blocked then (r, []) else ({ r with hits := r.hits + 1 }, [⟨key, r.gen, now⟩])

/-- Too many hits block the key. -/
def block (r : ThrottleRecord) (now : Int) : ThrottleRecord :=
  if t.limit < r.hits ∧ r.blocked = false then { r with blocked := true, blockExpiresAt := some (now + t.span) } else r

/-- `resetBlockdRequest`, once the block is over: a new generation, whose first hit this request is. -/
def reset (key : String) (r : ThrottleRecord) (now : Int) : ThrottleRecord × List Decay :=
  if secondsUntil r.blockExpiresAt now ≤ 0 ∧ r.blocked = true then
    ({ r with blocked := false, hits := 1, gen := r.gen + 1 }, [⟨key, r.gen + 1, now⟩])
  else (r, [])

/-- `increment`. -/
def increment (s : ThrottleState) (key : String) (now : Int) : Increment × ThrottleState :=
  let r := t.current (s.storage key) now
  let timeToExpire := secondsUntil (some r.expiresAt) now
  let (r, hit) := count key r now
  let r := t.block r now
  let timeToBlockExpire := secondsUntil r.blockExpiresAt now
  let (r, first) := reset key r now
  (⟨r.hits, timeToExpire, timeToBlockExpire, r.blocked⟩, { s.put key (some r) with pending := s.pending ++ (hit ++ first) })

/-- The callback of `scheduleDecay`, with whether it has deleted the record. -/
def decay (s : ThrottleState) (d : Decay) (now : Int) : Bool × ThrottleState :=
  let s := { s with pending := s.pending.erase d }
  match s.storage d.key with
  | none => (false, s)
  | some r =>
    if r.gen ≠ d.gen then (false, s)
    else
      let r := { r with hits := r.hits - 1 }
      if r.hits = 0 ∧ (r.blocked = false ∨ (r.blockExpiresAt.all fun e => decide (e ≤ now)) = true) then (true, s.put d.key none)
      else (false, s.put d.key (some r))

/-- What `middleware` answers: 429 with its `Retry-After`, or the next handler's answer with the limit, what remains of it and its reset. -/
inductive Answer where
  | tooManyRequests (retryAfter : Int)
  | served (limit remaining : Nat) (reset : Int)
  deriving DecidableEq

/-- `middleware`, from the counter on. -/
def middleware (s : ThrottleState) (key : String) (now : Int) : Answer × ThrottleState :=
  let (i, s) := t.increment s key now
  (if i.blocked then .tooManyRequests i.timeToBlockExpire else .served t.limit (t.limit - i.totalHits) i.timeToExpire, s)

/-! ## Runs -/

/-- What holds the lock next, with its clock reading. -/
inductive Event where
  | request (key : String) (now : Int64)
  | timer (d : Decay) (now : Int64)
  deriving DecidableEq

def Event.key : Event → String
  | request key _ => key
  | timer d _ => d.key

def Event.now : Event → Int64
  | request _ now => now
  | timer _ now => now

/-- What it did. -/
inductive Outcome where
  /-- The request went to the handler. -/
  | admitted (key : String) (now : Int)
  /-- The request was refused, and it is the one that blocked the key. -/
  | blocking (key : String) (now : Int)
  /-- The request was refused. -/
  | refused (key : String) (now : Int)
  /-- The timer has dropped the record. -/
  | deleted (key : String) (now : Int)
  /-- The timer did anything else, or nothing. -/
  | decayed (key : String) (now : Int)
  deriving DecidableEq

def Outcome.key : Outcome → String
  | admitted key _ | blocking key _ | refused key _ | deleted key _ | decayed key _ => key

def Outcome.now : Outcome → Int
  | admitted _ now | blocking _ now | refused _ now | deleted _ now | decayed _ now => now

/-- The timer has not fired, it is a window after its hit, and no other timer of the key was due before it. -/
def Due (s : ThrottleState) (d : Decay) (now : Int) : Prop :=
  d ∈ s.pending ∧ d.hit + t.span ≤ now ∧ ∀ d' ∈ s.pending, d'.key = d.key → d.hit ≤ d'.hit

instance (s : ThrottleState) (d : Decay) (now : Int) : Decidable (t.Due s d now) := inferInstanceAs (Decidable (_ ∧ _))

/-- The key was blocked before. -/
def isBlocked (s : ThrottleState) (key : String) : Bool := (s.storage key).any ThrottleRecord.blocked

/-- One event; a timer that is not due does not fire. -/
def step (s : ThrottleState) : Event → Option (Outcome × ThrottleState)
  | .request key now =>
    let (answer, s') := t.middleware s key now.toInt
    match answer with
    | .served .. => some (.admitted key now.toInt, s')
    | .tooManyRequests _ => some (if isBlocked s key then .refused key now.toInt else .blocking key now.toInt, s')
  | .timer d now =>
    if t.Due s d now.toInt then
      let (dropped, s') := decay s d now.toInt
      some (if dropped then .deleted d.key now.toInt else .decayed d.key now.toInt, s')
    else none

/-- A run: what its events did, in their order, and the state after them. -/
def run (s : ThrottleState) : List Event → Option (List Outcome × ThrottleState)
  | [] => some ([], s)
  | e :: rest => (t.step s e).bind fun done => (run done.2 rest).map fun more => (done.1 :: more.1, more.2)

end Throttler

/-- The readings of the clock do not decrease. -/
def Ordered (events : List Throttler.Event) : Prop := events.Pairwise fun a b => a.now ≤ b.now

end NovoApex.Httpx
