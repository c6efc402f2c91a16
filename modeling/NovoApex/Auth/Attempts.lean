import NovoApex.Auth.Otp
import NovoApex.Lib.Crew
import Mathlib.Data.List.Perm.Subperm

/-!
# Concurrent verifications of one code

Any number of `Verify` calls on one phone, interleaved at the granularity of single
Redis commands, between two `Store`s. At most `MaxAttempts` codes are compared and at
most one call returns true in every run in which no call counts its attempt after the
code it has read was burned, and no call that matched burns a code that is already
gone. The counter is burned together with the code, so a call that counts later
starts it anew; and a burn does not tell whether there was anything left to burn.
-/

namespace NovoApex.Auth
set_option autoImplicit false
open Lib Program

/-- Redis, and what the calls have done: who was granted a comparison, who compared, whose code matched, who burned
the code on a match, and who returned true. -/
structure AttemptsWorld where
  redis : Redis
  granted : List Nat
  compared : List Nat
  matched : List Nat
  redeemed : List Nat
  accepted : List Nat

/-- The code is stored. -/
def AttemptsWorld.stored (phone : String) (w : AttemptsWorld) : Bool := (w.redis (otpCodeKey phone)).isSome

/-- What a command of `i` adds to the books. -/
def booked (phone : String) (i : Nat) (w : AttemptsWorld) : (c : RedisCommand) → Except RedisErr c.Reply → AttemptsWorld
  | .get _, _ => { w with matched := w.matched.filter fun j => j ≠ i }
  | .incr _, .ok attempts => if attempts ≤ maxAttempts then { w with granted := w.granted ++ [i] } else w
  | .incr _, .error _ => w
  | .del _, _ => if i ∈ w.matched ∧ w.stored phone = true then { w with redeemed := w.redeemed ++ [i] } else w
  | .expire .., _ => w
  | .multiSetWithDelete .., _ => w

/-- The store of the calls on `phone`. No key expires while they run: the clock stands at 0. -/
def attemptsExec (phone : String) : (authStore.signed Nat).Exec AttemptsWorld
  | (i, .redis c), w =>
    ((Redis.exec 0 c w.redis).1.mapError .redis,
      { booked phone i w c (Redis.exec 0 c w.redis).1 with redis := (Redis.exec 0 c w.redis).2 })
  | (i, .compare stored code), w =>
    (.ok (stored == code),
      { w with compared := w.compared ++ [i], matched := if stored = code then w.matched ++ [i] else w.matched })
  | (i, .returned _ valid), w => (.ok (), if valid then { w with accepted := w.accepted ++ [i] } else w)
  | (_, .sendOtpEmail ..), w => (.ok (), w)
  | (_, .sendTextMessage ..), w => (.ok (), w)
  | (_, .listBusinessesByOwnerPhone _), w => (.ok none, w)
  | (_, .mint _), w => (.ok (), w)

/-- A call, up to its return. -/
def verifyCall (phone code : String) : Program authStore Unit := do
  let valid ← verify phone code
  call (I := authStore) (.returned phone valid)

/-- A call under its name. -/
inductive VerifyJob (phone : String) : Nat → Program (authStore.signed Nat) Unit → Prop where
  | verify (i : Nat) (code : String) : VerifyJob phone i ((verifyCall phone code).signed i)

/-- A statement to Redis: it may fail, and its reply may be lost. -/
def AuthStmt.remote : AuthStmt → Bool
  | .redis _ => true
  | _ => false

/-- Any number of calls on `phone`. -/
def verifyFlow (phone : String) : Roster (authStore.signed Nat) Nat AttemptsWorld where
  exec := attemptsExec phone
  job := VerifyJob phone
  allow _ _ := True
  faults _ op := op.2.remote = true
  loses _ op := op.2.remote = true

/-- No attempt is counted after the code was burned, and no match burns a code that is gone. -/
def inTime (phone : String) (w : AttemptsWorld) : Nat × AuthStmt → Prop
  | (_, .redis (.incr _)) => w.stored phone = true
  | (i, .redis (.del _)) => i ∈ w.matched → w.stored phone = true
  | _ => True

instance (phone : String) (w : AttemptsWorld) : DecidablePred (inTime phone w) := fun op => by
  unfold inTime
  split <;> infer_instance

/-- The runs in which the calls are in time. -/
def inTimeFlow (phone : String) : Roster (authStore.signed Nat) Nat AttemptsWorld :=
  { verifyFlow phone with allow := inTime phone }

instance (phone : String) (w : AttemptsWorld) (op : Nat × AuthStmt) : Decidable ((inTimeFlow phone).allow w op) :=
  inferInstanceAs (Decidable (inTime phone w op))

instance (phone : String) (w : AttemptsWorld) (op : Nat × AuthStmt) : Decidable ((verifyFlow phone).allow w op) :=
  inferInstanceAs (Decidable True)

/-- A world right after `Store`. -/
def afterStore (phone code : String) (redis : Redis) : AttemptsWorld :=
  ⟨(Redis.exec 0 (.multiSetWithDelete (otpCodeKey phone) code otpTTL [otpAttemptsKey phone]) redis).2, [], [], [], [], []⟩

/-! ## The protocol -/

/-- While the code is stored, the counter is at least the number of comparisons granted and no match was redeemed. -/
structure Counting (phone : String) (w : AttemptsWorld) : Prop where
  counter : (w.redis (otpAttemptsKey phone) = none ∧ w.granted = []) ∨
    ∃ (n : Nat) (deadline : Option Nat), w.redis (otpAttemptsKey phone) = some ⟨toString (n : Int), deadline⟩ ∧
      deadline.all (fun d => decide (0 < d)) = true ∧ n < 2 ^ 63 ∧ w.granted.length ≤ n
  unredeemed : w.redeemed = []

/-- Everybody compares what it was granted, and returns true for what it redeemed. -/
structure Metered (phone : String) (w : AttemptsWorld) : Prop where
  counting : w.stored phone = true → Counting phone w
  bound : (w.granted.length : Int) ≤ maxAttempts
  once : w.redeemed.length ≤ 1
  compared : ∀ i, w.compared.count i ≤ w.granted.count i
  accepted : ∀ i, w.accepted.count i ≤ w.redeemed.count i

/-- The entries of `i` in the books are its own. -/
structure OwnBooks (i : Nat) (w w' : AttemptsWorld) : Prop where
  granted : w'.granted.count i = w.granted.count i
  compared : w'.compared.count i = w.compared.count i
  matched : i ∈ w.matched → i ∈ w'.matched
  redeemed : w'.redeemed.count i = w.redeemed.count i
  accepted : w'.accepted.count i = w.accepted.count i

theorem OwnBooks.refl (i : Nat) (w : AttemptsWorld) : OwnBooks i w w := ⟨rfl, rfl, id, rfl, rfl⟩

theorem OwnBooks.trans {i : Nat} {w w' w'' : AttemptsWorld} (h : OwnBooks i w w') (h' : OwnBooks i w' w'') : OwnBooks i w w'' :=
  ⟨h'.granted.trans h.granted, h'.compared.trans h.compared, fun mem => h'.matched (h.matched mem),
    h'.redeemed.trans h.redeemed, h'.accepted.trans h.accepted⟩

/-- The protocol of the calls. -/
def attemptsProtocol (phone : String) : Protocol Nat AttemptsWorld where
  inv := Metered phone
  rely := OwnBooks
  refl := OwnBooks.refl
  trans _ _ _ _ := OwnBooks.trans

/-- What a statement of `i` has to keep. -/
structure KeepsMetered (phone : String) (i : Nat) (w w' : AttemptsWorld) : Prop where
  inv : Metered phone w'
  others : ∀ j, j ≠ i → OwnBooks j w w'

section Statements

variable {phone code : String} {i : Nat} {w t : AttemptsWorld}

theorem KeepsMetered.same (inv : Metered phone w) : KeepsMetered phone i w w := ⟨inv, fun j _ => OwnBooks.refl j w⟩

theorem count_append_other {l : List Nat} {j : Nat} (other : j ≠ i) : (l ++ [i]).count j = l.count j := by
  rw [List.count_append, List.count_singleton, beq_false_of_ne other.symm, if_neg Bool.false_ne_true, Nat.add_zero]

theorem count_append_self {l : List Nat} : (l ++ [i]).count i = l.count i + 1 := by
  rw [List.count_append, List.count_singleton_self]

/-- Reading the code forgets an earlier match under the name. -/
theorem keeps_get (inv : Metered phone w) (key : String) :
    KeepsMetered phone i w (attemptsExec phone (i, .redis (.get key)) w).2 := by
  refine ⟨⟨fun stored => ?_, inv.bound, inv.once, inv.compared, inv.accepted⟩, fun j other => ⟨rfl, rfl, fun mem => ?_, rfl, rfl⟩⟩
  · exact ⟨(inv.counting stored).counter, (inv.counting stored).unredeemed⟩
  · exact List.mem_filter.2 ⟨mem, decide_eq_true other⟩

/-- The counter of a stored code, as a command finds it. -/
theorem Counting.lookup (h : Counting phone w) :
    (w.redis.lookup 0 (otpAttemptsKey phone) = none ∧ w.granted = []) ∨
    ∃ (n : Nat) (deadline : Option Nat), w.redis.lookup 0 (otpAttemptsKey phone) = some ⟨toString (n : Int), deadline⟩ ∧
      deadline.all (fun d => decide (0 < d)) = true ∧ n < 2 ^ 63 ∧ w.granted.length ≤ n := by
  rcases h.counter with ⟨absent, none⟩ | ⟨n, deadline, present, live, small, enough⟩
  · exact .inl ⟨by rw [Redis.lookup, absent]; rfl, none⟩
  · refine .inr ⟨n, deadline, ?_, live, small, enough⟩
    rw [Redis.lookup, present, Option.filter_some, if_pos live]

/-- The world after the attempt `n + 1`. -/
def counted (phone : String) (i n : Nat) (deadline : Option Nat) (w : AttemptsWorld) : AttemptsWorld :=
  { w with
    redis := Function.update w.redis (otpAttemptsKey phone) (some ⟨toString ((n + 1 : Nat) : Int), deadline⟩)
    granted := if ((n + 1 : Nat) : Int) ≤ maxAttempts then w.granted ++ [i] else w.granted }

/-- What counting an attempt at a stored code can do. -/
theorem incr_cases (h : Counting phone w) :
    (∃ e, attemptsExec phone (i, .redis (.incr (otpAttemptsKey phone))) w = (.error e, w)) ∨
    ∃ (n : Nat) (deadline : Option Nat), deadline.all (fun d => decide (0 < d)) = true ∧ n + 1 < 2 ^ 63 ∧ w.granted.length ≤ n ∧
      attemptsExec phone (i, .redis (.incr (otpAttemptsKey phone))) w =
        (.ok ((n + 1 : Nat) : Int), counted phone i n deadline w) := by
  rcases h.lookup with ⟨absent, none⟩ | ⟨n, deadline, present, live, small, enough⟩
  · refine .inr ⟨0, .none, rfl, by decide, by rw [none]; exact Nat.le_refl 0, ?_⟩
    simp only [attemptsExec, Redis.exec, absent]
    rfl
  · have number : Redis.integer? (toString (n : Int)) = some (n : Int) := Redis.integer?_natCast small
    by_cases room : (n : Int) + 1 < 2 ^ 63
    · refine .inr ⟨n, deadline, live, by omega, enough, ?_⟩
      simp only [attemptsExec, Redis.exec, present, number, if_pos room, booked, counted, Int.natCast_add, Int.cast_ofNat_Int]
      split
      · rfl
      · rfl
    · refine .inl ⟨.redis .overflow, ?_⟩
      simp only [attemptsExec, Redis.exec, present, number, if_neg room]
      rfl

theorem stored_update {key : String} {e : Option RedisEntry} (other : key ≠ otpCodeKey phone) {w' : AttemptsWorld}
    (redis : w'.redis = Function.update w.redis key e) : w'.stored phone = w.stored phone := by
  unfold AttemptsWorld.stored
  rw [redis, Function.update_of_ne other.symm]

/-- Counting an attempt at a stored code: a comparison is granted up to the limit. -/
theorem keeps_counted {n : Nat} {deadline : Option Nat} (inv : Metered phone w) (stored : w.stored phone = true)
    (live : deadline.all (fun d => decide (0 < d)) = true) (small : n + 1 < 2 ^ 63) (enough : w.granted.length ≤ n) :
    KeepsMetered phone i w (counted phone i n deadline w) := by
  have grants : (counted phone i n deadline w).granted = w.granted ∨
      ((counted phone i n deadline w).granted = w.granted ++ [i] ∧ ((n + 1 : Nat) : Int) ≤ maxAttempts) := by
    unfold counted
    by_cases within : ((n + 1 : Nat) : Int) ≤ maxAttempts
    · exact .inr ⟨if_pos within, within⟩
    · exact .inl (if_neg within)
  have more : ∀ j, w.granted.count j ≤ (counted phone i n deadline w).granted.count j := by
    intro j
    rcases grants with same | ⟨same, -⟩
    · exact Nat.le_of_eq (by rw [same])
    · rw [same, List.count_append]
      omega
  have length : (counted phone i n deadline w).granted.length ≤ n + 1 := by
    rcases grants with same | ⟨same, -⟩
    · rw [same]
      omega
    · rw [same, List.length_append, List.length_singleton]
      omega
  refine ⟨⟨fun _ => ⟨.inr ⟨n + 1, deadline, Function.update_self .., live, small, length⟩, (inv.counting stored).unredeemed⟩, ?_,
    inv.once, fun j => Nat.le_trans (inv.compared j) (more j), inv.accepted⟩, fun j other => ⟨?_, rfl, id, rfl, rfl⟩⟩
  · rcases grants with same | ⟨same, within⟩
    · rw [same]
      exact inv.bound
    · omega
  · rcases grants with same | ⟨same, -⟩
    · rw [same]
    · rw [same, count_append_other other]

/-- Setting the counter's deadline. -/
theorem keeps_expire (inv : Metered phone w) :
    KeepsMetered phone i w (attemptsExec phone (i, .redis (.expire (otpAttemptsKey phone) otpTTL)) w).2 ∧
      OwnBooks i w (attemptsExec phone (i, .redis (.expire (otpAttemptsKey phone) otpTTL)) w).2 := by
  have books : ∀ j, OwnBooks j w (attemptsExec phone (i, .redis (.expire (otpAttemptsKey phone) otpTTL)) w).2 :=
    fun j => ⟨rfl, rfl, id, rfl, rfl⟩
  refine ⟨⟨⟨fun stored => ?_, inv.bound, inv.once, inv.compared, inv.accepted⟩, fun j _ => books j⟩, books i⟩
  cases found : w.redis.lookup 0 (otpAttemptsKey phone) with
  | none =>
    have same : (attemptsExec phone (i, .redis (.expire (otpAttemptsKey phone) otpTTL)) w).2 = w := by
      simp only [attemptsExec, Redis.exec, found]
      rfl
    rw [same] at stored ⊢
    exact inv.counting stored
  | some e =>
    have redis : (attemptsExec phone (i, .redis (.expire (otpAttemptsKey phone) otpTTL)) w).2.redis =
        Function.update w.redis (otpAttemptsKey phone) (some { e with deadline := some (0 + otpTTL) }) := by
      simp only [attemptsExec, Redis.exec, found]
    rw [stored_update (otpAttemptsKey_ne phone) redis] at stored
    have counting := inv.counting stored
    refine ⟨?_, counting.unredeemed⟩
    rcases counting.lookup with ⟨absent, -⟩ | ⟨n, deadline, present, -, small, enough⟩
    · rw [absent] at found
      cases found
    · obtain rfl := Option.some.inj (found.symm.trans present)
      exact .inr ⟨n, some (0 + otpTTL), by rw [redis, Function.update_self], rfl, small, enough⟩

/-- Burning the code: a match is redeemed where there was a code left. -/
theorem keeps_burn (inv : Metered phone w) (keys : List String) (own : otpCodeKey phone ∈ keys) :
    KeepsMetered phone i w (attemptsExec phone (i, .redis (.del keys)) w).2 ∧
      (i ∈ w.matched → w.stored phone = true → (attemptsExec phone (i, .redis (.del keys)) w).2.accepted.count i <
        (attemptsExec phone (i, .redis (.del keys)) w).2.redeemed.count i) := by
  have gone : (attemptsExec phone (i, .redis (.del keys)) w).2.stored phone ≠ true := by
    show (Redis.erase keys w.redis (otpCodeKey phone)).isSome ≠ true
    rw [Redis.erase, if_pos own]
    exact Bool.false_ne_true
  by_cases redeems : i ∈ w.matched ∧ w.stored phone = true
  · have after : (attemptsExec phone (i, .redis (.del keys)) w).2 =
        { w with redeemed := w.redeemed ++ [i], redis := Redis.erase keys w.redis } := by
      simp only [attemptsExec, booked, if_pos redeems]
      rfl
    rw [after] at gone ⊢
    have first := (inv.counting redeems.2).unredeemed
    have none := inv.accepted i
    simp only [first, List.count_nil] at none
    refine ⟨⟨⟨fun stored => (gone stored).elim, inv.bound, ?_, inv.compared, fun j => ?_⟩, fun j other => ⟨rfl, rfl, id, ?_, rfl⟩⟩, fun _ _ => ?_⟩
    · simp only [first]
      exact Nat.le_refl 1
    · refine Nat.le_trans (inv.accepted j) ?_
      simp only [List.count_append]
      omega
    · exact count_append_other other
    · simp only [count_append_self]
      omega
  · have after : (attemptsExec phone (i, .redis (.del keys)) w).2 = { w with redis := Redis.erase keys w.redis } := by
      simp only [attemptsExec, booked, if_neg redeems]
      rfl
    rw [after] at gone ⊢
    refine ⟨⟨⟨fun stored => (gone stored).elim, inv.bound, inv.once, inv.compared, inv.accepted⟩, fun j _ => ⟨rfl, rfl, id, rfl, rfl⟩⟩, ?_⟩
    exact fun matched stored => (redeems ⟨matched, stored⟩).elim

/-- A granted comparison. -/
theorem keeps_compare {stored : String} (inv : Metered phone w) (credit : w.compared.count i < w.granted.count i) :
    KeepsMetered phone i w (attemptsExec phone (i, .compare stored code) w).2 := by
  refine ⟨⟨fun stored => ⟨(inv.counting stored).counter, (inv.counting stored).unredeemed⟩, inv.bound, inv.once, fun j => ?_, inv.accepted⟩,
    fun j other => ⟨rfl, count_append_other other, fun mem => ?_, rfl, rfl⟩⟩
  · show (w.compared ++ [i]).count j ≤ w.granted.count j
    by_cases own : j = i
    · subst own
      rw [count_append_self]
      omega
    · rw [count_append_other own]
      exact inv.compared j
  · show j ∈ if stored = code then w.matched ++ [i] else w.matched
    split
    · exact List.mem_append_left _ mem
    · exact mem

/-- Returning what was redeemed. -/
theorem keeps_returned {valid : Bool} (inv : Metered phone w) (credit : valid = true → w.accepted.count i < w.redeemed.count i) :
    KeepsMetered phone i w (attemptsExec phone (i, .returned phone valid) w).2 := by
  cases valid with
  | false => exact KeepsMetered.same inv
  | true =>
    refine ⟨⟨fun stored => ⟨(inv.counting stored).counter, (inv.counting stored).unredeemed⟩, inv.bound, inv.once, inv.compared, fun j => ?_⟩,
      fun j other => ⟨rfl, rfl, id, rfl, count_append_other other⟩⟩
    show (w.accepted ++ [i]).count j ≤ w.redeemed.count j
    by_cases own : j = i
    · subst own
      rw [count_append_self]
      exact credit rfl
    · rw [count_append_other own]
      exact inv.accepted j

end Statements

/-! ## Calls -/

section Calls

variable {phone code : String} {i : Nat} {w t : AttemptsWorld}

/-- One statement. -/
theorem safe_signed {op : AuthStmt} {Q : Except AuthErr op.Reply → AttemptsWorld → Prop}
    (executed : ∀ t, OwnBooks i w t → Metered phone t → inTime phone t (i, op) →
      KeepsMetered phone i t (attemptsExec phone (i, op) t).2 ∧ Q (attemptsExec phone (i, op) t).1 (attemptsExec phone (i, op) t).2 ∧
        (op.remote = true → Q (.error .unavailable) (attemptsExec phone (i, op) t).2))
    (failed : ∀ t, op.remote = true → Q (.error .unavailable) t) :
    Safe (inTimeFlow phone) (attemptsProtocol phone) i Q ((call (I := authStore) op).signed i) w := by
  show Safe _ _ _ _ (call (I := authStore.signed Nat) (i, op)) w
  refine Safe.call (fun t rely inv may => ?_) (fun t _ _ faults => failed t faults) fun _ _ _ _ => trivial
  obtain ⟨keeps, replied, unreplied⟩ := executed t rely inv may
  exact ⟨keeps.inv, keeps.others, replied, unreplied⟩

/-- A command; nothing is known after an error. -/
theorem safe_command {text : String} {c : RedisCommand} {A : c.Reply → AttemptsWorld → Prop}
    (executed : ∀ t, OwnBooks i w t → Metered phone t → inTime phone t (i, .redis c) →
      KeepsMetered phone i t (attemptsExec phone (i, .redis c) t).2 ∧
        ∀ r, (attemptsExec phone (i, .redis c) t).1 = .ok r → A r (attemptsExec phone (i, .redis c) t).2) :
    Safe (inTimeFlow phone) (attemptsProtocol phone) i (Replied A fun _ => True)
      ((wrapping text (call (I := authStore) (.redis c))).signed i) w := by
  unfold wrapping
  rw [bind_eq, signed_bind, signed_attempt]
  refine Safe.bind (Safe.attempt (safe_signed (Q := fun r t => ∀ a, r = .ok a → A a t) (fun t rely inv may => ?_) ?_ |>.mono ?_))
  · obtain ⟨keeps, replied⟩ := executed t rely inv may
    exact ⟨keeps, replied, fun _ a absurd => nomatch absurd⟩
  · exact fun _ _ a absurd => nomatch absurd
  · intro r t replied
    cases r with
    | ok a => exact replied a rfl
    | error e => exact trivial

/-- Counting the attempt grants a comparison, up to the limit. -/
theorem safe_incr : Safe (inTimeFlow phone) (attemptsProtocol phone) i
    (Replied (fun attempts t => attempts ≤ maxAttempts → t.compared.count i < t.granted.count i) fun _ => True)
    ((redisIncr (otpAttemptsKey phone)).signed i) w := by
  refine safe_command fun t rely inv stored => ?_
  rcases incr_cases (i := i) (inv.counting stored) with ⟨e, runs⟩ | ⟨n, deadline, live, small, enough, runs⟩
  · rw [runs]
    exact ⟨KeepsMetered.same inv, fun _ absurd => nomatch absurd⟩
  · rw [runs]
    refine ⟨keeps_counted inv stored live small enough, fun attempts replied within => ?_⟩
    cases replied
    have before := inv.compared i
    show t.compared.count i < (if ((n + 1 : Nat) : Int) ≤ maxAttempts then t.granted ++ [i] else t.granted).count i
    rw [if_pos within, count_append_self]
    omega

theorem safe_expire (credit : w.compared.count i < w.granted.count i) : Safe (inTimeFlow phone) (attemptsProtocol phone) i
    (Replied (fun _ t => t.compared.count i < t.granted.count i) fun _ => True)
    ((redisExpire (otpAttemptsKey phone) otpTTL).signed i) w := by
  refine safe_command fun t rely inv _ => ?_
  obtain ⟨keeps, own⟩ := keeps_expire (i := i) inv
  refine ⟨keeps, fun _ _ => ?_⟩
  rw [own.compared, own.granted, rely.compared, rely.granted]
  exact credit

theorem safe_burnOTP :
    Safe (inTimeFlow phone) (attemptsProtocol phone) i
      (Replied (fun _ t => i ∈ w.matched → t.accepted.count i < t.redeemed.count i) fun _ => True) ((burnOTP phone).signed i) w := by
  refine safe_command fun t rely inv may => ?_
  obtain ⟨keeps, redeems⟩ := keeps_burn (i := i) inv [otpCodeKey phone, otpAttemptsKey phone] List.mem_cons_self
  exact ⟨keeps, fun _ _ matched => redeems (rely.matched matched) (may (rely.matched matched))⟩

/-- The comparison and what follows, for a call that was granted one. -/
theorem safe_verifyAttempt {stored : String} {attempts : Int}
    (credit : attempts ≤ maxAttempts → w.compared.count i < w.granted.count i) :
    Safe (inTimeFlow phone) (attemptsProtocol phone) i
      (Replied (fun valid t => valid = true → t.accepted.count i < t.redeemed.count i) fun _ => True)
      ((verifyAttempt phone stored code attempts).signed i) w := by
  unfold verifyAttempt
  split
  · rw [bind_eq, signed_bind]
    refine Safe.bind (safe_burnOTP.mono fun r t _ => ?_)
    cases r with
    | ok _ => exact fun absurd => nomatch absurd
    | error e => exact trivial
  · rename_i within
    rw [bind_eq, signed_bind]
    have compares : Safe (inTimeFlow phone) (attemptsProtocol phone) i
        (Replied (fun equal t => equal = true → i ∈ t.matched) fun _ => True)
        ((call (I := authStore) (.compare stored code)).signed i) w := by
      refine safe_signed (fun t rely inv _ => ?_) fun _ absurd => nomatch absurd
      have granted : t.compared.count i < t.granted.count i := by
        rw [rely.compared, rely.granted]
        exact credit (Int.not_lt.1 within)
      refine ⟨keeps_compare inv granted, fun equal => ?_, fun absurd => nomatch absurd⟩
      show i ∈ if stored = code then t.matched ++ [i] else t.matched
      rw [if_pos (beq_iff_eq.1 equal)]
      exact List.mem_append_right _ List.mem_cons_self
    refine Safe.bind (compares.mono fun r t matched => ?_)
    cases r with
    | error e => exact trivial
    | ok equal =>
      cases equal with
      | false => exact fun absurd => nomatch absurd
      | true =>
        simp only [if_pos, bind_eq, signed_bind]
        refine Safe.bind (safe_burnOTP.mono fun r u after => ?_)
        cases r with
        | error e => exact trivial
        | ok _ => exact fun _ => after (matched rfl)

/-- A call returns true only for a match it has redeemed. -/
theorem safe_verify : Safe (inTimeFlow phone) (attemptsProtocol phone) i
    (Replied (fun valid t => valid = true → t.accepted.count i < t.redeemed.count i) fun _ => True) ((verify phone code).signed i) w := by
  unfold verify
  rw [bind_eq, signed_bind]
  refine Safe.bind ((safe_command (A := fun _ _ => True) fun t _ inv _ => ⟨keeps_get inv _, fun _ _ => trivial⟩).mono fun r t _ => ?_)
  cases r with
  | error e => exact trivial
  | ok found =>
    cases found with
    | none => exact fun absurd => nomatch absurd
    | some stored =>
      simp only
      split
      · exact fun absurd => nomatch absurd
      · rw [bind_eq, signed_bind]
        refine Safe.bind (safe_incr.mono fun r u credit => ?_)
        cases r with
        | error e => exact trivial
        | ok attempts =>
          simp only
          split
          · rename_i first
            rw [bind_eq, signed_bind]
            refine Safe.bind ((safe_expire (credit (by rw [first]; decide))).mono fun r v kept => ?_)
            cases r with
            | error e => exact trivial
            | ok _ => exact safe_verifyAttempt fun _ => kept
          · exact safe_verifyAttempt credit

/-- A call keeps the protocol wherever it starts. -/
theorem safe_verifyCall : Safe (inTimeFlow phone) (attemptsProtocol phone) i (fun _ _ => True) ((verifyCall phone code).signed i) w := by
  unfold verifyCall
  rw [bind_eq, signed_bind]
  refine Safe.bind (safe_verify.mono fun r t credit => ?_)
  cases r with
  | error e => exact trivial
  | ok valid =>
    refine safe_signed (fun u rely inv _ => ⟨keeps_returned inv fun yes => ?_, trivial, fun _ => trivial⟩) fun _ _ => trivial
    rw [rely.accepted, rely.redeemed]
    exact credit yes

end Calls

/-! ## Runs -/

theorem length_le_of_count {l l' : List Nat} (counts : ∀ i, l.count i ≤ l'.count i) : l.length ≤ l'.length :=
  (List.subperm_ext_iff.2 fun i _ => counts i).length_le

theorem metered_afterStore (phone code : String) (redis : Redis) : Metered phone (afterStore phone code redis) := by
  have empty : (([] : List Nat).length : Int) ≤ maxAttempts := by decide
  refine ⟨fun _ => ⟨.inl ⟨?_, rfl⟩, rfl⟩, empty, Nat.zero_le 1, fun _ => Nat.le_refl 0, fun _ => Nat.le_refl 0⟩
  exact if_pos (List.mem_singleton_self _)

/-- Between two stores at most `MaxAttempts` codes are compared with the stored one and at most one call returns true, in
every run in which no attempt is counted after the code was burned and no match burns a code that is gone. -/
theorem attempts_bounded {phone code : String} {redis : Redis} {c : Crew (authStore.signed Nat) Nat AttemptsWorld}
    (reach : (inTimeFlow phone).Reach ⟨afterStore phone code redis, []⟩ c) :
    (c.state.compared.length : Int) ≤ maxAttempts ∧ c.state.accepted.length ≤ 1 := by
  have safe : ∀ i p s, (inTimeFlow phone).job i p → (attemptsProtocol phone).inv s → (attemptsProtocol phone).idle i s →
      Safe (inTimeFlow phone) (attemptsProtocol phone) i (fun _ => (attemptsProtocol phone).idle i) p s := by
    rintro i p s ⟨code⟩ _ _
    exact safe_verifyCall
  have metered := Protocol.invariant safe reach (metered_afterStore phone code redis) fun _ => trivial
  have compared := length_le_of_count metered.compared
  have accepted := length_le_of_count metered.accepted
  have bound := metered.bound
  have once := metered.once
  exact ⟨by omega, by omega⟩


/-- A code has just been stored. -/
def freshCode : AttemptsWorld := afterStore "0241234567" "123456" fun _ => none

/-- One call with the code. -/
theorem attempts_bounded_once : ∃ c : Crew (authStore.signed Nat) Nat AttemptsWorld,
    (inTimeFlow "0241234567").Reach ⟨freshCode, []⟩ c ∧ c.state.accepted = [1] ∧
      (c.state.compared.length : Int) ≤ maxAttempts ∧ c.state.accepted.length ≤ 1 := by
  have reach := (inTimeFlow "0241234567").reach_job (i := 1) (s := freshCode) (.verify 1 "123456") (by decide +kernel)
  exact ⟨_, reach, by decide +kernel, attempts_bounded reach⟩

/-- The first call has compared and is about to burn the code. -/
def firstMatched : Program (authStore.signed Nat) Unit × AttemptsWorld :=
  ((verifyCall "0241234567" "123456").signed 1).steps (attemptsExec "0241234567") 4 freshCode

/-- The second call runs to its end meanwhile. -/
def secondCall : Program (authStore.signed Nat) Unit := (verifyCall "0241234567" "123456").signed 2

/-- Two calls with the same code that overlap: both return true. -/
theorem code_accepted_twice : ¬ ∀ c : Crew (authStore.signed Nat) Nat AttemptsWorld,
    (verifyFlow "0241234567").Reach ⟨freshCode, []⟩ c →
      (c.state.compared.length : Int) ≤ maxAttempts ∧ c.state.accepted.length ≤ 1 := by
  intro bounded
  have spawned : (verifyFlow "0241234567").Reach ⟨freshCode, []⟩
      ⟨freshCode, [] ++ (1, (verifyCall "0241234567" "123456").signed 1) :: []⟩ := .single (.spawn (.verify 1 "123456") List.not_mem_nil)
  have first := spawned.trans ((verifyFlow "0241234567").reach_steps 4 [] [] (by decide +kernel))
  have again := first.tail (.spawn (.verify 2 "123456") (by decide))
  have second := again.trans ((verifyFlow "0241234567").reach_end [] [(1, firstMatched.1)] (by decide +kernel))
  have both := second.trans ((verifyFlow "0241234567").reach_end
    [(2, .ret (secondCall.run (attemptsExec "0241234567") firstMatched.2).1)] [] (by decide +kernel))
  exact absurd (bounded _ both).2 (by decide +kernel)

end NovoApex.Auth
