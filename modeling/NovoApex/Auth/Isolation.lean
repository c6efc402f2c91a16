import NovoApex.Handlers.Auth

/-!
# Isolation between the phones of the OTP store

Calls on two phones, one after the other, each command with a time and a fate of its
own. A phone's keys are `otp:<phone>` and `otp:attempts:<phone>`, and the two schemes
overlap: the code of `attempts:<phone>` is stored where the attempts of `<phone>` are
counted. For every other pair of phones the calls on one do not change what the calls
on the other get to see.
-/

namespace NovoApex.Auth
set_option autoImplicit false
open Lib Program Handlers

/-- A call of the OTP store. -/
inductive OtpCall where
  | store (phone code : String)
  | generate (phone : String) (drawn : Option (Fin 900000))
  | verify (phone code : String)
  deriving DecidableEq

/-- What a call returns. -/
inductive OtpAnswer where
  | stored
  | generated (code : String)
  | verified (valid : Bool)
  deriving DecidableEq, Repr

namespace OtpCall

/-- The phone of a call. -/
def phone : OtpCall → String
  | store phone _ | generate phone _ | verify phone _ => phone

/-- The statements of a call. -/
def program : OtpCall → Program authStore OtpAnswer
  | store phone code => do
    Auth.store phone code
    pure .stored
  | generate phone drawn => do
    let code ← Auth.generate phone drawn
    pure (.generated code)
  | verify phone code => do
    let valid ← Auth.verify phone code
    pure (.verified valid)

theorem uses_program (call : OtpCall) : call.program.Uses (OwnStmt call.phone) := by
  cases call with
  | store phone code => exact uses_store.bind fun _ => trivial
  | generate phone drawn => exact uses_generate.bind fun _ => trivial
  | verify phone code => exact uses_verify.bind fun _ => trivial

end OtpCall

/-- A call and what becomes of its statements. -/
structure OtpEvent where
  call : OtpCall
  fates : Nat → Fate

/-- What a call returns, and what it has seen of its phone's code and counter. -/
structure OtpOutcome where
  result : Except AuthErr OtpAnswer
  seen : List Seen

/-- Handle one call. -/
def OtpEvent.run (e : OtpEvent) (w : AuthWorld) : OtpOutcome × AuthWorld :=
  let after := e.call.program.run authExec { w with fates := e.fates, seen := [] }
  (⟨after.1, after.2.seen⟩, after.2)

/-- Handle the calls in turn: what those on `q` observe. -/
def observing (q : String) : List OtpEvent → AuthWorld → List OtpOutcome
  | [], _ => []
  | e :: rest, w => if e.call.phone = q then (e.run w).1 :: observing q rest (e.run w).2 else observing q rest (e.run w).2

/-- Whatever calls on `p` come in between, the calls on `q` observe what they would without them. -/
def Isolated (p q : String) : Prop :=
  ∀ (w : AuthWorld) (events : List OtpEvent), (∀ e ∈ events, e.call.phone = p ∨ e.call.phone = q) →
    observing q events w = observing q (events.filter fun e => e.call.phone = q) w

/-! ## The keys -/

/-- Two phones share a key only when one is the other behind `attempts:`. -/
theorem ownKey_apart {p q key : String} (other : p ≠ q) (left : p ≠ "attempts:" ++ q) (right : q ≠ "attempts:" ++ p)
    (own : OwnKey p key) : ¬ OwnKey q key := by
  rintro (theirs | theirs)
  · rcases own with rfl | rfl
    · exact other (otpCodeKey_inj.1 theirs)
    · rw [otpAttemptsKey_eq] at theirs
      exact right (otpCodeKey_inj.1 theirs).symm
  · rcases own with rfl | rfl
    · rw [otpAttemptsKey_eq] at theirs
      exact left (otpCodeKey_inj.1 theirs)
    · exact other (otpAttemptsKey_inj.1 theirs)

/-! ## One call -/

/-- Worlds that a call on the phone cannot tell apart. -/
structure SameFor (phone : String) (w w' : AuthWorld) : Prop where
  keys : Redis.Agree (OwnKey phone) w.redis w'.redis
  fates : w.fates = w'.fates
  seen : w.seen = w'.seen

variable {p q : String} {w w' : AuthWorld}

theorem SameFor.effect {op : AuthStmt} (h : SameFor q w w') (own : OwnStmt q op) (now : Nat) :
    (authEffect now op w).1 = (authEffect now op w').1 ∧ SameFor q (authEffect now op w).2 (authEffect now op w').2 := by
  cases op with
  | redis c =>
    obtain ⟨same, agree⟩ := Redis.exec_agree now own h.keys
    refine ⟨congrArg (Except.mapError AuthErr.redis) same, agree, h.fates, ?_⟩
    show w.seen ++ _ = w'.seen ++ _
    rw [h.seen, same]
  | compare stored code => exact ⟨rfl, h⟩
  | returned | sendOtpEmail | sendTextMessage | listBusinessesByOwnerPhone | mint => exact own.elim

theorem SameFor.exec {op : AuthStmt} (h : SameFor q w w') (own : OwnStmt q op) :
    (authExec op w).1 = (authExec op w').1 ∧ SameFor q (authExec op w).2 (authExec op w').2 := by
  unfold authExec
  split
  · exact h.effect own 0
  · have rest : SameFor q { w with fates := fun n => w.fates (n + 1) } { w' with fates := fun n => w'.fates (n + 1) } :=
      ⟨h.keys, by rw [h.fates], h.seen⟩
    simp only [h.fates]
    split
    · exact ⟨rfl, by simpa only [h.fates] using rest⟩
    · obtain ⟨same, after⟩ := rest.effect own (w'.fates 0).time
      rw [h.fates] at same after
      split
      · exact ⟨rfl, after.keys, after.fates, h.seen⟩
      · exact ⟨same, after⟩

/-- A call on `q` does the same in worlds it cannot tell apart. -/
theorem OtpEvent.run_same {e : OtpEvent} (own : e.call.phone = q) (agree : Redis.Agree (OwnKey q) w.redis w'.redis) :
    (e.run w).1 = (e.run w').1 ∧ Redis.Agree (OwnKey q) (e.run w).2.redis (e.run w').2.redis := by
  have start : SameFor q { w with fates := e.fates, seen := [] } { w' with fates := e.fates, seen := [] } := ⟨agree, rfl, rfl⟩
  have uses : e.call.program.Uses (OwnStmt q) := own ▸ e.call.uses_program
  obtain ⟨result, after⟩ := uses.run_related (fun op s t own h => SameFor.exec h own) start
  refine ⟨?_, after.keys⟩
  show OtpOutcome.mk _ _ = OtpOutcome.mk _ _
  rw [result, after.seen]

/-- A statement about `p` leaves the keys of `q` alone. -/
theorem exec_apart {op : AuthStmt} (apart : ∀ key, OwnKey p key → ¬ OwnKey q key) (own : OwnStmt p op) :
    Redis.Agree (OwnKey q) w.redis (authExec op w).2.redis := by
  have effect : ∀ (now : Nat) (v : AuthWorld), v.redis = w.redis → Redis.Agree (OwnKey q) w.redis (authEffect now op v).2.redis := by
    intro now v same
    cases op with
    | redis c =>
      rw [← same]
      exact Redis.exec_apart fun key mem => apart key (own key mem)
    | compare stored code => exact same ▸ Redis.Agree.refl _ _
    | returned | sendOtpEmail | sendTextMessage | listBusinessesByOwnerPhone | mint => exact own.elim
  unfold authExec
  split
  · exact effect 0 w rfl
  · dsimp only
    split
    · exact Redis.Agree.refl _ _
    · split
      · exact effect _ _ rfl
      · exact effect _ _ rfl

/-- A call on `p` leaves the keys of `q` alone. -/
theorem OtpEvent.run_apart {e : OtpEvent} (apart : ∀ key, OwnKey p key → ¬ OwnKey q key) (own : e.call.phone = p) :
    Redis.Agree (OwnKey q) w.redis (e.run w).2.redis := by
  have uses : e.call.program.Uses (OwnStmt p) := own ▸ e.call.uses_program
  refine uses.run_keeps (P := fun v : AuthWorld => Redis.Agree (OwnKey q) w.redis v.redis) (fun op v own before key mem => ?_) (Redis.Agree.refl _ _)
  exact (before key mem).trans (exec_apart apart own key mem)

/-! ## All calls -/

theorem isolated_of_apart (apart : ∀ key, OwnKey p key → ¬ OwnKey q key) : Isolated p q := by
  intro w events
  -- the two runs agree on the keys of `q` all along
  suffices step : ∀ w', Redis.Agree (OwnKey q) w.redis w'.redis → (∀ e ∈ events, e.call.phone = p ∨ e.call.phone = q) →
      observing q events w = observing q (events.filter fun e => e.call.phone = q) w' from step w (Redis.Agree.refl _ _)
  induction events generalizing w with
  | nil => exact fun w' agree _ => rfl
  | cons e rest ih =>
    intro w' agree phones
    have later : ∀ e' ∈ rest, e'.call.phone = p ∨ e'.call.phone = q := fun e' mem => phones e' (List.mem_cons_of_mem _ mem)
    by_cases own : e.call.phone = q
    · obtain ⟨outcome, after⟩ := OtpEvent.run_same own agree
      rw [List.filter_cons_of_pos (by simpa using own)]
      simp only [observing, if_pos own]
      rw [outcome, ih (e.run w).2 (e.run w').2 after later]
    · have theirs : e.call.phone = p := (phones e List.mem_cons_self).resolve_right own
      have before : Redis.Agree (OwnKey q) (e.run w).2.redis w'.redis := by
        intro key mem
        exact (OtpEvent.run_apart apart theirs key mem).symm.trans (agree key mem)
      rw [List.filter_cons_of_neg (by simpa using own)]
      simp only [observing, if_neg own]
      exact ih (e.run w).2 w' before later

/-! ## Phones that share a key -/

/-- A call whose statements are all executed at second 0. -/
def OtpCall.undisturbed (call : OtpCall) : OtpEvent := ⟨call, fun _ => ⟨0, false, false⟩⟩

theorem run_store (phone code : String) (w : AuthWorld) : ((OtpCall.store phone code).undisturbed.run w).2.redis =
    Redis.erase [otpAttemptsKey phone] (Function.update w.redis (otpCodeKey phone) (some ⟨code, some otpTTL⟩)) := by
  show Redis.erase [otpAttemptsKey phone] (Function.update w.redis (otpCodeKey phone) (some ⟨code, some (0 + otpTTL)⟩)) = _
  rw [Nat.zero_add]

theorem authExec_redis {c : RedisCommand} (calm : w.fates = fun _ => ⟨0, false, false⟩) : authExec (.redis c) w =
    ((Redis.exec 0 c w.redis).1.mapError .redis,
      { w with redis := (Redis.exec 0 c w.redis).2, seen := w.seen ++ seenIn c (Redis.exec 0 c w.redis).1 }) := by
  obtain ⟨redis, owners, fates, seen, deliveries, tokens⟩ := w
  cases calm
  rfl

/-- What a call has seen, it has seen. -/
theorem seen_grows {α : Type} {phone : String} {p : Program authStore α} (uses : p.Uses (OwnStmt phone)) :
    w.seen <+: (p.run authExec w).2.seen := by
  refine uses.run_keeps (P := fun v : AuthWorld => w.seen <+: v.seen) (fun op v own before => ?_) (List.prefix_refl _)
  have effect : ∀ (now : Nat) (u : AuthWorld), u.seen = v.seen → v.seen <+: (authEffect now op u).2.seen := by
    intro now u same
    cases op with
    | redis c => exact same ▸ List.prefix_append _ _
    | compare stored code => exact same ▸ List.prefix_refl _
    | returned | sendOtpEmail | sendTextMessage | listBusinessesByOwnerPhone | mint => exact own.elim
  refine before.trans ?_
  unfold authExec
  split
  · exact effect 0 v rfl
  · dsimp only
    split
    · exact List.prefix_refl _
    · split
      · exact List.prefix_refl _
      · exact effect _ _ rfl

theorem seen_after {α β : Type} (phone : String) {p : Program authStore α} {f : α → Program authStore β}
    (uses : ∀ a, (f a).Uses (OwnStmt phone)) : (p.run authExec w).2.seen <+: ((p.bind f).run authExec w).2.seen := by
  rw [run_bind]
  obtain ⟨r, after⟩ := p.run authExec w
  cases r with
  | ok a => exact seen_grows (uses a)
  | error e => exact List.prefix_refl _

/-- A world at the start of a call. -/
def AuthWorld.starting (w : AuthWorld) : AuthWorld := { w with fates := fun _ => ⟨0, false, false⟩, seen := [] }

/-- What a verification sees first. -/
theorem run_redisGet (w : AuthWorld) (key : String) : (redisGet key).run authExec w.starting =
    (.ok ((w.redis.lookup 0 key).map RedisEntry.value),
      { w.starting with seen := [.code (.ok ((w.redis.lookup 0 key).map RedisEntry.value))] }) := by
  rw [redisGet, run_wrapping, run_call, authExec_redis rfl]
  rfl

theorem verify_seen_none (code : String) (missing : w.redis (otpCodeKey q) = none) :
    ((OtpCall.verify q code).undisturbed.run w).1.seen = [.code (.ok none)] := by
  have found : (w.redis.lookup 0 (otpCodeKey q)).map RedisEntry.value = none := by
    rw [Redis.lookup, missing]
    rfl
  show (Program.run authExec ((verify q code).bind fun valid => pure (OtpAnswer.verified valid)) w.starting).2.seen = _
  rw [run_bind, verify, bind_eq, run_bind, run_redisGet, found]
  rfl

/-- A verification that finds a code sees it, and then its own count. -/
theorem verify_seen_some (code : String) {stored : String} (held : w.redis (otpCodeKey q) = some ⟨stored, none⟩) (nonempty : stored ≠ "") :
    [.code (.ok (some stored)), .attempts (Redis.exec 0 (.incr (otpAttemptsKey q)) w.redis).1] <+:
      ((OtpCall.verify q code).undisturbed.run w).1.seen := by
  have found : (w.redis.lookup 0 (otpCodeKey q)).map RedisEntry.value = some stored := by
    rw [Redis.lookup, held]
    rfl
  have counted : ((verify q code).run authExec w.starting).2.seen <+:
      (Program.run authExec ((verify q code).bind fun valid => pure (OtpAnswer.verified valid)) w.starting).2.seen :=
    seen_after q fun _ => trivial
  refine List.IsPrefix.trans ?_ counted
  rw [verify, bind_eq, run_bind, run_redisGet, found, andThen_ok]
  simp only [if_neg nonempty, bind_eq]
  refine List.IsPrefix.trans ?_ (seen_after q fun attempts => ?_)
  · rw [redisIncr, run_wrapping, run_call, authExec_redis rfl]
    exact List.prefix_refl _
  · split
    · exact Uses.bind (uses_wrapping (uses_call.2 fun key mem => .inr (List.mem_singleton.1 mem))) fun _ => uses_verifyAttempt
    · exact uses_verifyAttempt

/-- Where `p` does not interfere, a verification of `q` does not notice a code stored for `p`. -/
theorem Isolated.verify_after_store (h : Isolated p q) (other : p ≠ q) (w : AuthWorld) :
    ((OtpCall.verify q "000000").undisturbed.run ((OtpCall.store p "123456").undisturbed.run w).2).1 =
      ((OtpCall.verify q "000000").undisturbed.run w).1 := by
  have same := h w [(OtpCall.store p "123456").undisturbed, (OtpCall.verify q "000000").undisturbed] (by
    intro e mem
    rcases List.mem_cons.1 mem with rfl | mem
    · exact .inl rfl
    · exact .inr (List.mem_singleton.1 mem ▸ rfl))
  have kept : [(OtpCall.store p "123456").undisturbed, (OtpCall.verify q "000000").undisturbed].filter (fun e => e.call.phone = q) =
      [(OtpCall.verify q "000000").undisturbed] := by
    rw [List.filter_cons_of_neg (Bool.not_eq_true _ ▸ decide_eq_false other)]
    exact List.filter_eq_self.2 fun e mem => List.mem_singleton.1 mem ▸ decide_eq_true rfl
  rw [kept] at same
  simp only [observing, OtpCall.undisturbed, OtpCall.phone, if_neg other, if_pos] at same
  exact List.head_eq_of_cons_eq same

/-- A world in which `q` has a code. -/
def holding (q : String) : AuthWorld :=
  ⟨fun k => if k = otpCodeKey q then some ⟨"654321", none⟩ else none, fun _ => none, fun _ => ⟨0, false, false⟩, [], [], []⟩

/-- What the first verification of `q` counts, after a code was stored for `attempts:<q>`. -/
theorem incr_after_store (q : String) : (Redis.exec 0 (.incr (otpAttemptsKey q))
    ((OtpCall.store ("attempts:" ++ q) "123456").undisturbed.run (holding q)).2.redis).1 = .ok 123457 := by
  have apart : otpCodeKey ("attempts:" ++ q) ≠ otpCodeKey ("attempts:" ++ ("attempts:" ++ q)) :=
    otpCodeKey_ne (by simp only [length_behind]; omega)
  have stored : ((OtpCall.store ("attempts:" ++ q) "123456").undisturbed.run (holding q)).2.redis (otpAttemptsKey q) =
      some ⟨"123456", some otpTTL⟩ := by
    rw [run_store, otpAttemptsKey_eq q, otpAttemptsKey_eq ("attempts:" ++ q), Redis.erase, if_neg (by simpa using apart),
      Function.update_self]
  have number : Redis.integer? "123456" = some 123456 := by decide +kernel
  have found : Redis.lookup 0 ((OtpCall.store ("attempts:" ++ q) "123456").undisturbed.run (holding q)).2.redis (otpAttemptsKey q) =
      some ⟨"123456", some otpTTL⟩ := by
    rw [Redis.lookup, stored]
    rfl
  simp only [Redis.exec, found, number]
  rfl

/-- What it counts otherwise. -/
theorem incr_without (q : String) : (Redis.exec 0 (.incr (otpAttemptsKey q)) (holding q).redis).1 = .ok 1 := by
  have missing : (holding q).redis (otpAttemptsKey q) = none := by
    rw [otpAttemptsKey_eq]
    exact if_neg (otpCodeKey_ne (by rw [length_behind]; omega)).symm
  simp only [Redis.exec, Redis.lookup, missing]
  rfl

/-- The code of `attempts:<q>` is the counter of `q`. -/
theorem not_isolated_counter (other : "attempts:" ++ q ≠ q) : ¬ Isolated ("attempts:" ++ q) q := by
  intro isolated
  have same := congrArg OtpOutcome.seen (isolated.verify_after_store other (holding q))
  have held : ((OtpCall.store ("attempts:" ++ q) "123456").undisturbed.run (holding q)).2.redis (otpCodeKey q) =
      some ⟨"654321", none⟩ := by
    have apart : otpCodeKey q ≠ otpCodeKey ("attempts:" ++ ("attempts:" ++ q)) :=
      otpCodeKey_ne (by simp only [length_behind]; omega)
    rw [run_store, otpAttemptsKey_eq, Redis.erase, if_neg (by simpa using apart),
      Function.update_of_ne (otpCodeKey_ne (by rw [length_behind]; omega))]
    exact if_pos rfl
  have after := verify_seen_some "000000" held (by decide)
  have before : _ <+: ((OtpCall.verify q "000000").undisturbed.run (holding q)).1.seen :=
    verify_seen_some "000000" (if_pos rfl) (by decide)
  rw [same, incr_after_store] at after
  rw [incr_without] at before
  have equal := List.prefix_of_prefix_length_le after before (Nat.le_refl _)
  cases List.IsPrefix.eq_of_length equal rfl

/-- The counter of `p` is the code of `attempts:<p>`. -/
theorem not_isolated_code (other : p ≠ "attempts:" ++ p) : ¬ Isolated p ("attempts:" ++ p) := by
  intro isolated
  have same := congrArg OtpOutcome.seen (isolated.verify_after_store other (holding ("attempts:" ++ p)))
  have gone : ((OtpCall.store p "123456").undisturbed.run (holding ("attempts:" ++ p))).2.redis (otpCodeKey ("attempts:" ++ p)) = none := by
    rw [run_store, ← otpAttemptsKey_eq, Redis.erase, if_pos (List.mem_singleton_self _)]
  have before : _ <+: ((OtpCall.verify ("attempts:" ++ p) "000000").undisturbed.run (holding ("attempts:" ++ p))).1.seen :=
    verify_seen_some "000000" (if_pos rfl) (by decide)
  rw [← same, verify_seen_none "000000" gone] at before
  cases before.length_le.not_gt (by simp)

/-- The two key schemes overlap in one way: calls on one of two phones leave the other's code and counter alone
exactly when neither phone is the other one behind `attempts:`. -/
theorem isolated_iff (other : p ≠ q) : Isolated p q ↔ p ≠ "attempts:" ++ q ∧ q ≠ "attempts:" ++ p := by
  constructor
  · intro isolated
    constructor
    · rintro rfl
      exact not_isolated_counter other isolated
    · rintro rfl
      exact not_isolated_code other isolated
  · rintro ⟨left, right⟩
    exact isolated_of_apart fun key own => ownKey_apart other left right own

theorem isolated_iff_local_and_international :
    "0241234567" ≠ "+233241234567" ∧ Isolated "0241234567" "+233241234567" :=
  ⟨by decide, (isolated_iff (by decide)).2 ⟨by decide, by decide⟩⟩

/-- Two phones that the validator accepts, and whose calls interfere. -/
theorem shared_counter : ¬ ∀ p q : String, p ≠ q → (authCheckPhone (some (.string p))).2 = none →
    (authCheckPhone (some (.string q))).2 = none → Isolated p q := by
  intro all
  have isolated := all ("attempts:" ++ "0241234567") "0241234567" (by decide) (by decide +kernel) (by decide +kernel)
  exact not_isolated_counter (by decide) isolated

end NovoApex.Auth
