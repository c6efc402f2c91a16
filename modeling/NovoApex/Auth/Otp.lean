import NovoApex.Lib.Program
import NovoApex.Lib.Redis

/-!
# The OTP store

`internal/auth/otp.go`: a code per phone under `otp:<phone>`, the attempts made at it
under `otp:attempts:<phone>`. Storing a code resets the counter in one transaction;
verifying is a sequence of single commands. The comparison of the submitted with the
stored code is a statement of its own, so that a run can count the comparisons; the
statements of the `/auth` handlers, which share the interface, are beside it.
-/

namespace NovoApex.Auth
set_option autoImplicit false
open Lib Program

/-- Errors of a login request. -/
inductive AuthErr where
  /-- No answer from Redis, the database, the mailer or the WhatsApp gateway. -/
  | unavailable
  | redis (cause : RedisErr)
  | randomness
  /-- `fmt.Errorf("context: %w", cause)`. -/
  | context (text : String) (cause : AuthErr)
  deriving DecidableEq, Repr

/-- `auth.Claims`: the payload of a token; the empty business id is left out of it. -/
structure Claims where
  phone : String
  businessID : String := ""
  deriving DecidableEq, Repr

/-- What the login requests ask of the world. -/
inductive AuthStmt where
  | redis (command : RedisCommand)
  /-- `stored == code`, inside the process. -/
  | compare (stored code : String)
  /-- `Verify` returns to its caller. -/
  | returned (phone : String) (valid : Bool)
  | sendOtpEmail (recipient code : String)
  | sendTextMessage (phoneNumberID recipient text : String)
  | listBusinessesByOwnerPhone (phone : String)
  | mint (claims : Claims)
  deriving DecidableEq

/-- What a statement answers. -/
@[reducible] def AuthStmt.Reply : AuthStmt → Type
  | redis command => command.Reply
  | compare .. => Bool
  | listBusinessesByOwnerPhone _ => Option String
  | _ => Unit

/-- The interface of the login requests. -/
@[reducible] def authStore : Interface := ⟨AuthStmt, AuthStmt.Reply, AuthErr, .unavailable⟩

/-- Run `p`; its error gets a context. -/
def wrapping {α : Type} (text : String) (p : Program authStore α) : Program authStore α := do
  match ← p.attempt with
  | .ok a => pure a
  | .error e => raise (.context text e)

theorem uses_wrapping {α : Type} {A : AuthStmt → Prop} {text : String} {p : Program authStore α} (h : p.Uses A) :
    (wrapping text p).Uses A := by
  refine h.attempt.bind fun r => ?_
  cases r with
  | ok a => exact trivial
  | error e => exact trivial

theorem run_wrapping {σ α : Type} (exec : authStore.Exec σ) (text : String) (p : Program authStore α) (s : σ) :
    (wrapping text p).run exec s = ((p.run exec s).1.mapError (.context text), (p.run exec s).2) := by
  unfold wrapping
  rw [bind_eq, run_bind, run_attempt]
  cases (p.run exec s).1 with
  | ok a => rfl
  | error e => rfl

/-! ## Commands -/

/-- `GoRedisAdapter.Get`. -/
def redisGet (key : String) : Program authStore (Option String) :=
  wrapping ("auth: redis GET " ++ key) (call (I := authStore) (.redis (.get key)))

/-- `GoRedisAdapter.Incr`. -/
def redisIncr (key : String) : Program authStore Int :=
  wrapping ("auth: redis INCR " ++ key) (call (I := authStore) (.redis (.incr key)))

/-- `GoRedisAdapter.Expire`. -/
def redisExpire (key : String) (ttl : Nat) : Program authStore Unit :=
  wrapping ("auth: redis EXPIRE " ++ key) (call (I := authStore) (.redis (.expire key ttl)))

/-- `GoRedisAdapter.Del`. -/
def redisDel (keys : List String) : Program authStore Unit :=
  if keys = [] then pure () else wrapping ("auth: redis DEL " ++ ",".intercalate keys) (call (I := authStore) (.redis (.del keys)))

/-- `GoRedisAdapter.MultiSetWithDelete`. -/
def multiSetWithDelete (setKey setValue : String) (ttl : Nat) (delKeys : List String) : Program authStore Unit :=
  wrapping "auth: redis MULTI set+del" (call (I := authStore) (.redis (.multiSetWithDelete setKey setValue ttl delKeys)))

/-! ## Codes -/

/-- `OTPTTL`, in seconds. -/
def otpTTL : Nat := 300

/-- `MaxAttempts`. -/
def maxAttempts : Int := 5

/-- `OTPCodeKey`. -/
def otpCodeKey (phone : String) : String := "otp:" ++ phone

/-- `OTPAttemptsKey`. -/
def otpAttemptsKey (phone : String) : String := "otp:attempts:" ++ phone

/-- `RandomCode`, from what `rand.Int` draws below `otpCodeMax - otpCodeMin`. -/
def randomCode (drawn : Option (Fin 900000)) : Program authStore String :=
  match drawn with
  | none => raise (.context "auth: otp randomness" .randomness)
  | some n => pure (toString (n.val + 100000))

/-- `Store`. -/
def store (phone code : String) : Program authStore Unit :=
  multiSetWithDelete (otpCodeKey phone) code otpTTL [otpAttemptsKey phone]

/-- `Generate`. -/
def generate (phone : String) (drawn : Option (Fin 900000)) : Program authStore String := do
  let code ← randomCode drawn
  store phone code
  pure code

/-- `burnOTP`. -/
def burnOTP (phone : String) : Program authStore Unit := redisDel [otpCodeKey phone, otpAttemptsKey phone]

/-- The rest of `Verify`, once the attempt is counted. -/
def verifyAttempt (phone stored code : String) (attempts : Int) : Program authStore Bool := do
  if attempts > maxAttempts then
    burnOTP phone
    pure false
  else if (← call (I := authStore) (.compare stored code)) then
    burnOTP phone
    pure true
  else
    pure false

/-- `Verify`. -/
def verify (phone code : String) : Program authStore Bool := do
  match ← redisGet (otpCodeKey phone) with
  | none => pure false
  | some stored =>
    if stored = "" then
      pure false
    else do
      let attempts ← redisIncr (otpAttemptsKey phone)
      if attempts = 1 then
        redisExpire (otpAttemptsKey phone) otpTTL
      verifyAttempt phone stored code attempts

/-! ## The keys of a phone -/

theorem otpAttemptsKey_eq (phone : String) : otpAttemptsKey phone = otpCodeKey ("attempts:" ++ phone) := by
  unfold otpAttemptsKey otpCodeKey
  rw [← String.append_assoc]
  rfl

theorem otpCodeKey_inj {p q : String} : otpCodeKey p = otpCodeKey q ↔ p = q := by
  refine ⟨fun same => ?_, congrArg _⟩
  have lists := congrArg String.toList same
  simp only [otpCodeKey, String.toList_append] at lists
  exact String.toList_inj.1 (List.append_cancel_left lists)

theorem otpAttemptsKey_inj {p q : String} : otpAttemptsKey p = otpAttemptsKey q ↔ p = q := by
  refine ⟨fun same => ?_, congrArg _⟩
  have lists := congrArg String.toList same
  simp only [otpAttemptsKey, String.toList_append] at lists
  exact String.toList_inj.1 (List.append_cancel_left lists)

theorem length_behind (phone : String) : ("attempts:" ++ phone).length = 9 + phone.length := String.length_append _ _

theorem otpCodeKey_ne {p q : String} (longer : p.length < q.length) : otpCodeKey p ≠ otpCodeKey q := by
  intro same
  rw [otpCodeKey_inj.1 same] at longer
  omega

/-- A phone's own two keys are different. -/
theorem otpAttemptsKey_ne (phone : String) : otpAttemptsKey phone ≠ otpCodeKey phone := by
  rw [otpAttemptsKey_eq]
  exact (otpCodeKey_ne (by rw [length_behind]; omega)).symm

/-- The two keys of a phone. -/
def OwnKey (phone key : String) : Prop := key = otpCodeKey phone ∨ key = otpAttemptsKey phone

/-- Statements of the store about a phone. -/
def OwnStmt (phone : String) : AuthStmt → Prop
  | .redis command => ∀ key ∈ command.keys, OwnKey phone key
  | .compare .. => True
  | _ => False

section

variable {phone code stored : String}

theorem uses_burnOTP : (burnOTP phone).Uses (OwnStmt phone) := by
  refine uses_wrapping (uses_call.2 fun key mem => ?_)
  rcases List.mem_cons.1 mem with rfl | mem
  · exact .inl rfl
  · exact .inr (List.mem_singleton.1 mem)

theorem uses_store : (store phone code).Uses (OwnStmt phone) := by
  refine uses_wrapping (uses_call.2 fun key mem => ?_)
  rcases List.mem_cons.1 mem with rfl | mem
  · exact .inl rfl
  · exact .inr (List.mem_singleton.1 mem)

theorem uses_generate {drawn : Option (Fin 900000)} : (generate phone drawn).Uses (OwnStmt phone) := by
  cases drawn with
  | none => exact trivial
  | some n => exact uses_store.bind fun _ => trivial

theorem uses_verifyAttempt {attempts : Int} : (verifyAttempt phone stored code attempts).Uses (OwnStmt phone) := by
  unfold verifyAttempt
  split
  · exact uses_burnOTP.bind fun _ => trivial
  · refine Uses.bind (uses_call.2 trivial) fun equal => ?_
    cases equal with
    | true => exact uses_burnOTP.bind fun _ => trivial
    | false => exact trivial

/-- A verification asks for the keys of its phone only. -/
theorem uses_verify : (verify phone code).Uses (OwnStmt phone) := by
  refine Uses.bind (uses_wrapping (uses_call.2 fun key mem => .inl (List.mem_singleton.1 mem))) fun found => ?_
  cases found with
  | none => exact trivial
  | some stored =>
    simp only
    split
    · exact trivial
    · refine Uses.bind (uses_wrapping (uses_call.2 fun key mem => .inr (List.mem_singleton.1 mem))) fun attempts => ?_
      split
      · exact Uses.bind (uses_wrapping (uses_call.2 fun key mem => .inr (List.mem_singleton.1 mem))) fun _ => uses_verifyAttempt
      · exact uses_verifyAttempt

end

/-! ## Requests one after the other -/

/-- What becomes of a statement: when it is executed, if at all, and whether the answer comes back. -/
structure Fate where
  time : Nat
  fails : Bool := false
  loses : Bool := false
  deriving DecidableEq, Repr

/-- A message with a code, on its way. -/
inductive Delivery where
  | email (recipient code : String)
  | whatsApp (phoneNumberID recipient text : String)
  deriving DecidableEq, Repr

/-- The code or the attempt counter of a phone, as a request gets to see it. -/
inductive Seen where
  | code (reply : Except RedisErr (Option String))
  | attempts (reply : Except RedisErr Int)

/-- Redis, the businesses by owner, what is to become of the next statements, and what the statements of
a request have seen and sent. -/
structure AuthWorld where
  redis : Redis
  owners : String → Option String
  fates : Nat → Fate
  seen : List Seen
  deliveries : List Delivery
  tokens : List Claims

/-- The reply to a command, as far as it tells about a code or a counter. -/
def seenIn : (c : RedisCommand) → Except RedisErr c.Reply → List Seen
  | .get _, r => [.code r]
  | .incr _, r => [.attempts r]
  | .expire .., _ => []
  | .del _, _ => []
  | .multiSetWithDelete .., _ => []

/-- Execute a statement and answer. -/
def authEffect (now : Nat) : (op : AuthStmt) → AuthWorld → Except AuthErr op.Reply × AuthWorld
  | .redis c, w =>
    ((Redis.exec now c w.redis).1.mapError .redis,
      { w with redis := (Redis.exec now c w.redis).2, seen := w.seen ++ seenIn c (Redis.exec now c w.redis).1 })
  | .compare stored code, w => (.ok (stored == code), w)
  | .returned _ _, w => (.ok (), w)
  | .sendOtpEmail recipient code, w => (.ok (), { w with deliveries := w.deliveries ++ [.email recipient code] })
  | .sendTextMessage phoneNumberID recipient text, w =>
    (.ok (), { w with deliveries := w.deliveries ++ [.whatsApp phoneNumberID recipient text] })
  | .listBusinessesByOwnerPhone phone, w => (.ok (w.owners phone), w)
  | .mint claims, w => (.ok (), { w with tokens := w.tokens ++ [claims] })

/-- A statement that stays inside the process. -/
def AuthStmt.internal : AuthStmt → Bool
  | .compare .. | .returned .. => true
  | _ => false

/-- The store of requests that are handled one after the other: every statement to the outside has its fate. -/
def authExec : authStore.Exec AuthWorld := fun op w =>
  if op.internal then
    authEffect 0 op w
  else
    let rest := { w with fates := fun n => w.fates (n + 1) }
    if (w.fates 0).fails then
      (.error .unavailable, rest)
    else if (w.fates 0).loses then
      (.error .unavailable, { (authEffect (w.fates 0).time op rest).2 with seen := w.seen })
    else
      authEffect (w.fates 0).time op rest

end NovoApex.Auth
