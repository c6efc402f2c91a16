import NovoApex.Handlers.Auth
import Mathlib.Data.List.Induction

/-!
# Who can log in

Requests to `/auth`, one after the other, every statement with a fate of its own. A
token for a phone is minted for the code that the last request for that phone stored,
and that request has sent the code to one address only: the one its body names. With
`deliveryMethod` `email`, the default, this is an email address that the requester
chooses; with `whatsapp` it is the phone.
-/

namespace NovoApex.Auth
set_option autoImplicit false
open Lib Program Handlers

/-- A request to `/auth`, and what becomes of its statements. -/
inductive AuthRequest where
  | requestOtp (body : Option AuthBody) (drawn : Option (Fin 900000)) (fates : Nat → Fate)
  | verifyOtp (body : Option AuthBody) (fates : Nat → Fate)

/-- What a request has sent and minted. -/
structure Handled where
  response : Except AuthErr AuthResponse
  deliveries : List Delivery
  tokens : List Claims

namespace AuthRequest

/-- The statements of a request. -/
def program (whatsAppID : String) : AuthRequest → Program authStore AuthResponse
  | requestOtp body drawn _ => authRequestOTP whatsAppID body drawn
  | verifyOtp body _ => authVerifyOTP body

/-- The fates of its statements. -/
def fates : AuthRequest → Nat → Fate
  | requestOtp _ _ fates | verifyOtp _ fates => fates

/-- Handle one request. -/
def run (whatsAppID : String) (r : AuthRequest) (w : AuthWorld) : Handled × AuthWorld :=
  let after := (r.program whatsAppID).run authExec { w with fates := r.fates, seen := [], deliveries := [], tokens := [] }
  (⟨after.1, after.2.deliveries, after.2.tokens⟩, after.2)

/-- The phone and the code that a request stores. -/
def issued : AuthRequest → Option (String × String)
  | requestOtp (some raw) (some n) fates =>
    if (validateRequestOtp raw).2 = [] ∧ (fates 0).fails = false then some ((validateRequestOtp raw).1.phone, toString (n.val + 100000))
    else none
  | _ => none

/-- The phone and the code that a request submits. -/
def submitted : AuthRequest → Option (String × String)
  | verifyOtp (some raw) _ =>
    if (validateVerifyOtp raw).2 = [] then some ((validateVerifyOtp raw).1.phone, (validateVerifyOtp raw).1.code) else none
  | _ => none

/-- A message with `code` to the address that the request names: the email address of its body when that is the
delivery method, the phone otherwise. -/
def namedAddress (whatsAppID code : String) : AuthRequest → Option Delivery
  | requestOtp (some raw) _ _ =>
    let dto := (validateRequestOtp raw).1
    if dto.deliveryMethod = some .email ∧ dto.email ≠ "" then some (.email dto.email code)
    else some (.whatsApp whatsAppID dto.phone (authWhatsAppText code))
  | _ => none

end AuthRequest

/-- Handle the requests in turn. -/
def served (whatsAppID : String) (requests : List AuthRequest) (w : AuthWorld) : AuthWorld :=
  requests.foldl (fun w r => (r.run whatsAppID w).2) w

/-! ## What the statements do -/

variable {w w' : AuthWorld} {p phone code stored whatsAppID : String}

/-- What holds of the effect of a statement and survives the passing of fates, holds of its execution. -/
theorem authExec_keeps {P : AuthWorld → Prop} {op : AuthStmt} (fates : ∀ w f, P w → P { w with fates := f })
    (seen : ∀ w l, P w → P { w with seen := l }) (effect : ∀ now w, P w → P (authEffect now op w).2) (start : P w) :
    P (authExec op w).2 := by
  unfold authExec
  split
  · exact effect 0 w start
  · dsimp only
    have rest := fates w (fun n => w.fates (n + 1)) start
    split
    · exact rest
    · split
      · exact seen _ _ (effect _ _ rest)
      · exact effect _ _ rest

/-- What becomes of a statement to the outside. -/
theorem authExec_external (op : AuthStmt) (external : op.internal = false) (w : AuthWorld) :
    ((w.fates 0).fails = true ∧ authExec op w = (.error .unavailable, { w with fates := fun n => w.fates (n + 1) })) ∨
    ((w.fates 0).fails = false ∧ authExec op w = (.error .unavailable,
      { (authEffect (w.fates 0).time op { w with fates := fun n => w.fates (n + 1) }).2 with seen := w.seen })) ∨
    ((w.fates 0).fails = false ∧ authExec op w = authEffect (w.fates 0).time op { w with fates := fun n => w.fates (n + 1) }) := by
  unfold authExec
  rw [external, if_neg Bool.false_ne_true]
  cases (w.fates 0).fails with
  | true => exact .inl ⟨rfl, rfl⟩
  | false =>
    cases (w.fates 0).loses with
    | true => exact .inr (.inl ⟨rfl, rfl⟩)
    | false => exact .inr (.inr ⟨rfl, rfl⟩)

/-- Statements that do not store a code under `key` nor count there. -/
def Sparing (key : String) : AuthStmt → Prop
  | .redis (.incr key') => key' ≠ key
  | .redis (.expire key' _) => key' ≠ key
  | .redis (.multiSetWithDelete ..) => False
  | _ => True

/-- They leave the entry as it is, or delete it. -/
theorem authExec_sparing {key : String} {entry : Option RedisEntry} {op : AuthStmt} (spares : Sparing key op)
    (start : w.redis key = none ∨ w.redis key = entry) :
    (authExec op w).2.redis key = none ∨ (authExec op w).2.redis key = entry := by
  refine authExec_keeps (P := fun w => w.redis key = none ∨ w.redis key = entry) (fun _ _ h => h) (fun _ _ h => h) (fun now w h => ?_) start
  cases op with
  | redis c =>
    have apart : ∀ c' : RedisCommand, key ∉ c'.keys → (Redis.exec now c' w.redis).2 key = w.redis key := by
      intro c' absent
      exact (Redis.exec_apart (K := fun k => k = key) (fun k mem same => absent (same ▸ mem)) key rfl).symm
    cases c with
    | get key' => exact h
    | incr key' =>
      show (Redis.exec now _ w.redis).2 key = none ∨ (Redis.exec now _ w.redis).2 key = entry
      rw [apart (.incr key') fun mem => spares (List.mem_singleton.1 mem).symm]
      exact h
    | expire key' ttl =>
      show (Redis.exec now _ w.redis).2 key = none ∨ (Redis.exec now _ w.redis).2 key = entry
      rw [apart (.expire key' ttl) fun mem => spares (List.mem_singleton.1 mem).symm]
      exact h
    | del keys =>
      show Redis.erase keys w.redis key = none ∨ Redis.erase keys w.redis key = entry
      unfold Redis.erase
      split
      · exact .inl rfl
      · exact h
    | multiSetWithDelete => exact spares.elim
  | compare | returned | sendOtpEmail | sendTextMessage | listBusinessesByOwnerPhone | mint => exact h

/-- A verification does not touch the codes of plain phones but to burn them. -/
theorem sparing_of_own (plain : ∀ q, p ≠ "attempts:" ++ q) : (verify phone code).Uses (Sparing (otpCodeKey p)) := by
  have other : otpAttemptsKey phone ≠ otpCodeKey p := by
    rw [otpAttemptsKey_eq]
    exact fun same => plain phone (otpCodeKey_inj.1 same).symm
  have burns : (burnOTP phone).Uses (Sparing (otpCodeKey p)) := uses_wrapping (uses_call.2 trivial)
  have attempt : ∀ stored attempts, (verifyAttempt phone stored code attempts).Uses (Sparing (otpCodeKey p)) := by
    intro stored attempts
    unfold verifyAttempt
    split
    · exact burns.bind fun _ => trivial
    · refine Uses.bind (uses_call.2 trivial) fun equal => ?_
      cases equal with
      | true => exact burns.bind fun _ => trivial
      | false => exact trivial
  refine Uses.bind (uses_wrapping (uses_call.2 trivial)) fun found => ?_
  cases found with
  | none => exact trivial
  | some stored =>
    simp only
    split
    · exact trivial
    · refine Uses.bind (uses_wrapping (uses_call.2 other)) fun attempts => ?_
      split
      · exact Uses.bind (uses_wrapping (uses_call.2 other)) fun _ => attempt stored attempts
      · exact attempt stored attempts

/-! ## Verification -/

theorem verifyAttempt_true {attempts : Int} (h : (verifyAttempt phone stored code attempts).run authExec w = (.ok true, w')) :
    stored = code := by
  unfold verifyAttempt at h
  split at h
  · obtain ⟨_, _, -, last⟩ := run_bind_ok h
    cases last
  · obtain ⟨equal, _, compares, rest⟩ := run_bind_ok h
    cases equal with
    | false => cases rest
    | true =>
      have answer : (authExec (.compare stored code) w).1 = .ok true := congrArg Prod.fst compares
      exact beq_iff_eq.1 (Except.ok.inj answer)

/-- What a `GET` finds was stored. -/
theorem found_of_get {key : String} {found : Option String} (h : (redisGet key).run authExec w = (.ok found, w')) :
    found = none ∨ ∃ e, w.redis key = some e ∧ found = some e.value := by
  rw [redisGet, run_wrapping, run_call] at h
  have answer : (authExec (.redis (.get key)) w).1 = .ok found := by
    have reply := congrArg Prod.fst h
    cases sent : (authExec (.redis (.get key)) w).1 with
    | ok r =>
      rw [sent] at reply
      cases reply
      rfl
    | error e =>
      rw [sent] at reply
      cases reply
  rcases authExec_external (.redis (.get key)) rfl w with ⟨-, runs⟩ | ⟨-, runs⟩ | ⟨-, runs⟩
  · rw [runs] at answer
    cases answer
  · rw [runs] at answer
    cases answer
  · rw [runs] at answer
    · have value : (w.redis.lookup (w.fates 0).time key).map RedisEntry.value = found := Except.ok.inj answer
      unfold Redis.lookup at value
      cases entry : w.redis key with
      | none =>
        rw [entry] at value
        exact .inl value.symm
      | some e =>
        rw [entry, Option.filter_some] at value
        split at value
        · exact .inr ⟨e, rfl, value.symm⟩
        · exact .inl value.symm

/-- A verification that succeeds has found its code stored. -/
theorem verify_true (h : (verify phone code).run authExec w = (.ok true, w')) :
    ∃ e, w.redis (otpCodeKey phone) = some e ∧ e.value = code := by
  obtain ⟨found, u, gets, rest⟩ := run_bind_ok h
  have held : found = none ∨ ∃ e, w.redis (otpCodeKey phone) = some e ∧ found = some e.value := found_of_get gets
  rcases held with rfl | ⟨e, stored, rfl⟩
  · cases rest
  · refine ⟨e, stored, ?_⟩
    simp only at rest
    split at rest
    · cases rest
    · obtain ⟨attempts, _, -, rest⟩ := run_bind_ok rest
      simp only at rest
      split at rest
      · obtain ⟨_, _, -, rest⟩ := run_bind_ok rest
        exact verifyAttempt_true rest
      · exact verifyAttempt_true rest

/-- The statements of the OTP store mint nothing and send nothing. -/
theorem run_quiet {α : Type} {p : Program authStore α} (uses : p.Uses (OwnStmt phone)) :
    (p.run authExec w).2.tokens = w.tokens ∧ (p.run authExec w).2.deliveries = w.deliveries := by
  refine uses.run_keeps (P := fun u : AuthWorld => u.tokens = w.tokens ∧ u.deliveries = w.deliveries) (fun op u own h => ?_) ⟨rfl, rfl⟩
  refine authExec_keeps (P := fun u : AuthWorld => u.tokens = w.tokens ∧ u.deliveries = w.deliveries) (fun _ _ h => h) (fun _ _ h => h) (fun now u h => ?_) h
  cases op with
  | redis c => exact h
  | compare => exact h
  | returned | sendOtpEmail | sendTextMessage | listBusinessesByOwnerPhone | mint => exact own.elim

/-- Statements after the code was accepted: tokens for the phone only, and Redis is left alone. -/
def LogsIn (phone : String) : AuthStmt → Prop
  | .redis _ => False
  | .mint claims => claims.phone = phone
  | _ => True

theorem uses_login : (login phone).Uses (LogsIn phone) := by
  refine Uses.bind (Uses.attempt (uses_call.2 trivial)) fun found => ?_
  cases found with
  | error e => exact trivial
  | ok business =>
    refine Uses.bind (Uses.attempt (uses_wrapping (uses_call.2 rfl))) fun r => ?_
    cases r with
    | ok _ => exact trivial
    | error e => exact trivial

/-- Statements that are no command. -/
def Commandless : AuthStmt → Prop
  | .redis _ => False
  | _ => True

/-- Without commands Redis stays as it is. -/
theorem run_commandless {α : Type} {p : Program authStore α} (uses : p.Uses Commandless) : (p.run authExec w).2.redis = w.redis := by
  refine uses.run_keeps (P := fun u : AuthWorld => u.redis = w.redis) (fun op u none h => ?_) rfl
  refine authExec_keeps (P := fun u : AuthWorld => u.redis = w.redis) (fun _ _ h => h) (fun _ _ h => h) (fun now u h => ?_) h
  cases op with
  | redis c => exact none.elim
  | compare | returned | sendOtpEmail | sendTextMessage | listBusinessesByOwnerPhone | mint => exact h

/-- A login mints for its phone. -/
theorem login_tokens (own : ∀ claims ∈ w.tokens, claims.phone = phone) :
    ∀ claims ∈ ((login phone).run authExec w).2.tokens, claims.phone = phone := by
  refine uses_login.run_keeps (P := fun u : AuthWorld => ∀ claims ∈ u.tokens, claims.phone = phone) (fun op u logs h => ?_) own
  refine authExec_keeps (P := fun u : AuthWorld => ∀ claims ∈ u.tokens, claims.phone = phone) (fun _ _ h => h) (fun _ _ h => h)
    (fun now u h => ?_) h
  cases op with
  | redis c => exact logs.elim
  | mint claims =>
    intro claims' mem
    rcases List.mem_append.1 mem with mem | mem
    · exact h claims' mem
    · rw [List.mem_singleton.1 mem]
      exact logs
  | compare | returned | sendOtpEmail | sendTextMessage | listBusinessesByOwnerPhone => exact h

/-- A request that mints a token has submitted the code that is stored for the token's phone. -/
theorem verifyOtp_minted {dto : VerifyOtpDTO} {claims : Claims} (none : w.tokens = [])
    (minted : claims ∈ ((verifyOtp dto).run authExec w).2.tokens) :
    claims.phone = dto.phone ∧ ∃ e, w.redis (otpCodeKey dto.phone) = some e ∧ e.value = dto.code := by
  have quiet : ((verify dto.phone dto.code).run authExec w).2.tokens = w.tokens := (run_quiet uses_verify).1
  rw [verifyOtp, bind_eq, run_bind, run_attempt, andThen_ok] at minted
  cases result : ((verify dto.phone dto.code).run authExec w).1 with
  | error e =>
    rw [result] at minted
    simp only [pure_eq, run_ret, quiet, none] at minted
    cases minted
  | ok valid =>
    rw [result] at minted
    cases valid with
    | false =>
      simp only [pure_eq, run_ret, quiet, none] at minted
      cases minted
    | true =>
      have nobody : ∀ claims ∈ ((verify dto.phone dto.code).run authExec w).2.tokens, claims.phone = dto.phone := by
        rw [quiet, none]
        exact fun _ mem => absurd mem List.not_mem_nil
      exact ⟨login_tokens nobody claims minted, verify_true (Prod.ext result rfl)⟩

/-- A verification leaves the code of a plain phone as it is, or burns it. -/
theorem verifyOtp_code (dto : VerifyOtpDTO) (w : AuthWorld) (plain : ∀ q, p ≠ "attempts:" ++ q) :
    ((verifyOtp dto).run authExec w).2.redis (otpCodeKey p) = none ∨
      ((verifyOtp dto).run authExec w).2.redis (otpCodeKey p) = w.redis (otpCodeKey p) := by
  have spared : ((verify dto.phone dto.code).run authExec w).2.redis (otpCodeKey p) = none ∨
      ((verify dto.phone dto.code).run authExec w).2.redis (otpCodeKey p) = w.redis (otpCodeKey p) :=
    (sparing_of_own plain).run_keeps (P := fun u : AuthWorld => u.redis (otpCodeKey p) = none ∨ u.redis (otpCodeKey p) = w.redis (otpCodeKey p))
      (fun _ _ => authExec_sparing) (.inr rfl)
  rw [verifyOtp, bind_eq, run_bind, run_attempt, andThen_ok]
  cases ((verify dto.phone dto.code).run authExec w).1 with
  | error e => exact spared
  | ok valid =>
    cases valid with
    | false => exact spared
    | true =>
      have commandless : (login dto.phone).Uses Commandless := by
        refine uses_login.mono fun op logs => ?_
        cases op with
        | redis c => exact logs
        | _ => exact trivial
      show ((login dto.phone).run authExec _).2.redis _ = none ∨ ((login dto.phone).run authExec _).2.redis _ = _
      rw [run_commandless commandless]
      exact spared

/-! ## Requests for a code -/

/-- The first statement of a request for a code. -/
def storesCode (phone code : String) : AuthStmt :=
  .redis (.multiSetWithDelete (otpCodeKey phone) code otpTTL [otpAttemptsKey phone])

theorem store_effect (phone code : String) (w : AuthWorld) :
    ((store phone code).run authExec w).2 = (authExec (storesCode phone code) w).2 := by
  rw [store, multiSetWithDelete, run_wrapping, run_call]
  rfl

/-- What a request for a code leaves in Redis. -/
theorem run_generate (phone : String) (n : Fin 900000) (w : AuthWorld) :
    ((generate phone (some n)).run authExec w).2 = (authExec (storesCode phone (toString (n.val + 100000))) w).2 ∧
    ∀ code, ((generate phone (some n)).run authExec w).1 = .ok code → code = toString (n.val + 100000) := by
  have steps : generate phone (some n) = (store phone (toString (n.val + 100000))).bind fun _ => pure (toString (n.val + 100000)) := rfl
  rw [steps, run_bind, ← store_effect]
  cases (store phone (toString (n.val + 100000))).run authExec w with
  | mk r u =>
    cases r with
    | ok _ => exact ⟨rfl, fun code same => (Except.ok.inj same).symm⟩
    | error e => exact ⟨rfl, fun code same => nomatch same⟩

/-- The code of a plain phone after a request for a code. -/
theorem storesCode_code (plain : ∀ q, p ≠ "attempts:" ++ q) (e : RedisEntry)
    (held : (authExec (storesCode phone code) w).2.redis (otpCodeKey p) = some e) :
    ((w.fates 0).fails = false ∧ phone = p ∧ e.value = code) ∨
      (((w.fates 0).fails = true ∨ phone ≠ p) ∧ w.redis (otpCodeKey p) = some e) := by
  have executed : ∀ v : AuthWorld, v.redis = w.redis → (w.fates 0).fails = false →
      (authEffect (w.fates 0).time (storesCode phone code) v).2.redis (otpCodeKey p) = some e →
      ((w.fates 0).fails = false ∧ phone = p ∧ e.value = code) ∨
        (((w.fates 0).fails = true ∨ phone ≠ p) ∧ w.redis (otpCodeKey p) = some e) := by
    intro v same live held
    have kept : otpCodeKey p ∉ [otpAttemptsKey phone] := by
      rw [List.mem_singleton, otpAttemptsKey_eq]
      exact fun same => plain phone (otpCodeKey_inj.1 same)
    have after : Function.update v.redis (otpCodeKey phone) (some ⟨code, some ((w.fates 0).time + otpTTL)⟩) (otpCodeKey p) = some e :=
      (if_neg kept).symm.trans held
    by_cases own : phone = p
    · rw [own, Function.update_self] at after
      exact .inl ⟨live, own, by rw [← Option.some.inj after]⟩
    · rw [Function.update_of_ne fun same => own (otpCodeKey_inj.1 same).symm, same] at after
      exact .inr ⟨.inr own, after⟩
  rcases authExec_external (storesCode phone code) rfl w with ⟨failed, runs⟩ | ⟨live, runs⟩ | ⟨live, runs⟩
  · rw [runs] at held
    exact .inr ⟨.inl failed, held⟩
  · rw [runs] at held
    exact executed _ rfl live held
  · rw [runs] at held
    exact executed _ rfl live held

/-- What follows the storing of a code. -/
def afterGenerate (whatsAppID : String) (dto : RequestOtpDTO) : Except AuthErr String → Program authStore AuthResponse
  | .error e => pure (.error e)
  | .ok code => (sendOtp whatsAppID dto code).attempt.bind fun
    | .error e => pure (.error e)
    | .ok _ => pure (.otpSent "OTP sent successfully")

theorem run_requestOtp (whatsAppID : String) (dto : RequestOtpDTO) (drawn : Option (Fin 900000)) (w : AuthWorld) :
    (requestOtp whatsAppID dto drawn).run authExec w =
      (afterGenerate whatsAppID dto ((generate dto.phone drawn).run authExec w).1).run authExec ((generate dto.phone drawn).run authExec w).2 := by
  rw [requestOtp, bind_eq, run_bind, run_attempt, andThen_ok]
  cases ((generate dto.phone drawn).run authExec w).1 with
  | error e => rfl
  | ok code => rfl

/-- A message with the code to the address of the body. -/
def messageFor (whatsAppID : String) (dto : RequestOtpDTO) (code : String) : Delivery :=
  if dto.deliveryMethod = some .email ∧ dto.email ≠ "" then .email dto.email code
  else .whatsApp whatsAppID dto.phone (authWhatsAppText code)

/-- The statements that send the code. -/
def Sends (whatsAppID : String) (dto : RequestOtpDTO) (code : String) : AuthStmt → Prop
  | .sendOtpEmail recipient text => Delivery.email recipient text = messageFor whatsAppID dto code
  | .sendTextMessage phoneNumberID recipient text => Delivery.whatsApp phoneNumberID recipient text = messageFor whatsAppID dto code
  | _ => False

theorem uses_afterGenerate {dto : RequestOtpDTO} {r : Except AuthErr String} (drawn : ∀ code', r = .ok code' → code' = code) :
    (afterGenerate whatsAppID dto r).Uses (Sends whatsAppID dto code) := by
  cases r with
  | error e => exact trivial
  | ok code' =>
    obtain rfl := drawn code' rfl
    refine Uses.bind (Uses.attempt ?_) fun sent => ?_
    · unfold sendOtp
      split
      · rename_i byEmail
        exact uses_call.2 (if_pos byEmail).symm
      · rename_i otherwise
        exact uses_call.2 (if_neg otherwise).symm
    · cases sent with
      | ok _ => exact trivial
      | error e => exact trivial

/-- What a request for a code does after storing it: it sends the code to the address of the body, if anywhere. -/
theorem run_sends {α : Type} {p : Program authStore α} {dto : RequestOtpDTO} (uses : p.Uses (Sends whatsAppID dto code)) :
    (p.run authExec w).2.redis = w.redis ∧ (p.run authExec w).2.tokens = w.tokens ∧
      ∀ d ∈ (p.run authExec w).2.deliveries, d ∈ w.deliveries ∨ d = messageFor whatsAppID dto code := by
  refine uses.run_keeps (P := fun u : AuthWorld => u.redis = w.redis ∧ u.tokens = w.tokens ∧
    ∀ d ∈ u.deliveries, d ∈ w.deliveries ∨ d = messageFor whatsAppID dto code) (fun op u sends h => ?_) ⟨rfl, rfl, fun _ mem => .inl mem⟩
  refine authExec_keeps (P := fun u : AuthWorld => u.redis = w.redis ∧ u.tokens = w.tokens ∧
    ∀ d ∈ u.deliveries, d ∈ w.deliveries ∨ d = messageFor whatsAppID dto code) (fun _ _ h => h) (fun _ _ h => h) (fun now u h => ?_) h
  have sent : ∀ d, d = messageFor whatsAppID dto code → ∀ d' ∈ u.deliveries ++ [d], d' ∈ w.deliveries ∨ d' = messageFor whatsAppID dto code := by
    intro d named d' mem
    rcases List.mem_append.1 mem with mem | mem
    · exact h.2.2 d' mem
    · exact .inr ((List.mem_singleton.1 mem).trans named)
  cases op with
  | sendOtpEmail recipient text => exact ⟨h.1, h.2.1, sent _ sends⟩
  | sendTextMessage phoneNumberID recipient text => exact ⟨h.1, h.2.1, sent _ sends⟩
  | redis | compare | returned | listBusinessesByOwnerPhone | mint => exact sends.elim

/-- A request for a code that draws `n`. -/
theorem requestOtp_drawn {dto : RequestOtpDTO} {n : Fin 900000} :
    ((requestOtp whatsAppID dto (some n)).run authExec w).2.redis = (authExec (storesCode dto.phone (toString (n.val + 100000))) w).2.redis ∧
    ((requestOtp whatsAppID dto (some n)).run authExec w).2.tokens = w.tokens ∧
    ∀ d ∈ ((requestOtp whatsAppID dto (some n)).run authExec w).2.deliveries,
      d ∈ w.deliveries ∨ d = messageFor whatsAppID dto (toString (n.val + 100000)) := by
  obtain ⟨stores, code⟩ := run_generate dto.phone n w
  have quiet : ((generate dto.phone (some n)).run authExec w).2.tokens = w.tokens ∧
      ((generate dto.phone (some n)).run authExec w).2.deliveries = w.deliveries := run_quiet uses_generate
  obtain ⟨tokens, deliveries⟩ := quiet
  have uses : (afterGenerate whatsAppID dto ((generate dto.phone (some n)).run authExec w).1).Uses
      (Sends whatsAppID dto (toString (n.val + 100000))) := uses_afterGenerate code
  rw [run_requestOtp]
  obtain ⟨redis, tokens', sent⟩ := run_sends (w := ((generate dto.phone (some n)).run authExec w).2) uses
  refine ⟨redis.trans (congrArg AuthWorld.redis stores), tokens'.trans tokens, fun d mem => ?_⟩
  rw [deliveries] at sent
  exact sent d mem

/-! ## All requests -/

/-- A request at the start of its handling. -/
def AuthRequest.starting (r : AuthRequest) (w : AuthWorld) : AuthWorld := { w with fates := r.fates, seen := [], deliveries := [], tokens := [] }

/-- A verification request that is refused does nothing. -/
theorem AuthRequest.verifyOtp_cases (whatsAppID : String) (body : Option AuthBody) (fates : Nat → Fate) (w : AuthWorld) :
    ((verifyOtp body fates).run whatsAppID w).2 = (verifyOtp body fates).starting w ∨
    ∃ raw, body = some raw ∧ (validateVerifyOtp raw).2 = [] ∧ ((verifyOtp body fates).run whatsAppID w).2 =
      ((Handlers.verifyOtp (validateVerifyOtp raw).1).run authExec ((verifyOtp body fates).starting w)).2 := by
  cases body with
  | none => exact .inl rfl
  | some raw =>
    by_cases clean : (validateVerifyOtp raw).2 = []
    · refine .inr ⟨raw, rfl, clean, ?_⟩
      show ((authVerifyOTP (some raw)).run authExec _).2 = _
      rw [authVerifyOTP, if_neg (not_not_intro clean)]
      rfl
    · refine .inl ?_
      show ((authVerifyOTP (some raw)).run authExec _).2 = _
      rw [authVerifyOTP, if_pos clean]
      rfl

/-- A request for a code that is refused, or draws none, does nothing. -/
theorem AuthRequest.requestOtp_cases (whatsAppID : String) (body : Option AuthBody) (drawn : Option (Fin 900000)) (fates : Nat → Fate)
    (w : AuthWorld) :
    ((requestOtp body drawn fates).issued = none ∧
      ((requestOtp body drawn fates).run whatsAppID w).2 = (requestOtp body drawn fates).starting w) ∨
    ∃ raw n, body = some raw ∧ drawn = some n ∧ (validateRequestOtp raw).2 = [] ∧ ((requestOtp body drawn fates).run whatsAppID w).2 =
      ((Handlers.requestOtp whatsAppID (validateRequestOtp raw).1 (some n)).run authExec ((requestOtp body drawn fates).starting w)).2 := by
  cases body with
  | none => exact .inl ⟨rfl, rfl⟩
  | some raw =>
    by_cases clean : (validateRequestOtp raw).2 = []
    · cases drawn with
      | none =>
        refine .inl ⟨rfl, ?_⟩
        show ((authRequestOTP whatsAppID (some raw) none).run authExec _).2 = _
        rw [authRequestOTP, if_neg (not_not_intro clean)]
        rfl
      | some n =>
        refine .inr ⟨raw, n, rfl, rfl, clean, ?_⟩
        show ((authRequestOTP whatsAppID (some raw) (some n)).run authExec _).2 = _
        rw [authRequestOTP, if_neg (not_not_intro clean)]
        rfl
    · refine .inl ⟨?_, ?_⟩
      · cases drawn with
        | none => rfl
        | some n => exact if_neg fun both => clean both.1
      · show ((authRequestOTP whatsAppID (some raw) drawn).run authExec _).2 = _
        rw [authRequestOTP, if_pos clean]
        rfl

theorem AuthRequest.issued_eq {raw : AuthBody} {n : Fin 900000} {fates : Nat → Fate} (clean : (validateRequestOtp raw).2 = []) :
    (requestOtp (some raw) (some n) fates).issued =
      if (fates 0).fails = false then some ((validateRequestOtp raw).1.phone, toString (n.val + 100000)) else none := by
  simp only [issued, clean, true_and]

/-- What a request leaves as the code of a plain phone: its own code, or what was there if it stores none for the phone. -/
theorem AuthRequest.run_code {r : AuthRequest} (plain : ∀ q, p ≠ "attempts:" ++ q) (e : RedisEntry)
    (held : (r.run whatsAppID w).2.redis (otpCodeKey p) = some e) :
    r.issued = some (p, e.value) ∨ ((∀ c, r.issued ≠ some (p, c)) ∧ w.redis (otpCodeKey p) = some e) := by
  cases r with
  | verifyOtp body fates =>
    refine .inr ⟨fun c same => (nomatch same), ?_⟩
    rcases verifyOtp_cases whatsAppID body fates w with same | ⟨raw, -, -, same⟩
    · rw [same] at held
      exact held
    · rw [same] at held
      rcases verifyOtp_code (validateVerifyOtp raw).1 ((verifyOtp body fates).starting w) plain with gone | kept
      · rw [gone] at held
        cases held
      · exact kept.symm.trans held
  | requestOtp body drawn fates =>
    rcases requestOtp_cases whatsAppID body drawn fates w with ⟨none, same⟩ | ⟨raw, n, rfl, rfl, clean, same⟩
    · rw [same] at held
      refine .inr ⟨fun c absurd => ?_, held⟩
      rw [none] at absurd
      cases absurd
    · rw [same, requestOtp_drawn.1] at held
      rw [issued_eq clean]
      rcases storesCode_code plain e held with ⟨live, own, value⟩ | ⟨away, kept⟩
      · change (fates 0).fails = false at live
        refine .inl ?_
        rw [if_pos live, own, value]
      · refine .inr ⟨fun c absurd => ?_, kept⟩
        rcases away with failed | other
        · change (fates 0).fails = true at failed
          rw [if_neg fun live => Bool.false_ne_true (live.symm.trans failed)] at absurd
          cases absurd
        · split at absurd
          · exact other (congrArg Prod.fst (Option.some.inj absurd))
          · cases absurd

/-- A request that mints a token has submitted the code that is stored for the token's phone. -/
theorem AuthRequest.run_minted {r : AuthRequest} {claims : Claims} (minted : claims ∈ (r.run whatsAppID w).1.tokens) :
    ∃ code e, r.submitted = some (claims.phone, code) ∧ w.redis (otpCodeKey claims.phone) = some e ∧ e.value = code := by
  change claims ∈ (r.run whatsAppID w).2.tokens at minted
  cases r with
  | verifyOtp body fates =>
    rcases verifyOtp_cases whatsAppID body fates w with same | ⟨raw, rfl, clean, same⟩
    · rw [same] at minted
      cases minted
    · rw [same] at minted
      obtain ⟨own, e, held, value⟩ := verifyOtp_minted rfl minted
      refine ⟨(validateVerifyOtp raw).1.code, e, ?_, own ▸ held, value⟩
      rw [own]
      exact if_pos clean
  | requestOtp body drawn fates =>
    rcases requestOtp_cases whatsAppID body drawn fates w with ⟨-, same⟩ | ⟨raw, n, rfl, rfl, -, same⟩
    · rw [same] at minted
      cases minted
    · rw [same, requestOtp_drawn.2.1] at minted
      cases minted

/-- A request sends the code it stores to the address it names. -/
theorem AuthRequest.run_deliveries {r : AuthRequest} (stores : r.issued = some (phone, code)) :
    ∀ d ∈ (r.run whatsAppID w).1.deliveries, r.namedAddress whatsAppID code = some d := by
  intro d sent
  change d ∈ (r.run whatsAppID w).2.deliveries at sent
  cases r with
  | verifyOtp body fates => cases stores
  | requestOtp body drawn fates =>
    rcases requestOtp_cases whatsAppID body drawn fates w with ⟨none, -⟩ | ⟨raw, n, rfl, rfl, clean, same⟩
    · rw [none] at stores
      cases stores
    · rw [issued_eq clean] at stores
      split at stores
      · obtain ⟨-, rfl⟩ := Prod.ext_iff.1 (Option.some.inj stores)
        rw [same] at sent
        rcases requestOtp_drawn.2.2 d sent with absurd | named
        · cases absurd
        · rw [named]
          simp only [namedAddress, messageFor]
          split
          · rfl
          · rfl
      · cases stores

/-! ## Runs -/

/-- The code stored for a plain phone is the one of the last request that stored one. -/
theorem served_code {requests : List AuthRequest} (fresh : w.redis = fun _ => none) (plain : ∀ q, p ≠ "attempts:" ++ q) (e : RedisEntry)
    (held : (served whatsAppID requests w).redis (otpCodeKey p) = some e) :
    ∃ before source between, requests = before ++ source :: between ∧ source.issued = some (p, e.value) ∧
      ∀ r ∈ between, ∀ c, r.issued ≠ some (p, c) := by
  -- induction on the requests handled so far, the last one first
  induction requests using List.reverseRecOn with
  | nil =>
    rw [show served whatsAppID [] w = w from rfl, fresh] at held
    cases held
  | append_singleton requests r ih =>
    rw [served, List.foldl_concat] at held
    rcases AuthRequest.run_code plain e held with own | ⟨other, before⟩
    · exact ⟨requests, r, [], rfl, own, fun r' mem => absurd mem List.not_mem_nil⟩
    · obtain ⟨early, source, between, rfl, stored, later⟩ := ih before
      refine ⟨early, source, between ++ [r], by simp, stored, fun r' mem => ?_⟩
      rcases List.mem_append.1 mem with mem | mem
      · exact later r' mem
      · rw [List.mem_singleton.1 mem]
        exact other

/-- Whoever gets a token for a phone has submitted the code that the last request for a code for this phone stored; and
that request has sent the code to no address but the one it names. -/
theorem login_needs_named_delivery {requests : List AuthRequest} {r : AuthRequest} {claims : Claims} (fresh : w.redis = fun _ => none)
    (plain : ∀ q, claims.phone ≠ "attempts:" ++ q)
    (minted : claims ∈ (r.run whatsAppID (served whatsAppID requests w)).1.tokens) :
    ∃ code before source between, r.submitted = some (claims.phone, code) ∧ requests = before ++ source :: between ∧
      source.issued = some (claims.phone, code) ∧ (∀ r' ∈ between, ∀ c, r'.issued ≠ some (claims.phone, c)) ∧
      ∀ d ∈ (source.run whatsAppID (served whatsAppID before w)).1.deliveries, source.namedAddress whatsAppID code = some d := by
  obtain ⟨code, e, submitted, held, rfl⟩ := AuthRequest.run_minted minted
  obtain ⟨before, source, between, split, stored, later⟩ := served_code fresh plain e held
  exact ⟨e.value, before, source, between, submitted, split, stored, later, AuthRequest.run_deliveries stored⟩

/-- A phone that does not begin like the counters' keys. -/
theorem plain_of_head (other : p.toList.head? ≠ some 'a') (q : String) : p ≠ "attempts:" ++ q := by
  rintro rfl
  rw [String.toList_append] at other
  exact other rfl

/-- Nothing is stored. -/
def noCodes : AuthWorld := ⟨fun _ => none, fun _ => none, fun _ => ⟨0, false, false⟩, [], [], []⟩

/-- A request for a code for the phone 0241234567, over WhatsApp. -/
def byWhatsApp : AuthRequest :=
  .requestOtp (some (.object fun
    | "phone" => some (.string "0241234567")
    | "deliveryMethod" => some (.string "whatsapp")
    | _ => none)) (some 23456) fun _ => ⟨0, false, false⟩

/-- A request for a code for the same phone, by email to somebody else. -/
def byEmail : AuthRequest :=
  .requestOtp (some (.object fun
    | "phone" => some (.string "0241234567")
    | "email" => some (.string "mallory@example.com")
    | _ => none)) (some 23456) fun _ => ⟨0, false, false⟩

/-- The code is submitted. -/
def withCode : AuthRequest :=
  .verifyOtp (some (.object fun
    | "phone" => some (.string "0241234567")
    | "code" => some (.string "123456")
    | _ => none)) fun _ => ⟨1, false, false⟩

theorem login_needs_named_delivery_whatsApp :
    ∃ code before source between, withCode.submitted = some ("0241234567", code) ∧ [byWhatsApp] = before ++ source :: between ∧
      source.issued = some ("0241234567", code) ∧ (∀ r' ∈ between, ∀ c, r'.issued ≠ some ("0241234567", c)) ∧
      ∀ d ∈ (source.run "wa" (served "wa" before noCodes)).1.deliveries, source.namedAddress "wa" code = some d := by
  have plain : ∀ q, "0241234567" ≠ "attempts:" ++ q := plain_of_head (by decide +kernel)
  have minted : (⟨"0241234567", ""⟩ : Claims) ∈ (withCode.run "wa" (served "wa" [byWhatsApp] noCodes)).1.tokens := by decide +kernel
  exact login_needs_named_delivery rfl plain minted

/-- A token for a phone whose code went to an email address that the requester chose. -/
theorem login_by_email : ¬ ∀ (requests : List AuthRequest) (r : AuthRequest) (claims : Claims),
    claims ∈ (r.run "wa" (served "wa" requests noCodes)).1.tokens →
      ∀ (before : List AuthRequest) (source : AuthRequest) (between : List AuthRequest) (code : String),
        requests = before ++ source :: between → source.issued = some (claims.phone, code) → r.submitted = some (claims.phone, code) →
          ∀ d ∈ (source.run "wa" (served "wa" before noCodes)).1.deliveries, d = .whatsApp "wa" claims.phone (authWhatsAppText code) := by
  intro all
  have sent := all [byEmail] withCode ⟨"0241234567", ""⟩ (by decide +kernel) [] byEmail [] "123456" rfl (by decide +kernel) (by decide +kernel)
    (.email "mallory@example.com" "123456") (by decide +kernel)
  cases sent

end NovoApex.Auth
