import NovoApex.Httpx.Throttle
import NovoApex.Lib.Limited
import Mathlib.Data.List.Pairwise
import Mathlib.Tactic.Linarith
import Mathlib.Tactic.Ring

/-!
# What the throttle lets through

The hits of a record are the timers of its generation that have not fired. A hit of the
last window still has its timer, since no timer fires before a window has passed; the
timers of older generations fire before those of this one, so none is left when the
record is dropped and a new one begins at generation zero.
-/

namespace NovoApex.Httpx
set_option autoImplicit false
open Lib Throttler

variable {t : Throttler} {key : String} {now : Int}

/-! ## One request -/

theorem secondsUntil_le_iff (time now : Int) : secondsUntil (some time) now ≤ 0 ↔ time ≤ now := by
  unfold secondsUntil
  simp only
  split
  · rename_i le
    simp [le]
  · omega

/-- Only the expiry of a record is moved. -/
theorem current_eq (record : Option ThrottleRecord) (now : Int) :
    ∃ e, t.current record now = { record.getD ⟨0, now + t.span, none, false, 0⟩ with expiresAt := e } := by
  unfold Throttler.current
  simp only
  split
  · exact ⟨now + t.span, rfl⟩
  · exact ⟨(record.getD ⟨0, now + t.span, none, false, 0⟩).expiresAt, rfl⟩

theorem current_blocked (s : ThrottleState) (key : String) (now : Int) : (t.current (s.storage key) now).blocked = isBlocked s key := by
  obtain ⟨e, same⟩ := @current_eq t (s.storage key) now
  rw [same, isBlocked]
  cases s.storage key <;> rfl

/-- The state after a request that leaves the record `r` and has registered the timers `ds`. -/
def ThrottleState.after (s : ThrottleState) (key : String) (r : ThrottleRecord) (ds : List Decay) : ThrottleState :=
  { s.put key (some r) with pending := s.pending ++ ds }

/-- What a request does, by the record it finds. -/
inductive Requested (t : Throttler) (s : ThrottleState) (key : String) (now : Int) (r : ThrottleRecord) : Outcome → ThrottleState → Prop
  /-- There is room for the hit. -/
  | room (free : r.blocked = false) (few : r.hits + 1 ≤ t.limit) :
    Requested t s key now r (.admitted key now) (s.after key { r with hits := r.hits + 1 } [⟨key, r.gen, now⟩])
  /-- The hit is one too many. -/
  | full (free : r.blocked = false) (many : t.limit < r.hits + 1) :
    Requested t s key now r (.blocking key now)
      (s.after key { r with hits := r.hits + 1, blocked := true, blockExpiresAt := some (now + t.span) } [⟨key, r.gen, now⟩])
  /-- The key is blocked. -/
  | stopped (blocked : r.blocked = true) (ahead : ¬ secondsUntil r.blockExpiresAt now ≤ 0) :
    Requested t s key now r (.refused key now) (s.after key r [])
  /-- The block is over. -/
  | lifted (blocked : r.blocked = true) (lapsed : secondsUntil r.blockExpiresAt now ≤ 0) :
    Requested t s key now r (.admitted key now) (s.after key { r with blocked := false, hits := 1, gen := r.gen + 1 } [⟨key, r.gen + 1, now⟩])

section Increment

variable {s : ThrottleState} {r : ThrottleRecord}

theorem count_free (free : r.blocked = false) : count key r now = ({ r with hits := r.hits + 1 }, [⟨key, r.gen, now⟩]) := by
  rw [count, if_neg (by rw [free]; exact Bool.false_ne_true)]

theorem count_blocked (blocked : r.blocked = true) : count key r now = (r, []) := if_pos blocked

theorem block_few (few : r.hits ≤ t.limit) : t.block r now = r := if_neg fun h => absurd h.1 (Nat.not_lt.2 few)

theorem block_many (free : r.blocked = false) (many : t.limit < r.hits) :
    t.block r now = { r with blocked := true, blockExpiresAt := some (now + t.span) } := if_pos ⟨many, free⟩

theorem block_blocked (blocked : r.blocked = true) : t.block r now = r :=
  if_neg fun h => absurd (blocked.symm.trans h.2) (by simp)

theorem reset_free (free : r.blocked = false) : reset key r now = (r, []) := if_neg fun h => absurd (h.2.symm.trans free) (by simp)

theorem reset_ahead (ahead : ¬ secondsUntil r.blockExpiresAt now ≤ 0) : reset key r now = (r, []) := if_neg fun h => ahead h.1

theorem reset_lapsed (blocked : r.blocked = true) (lapsed : secondsUntil r.blockExpiresAt now ≤ 0) :
    reset key r now = ({ r with blocked := false, hits := 1, gen := r.gen + 1 }, [⟨key, r.gen + 1, now⟩]) := if_pos ⟨lapsed, blocked⟩

end Increment

/-- `increment`, stage by stage. -/
theorem increment_of {s : ThrottleState} {r r₁ r₂ r₃ : ThrottleRecord} {hit first : List Decay} (found : t.current (s.storage key) now = r)
    (counted : count key r now = (r₁, hit)) (checked : t.block r₁ now = r₂) (ended : reset key r₂ now = (r₃, first)) :
    (t.increment s key now).1.blocked = r₃.blocked ∧ (t.increment s key now).2 = s.after key r₃ (hit ++ first) := by
  constructor
  · simp only [Throttler.increment, found, counted, checked, ended]
  · simp only [Throttler.increment, found, counted, checked, ended, ThrottleState.after]

theorem middleware_eq (s : ThrottleState) (key : String) (now : Int) : t.middleware s key now =
    (if (t.increment s key now).1.blocked then .tooManyRequests (t.increment s key now).1.timeToBlockExpire
      else .served t.limit (t.limit - (t.increment s key now).1.totalHits) (t.increment s key now).1.timeToExpire, (t.increment s key now).2) := by
  unfold Throttler.middleware
  generalize t.increment s key now = done
  cases done
  rfl
theorem step_request_eq (s : ThrottleState) (key : String) (now : Int64) : t.step s (.request key now) =
    some (if (t.increment s key now.toInt).1.blocked then
        if isBlocked s key then .refused key now.toInt else .blocking key now.toInt
      else .admitted key now.toInt, (t.increment s key now.toInt).2) := by
  unfold Throttler.step
  dsimp only
  rw [middleware_eq]
  generalize t.increment s key now.toInt = done
  obtain ⟨i, s'⟩ := done
  dsimp only
  cases i.blocked with
  | false => rfl
  | true => rfl

/-- A request does one of four things. -/
theorem step_request (wide : 0 < t.span) {s s' : ThrottleState} {key : String} {now : Int64} {o : Outcome}
    (step : t.step s (.request key now) = some (o, s')) : Requested t s key now.toInt (t.current (s.storage key) now.toInt) o s' := by
  have seen := @current_blocked t s key now.toInt
  rw [step_request_eq] at step
  obtain ⟨rfl, rfl⟩ := Prod.mk.inj (Option.some.inj step)
  generalize found : t.current (s.storage key) now.toInt = r at seen ⊢
  cases blocked : r.blocked with
  | false =>
    rw [blocked] at seen
    by_cases few : r.hits + 1 ≤ t.limit
    · have unblocked : t.block { r with hits := r.hits + 1 } now.toInt = { r with hits := r.hits + 1 } := block_few few
      have kept : reset key { r with hits := r.hits + 1 } now.toInt = ({ r with hits := r.hits + 1 }, []) := reset_free blocked
      obtain ⟨answer, left⟩ := increment_of found (count_free blocked) unblocked kept
      rw [answer.trans blocked, left]
      simp only [Bool.false_eq_true, if_false, List.append_nil]
      exact .room blocked few
    · have many := Nat.not_le.1 few
      have full : t.block { r with hits := r.hits + 1 } now.toInt =
          { r with hits := r.hits + 1, blocked := true, blockExpiresAt := some (now.toInt + t.span) } := block_many blocked many
      have ahead : ¬ secondsUntil (some (now.toInt + t.span)) now.toInt ≤ 0 := by
        rw [secondsUntil_le_iff]
        omega
      have kept := @reset_ahead key now.toInt { r with hits := r.hits + 1, blocked := true, blockExpiresAt := some (now.toInt + t.span) } ahead
      obtain ⟨answer, left⟩ := increment_of found (count_free blocked) full kept
      rw [answer, left, ← seen]
      simp only [Bool.false_eq_true, if_false, if_true, List.append_nil]
      exact .full blocked many
  | true =>
    rw [blocked] at seen
    by_cases lapsed : secondsUntil r.blockExpiresAt now.toInt ≤ 0
    · obtain ⟨answer, left⟩ := increment_of found (count_blocked blocked) (block_blocked blocked) (reset_lapsed blocked lapsed)
      rw [answer, left]
      simp only [Bool.false_eq_true, if_false, List.nil_append]
      exact .lifted blocked lapsed
    · obtain ⟨answer, left⟩ := increment_of found (count_blocked blocked) (block_blocked blocked) (reset_ahead lapsed)
      rw [answer, left, ← seen]
      simp only [blocked, if_true, List.nil_append]
      exact .stopped blocked lapsed

/-! ## One key -/

/-- The timers of a key. -/
def timers (key : String) (s : ThrottleState) : List Decay := s.pending.filter fun d => decide (d.key = key)

/-- The readings of the admitted requests of a key. -/
def admissions (key : String) (hist : List Outcome) : List Int :=
  hist.filterMap fun o =>
    match o with
    | .admitted k now => if k = key then some now else none
    | _ => none

/-- A record counts its outstanding timers, and among them are those of the hits that the last window admitted. -/
structure Counted (t : Throttler) (r : ThrottleRecord) (mine : List Decay) (admitted : List Int) (c : Int) : Prop where
  hits : r.hits = mine.countP fun d => decide (d.gen = r.gen)
  gens : ∀ d ∈ mine, d.gen.toNat ≤ r.gen.toNat
  /-- The generation began after the last hit of the ones before it. -/
  stale : ∃ began, began ≤ c ∧ ∀ d ∈ mine, (d.gen ≠ r.gen → d.hit < began) ∧ (d.gen = r.gen → began ≤ d.hit)
  counted : r.blocked = false → ∀ y, c ≤ y + t.span →
    admitted.countP (fun a => decide (y < a)) ≤ mine.countP fun d => decide (d.gen = r.gen) && decide (y < d.hit)
  /-- Generations are a window apart, so they do not wrap. -/
  apart : r.blocked = false → (r.gen.toNat : Int) * t.span ≤ c + 2 ^ 63
  blocked : r.blocked = true → ∃ b, r.blockExpiresAt = some (b + t.span) ∧ (∀ a ∈ admitted, a ≤ b) ∧ (∀ d ∈ mine, d.hit ≤ b) ∧
    (r.gen.toNat : Int) * t.span ≤ b + 2 ^ 63

/-- What is kept of a key: without a record there are neither timers nor requests admitted in the last window. -/
def Kept (t : Throttler) (record : Option ThrottleRecord) (mine : List Decay) (admitted : List Int) (c : Int) : Prop :=
  match record with
  | none => mine = [] ∧ ∀ a ∈ admitted, a + t.span ≤ c
  | some r => Counted t r mine admitted c

variable {mine : List Decay} {admitted : List Int} {c c' : Int} {r : ThrottleRecord}

theorem Counted.mono (counted : Counted t r mine admitted c) (le : c ≤ c') : Counted t r mine admitted c' where
  hits := counted.hits
  gens := counted.gens
  stale := by
    obtain ⟨began, h, split⟩ := counted.stale
    exact ⟨began, h.trans le, split⟩
  counted free y h := counted.counted free y (le.trans h)
  apart free := by
    have := counted.apart free
    omega
  blocked := counted.blocked

theorem Kept.mono {record : Option ThrottleRecord} (kept : Kept t record mine admitted c) (le : c ≤ c') : Kept t record mine admitted c' := by
  cases record with
  | none => exact ⟨kept.1, fun a mem => (kept.2 a mem).trans le⟩
  | some r => exact Counted.mono kept le

/-- The expiry of a record is not counted. -/
theorem Counted.expires (counted : Counted t r mine admitted c) (e : Int) : Counted t { r with expiresAt := e } mine admitted c :=
  ⟨counted.hits, counted.gens, counted.stale, counted.counted, counted.apart, counted.blocked⟩

/-- The record a request finds. -/
theorem Kept.current {record : Option ThrottleRecord} (kept : Kept t record mine admitted now) (early : -2 ^ 63 ≤ now) :
    Counted t (t.current record now) mine admitted now := by
  obtain ⟨e, same⟩ := @current_eq t record now
  rw [same]
  cases record with
  | some r => exact Counted.expires kept e
  | none =>
    obtain ⟨rfl, old⟩ := kept
    refine ⟨rfl, fun d mem => absurd mem List.not_mem_nil, ⟨now, Int.le_refl _, fun d mem => absurd mem List.not_mem_nil⟩, fun _ y h => ?_, fun _ => ?_,
      fun blocked => absurd blocked (by simp)⟩
    · have nothing : admitted.countP (fun a => decide (y < a)) = 0 := by
        rw [List.countP_eq_zero]
        intro a mem
        have := old a mem
        simp only [decide_eq_true_eq]
        omega
      omega
    · simp
      omega

/-- One more hit. -/
theorem Counted.hit (counted : Counted t r mine admitted now) (free : r.blocked = false) :
    Counted t { r with hits := r.hits + 1 } (mine ++ [⟨key, r.gen, now⟩]) (admitted ++ [now]) now where
  hits := by
    rw [List.countP_append, ← counted.hits]
    simp
  gens d mem := by
    rcases List.mem_append.1 mem with old | new
    · exact counted.gens d old
    · rw [List.mem_singleton.1 new]
  stale := by
    obtain ⟨began, le, split⟩ := counted.stale
    refine ⟨began, le, fun d mem => ?_⟩
    rcases List.mem_append.1 mem with old | new
    · exact split d old
    · rw [List.mem_singleton.1 new]
      exact ⟨fun other => absurd rfl other, fun _ => le⟩
  counted _ y h := by
    have before := counted.counted free y h
    rw [List.countP_append, List.countP_append]
    simp only [List.countP_singleton, decide_true, Bool.true_and]
    omega
  apart _ := counted.apart free
  blocked blocked := absurd (free.symm.trans blocked) (by simp)

/-- The hit that is one too many. -/
theorem Counted.full (counted : Counted t r mine admitted now) (free : r.blocked = false) (past : ∀ a ∈ admitted, a ≤ now)
    (fired : ∀ d ∈ mine, d.hit ≤ now) :
    Counted t { r with hits := r.hits + 1, blocked := true, blockExpiresAt := some (now + t.span) } (mine ++ [⟨key, r.gen, now⟩]) admitted now where
  hits := by
    rw [List.countP_append, ← counted.hits]
    simp
  gens := (@Counted.hit t key now mine admitted r counted free).gens
  stale := (@Counted.hit t key now mine admitted r counted free).stale
  counted free := absurd free (by simp)
  apart free := absurd free (by simp)
  blocked _ := by
    refine ⟨now, rfl, past, fun d mem => ?_, counted.apart free⟩
    rcases List.mem_append.1 mem with old | new
    · exact fired d old
    · rw [List.mem_singleton.1 new]

/-- The first hit after a block. -/
theorem Counted.lifted (wide : 0 < t.span) (counted : Counted t r mine admitted now) (late : now < 2 ^ 63) (blocked : r.blocked = true)
    (lapsed : secondsUntil r.blockExpiresAt now ≤ 0) :
    Counted t { r with blocked := false, hits := 1, gen := r.gen + 1 } (mine ++ [⟨key, r.gen + 1, now⟩]) (admitted ++ [now]) now := by
  obtain ⟨b, expires, past, fired, apart⟩ := counted.blocked blocked
  rw [expires, secondsUntil_le_iff] at lapsed
  have more : ((r.gen.toNat : Int) + 1) * t.span ≤ now + 2 ^ 63 := by
    have expand : ((r.gen.toNat : Int) + 1) * t.span = r.gen.toNat * t.span + t.span := by ring
    omega
  have small : r.gen.toNat + 1 < 2 ^ 64 := by
    have le : ((r.gen.toNat : Int) + 1) * 1 ≤ (r.gen.toNat + 1) * t.span := by
      apply Int.mul_le_mul_of_nonneg_left <;> omega
    omega
  have next : (r.gen + 1).toNat = r.gen.toNat + 1 := by
    rw [UInt64.toNat_add]
    exact Nat.mod_eq_of_lt small
  have older : ∀ d ∈ mine, d.gen ≠ r.gen + 1 := by
    intro d mem same
    have := counted.gens d mem
    rw [same, next] at this
    omega
  have none : mine.countP (fun d => decide (d.gen = r.gen + 1)) = 0 := by
    rw [List.countP_eq_zero]
    intro d mem
    simpa using older d mem
  refine ⟨?_, fun d mem => ?_, ⟨now, Int.le_refl _, fun d mem => ?_⟩, fun _ y h => ?_, fun _ => ?_, fun blocked => absurd blocked (by simp)⟩
  · rw [List.countP_append, none]
    simp
  · rcases List.mem_append.1 mem with old | new
    · have := counted.gens d old
      simp only [next]
      omega
    · rw [List.mem_singleton.1 new]
  · rcases List.mem_append.1 mem with old | new
    · refine ⟨fun _ => ?_, fun same => absurd same (older d old)⟩
      have := fired d old
      omega
    · rw [List.mem_singleton.1 new]
      exact ⟨fun other => absurd rfl other, fun _ => Int.le_refl _⟩
  · have old : admitted.countP (fun a => decide (y < a)) = 0 := by
      rw [List.countP_eq_zero]
      intro a mem
      have := past a mem
      simp only [decide_eq_true_eq]
      omega
    rw [List.countP_append, List.countP_append, old]
    simp only [List.countP_singleton, decide_true, Bool.true_and]
    omega
  · simp only [next]
    push_cast
    exact more

/-! ### A timer -/

variable {d : Decay}

theorem countP_erase (mem : d ∈ mine) (p : Decay → Bool) : (mine.erase d).countP p + (if p d then 1 else 0) = mine.countP p := by
  have perm := (List.perm_cons_erase mem).countP_eq p
  rw [List.countP_cons] at perm
  exact perm.symm

/-- A timer of an older generation means nothing. -/
theorem Counted.stale_decay (counted : Counted t r mine admitted now) (mem : d ∈ mine) (other : d.gen ≠ r.gen) :
    Counted t r (mine.erase d) admitted now where
  hits := by
    have erased := countP_erase mem fun d => decide (d.gen = r.gen)
    rw [if_neg (by simpa using other), Nat.add_zero] at erased
    rw [erased]
    exact counted.hits
  gens d' mem' := counted.gens d' (List.mem_of_mem_erase mem')
  stale := by
    obtain ⟨began, le, split⟩ := counted.stale
    exact ⟨began, le, fun d' mem' => split d' (List.mem_of_mem_erase mem')⟩
  counted free y h := by
    have erased := countP_erase mem fun d => decide (d.gen = r.gen) && decide (y < d.hit)
    rw [if_neg (by simp [other]), Nat.add_zero] at erased
    rw [erased]
    exact counted.counted free y h
  apart := counted.apart
  blocked blocked := by
    obtain ⟨b, expires, past, fired, apart⟩ := counted.blocked blocked
    exact ⟨b, expires, past, fun d' mem' => fired d' (List.mem_of_mem_erase mem'), apart⟩

/-- The timer of a hit takes it back; the hit is older than the window. -/
theorem Counted.hit_decay (counted : Counted t r mine admitted now) (mem : d ∈ mine) (own : d.gen = r.gen) (due : d.hit + t.span ≤ now) :
    Counted t { r with hits := r.hits - 1 } (mine.erase d) admitted now where
  hits := by
    have erased := countP_erase mem fun d => decide (d.gen = r.gen)
    rw [if_pos (by simpa using own), ← counted.hits] at erased
    simp only
    omega
  gens d' mem' := counted.gens d' (List.mem_of_mem_erase mem')
  stale := by
    obtain ⟨began, le, split⟩ := counted.stale
    exact ⟨began, le, fun d' mem' => split d' (List.mem_of_mem_erase mem')⟩
  counted free y h := by
    have erased := countP_erase mem fun d => decide (d.gen = r.gen) && decide (y < d.hit)
    have old : ¬ y < d.hit := by omega
    rw [if_neg (by simp [old]), Nat.add_zero] at erased
    have before := counted.counted free y h
    simp only
    omega
  apart := counted.apart
  blocked blocked := by
    obtain ⟨b, expires, past, fired, apart⟩ := counted.blocked blocked
    exact ⟨b, expires, past, fun d' mem' => fired d' (List.mem_of_mem_erase mem'), apart⟩

/-- The timer of the last hit: no other timer is left, and nothing was admitted in the last window. -/
theorem Counted.last_decay (counted : Counted t r mine admitted now) (mem : d ∈ mine) (own : d.gen = r.gen) (due : d.hit + t.span ≤ now)
    (first : ∀ d' ∈ mine, d.hit ≤ d'.hit) (last : r.hits - 1 = 0)
    (lapsed : r.blocked = false ∨ (r.blockExpiresAt.all fun e => decide (e ≤ now)) = true) :
    Kept t none (mine.erase d) admitted now := by
  have erased := countP_erase mem fun d => decide (d.gen = r.gen)
  rw [if_pos (by simpa using own), ← counted.hits] at erased
  have none : (mine.erase d).countP (fun d => decide (d.gen = r.gen)) = 0 := by omega
  rw [List.countP_eq_zero] at none
  obtain ⟨began, -, split⟩ := counted.stale
  have empty : mine.erase d = [] := by
    refine List.eq_nil_iff_forall_not_mem.2 fun d' mem' => ?_
    have other : d'.gen ≠ r.gen := by simpa using none d' mem'
    have earlier := (split d' (List.mem_of_mem_erase mem')).1 other
    have later := (split d mem).2 own
    have := first d' (List.mem_of_mem_erase mem')
    omega
  refine ⟨empty, fun a ha => ?_⟩
  cases blocked : r.blocked with
  | false =>
    -- a hit of the last window would still have its timer
    by_contra recent
    have among : 0 < admitted.countP fun a => decide (now - t.span < a) := by
      rw [List.countP_pos_iff]
      exact ⟨a, ha, by simp only [decide_eq_true_eq]; omega⟩
    have before := counted.counted blocked (now - t.span) (by omega)
    have outstanding : 0 < mine.countP fun d => decide (d.gen = r.gen) && decide (now - t.span < d.hit) := by omega
    rw [List.countP_pos_iff] at outstanding
    obtain ⟨d', mem', current⟩ := outstanding
    simp only [Bool.and_eq_true, decide_eq_true_eq] at current
    have same : d' = d := by
      by_contra different
      have left := List.mem_erase_of_ne different |>.2 mem'
      rw [empty] at left
      exact absurd left List.not_mem_nil
    rw [same] at current
    omega
  | true =>
    obtain ⟨b, expires, past, -⟩ := counted.blocked blocked
    rcases lapsed with free | done
    · rw [blocked] at free
      cases free
    · rw [expires] at done
      have := past a ha
      have done : b + t.span ≤ now := by simpa using done
      omega

/-- What a timer does, by the record it finds. -/
inductive Fired (s : ThrottleState) (d : Decay) (now : Int) : Bool → ThrottleState → Prop
  | missing (nothing : s.storage d.key = none) : Fired s d now false { s with pending := s.pending.erase d }
  | stale {r : ThrottleRecord} (there : s.storage d.key = some r) (other : d.gen ≠ r.gen) :
    Fired s d now false { s with pending := s.pending.erase d }
  | last {r : ThrottleRecord} (there : s.storage d.key = some r) (own : d.gen = r.gen) (last : r.hits - 1 = 0)
    (lapsed : r.blocked = false ∨ (r.blockExpiresAt.all fun e => decide (e ≤ now)) = true) :
    Fired s d now true { s.put d.key none with pending := s.pending.erase d }
  | hit {r : ThrottleRecord} (there : s.storage d.key = some r) (own : d.gen = r.gen) :
    Fired s d now false { s.put d.key (some { r with hits := r.hits - 1 }) with pending := s.pending.erase d }

theorem decay_fired (s : ThrottleState) (d : Decay) (now : Int) : Fired s d now (decay s d now).1 (decay s d now).2 := by
  cases there : s.storage d.key with
  | none =>
    have result : decay s d now = (false, { s with pending := s.pending.erase d }) := by
      simp only [decay, there]
    rw [result]
    exact .missing there
  | some r =>
    by_cases own : d.gen = r.gen
    · by_cases last : r.hits - 1 = 0 ∧ (r.blocked = false ∨ (r.blockExpiresAt.all fun e => decide (e ≤ now)) = true)
      · have result : decay s d now = (true, { s.put d.key none with pending := s.pending.erase d }) := by
          simp only [decay, there, own, ne_eq, not_true, if_false, if_pos last]
          rfl
        rw [result]
        exact .last there own last.1 last.2
      · have result : decay s d now = (false, { s.put d.key (some { r with hits := r.hits - 1 }) with pending := s.pending.erase d }) := by
          simp only [decay, there, own, ne_eq, not_true, if_false, if_neg last]
          rfl
        rw [result]
        exact .hit there own
    · have result : decay s d now = (false, { s with pending := s.pending.erase d }) := by
        simp only [decay, there, ne_eq, Ne.symm own, not_false_eq_true, if_true]
      rw [result]
      exact .stale there own

theorem step_timer {s s' : ThrottleState} {d : Decay} {now : Int64} {o : Outcome} (step : t.step s (.timer d now) = some (o, s')) :
    t.Due s d now.toInt ∧ ∃ dropped, Fired s d now.toInt dropped s' ∧ o = if dropped then .deleted d.key now.toInt else .decayed d.key now.toInt := by
  have fired := decay_fired s d now.toInt
  unfold Throttler.step at step
  dsimp only at step
  split at step
  · rename_i due
    obtain ⟨rfl, rfl⟩ := Prod.mk.inj (Option.some.inj step)
    exact ⟨due, _, fired, rfl⟩
  · cases step

/-! ## Other keys -/

/-- What a key has of the state. -/
def ThrottleState.project (s : ThrottleState) (key : String) : ThrottleState := ⟨fun k => if k = key then s.storage k else none, timers key s⟩

section Local

variable {s s' : ThrottleState} {other : String} {ds : List Decay}

theorem project_storage (s : ThrottleState) (key : String) : (s.project key).storage key = s.storage key := if_pos rfl

theorem project_put (record : Option ThrottleRecord) : (s.put key record).project key = (s.project key).put key record := by
  unfold ThrottleState.project ThrottleState.put
  refine congrArg₂ ThrottleState.mk (funext fun k => ?_) rfl
  by_cases same : k = key
  · simp [same]
  · simp [same]

theorem project_put_ne (record : Option ThrottleRecord) (ne : other ≠ key) : (s.put other record).project key = s.project key := by
  unfold ThrottleState.project ThrottleState.put
  refine congrArg₂ ThrottleState.mk (funext fun k => ?_) rfl
  by_cases same : k = key
  · simp [same, Ne.symm ne]
  · simp [same]

theorem timers_append (own : ∀ d ∈ ds, d.key = key) : timers key { s with pending := s.pending ++ ds } = timers key s ++ ds := by
  unfold timers
  rw [List.filter_append, List.filter_eq_self.2 fun d mem => decide_eq_true (own d mem)]

theorem timers_append_ne (own : ∀ d ∈ ds, d.key = other) (ne : other ≠ key) : timers key { s with pending := s.pending ++ ds } = timers key s := by
  unfold timers
  have none : ds.filter (fun d => decide (d.key = key)) = [] := by
    rw [List.filter_eq_nil_iff]
    intro d mem
    rw [own d mem]
    simpa using ne
  rw [List.filter_append, none, List.append_nil]

theorem timers_erase (d : Decay) : timers key { s with pending := s.pending.erase d } = (timers key s).erase d := List.erase_filter.symm

theorem timers_erase_ne {d : Decay} (ne : d.key ≠ key) : timers key { s with pending := s.pending.erase d } = timers key s := by
  rw [timers_erase, List.erase_of_not_mem]
  intro mem
  exact ne (of_decide_eq_true (List.mem_filter.1 mem).2)

/-- What a request answers, stores and registers depends on the record of its key alone. -/
theorem increment_local (t : Throttler) (key : String) (now : Int) (record : Option ThrottleRecord) :
    ∃ i r ds, (∀ d ∈ ds, d.key = key) ∧ ∀ s : ThrottleState, s.storage key = record → t.increment s key now = (i, s.after key r ds) := by
  generalize counted : count key (t.current record now) now = counts
  obtain ⟨r₁, hit⟩ := counts
  generalize ended : reset key (t.block r₁ now) now = resets
  obtain ⟨r₃, first⟩ := resets
  refine ⟨⟨r₃.hits, secondsUntil (some (t.current record now).expiresAt) now, secondsUntil (t.block r₁ now).blockExpiresAt now, r₃.blocked⟩, r₃,
    hit ++ first, fun d mem => ?_, fun s same => ?_⟩
  · rcases List.mem_append.1 mem with h | h
    · unfold Throttler.count at counted
      split at counted
      · obtain ⟨-, rfl⟩ := Prod.mk.inj counted
        cases h
      · obtain ⟨-, rfl⟩ := Prod.mk.inj counted
        rw [List.mem_singleton.1 h]
    · unfold Throttler.reset at ended
      split at ended
      · obtain ⟨-, rfl⟩ := Prod.mk.inj ended
        rw [List.mem_singleton.1 h]
      · obtain ⟨-, rfl⟩ := Prod.mk.inj ended
        cases h
  · simp only [Throttler.increment, same, counted, ended, ThrottleState.after]

theorem put_storage (s : ThrottleState) (key : String) : s.put key (s.storage key) = s := by
  unfold ThrottleState.put
  refine congrArg₂ ThrottleState.mk (funext fun k => ?_) rfl
  by_cases same : k = key
  · rw [if_pos same, same]
  · rw [if_neg same]

/-- So does what a timer does. -/
theorem decay_local (d : Decay) (now : Int) (record : Option ThrottleRecord) : ∃ dropped record', ∀ s : ThrottleState, s.storage d.key = record →
    decay s d now = (dropped, { s.put d.key record' with pending := s.pending.erase d }) := by
  have unchanged : ∀ s : ThrottleState, s.storage d.key = record → s.put d.key record = s := by
    rintro s rfl
    exact put_storage s d.key
  cases record with
  | none =>
    refine ⟨false, none, fun s there => ?_⟩
    rw [unchanged s there]
    simp only [decay, there]
  | some r =>
    by_cases own : r.gen = d.gen
    · by_cases last : r.hits - 1 = 0 ∧ (r.blocked = false ∨ (r.blockExpiresAt.all fun e => decide (e ≤ now)) = true)
      · refine ⟨true, none, fun s there => ?_⟩
        simp only [decay, there, own, ne_eq, not_true, if_false, if_pos last]
        rfl
      · refine ⟨false, some { r with hits := r.hits - 1 }, fun s there => ?_⟩
        simp only [decay, there, own, ne_eq, not_true, if_false, if_neg last]
        rfl
    · refine ⟨false, some r, fun s there => ?_⟩
      rw [unchanged s there]
      simp only [decay, there, ne_eq, own, not_false_eq_true, if_true]

theorem project_after (r : ThrottleRecord) (own : ∀ d ∈ ds, d.key = key) : (s.after key r ds).project key = (s.project key).after key r ds := by
  have storage := congrArg ThrottleState.storage (@project_put key s (some r))
  exact congrArg₂ ThrottleState.mk storage (timers_append own)

theorem project_after_ne (r : ThrottleRecord) (own : ∀ d ∈ ds, d.key = other) (ne : other ≠ key) : (s.after other r ds).project key = s.project key := by
  have storage := congrArg ThrottleState.storage (@project_put_ne key s other (some r) ne)
  exact congrArg₂ ThrottleState.mk storage (timers_append_ne own ne)

/-- A step of a key is the same without the other keys. -/
theorem step_project (s : ThrottleState) {e : Event} (own : e.key = key) :
    t.step (s.project key) e = (t.step s e).map fun done => (done.1, done.2.project key) := by
  cases e with
  | request k now =>
    obtain rfl : k = key := own
    obtain ⟨i, r, ds, owned, all⟩ := increment_local t k now.toInt (s.storage k)
    have blocked : isBlocked (s.project k) k = isBlocked s k := by
      unfold isBlocked
      rw [project_storage]
    rw [step_request_eq, step_request_eq, all s rfl, all (s.project k) (project_storage s k), blocked, ← project_after r owned]
    rfl
  | timer d now =>
    obtain rfl : d.key = key := own
    obtain ⟨dropped, record, all⟩ := decay_local d now.toInt (s.storage d.key)
    have due : t.Due (s.project d.key) d now.toInt ↔ t.Due s d now.toInt := by
      unfold Due
      simp only [ThrottleState.project, timers, List.mem_filter, decide_eq_true_eq]
      constructor
      · rintro ⟨⟨mem, -⟩, late, first⟩
        exact ⟨mem, late, fun d' mem' same => first d' ⟨mem', same⟩ same⟩
      · rintro ⟨mem, late, first⟩
        exact ⟨⟨mem, trivial⟩, late, fun d' mem' same => first d' mem'.1 same⟩
    have left : ({ s.put d.key record with pending := s.pending.erase d } : ThrottleState).project d.key =
        { (s.project d.key).put d.key record with pending := (s.project d.key).pending.erase d } := by
      have storage := congrArg ThrottleState.storage (@project_put d.key s record)
      exact congrArg₂ ThrottleState.mk storage (timers_erase d)
    unfold Throttler.step
    dsimp only
    by_cases ready : t.Due s d now.toInt
    · rw [if_pos ready, if_pos (due.2 ready), all s rfl, all (s.project d.key) (project_storage s d.key), ← left]
      rfl
    · rw [if_neg ready, if_neg fun h => ready (due.1 h)]
      rfl

/-- A step of another key leaves what a key has. -/
theorem step_other {o : Outcome} {e : Event} (step : t.step s e = some (o, s')) (ne : e.key ≠ key) : s'.project key = s.project key := by
  cases e with
  | request k now =>
    obtain ⟨i, r, ds, owned, all⟩ := increment_local t k now.toInt (s.storage k)
    rw [step_request_eq, all s rfl] at step
    obtain ⟨-, rfl⟩ := Prod.mk.inj (Option.some.inj step)
    exact project_after_ne r owned ne
  | timer d now =>
    obtain ⟨dropped, record, all⟩ := decay_local d now.toInt (s.storage d.key)
    unfold Throttler.step at step
    dsimp only at step
    split at step
    · rw [all s rfl] at step
      obtain ⟨-, rfl⟩ := Prod.mk.inj (Option.some.inj step)
      have storage := congrArg ThrottleState.storage (@project_put_ne key s d.key record ne)
      exact congrArg₂ ThrottleState.mk storage (timers_erase_ne ne)
    · cases step

/-- What a step does, it does to its key, at its reading. -/
theorem step_key {o : Outcome} {e : Event} (step : t.step s e = some (o, s')) : o.key = e.key := by
  cases e with
  | request k now =>
    rw [step_request_eq] at step
    obtain ⟨rfl, -⟩ := Prod.mk.inj (Option.some.inj step)
    split
    · split <;> rfl
    · rfl
  | timer d now =>
    obtain ⟨-, dropped, -, rfl⟩ := step_timer step
    cases dropped <;> rfl

end Local

/-- What a key sees of a run is the run of its own events. -/
theorem run_project {s s' : ThrottleState} {events : List Event} {hist : List Outcome} (ran : t.run s events = some (hist, s')) (key : String) :
    t.run (s.project key) (events.filter fun e => decide (e.key = key)) =
      some (hist.filter fun o => decide (o.key = key), s'.project key) := by
  induction events generalizing s hist with
  | nil =>
    obtain ⟨rfl, rfl⟩ := Prod.mk.inj (Option.some.inj ran)
    rfl
  | cons e rest ih =>
    obtain ⟨⟨o, s₁⟩, step, after⟩ := Option.bind_eq_some_iff.1 ran
    obtain ⟨⟨later, s₂⟩, onward, same⟩ := Option.map_eq_some_iff.1 after
    obtain ⟨rfl, rfl⟩ := Prod.mk.inj same
    have more := ih onward
    by_cases own : e.key = key
    · have first : t.step (s.project key) e = some (o, s₁.project key) := by
        rw [step_project s own, step]
        rfl
      rw [List.filter_cons_of_pos (by simpa using own), List.filter_cons_of_pos (by simpa [step_key step] using own)]
      simp only [Throttler.run, first, Option.bind_some, more, Option.map_some]
    · rw [List.filter_cons_of_neg (by simpa using own), List.filter_cons_of_neg (by simpa [step_key step] using own), ← step_other step own]
      exact more

/-! ## Runs -/

theorem mem_admissions {hist : List Outcome} {a : Int} : a ∈ admissions key hist ↔ .admitted key a ∈ hist := by
  unfold admissions
  rw [List.mem_filterMap]
  constructor
  · rintro ⟨o, mem, found⟩
    cases o with
    | admitted k now =>
      by_cases same : k = key
      · have value : now = a := by simpa [same] using found
        rw [← same, ← value]
        exact mem
      · simp [same] at found
    | _ => simp at found
  · exact fun mem => ⟨_, mem, by simp⟩

theorem admissions_snoc (hist : List Outcome) (o : Outcome) : admissions key (hist ++ [o]) = admissions key hist ++ admissions key [o] :=
  List.filterMap_append

/-- How a later outcome of a key relates to an earlier one: nothing is admitted for a window after a block, and a record is deleted a
window after the last admission. -/
def Follows (t : Throttler) (key : String) (x y : Outcome) : Prop :=
  (∀ b a, x = .blocking key b → y = .admitted key a → b + t.span ≤ a) ∧ ∀ a d, x = .admitted key a → y = .deleted key d → a + t.span ≤ d

/-- A request is recent to a later one within a window. -/
def recent (t : Throttler) (a b : Int) : Bool := decide (a - t.span < b)

/-- What holds of a key throughout a run. -/
structure Throttled (t : Throttler) (key : String) (s : ThrottleState) (hist : List Outcome) (c : Int) : Prop where
  kept : Kept t (s.storage key) (timers key s) (admissions key hist) c
  waits : ∀ b, .blocking key b ∈ hist →
    b + t.span ≤ c ∨ ∃ r, s.storage key = some r ∧ r.blocked = true ∧ r.blockExpiresAt = some (b + t.span)
  past : ∀ a ∈ admissions key hist, a ≤ c
  fired : ∀ d ∈ timers key s, d.hit ≤ c
  limited : Limited (recent t) t.limit (admissions key hist)
  follows : hist.Pairwise (Follows t key)

theorem throttled_empty (c : Int) : Throttled t key .empty [] c where
  kept := ⟨rfl, fun _ mem => absurd mem List.not_mem_nil⟩
  waits _ mem := absurd mem List.not_mem_nil
  past _ mem := absurd mem List.not_mem_nil
  fired _ mem := absurd mem List.not_mem_nil
  limited := limited_nil
  follows := .nil

variable {s s' : ThrottleState} {hist : List Outcome} {o : Outcome}

theorem Throttled.mono (throttled : Throttled t key s hist c) (le : c ≤ c') : Throttled t key s hist c' where
  kept := throttled.kept.mono le
  waits b mem := (throttled.waits b mem).imp_left fun h => h.trans le
  past a mem := (throttled.past a mem).trans le
  fired d mem := (throttled.fired d mem).trans le
  limited := throttled.limited
  follows := throttled.follows

/-- An outcome that neither admits nor deletes. -/
theorem follows_idle (admits : ∀ a, o ≠ .admitted key a) (deletes : ∀ d, o ≠ .deleted key d) (hist : List Outcome) :
    ∀ x ∈ hist, ∀ y ∈ [o], Follows t key x y := by
  intro x _ y mem
  rw [List.mem_singleton.1 mem]
  exact ⟨fun _ a _ same => absurd same (admits a), fun _ d _ same => absurd same (deletes d)⟩

theorem Throttled.snoc_follows (throttled : Throttled t key s hist c) (last : ∀ x ∈ hist, ∀ y ∈ [o], Follows t key x y) :
    (hist ++ [o]).Pairwise (Follows t key) :=
  List.pairwise_append.2 ⟨throttled.follows, List.pairwise_singleton _ _, last⟩

/-- An event of another key. -/
theorem Throttled.other {e : Event} (throttled : Throttled t key s hist c) (step : t.step s e = some (o, s')) (ne : e.key ≠ key) :
    Throttled t key s' (hist ++ [o]) c := by
  have same := step_other step ne
  have storage : s'.storage key = s.storage key := by
    have both := congrArg (fun s : ThrottleState => s.storage key) same
    simpa [ThrottleState.project] using both
  have pending : timers key s' = timers key s := congrArg ThrottleState.pending same
  have foreign : o.key ≠ key := by rwa [step_key step]
  have quiet : admissions key [o] = [] := by
    cases o with
    | admitted k now =>
      have ne : k ≠ key := foreign
      simp [admissions, ne]
    | _ => rfl
  have admits : ∀ a, o ≠ .admitted key a := by
    rintro a rfl
    exact foreign rfl
  have deletes : ∀ d, o ≠ .deleted key d := by
    rintro d rfl
    exact foreign rfl
  have all : admissions key (hist ++ [o]) = admissions key hist := by rw [admissions_snoc, quiet, List.append_nil]
  refine ⟨?_, fun b mem => ?_, ?_, ?_, ?_, throttled.snoc_follows (follows_idle admits deletes hist)⟩
  · rw [storage, pending, all]
    exact throttled.kept
  · rw [storage]
    rcases List.mem_append.1 mem with before | new
    · exact throttled.waits b before
    · rw [← List.mem_singleton.1 new] at foreign
      exact absurd rfl foreign
  · rw [all]
    exact throttled.past
  · rw [pending]
    exact throttled.fired
  · rw [all]
    exact throttled.limited

theorem after_storage (s : ThrottleState) (key : String) (r : ThrottleRecord) (ds : List Decay) : (s.after key r ds).storage key = some r := if_pos rfl

theorem timers_after {ds : List Decay} (own : ∀ d ∈ ds, d.key = key) (r : ThrottleRecord) : timers key (s.after key r ds) = timers key s ++ ds :=
  timers_append own

theorem put_own (s : ThrottleState) (key : String) (record : Option ThrottleRecord) (pending : List Decay) :
    ({ s.put key record with pending := pending } : ThrottleState).storage key = record := if_pos rfl

/-- A request that is let through: all blocks are over, and few requests of the last window were let through. -/
theorem Throttled.passed {ds : List Decay} (throttled : Throttled t key s hist now) (own : ∀ d ∈ ds, d.key = key) (stamped : ∀ d ∈ ds, d.hit = now)
    (ended : ∀ b, .blocking key b ∈ hist → b + t.span ≤ now)
    (counted : Counted t r (timers key s ++ ds) (admissions key hist ++ [now]) now) (free : r.blocked = false)
    (few : r.hits ≤ t.limit) : Throttled t key (s.after key r ds) (hist ++ [.admitted key now]) now := by
  have all : admissions key (hist ++ [.admitted key now]) = admissions key hist ++ [now] := by
    rw [admissions_snoc]
    simp [admissions]
  refine ⟨?_, fun b mem => ?_, fun a mem => ?_, fun d mem => ?_, ?_, throttled.snoc_follows fun x hx y hy => ?_⟩
  · rw [after_storage, timers_after own, all]
    exact counted
  · rcases List.mem_append.1 mem with before | new
    · exact .inl (ended b before)
    · cases List.mem_singleton.1 new
  · rw [all] at mem
    rcases List.mem_append.1 mem with before | new
    · exact throttled.past a before
    · exact Int.le_of_eq (List.mem_singleton.1 new)
  · rw [timers_after own] at mem
    rcases List.mem_append.1 mem with before | new
    · exact throttled.fired d before
    · exact Int.le_of_eq (stamped d new)
  · rw [all]
    refine throttled.limited.snoc ?_
    have outstanding := counted.counted free (now - t.span) (by omega)
    have total : (timers key s ++ ds).countP (fun d => decide (d.gen = r.gen) && decide (now - t.span < d.hit)) ≤ r.hits := by
      rw [counted.hits]
      refine List.countP_mono_left fun d _ h => ?_
      rw [Bool.and_eq_true] at h
      exact h.1
    exact (outstanding.trans total).trans few
  · rw [List.mem_singleton.1 hy]
    refine ⟨fun b a earlier same => ?_, fun a d _ same => absurd same (by simp)⟩
    obtain rfl : now = a := by simpa using same
    exact ended b (earlier ▸ hx)

/-- A request of the key. -/
theorem Throttled.request (wide : 0 < t.span) (positive : 1 ≤ t.limit) {reading : Int64} (throttled : Throttled t key s hist reading.toInt)
    (step : t.step s (.request key reading) = some (o, s')) : Throttled t key s' (hist ++ [o]) reading.toInt := by
  have early : -2 ^ 63 ≤ reading.toInt := reading.le_toInt
  have late : reading.toInt < 2 ^ 63 := reading.toInt_lt
  have found := throttled.kept.current early
  have requested := step_request wide step
  -- a record that is not blocked has no block that is not over
  have free_over : (t.current (s.storage key) reading.toInt).blocked = false → ∀ b, .blocking key b ∈ hist → b + t.span ≤ reading.toInt := by
    intro free b mem
    rcases throttled.waits b mem with ended | ⟨r, there, blocked, -⟩
    · exact ended
    · rw [current_blocked, isBlocked, there] at free
      exact absurd (blocked.symm.trans free) (by simp)
  have blocked_until : (t.current (s.storage key) reading.toInt).blocked = true → ∀ b, .blocking key b ∈ hist → b + t.span ≤ reading.toInt ∨
      (t.current (s.storage key) reading.toInt).blockExpiresAt = some (b + t.span) := by
    intro _ b mem
    refine (throttled.waits b mem).imp_right ?_
    rintro ⟨r, there, -, expires⟩
    obtain ⟨e, same⟩ := @current_eq t (s.storage key) reading.toInt
    rw [same, there]
    exact expires
  generalize t.current (s.storage key) reading.toInt = r at found requested free_over blocked_until
  cases requested with
  | room free few =>
    exact throttled.passed (by simp) (by simp) (free_over free) (found.hit free) free few
  | full free many =>
    have all : admissions key (hist ++ [.blocking key reading.toInt]) = admissions key hist := by
      rw [admissions_snoc]
      exact List.append_nil _
    have own : ∀ d ∈ [(⟨key, r.gen, reading.toInt⟩ : Decay)], d.key = key := by simp
    refine ⟨?_, fun b mem => ?_, ?_, fun d mem => ?_, ?_, throttled.snoc_follows (follows_idle (by simp) (by simp) hist)⟩
    · rw [after_storage, timers_after own, all]
      exact found.full free throttled.past throttled.fired
    · rcases List.mem_append.1 mem with before | new
      · exact .inl (free_over free b before)
      · obtain rfl : b = reading.toInt := by simpa using new
        exact .inr ⟨_, after_storage .., rfl, rfl⟩
    · rw [all]
      exact throttled.past
    · rw [timers_after own] at mem
      rcases List.mem_append.1 mem with before | new
      · exact throttled.fired d before
      · rw [List.mem_singleton.1 new]
    · rw [all]
      exact throttled.limited
  | stopped blocked ahead =>
    have all : admissions key (hist ++ [.refused key reading.toInt]) = admissions key hist := by
      rw [admissions_snoc]
      exact List.append_nil _
    have own : ∀ d ∈ ([] : List Decay), d.key = key := by simp
    refine ⟨?_, fun b mem => ?_, ?_, ?_, ?_, throttled.snoc_follows (follows_idle (by simp) (by simp) hist)⟩
    · rw [after_storage, timers_after own, all, List.append_nil]
      exact found
    · rcases List.mem_append.1 mem with before | new
      · exact (blocked_until blocked b before).imp_right fun expires => ⟨r, after_storage .., blocked, expires⟩
      · cases List.mem_singleton.1 new
    · rw [all]
      exact throttled.past
    · rw [timers_after own, List.append_nil]
      exact throttled.fired
    · rw [all]
      exact throttled.limited
  | lifted blocked lapsed =>
    refine throttled.passed (by simp) (by simp) (fun b mem => ?_) (found.lifted wide late blocked lapsed) rfl positive
    rcases blocked_until blocked b mem with ended | expires
    · exact ended
    · rwa [expires, secondsUntil_le_iff] at lapsed

/-- A timer of the key. -/
theorem Throttled.timer {d : Decay} {reading : Int64} (throttled : Throttled t d.key s hist reading.toInt)
    (step : t.step s (.timer d reading) = some (o, s')) : Throttled t d.key s' (hist ++ [o]) reading.toInt := by
  obtain ⟨⟨pending, due, first⟩, dropped, fired, rfl⟩ := step_timer step
  have mem : d ∈ timers d.key s := List.mem_filter.2 ⟨pending, decide_eq_true rfl⟩
  have oldest : ∀ d' ∈ timers d.key s, d.hit ≤ d'.hit := fun d' mem' =>
    first d' (List.mem_filter.1 mem').1 (of_decide_eq_true (List.mem_filter.1 mem').2)
  have kept := throttled.kept
  have erased : timers d.key s' = (timers d.key s).erase d := by
    cases fired <;> exact timers_erase d
  have left : ∀ d' ∈ timers d.key s', d'.hit ≤ reading.toInt := by
    rw [erased]
    exact fun d' mem' => throttled.fired d' (List.mem_of_mem_erase mem')
  cases dropped with
  | false =>
    have all : admissions d.key (hist ++ [.decayed d.key reading.toInt]) = admissions d.key hist := by
      rw [admissions_snoc]
      exact List.append_nil _
    -- the record, if it is still there, is as blocked as it was
    have onward : Kept t (s'.storage d.key) ((timers d.key s).erase d) (admissions d.key hist) reading.toInt ∧
        ∀ r, s.storage d.key = some r → ∃ r', s'.storage d.key = some r' ∧ r'.blocked = r.blocked ∧ r'.blockExpiresAt = r.blockExpiresAt := by
      cases fired with
      | missing nothing =>
        rw [nothing] at kept
        rw [kept.1] at mem
        exact absurd mem List.not_mem_nil
      | stale there other =>
        rw [there] at kept
        refine ⟨?_, fun r' here => ⟨r', here, rfl, rfl⟩⟩
        rw [there]
        exact Counted.stale_decay kept mem other
      | hit there own =>
        rw [there] at kept
        refine ⟨?_, fun r' here => ?_⟩
        · rw [put_own]
          exact Counted.hit_decay kept mem own due
        · obtain rfl := Option.some.inj (there.symm.trans here)
          exact ⟨_, put_own .., rfl, rfl⟩
    refine ⟨?_, fun b mem => ?_, ?_, left, ?_, throttled.snoc_follows (follows_idle (by simp) (by simp) hist)⟩
    · rw [erased]
      exact all ▸ onward.1
    · rcases List.mem_append.1 mem with before | new
      · refine (throttled.waits b before).imp_right ?_
        rintro ⟨r, there, blocked, expires⟩
        obtain ⟨r', there', blocked', expires'⟩ := onward.2 r there
        exact ⟨r', there', blocked'.trans blocked, expires'.trans expires⟩
      · cases List.mem_singleton.1 new
    · exact all ▸ throttled.past
    · exact all ▸ throttled.limited
  | true =>
    have all : admissions d.key (hist ++ [.deleted d.key reading.toInt]) = admissions d.key hist := by
      rw [admissions_snoc]
      exact List.append_nil _
    cases fired with
    | last there own last lapsed =>
      rw [there] at kept
      have gone := Counted.last_decay kept mem own due oldest last lapsed
      refine ⟨?_, fun b mem => ?_, ?_, left, ?_, throttled.snoc_follows fun x hx y hy => ?_⟩
      · rw [erased, put_own]
        exact all ▸ gone
      · rcases List.mem_append.1 mem with before | new
        · refine .inl ?_
          rcases throttled.waits b before with ended | ⟨r, here, blocked, expires⟩
          · exact ended
          · obtain rfl := Option.some.inj (there.symm.trans here)
            rcases lapsed with free | done
            · exact absurd (blocked.symm.trans free) (by simp)
            · rw [expires] at done
              simpa using done
        · cases List.mem_singleton.1 new
      · exact all ▸ throttled.past
      · exact all ▸ throttled.limited
      · rw [List.mem_singleton.1 hy]
        refine ⟨fun _ a _ same => absurd same (by simp), fun a d' earlier same => ?_⟩
        obtain rfl : reading.toInt = d' := by simpa using same
        exact gone.2 a (mem_admissions.2 (earlier ▸ hx))

/-- One step of anything. -/
theorem Throttled.step (wide : 0 < t.span) (positive : 1 ≤ t.limit) {e : Event} (throttled : Throttled t key s hist e.now.toInt)
    (step : t.step s e = some (o, s')) : Throttled t key s' (hist ++ [o]) e.now.toInt := by
  by_cases own : e.key = key
  · cases e with
    | request k now =>
      obtain rfl : k = key := own
      exact throttled.request wide positive step
    | timer d now =>
      obtain rfl : d.key = key := own
      exact throttled.timer step
  · exact throttled.other step own

/-- A whole run. -/
theorem Throttled.run (wide : 0 < t.span) (positive : 1 ≤ t.limit) {events : List Event} {more : List Outcome} (ordered : Ordered events)
    (throttled : Throttled t key s hist c) (start : ∀ e ∈ events, c ≤ e.now.toInt) (ran : t.run s events = some (more, s')) :
    ∃ c', Throttled t key s' (hist ++ more) c' := by
  induction events generalizing s hist more c with
  | nil =>
    obtain ⟨rfl, rfl⟩ := Prod.mk.inj (Option.some.inj ran)
    rw [List.append_nil]
    exact ⟨c, throttled⟩
  | cons e rest ih =>
    obtain ⟨⟨o, s₁⟩, step, after⟩ := Option.bind_eq_some_iff.1 ran
    obtain ⟨⟨later, s₂⟩, onward, same⟩ := Option.map_eq_some_iff.1 after
    obtain ⟨rfl, rfl⟩ := Prod.mk.inj same
    obtain ⟨first, ordered⟩ := List.pairwise_cons.1 ordered
    have one := (throttled.mono (start e List.mem_cons_self)).step wide positive step
    have rest' := ih ordered one (fun e' mem => Int64.le_iff_toInt_le.1 (first e' mem)) onward
    rwa [List.append_assoc] at rest'

/-! ### Readings -/

theorem step_now {e : Event} (step : t.step s e = some (o, s')) : o.now = e.now.toInt := by
  cases e with
  | request k now =>
    rw [step_request_eq] at step
    obtain ⟨rfl, -⟩ := Prod.mk.inj (Option.some.inj step)
    split
    · split <;> rfl
    · rfl
  | timer d now =>
    obtain ⟨-, dropped, -, rfl⟩ := step_timer step
    cases dropped <;> rfl

theorem run_now {events : List Event} (ran : t.run s events = some (hist, s')) : hist.map Outcome.now = events.map fun e => e.now.toInt := by
  induction events generalizing s hist with
  | nil =>
    obtain ⟨rfl, -⟩ := Prod.mk.inj (Option.some.inj ran)
    rfl
  | cons e rest ih =>
    obtain ⟨⟨o, s₁⟩, step, after⟩ := Option.bind_eq_some_iff.1 ran
    obtain ⟨⟨later, s₂⟩, onward, same⟩ := Option.map_eq_some_iff.1 after
    obtain ⟨rfl, rfl⟩ := Prod.mk.inj same
    simp [step_now step, ih onward]

/-- Outcomes are in the order of their readings. -/
theorem run_ordered {events : List Event} (ordered : Ordered events) (ran : t.run s events = some (hist, s')) :
    hist.Pairwise fun x y => x.now ≤ y.now := by
  have readings : (hist.map Outcome.now).Pairwise (· ≤ ·) := by
    rw [run_now ran, List.pairwise_map]
    exact ordered.imp fun le => Int64.le_iff_toInt_le.1 le
  exact List.pairwise_map.1 readings

/-! ## The limit -/

/-- The requests of a key admitted in `[start, stop)`. -/
def admittedIn (key : String) (hist : List Outcome) (start stop : Int) : Nat :=
  (admissions key hist).countP fun a => decide (start ≤ a) && decide (a < stop)

/-- The requests of a key admitted in `(start, stop]`. -/
def admittedUpTo (key : String) (hist : List Outcome) (start stop : Int) : Nat :=
  (admissions key hist).countP fun a => decide (start < a) && decide (a ≤ stop)

theorem middleware_project (s : ThrottleState) (key : String) (now : Int) :
    (t.middleware (s.project key) key now).1 = (t.middleware s key now).1 := by
  obtain ⟨i, r, ds, -, all⟩ := increment_local t key now (s.storage key)
  rw [middleware_eq, middleware_eq, all s rfl, all (s.project key) (project_storage s key)]

/-- Whatever the window, the requests and the delays of the timers: a key has at most `limit` requests admitted in a window of time, its
outcomes follow one another as they should, and what it sees of the run, to the answer of its next request, is the run of its own events. -/
theorem throttle_limits (t : Throttler) (positive : 1 ≤ t.limit) {events : List Event} {hist : List Outcome} {s : ThrottleState}
    (ordered : Ordered events) (ran : t.run .empty events = some (hist, s)) (key : String) :
    (∀ start, admittedIn key hist start (start + t.span) ≤ t.limit ∧ admittedUpTo key hist start (start + t.span) ≤ t.limit) ∧
      hist.Pairwise (Follows t key) ∧
      t.run .empty (events.filter fun e => decide (e.key = key)) = some (hist.filter fun o => decide (o.key = key), s.project key) ∧
      ∀ now, (t.middleware (s.project key) key now).1 = (t.middleware s key now).1 := by
  have own := run_project ran key
  have fresh : ThrottleState.empty.project key = .empty := by
    unfold ThrottleState.project ThrottleState.empty timers
    simp
  rw [fresh] at own
  by_cases wide : 0 < t.span
  · obtain ⟨c', throttled⟩ := Throttled.run wide positive ordered (@throttled_empty t key (-2 ^ 63)) (fun e _ => e.now.le_toInt) ran
    have limited : Limited (recent t) t.limit (admissions key hist) := throttled.limited
    refine ⟨fun start => ⟨limited.count_le _ fun a b ha hb => ?_, limited.count_le _ fun a b ha hb => ?_⟩, throttled.follows, own,
      middleware_project s key⟩
    · simp only [Bool.and_eq_true, decide_eq_true_eq, recent] at ha hb ⊢
      omega
    · simp only [Bool.and_eq_true, decide_eq_true_eq, recent] at ha hb ⊢
      omega
  · -- no time is in a window that is not there
    have follows : hist.Pairwise (Follows t key) := by
      refine (run_ordered ordered ran).imp fun {x y} le => ⟨?_, ?_⟩
      · rintro b a rfl rfl
        have le : b ≤ a := le
        omega
      · rintro a d rfl rfl
        have le : a ≤ d := le
        omega
    refine ⟨fun start => ⟨?_, ?_⟩, follows, own, middleware_project s key⟩
    · have nothing : admittedIn key hist start (start + t.span) = 0 := by
        unfold admittedIn
        rw [List.countP_eq_zero]
        intro a _
        simp only [Bool.and_eq_true, decide_eq_true_eq]
        omega
      omega
    · have nothing : admittedUpTo key hist start (start + t.span) = 0 := by
        unfold admittedUpTo
        rw [List.countP_eq_zero]
        intro a _
        simp only [Bool.and_eq_true, decide_eq_true_eq]
        omega
      omega

/-- Two requests, a third that is blocked, another key, the timers late, and a request after the block. -/
def visits : List Event := [.request "a" 0, .request "a" 1, .request "b" 1, .request "a" 2, .request "a" 1001, .timer ⟨"a", 0, 0⟩ 1001,
  .request "a" 1002, .timer ⟨"a", 0, 1⟩ 1002, .timer ⟨"a", 0, 2⟩ 1002, .timer ⟨"b", 0, 1⟩ 1003, .timer ⟨"a", 1, 1002⟩ 2002]

/-- Of the first four requests of the key two are admitted, in whatever window, and the one after the block. -/
theorem third_visit_blocked : ∃ hist s, (Throttler.mk 2 1000).run .empty visits = some (hist, s) ∧ admissions "a" hist = [0, 1, 1002] ∧
    (∀ start, admittedIn "a" hist start (start + 1000) ≤ 2) ∧ .deleted "a" 2002 ∈ hist := by
  have happened : ((Throttler.mk 2 1000).run .empty visits).map Prod.fst = some [.admitted "a" 0, .admitted "a" 1, .admitted "b" 1, .blocking "a" 2,
      .refused "a" 1001, .decayed "a" 1001, .admitted "a" 1002, .decayed "a" 1002, .decayed "a" 1002, .deleted "b" 1003, .deleted "a" 2002] := by
    decide +kernel
  obtain ⟨⟨hist, s⟩, ran, rfl⟩ := Option.map_eq_some_iff.1 happened
  have ordered : Ordered visits := by
    unfold Ordered
    decide +kernel
  obtain ⟨few, -⟩ := throttle_limits ⟨2, 1000⟩ (by decide) ordered ran "a"
  exact ⟨_, s, ran, by decide, fun start => (few start).1, by decide⟩

end NovoApex.Httpx
