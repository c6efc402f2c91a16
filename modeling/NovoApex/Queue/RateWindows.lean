import NovoApex.Lib.Backed
import NovoApex.Queue.RateLimit
import Mathlib.Algebra.Order.Ring.Int
import Mathlib.Tactic.Linarith

/-!
# What the rate limit lets through

A counter is made in its own window, with a time to live that ends in a later one, so it
is not gone before its window is over: every call of a window is counted by one counter,
and those that are let through are not more than the limit. What a worker executes was
let through by its own `allow` before, whenever it begins.
-/

namespace NovoApex.Queue
set_option autoImplicit false
open Lib

/-! ## Windows and keys -/

section Windows

variable {window : Int64} {reading later : Nat}

theorem milliseconds_pos (wide : 1000000 ≤ window.toInt) : 0 < milliseconds window := by
  unfold milliseconds
  rw [Int.tdiv_eq_ediv_of_nonneg (by omega)]
  omega

theorem windowIdx_eq (window : Int64) (reading : Nat) : windowIdx window reading = unixMilli reading / milliseconds window := by
  unfold windowIdx
  apply Int.tdiv_eq_ediv_of_nonneg
  unfold unixMilli
  omega

theorem windowIdx_mono (wide : 0 < milliseconds window) (le : reading ≤ later) : windowIdx window reading ≤ windowIdx window later := by
  rw [windowIdx_eq, windowIdx_eq]
  apply Int.ediv_le_ediv wide
  unfold unixMilli
  omega

/-- A time to live that begins in a window ends in the next. -/
theorem deadline_next (wide : 0 < milliseconds window) (reading : Nat) :
    windowIdx window reading < (unixMilli reading + milliseconds window) / milliseconds window := by
  have next : (unixMilli reading + milliseconds window) / milliseconds window = windowIdx window reading + 1 := by
    rw [windowIdx_eq, ← Int.add_mul_ediv_right _ 1 (Int.ne_of_gt wide), one_mul]
  omega

/-- An interval as long as the milliseconds of a window meets two of them. -/
theorem windowIdx_near (wide : 0 < milliseconds window) (from_ : reading ≤ later)
    (near : later ≤ reading + (milliseconds window).toNat * 1000000) :
    windowIdx window later = windowIdx window reading ∨ windowIdx window later = windowIdx window reading + 1 := by
  have low := windowIdx_mono wide from_
  have high : windowIdx window later ≤ windowIdx window reading + 1 := by
    rw [windowIdx_eq, windowIdx_eq, ← Int.add_mul_ediv_right _ 1 (Int.ne_of_gt wide), one_mul]
    apply Int.ediv_le_ediv wide
    unfold unixMilli
    omega
  omega

end Windows

theorem natText_inj {m n : Nat} (same : (toString m).toList = (toString n).toList) : m = n := by
  have digits : ∀ k : Nat, (toString k).toList = Nat.toDigits 10 k := fun k => by simp [toString, Nat.repr]
  rw [digits, digits] at same
  calc m = Nat.ofDigitChars 10 (Nat.toDigits 10 m) 0 := Nat.ofDigitChars_ten_toDigits.symm
    _ = Nat.ofDigitChars 10 (Nat.toDigits 10 n) 0 := by rw [same]
    _ = n := Nat.ofDigitChars_ten_toDigits

theorem natText_unsigned (n : Nat) (rest : List Char) : (toString n).toList ≠ '-' :: rest := by
  intro same
  have digits : (toString n).toList = Nat.toDigits 10 n := by simp [toString, Nat.repr]
  rw [digits] at same
  have digit : ('-').isDigit = true := Nat.isDigit_of_mem_toDigits (b := 10) (by decide) (by decide) (same ▸ List.mem_cons_self)
  exact absurd digit (by decide)

theorem negText (n : Nat) : (toString (Int.negSucc n)).toList = '-' :: (toString (n + 1)).toList := by
  show ("-" ++ Nat.repr (n + 1)).toList = _
  rw [String.toList_append]
  rfl

/-- Every window has a key of its own. -/
theorem rateKey_inj {queue : String} {i j : Int} : rateKey queue i = rateKey queue j ↔ i = j := by
  refine ⟨fun same => ?_, fun same => by rw [same]⟩
  have text : (toString i).toList = (toString j).toList := by
    unfold rateKey at same
    rw [(String.append_right_inj _).1 same]
  cases i with
  | ofNat m =>
    cases j with
    | ofNat n => rw [natText_inj text]
    | negSucc n => exact absurd (text.trans (negText n)) (natText_unsigned m _)
  | negSucc m =>
    cases j with
    | ofNat n => exact absurd (text.symm.trans (negText m)) (natText_unsigned n _)
    | negSucc n =>
      rw [negText, negText] at text
      have next := natText_inj (List.cons.inj text).2
      omega

/-! ## `allow` -/

section Allow

variable {counters : RateCounters} {queue : String} {limit : Int} {window : Int64} {reading : Nat} {answer : Int64 × Bool × RateCounters}

/-- What an `allow` leaves in the window of its reading. -/
structure Asked (counters : RateCounters) (queue : String) (limit : Int) (window : Int64) (reading : Nat)
    (answer : Int64 × Bool × RateCounters) (c : RateCounter) : Prop where
  left : answer.2.2 = Function.update counters (rateKey queue (windowIdx window reading)) (some c)
  within : answer.2.1 = true → (c.count : Int) ≤ limit
  first : counters (rateKey queue (windowIdx window reading)) = none →
    c = ⟨1, some (unixMilli reading + milliseconds window)⟩
  further : ∀ old, counters (rateKey queue (windowIdx window reading)) = some old → 0 < old.count →
    c = ⟨old.count + 1, old.deadline⟩

theorem script_counts (wide : 0 < milliseconds window) (counters : RateCounters) (key : String) (limit now : Int) :
    ∃ c, (rateLimitScript counters key limit (milliseconds window) now).2 = Function.update counters key (some c) ∧
      ((rateLimitScript counters key limit (milliseconds window) now).1.1 = 1 ↔ (c.count : Int) ≤ limit) ∧
      (counters key = none → c = ⟨1, some (now + milliseconds window)⟩) ∧
      ∀ old, counters key = some old → 0 < old.count → c = ⟨old.count + 1, old.deadline⟩ := by
  have positive : ¬ milliseconds window ≤ 0 := by omega
  have answered : ∀ (count : Nat) (after : RateCounters),
      ((if limit < count then ((0, pttl after key now), after) else ((1, 0), after) : (Int × Int) × RateCounters)).2 = after ∧
      (((if limit < count then ((0, pttl after key now), after) else ((1, 0), after) : (Int × Int) × RateCounters)).1.1 = 1 ↔ (count : Int) ≤ limit) := by
    intro count after
    split
    · exact ⟨rfl, by simp; omega⟩
    · exact ⟨rfl, by simp; omega⟩
  unfold rateLimitScript incr pexpire
  simp only [Function.update_self, Option.map_some, if_neg positive, Function.update_idem]
  cases found : counters key with
  | none =>
    refine ⟨⟨1, some (now + milliseconds window)⟩, ?_, ?_, fun _ => rfl, fun old same => absurd same.symm (Option.some_ne_none old)⟩
    · exact (answered _ _).1
    · exact (answered _ _).2
  | some old =>
    by_cases fresh : old.count + 1 = 1
    · refine ⟨⟨old.count + 1, some (now + milliseconds window)⟩, ?_, ?_, fun none_ => absurd none_ (Option.some_ne_none old), fun c same some_ => ?_⟩
      · simp only [Option.getD_some, if_pos fresh]
        exact (answered _ _).1
      · exact (answered _ _).2
      · obtain rfl := Option.some.inj same
        omega
    · refine ⟨⟨old.count + 1, old.deadline⟩, ?_, ?_, fun none_ => absurd none_ (Option.some_ne_none old), fun c same _ => ?_⟩
      · simp only [Option.getD_some, if_neg fresh]
        exact (answered _ _).1
      · exact (answered _ _).2
      · rw [Option.some.inj same]

/-- `allow` counts the call in the window of its reading, and lets it pass up to the limit. -/
theorem allow_asked (wide : 0 < milliseconds window) (asked : allow counters queue limit window reading = some answer) :
    ∃ c, Asked counters queue limit window reading answer c := by
  obtain ⟨c, left, passes, first, further⟩ :=
    script_counts wide counters (rateKey queue (windowIdx window reading)) limit (unixMilli reading)
  refine ⟨c, ?_⟩
  unfold allow at asked
  simp only [if_neg (Int.ne_of_gt wide)] at asked
  split at asked
  · rename_i one
    obtain rfl := Option.some.inj asked
    exact ⟨left, fun _ => passes.1 one, first, further⟩
  · obtain rfl := Option.some.inj asked
    exact ⟨left, fun passed => absurd passed Bool.false_ne_true, first, further⟩

end Allow

/-! ## What is let through and what is executed -/

section History

variable {W : Type}

/-- The worker and the reading of an `allow` that has let a call pass. -/
def RateEvent.admission : RateEvent W → Option (W × Nat)
  | admitted w reading => some (w, reading)
  | _ => none

/-- The worker and the reading of the `allow` for which `next` begins. -/
def RateEvent.execution : RateEvent W → Option (W × Nat)
  | started w reading _ => some (w, reading)
  | _ => none

/-- The calls of a window that were let through. -/
def admittedIn (window : Int64) (i : Int) (hist : List (RateEvent W)) : Nat :=
  (hist.filterMap RateEvent.admission).countP fun a => decide (windowIdx window a.2 = i)

theorem admittedIn_snoc (window : Int64) (i : Int) (hist : List (RateEvent W)) (e : RateEvent W) :
    admittedIn window i (hist ++ [e]) = admittedIn window i hist + admittedIn window i [e] := by
  unfold admittedIn
  rw [List.filterMap_append, List.countP_append]

variable [DecidableEq W] {queue : String} {p : QueuePolicy} {s s' : RateState W}

/-- What a step does to the counters, to the calls let through and to the executions. -/
inductive Turned (queue : String) (p : QueuePolicy) (s s' : RateState W) : Prop
  /-- Nothing. -/
  | quiet (later : s.clock ≤ s'.clock) (kept : s'.counters = s.counters)
      (hist : s'.hist = s.hist ∨ ∃ w e, s'.hist = s.hist ++ [.returned w e])
      (admitted : ∀ w reading, s'.standing w = .admitted reading → s.standing w = .admitted reading)
  /-- An `allow`. -/
  | asked (w : W) (answer : Int64 × Bool × RateCounters) (standing : Standing)
      (replied : allow s.counters queue p.rateLimit p.rateWindow s.clock = some answer)
      (passes : answer.2.1 = true → s' = (({ s with counters := answer.2.2 } : RateState W).move w (.admitted s.clock)).log (.admitted w s.clock))
      (waits : answer.2.1 = false → s' = ({ s with counters := answer.2.2 } : RateState W).move w standing ∧ ∀ r, standing ≠ .admitted r)
  /-- `next` begins. -/
  | entered (w : W) (reading : Nat) (stood : s.standing w = .admitted reading)
      (same : s' = (s.move w .running).log (.started w reading s.clock))
  /-- A counter is gone. -/
  | expired (key : String) (c : RateCounter) (deadline : Int) (found : s.counters key = some c) (due : c.deadline = some deadline)
      (lapsed : deadline ≤ unixMilli s.clock) (same : s' = { s with counters := Function.update s.counters key none })

/-- A worker that is not about to execute goes elsewhere. -/
theorem move_admitted {w : W} {standing : Standing} (elsewhere : ∀ r, standing ≠ .admitted r) (w' : W) (reading : Nat)
    (stands : (s.move w standing).standing w' = .admitted reading) : s.standing w' = .admitted reading := by
  by_cases same : w' = w
  · subst same
    rw [RateState.move_self] at stands
    exact absurd stands (elsewhere reading)
  · rwa [RateState.move_ne s standing same] at stands

theorem turned_move {w : W} {standing : Standing} (elsewhere : ∀ r, standing ≠ .admitted r) : Turned queue p s (s.move w standing) :=
  .quiet (Nat.le_refl _) rfl (.inl rfl) (move_admitted elsewhere)

theorem turned_giveUp (w : W) (e : RateLimitedError) : Turned queue p s (s.giveUp w e) :=
  .quiet (Nat.le_refl _) rfl (.inr ⟨w, e, rfl⟩) (move_admitted fun _ same => by cases same)

theorem turned {a : RateStep W} (step : rateLimited queue p s a = some s') : Turned queue p s s' := by
  cases a with
  | call w =>
    simp only [rateLimited] at step
    split at step
    · obtain rfl := Option.some.inj step
      exact .quiet (Nat.le_refl _) rfl (.inl rfl) (move_admitted (by simp))
    · cases step
  | cancel w =>
    obtain rfl := Option.some.inj step
    exact .quiet (Nat.le_refl _) rfl (.inl rfl) fun _ _ stands => stands
  | check w =>
    simp only [rateLimited] at step
    split at step
    · obtain rfl := Option.some.inj step
      split
      · exact turned_giveUp w _
      · exact turned_move (by simp)
    · cases step
  | ask w =>
    simp only [rateLimited] at step
    split at step
    · rename_i started _
      obtain ⟨answer, replied, same⟩ := Option.map_eq_some_iff.1 step
      refine .asked w answer (.denied started answer.1) replied (fun passed => ?_) (fun refused => ⟨?_, by simp⟩)
      · rw [← same, if_pos passed]
      · rw [← same, if_neg (by simp [refused])]
    · cases step
  | judge w =>
    simp only [rateLimited] at step
    split at step
    · obtain rfl := Option.some.inj step
      split
      · exact turned_giveUp w _
      · exact turned_move (by simp)
    · cases step
  | wake w =>
    simp only [rateLimited] at step
    split at step
    · split at step
      · obtain rfl := Option.some.inj step
        exact turned_move (by simp)
      · cases step
    · cases step
  | interrupt w =>
    simp only [rateLimited] at step
    split at step
    · split at step
      · obtain rfl := Option.some.inj step
        exact turned_giveUp w _
      · cases step
    · cases step
  | enter w =>
    simp only [rateLimited] at step
    split at step
    · rename_i reading stood
      obtain rfl := Option.some.inj step
      exact .entered w reading stood rfl
    · cases step
  | finish w =>
    simp only [rateLimited] at step
    split at step
    · obtain rfl := Option.some.inj step
      exact turned_move (by simp)
    · cases step
  | pass ns =>
    obtain rfl := Option.some.inj step
    exact .quiet (Nat.le_add_right _ _) rfl (.inl rfl) fun _ _ stands => stands
  | expire key =>
    simp only [rateLimited] at step
    split at step
    · rename_i c found
      split at step
      · rename_i lapsed
        obtain rfl := Option.some.inj step
        obtain ⟨deadline, due, le⟩ := (Option.any_eq_true _ _).1 lapsed
        exact .expired key c deadline found due (of_decide_eq_true le) rfl
      · cases step
    · cases step

/-! ## Windows in a run -/

/-- The counter of a window has counted what was let through in it, until the window is over. -/
structure Metered (queue : String) (p : QueuePolicy) (i : Int) (s : RateState W) : Prop where
  few : admittedIn p.rateWindow i s.hist ≤ p.rateLimit.toNat
  gone : s.counters (rateKey queue i) = none → admittedIn p.rateWindow i s.hist = 0 ∨ i < windowIdx p.rateWindow s.clock
  kept : ∀ c, s.counters (rateKey queue i) = some c → 0 < c.count ∧ admittedIn p.rateWindow i s.hist ≤ c.count ∧
    ∃ deadline, c.deadline = some deadline ∧ i < deadline / milliseconds p.rateWindow

omit [DecidableEq W] in
theorem metered_initial (queue : String) (p : QueuePolicy) (i : Int) (clock : Nat) : Metered queue p i (.initial clock : RateState W) where
  few := Nat.zero_le _
  gone _ := .inl rfl
  kept _ found := absurd found.symm (Option.some_ne_none _)

section Metered

variable {i : Int}

omit [DecidableEq W] in
/-- Nothing was let through, and the counters of the window are as they were. -/
theorem Metered.unchanged (metered : Metered queue p i s) (wide : 0 < milliseconds p.rateWindow) (later : s.clock ≤ s'.clock)
    (kept : s'.counters (rateKey queue i) = s.counters (rateKey queue i))
    (none_ : admittedIn p.rateWindow i s'.hist = admittedIn p.rateWindow i s.hist) : Metered queue p i s' where
  few := none_ ▸ metered.few
  gone found := by
    rw [kept] at found
    rw [none_]
    have mono := windowIdx_mono wide later
    exact (metered.gone found).imp_right fun before => by omega
  kept c found := by
    rw [kept] at found
    rw [none_]
    exact metered.kept c found

omit [DecidableEq W] in
/-- An `allow` in another window. -/
theorem Metered.elsewhere (metered : Metered queue p i s) (wide : 0 < milliseconds p.rateWindow) (later : s.clock ≤ s'.clock) {j : Int}
    {c : RateCounter} (ne : j ≠ i) (left : s'.counters = Function.update s.counters (rateKey queue j) (some c))
    (none_ : admittedIn p.rateWindow i s'.hist = admittedIn p.rateWindow i s.hist) : Metered queue p i s' := by
  apply metered.unchanged wide later _ none_
  rw [left]
  exact Function.update_of_ne (fun same => ne (rateKey_inj.1 same).symm) ..

omit [DecidableEq W] in
/-- An `allow` in the window. -/
theorem Metered.asked (metered : Metered queue p i s) (wide : 0 < milliseconds p.rateWindow) {answer : Int64 × Bool × RateCounters}
    {c : RateCounter} (here : windowIdx p.rateWindow s.clock = i)
    (asked : Asked s.counters queue p.rateLimit p.rateWindow s.clock answer c) (left : s'.counters = answer.2.2)
    (some_ : admittedIn p.rateWindow i s'.hist = admittedIn p.rateWindow i s.hist + if answer.2.1 then 1 else 0) : Metered queue p i s' := by
  have found : s'.counters (rateKey queue i) = some c := by
    rw [left, asked.left, here]
    exact Function.update_self ..
  -- the counter counts this call too
  have counted : 0 < c.count ∧ admittedIn p.rateWindow i s.hist + 1 ≤ c.count ∧
      ∃ deadline, c.deadline = some deadline ∧ i < deadline / milliseconds p.rateWindow := by
    cases before : s.counters (rateKey queue i) with
    | none =>
      obtain rfl := asked.first (here ▸ before)
      have empty : admittedIn p.rateWindow i s.hist = 0 := (metered.gone before).resolve_right (by omega)
      exact ⟨Nat.one_pos, by simp [empty], _, rfl, here ▸ deadline_next wide s.clock⟩
    | some old =>
      obtain ⟨positive, within, deadline, due, ahead⟩ := metered.kept old before
      obtain rfl := asked.further old (here ▸ before) positive
      exact ⟨Nat.succ_pos _, Nat.succ_le_succ within, deadline, due, ahead⟩
  obtain ⟨positive, within, deadline⟩ := counted
  constructor
  · rw [some_]
    cases passed : answer.2.1 with
    | false => exact metered.few
    | true =>
      have limit := asked.within passed
      simp only [if_true]
      omega
  · exact fun none_ => absurd (found.symm.trans none_) (Option.some_ne_none c)
  · intro c' same
    obtain rfl := Option.some.inj (found.symm.trans same)
    refine ⟨positive, ?_, deadline⟩
    rw [some_]
    split <;> omega

omit [DecidableEq W] in
/-- The time to live of the counter is over. -/
theorem Metered.expired (metered : Metered queue p i s) (wide : 0 < milliseconds p.rateWindow) {key : String} {c : RateCounter}
    {deadline : Int} (found : s.counters key = some c) (due : c.deadline = some deadline) (lapsed : deadline ≤ unixMilli s.clock) :
    Metered queue p i { s with counters := Function.update s.counters key none } := by
  by_cases own : rateKey queue i = key
  · subst own
    obtain ⟨-, -, deadline', due', ahead⟩ := metered.kept c found
    obtain rfl := Option.some.inj (due.symm.trans due')
    -- the time to live ends in a later window, so this one is over
    have past : i < windowIdx p.rateWindow s.clock := by
      rw [windowIdx_eq]
      exact lt_of_lt_of_le ahead (Int.ediv_le_ediv wide lapsed)
    refine ⟨metered.few, fun _ => .inr past, fun c' there => ?_⟩
    have nothing : Function.update s.counters (rateKey queue i) none (rateKey queue i) = none := Function.update_self ..
    exact absurd (nothing.symm.trans there).symm (Option.some_ne_none c')
  · exact metered.unchanged wide (Nat.le_refl _) (Function.update_of_ne own ..) rfl

omit [DecidableEq W] in
theorem admittedIn_admitted (window : Int64) (i : Int) (w : W) (reading : Nat) :
    admittedIn window i [.admitted w reading] = if windowIdx window reading = i then 1 else 0 := by
  simp [admittedIn, RateEvent.admission, List.countP_cons]

/-- One step. -/
theorem Metered.step (metered : Metered queue p i s) (wide : 0 < milliseconds p.rateWindow) (step : Turned queue p s s') :
    Metered queue p i s' := by
  cases step with
  | quiet later kept hist _ =>
    apply metered.unchanged wide later (congrFun kept _)
    rcases hist with same | ⟨w, e, same⟩
    · rw [same]
    · rw [same, admittedIn_snoc]
      rfl
  | asked w answer standing replied passes waits =>
    obtain ⟨c, asked⟩ := allow_asked wide replied
    cases passed : answer.2.1 with
    | true =>
      obtain rfl := passes passed
      by_cases here : windowIdx p.rateWindow s.clock = i
      · apply metered.asked wide here asked rfl
        rw [RateState.log, admittedIn_snoc, admittedIn_admitted, if_pos here, passed]
        rfl
      · refine metered.elsewhere wide (Nat.le_refl _) here asked.left ?_
        rw [RateState.log, admittedIn_snoc, admittedIn_admitted, if_neg here]
        rfl
    | false =>
      obtain ⟨rfl, -⟩ := waits passed
      by_cases here : windowIdx p.rateWindow s.clock = i
      · apply metered.asked wide here asked rfl
        rw [passed]
        rfl
      · exact metered.elsewhere wide (Nat.le_refl _) here asked.left rfl
  | entered w reading stood same =>
    subst same
    refine metered.unchanged wide (Nat.le_refl _) rfl ?_
    rw [RateState.log, admittedIn_snoc]
    rfl
  | expired key c deadline found due lapsed same =>
    subst same
    exact metered.expired wide found due lapsed

end Metered

/-! ## Executions in a run -/

/-- Every execution has an `allow` of its own, and so has every worker that is about to begin one. -/
structure Served (s : RateState W) : Prop where
  backed : Backed RateEvent.admission RateEvent.execution s.hist
  next : ∀ w reading, s.standing w = .admitted reading →
    (s.hist.filterMap RateEvent.execution).count (w, reading) < (s.hist.filterMap RateEvent.admission).count (w, reading)

theorem served_initial (clock : Nat) : Served (.initial clock : RateState W) where
  backed := backed_nil
  next _ _ stands := absurd stands (by simp [RateState.initial])

/-- An entry that is neither a call let through nor an execution. -/
theorem Served.quiet (served : Served s) (hist : s'.hist = s.hist ∨ ∃ w e, s'.hist = s.hist ++ [.returned w e])
    (admitted : ∀ w reading, s'.standing w = .admitted reading → s.standing w = .admitted reading) : Served s' := by
  rcases hist with same | ⟨w, e, same⟩
  · exact ⟨same ▸ served.backed, fun w reading stands => same ▸ served.next w reading (admitted w reading stands)⟩
  · refine ⟨same ▸ served.backed.snoc (fun k uses => by cases uses), fun w' reading stands => ?_⟩
    rw [same, count_snoc, count_snoc]
    exact served.next w' reading (admitted w' reading stands)

/-- A call is let through. -/
theorem Served.admitted (served : Served s) (w : W) : Served ((s.move w (.admitted s.clock)).log (.admitted w s.clock)) := by
  refine ⟨served.backed.snoc (fun k uses => by cases uses), fun w' reading stands => ?_⟩
  show ((s.hist ++ _).filterMap _).count _ < ((s.hist ++ _).filterMap _).count _
  rw [count_snoc, count_snoc]
  by_cases same : w' = w
  · -- the worker has nothing to begin but this call
    subst same
    obtain rfl : s.clock = reading := by simpa [RateState.log] using stands
    have before := served.backed.count_le (w', s.clock)
    simp [RateEvent.admission, RateEvent.execution]
    omega
  · have stood : s.standing w' = .admitted reading := (s.move_ne _ same).symm.trans stands
    exact Nat.lt_of_lt_of_le (served.next w' reading stood) (Nat.le_add_right _ _)

/-- An execution begins. -/
theorem Served.enter (served : Served s) {w : W} {reading : Nat} (stood : s.standing w = .admitted reading) :
    Served ((s.move w .running).log (.started w reading s.clock)) := by
  refine ⟨served.backed.snoc (fun k uses => ?_), fun w' reading' stands => ?_⟩
  · obtain rfl := Option.some.inj uses
    exact served.next w reading stood
  · show ((s.hist ++ _).filterMap _).count _ < ((s.hist ++ _).filterMap _).count _
    rw [count_snoc, count_snoc]
    by_cases same : w' = w
    · subst same
      simp [RateState.log] at stands
    · have stood' : s.standing w' = .admitted reading' := (s.move_ne _ same).symm.trans stands
      have other : ¬ (w, reading) = (w', reading') := fun both => same (Prod.mk.inj both).1.symm
      have unused := served.next w' reading' stood'
      simpa [RateEvent.admission, RateEvent.execution, other] using unused

theorem Served.step (served : Served s) (step : Turned queue p s s') : Served s' := by
  cases step with
  | quiet _ _ hist admitted => exact served.quiet hist admitted
  | asked w answer standing _ passes waits =>
    have counted : Served { s with counters := answer.2.2 } := ⟨served.backed, served.next⟩
    cases passed : answer.2.1 with
    | true =>
      obtain rfl := passes passed
      exact counted.admitted w
    | false =>
      obtain ⟨rfl, elsewhere⟩ := waits passed
      exact counted.quiet (.inl rfl) (move_admitted elsewhere)
  | entered w reading stood same =>
    subst same
    exact served.enter stood
  | expired _ _ _ _ _ _ same =>
    subst same
    exact ⟨served.backed, served.next⟩

/-! ## Runs -/

/-- What every step keeps, a run keeps. -/
theorem run_keeps {holds : RateState W → Prop} (keeps : ∀ {s s' : RateState W}, holds s → Turned queue p s s' → holds s') {steps : List (RateStep W)}
    (start : holds s) (ran : rateLimitedRun queue p s steps = some s') : holds s' := by
  induction steps generalizing s with
  | nil => exact Option.some.inj ran ▸ start
  | cons a rest ih =>
    obtain ⟨s₁, step, after⟩ := Option.bind_eq_some_iff.1 ran
    exact ih (keeps start (turned step)) after

/-- An execution: its worker, the reading of the `allow` that let it through, and the reading at its start. -/
structure Execution (W : Type) where
  worker : W
  admittedAt : Nat
  startedAt : Nat
  deriving DecidableEq

/-- The executions that have begun. -/
def executions (hist : List (RateEvent W)) : List (Execution W) :=
  hist.filterMap fun
    | .started w reading now => some ⟨w, reading, now⟩
    | _ => none

omit [DecidableEq W] in
theorem executions_map (hist : List (RateEvent W)) :
    (executions hist).map (fun x => (x.worker, x.admittedAt)) = hist.filterMap RateEvent.execution := by
  unfold executions
  rw [List.map_filterMap]
  apply List.filterMap_congr
  intro e _
  cases e <;> rfl

omit [DecidableEq W] in
/-- Executions are selected by the `allow` that let them through. -/
theorem executions_countP (hist : List (RateEvent W)) (among : Nat → Bool) :
    (executions hist).countP (fun x => among x.admittedAt) = (hist.filterMap RateEvent.execution).countP fun a => among a.2 := by
  rw [← executions_map, List.countP_map]
  rfl

/-- In every run at most `limit` executions are let through in each window, at most twice `limit` in an interval as long as the
milliseconds of a window, and each by an earlier `allow` of its worker that is its own. -/
theorem rateLimited_limits {clock : Nat} {steps : List (RateStep W)} (wide : 1000000 ≤ p.rateWindow.toInt)
    (ran : rateLimitedRun queue p (.initial clock) steps = some s) :
    (∀ i, (executions s.hist).countP (fun x => decide (windowIdx p.rateWindow x.admittedAt = i)) ≤ p.rateLimit.toNat) ∧
    (∀ begins : Nat, (executions s.hist).countP (fun x => decide (begins ≤ x.admittedAt ∧
      x.admittedAt ≤ begins + (milliseconds p.rateWindow).toNat * 1000000)) ≤ 2 * p.rateLimit.toNat) ∧
    Backed RateEvent.admission RateEvent.execution s.hist := by
  have positive := milliseconds_pos wide
  have served : Served s := run_keeps Served.step (served_initial clock) ran
  have metered : ∀ i, Metered queue p i s := fun i => run_keeps (fun metered step => metered.step positive step) (metered_initial queue p i clock) ran
  have few : ∀ i, (executions s.hist).countP (fun x => decide (windowIdx p.rateWindow x.admittedAt = i)) ≤ p.rateLimit.toNat := by
    intro i
    rw [executions_countP s.hist fun reading => decide (windowIdx p.rateWindow reading = i)]
    exact (served.backed.countP_le _).trans (metered i).few
  refine ⟨few, fun begins => ?_, served.backed⟩
  apply countP_two_windows few (windowIdx p.rateWindow begins)
  intro x _ within
  obtain ⟨first, last⟩ := of_decide_eq_true within
  exact windowIdx_near positive first last

end History

/-- A worker asks. -/
def asks (w : Nat) : List (RateStep Nat) := [.call w, .check w, .ask w]

/-- Three workers, 600 milliseconds or microseconds apart, who begin at once or all at the end. -/
def three (apart : Nat) (atOnce : Bool) : List (RateStep Nat) :=
  if atOnce then asks 0 ++ [.enter 0, .pass apart] ++ asks 1 ++ [.enter 1, .pass apart] ++ asks 2 ++ [.enter 2]
  else asks 0 ++ [.pass apart] ++ asks 1 ++ [.pass apart] ++ asks 2 ++ [.enter 0, .enter 1, .enter 2]

theorem second_window_limits : ∃ s, rateLimitedRun "outbound" ⟨2, 2000000000, 1, 1000000000⟩ (.initial 900000000) (three 600000000 true) = some s ∧
    (executions s.hist).length = 3 ∧
    (executions s.hist).countP (fun x => decide (900000000 ≤ x.admittedAt ∧ x.admittedAt ≤ 900000000 + 1000 * 1000000)) ≤ 2 * 1 := by
  obtain ⟨s, ran, three_⟩ := Option.map_eq_some_iff.1 (by decide +kernel :
    (rateLimitedRun "outbound" ⟨2, 2000000000, 1, 1000000000⟩ (.initial 900000000) (three 600000000 true)).map
      (fun s => (executions s.hist).length) = some 3)
  exact ⟨s, ran, three_, (rateLimited_limits (by decide) ran).2.1 900000000⟩

/-- A window of a millisecond and a half is counted as one of a millisecond, and meets three of them; and executions that were let
through in three windows can begin in one. -/
theorem fraction_overruns :
    (∃ s, rateLimitedRun "outbound" ⟨2, 2000000000, 1, 1500000⟩ (.initial 900000) (three 600000 true) = some s ∧
      2 * 1 < (executions s.hist).countP fun x => decide (900000 ≤ x.admittedAt ∧ x.startedAt ≤ 900000 + 1500000)) ∧
    ∃ s, rateLimitedRun "outbound" ⟨2, 2000000000, 1, 1000000000⟩ (.initial 900000000) (three 600000000 false) = some s ∧
      1 < (executions s.hist).countP fun x => decide (windowIdx 1000000000 x.startedAt = 2) := by
  constructor
  · obtain ⟨s, ran, counted⟩ := Option.map_eq_some_iff.1 (by decide +kernel :
      (rateLimitedRun "outbound" ⟨2, 2000000000, 1, 1500000⟩ (.initial 900000) (three 600000 true)).map (fun s =>
        (executions s.hist).countP fun x => decide (900000 ≤ x.admittedAt ∧ x.startedAt ≤ 900000 + 1500000)) = some 3)
    exact ⟨s, ran, counted ▸ by decide⟩
  · obtain ⟨s, ran, counted⟩ := Option.map_eq_some_iff.1 (by decide +kernel :
      (rateLimitedRun "outbound" ⟨2, 2000000000, 1, 1000000000⟩ (.initial 900000000) (three 600000000 false)).map (fun s =>
        (executions s.hist).countP fun x => decide (windowIdx 1000000000 x.startedAt = 2)) = some 3)
    exact ⟨s, ran, counted ▸ by decide⟩

end NovoApex.Queue
