import NovoApex.Lib.Program
import Mathlib.Data.List.Nodup
import Mathlib.Logic.Relation

/-!
# Named handlers that rely on each other

A `Crew` is a store and the handlers in flight over it, each under a name of its
own. A statement may be executed, fail without effect, or be executed with its
reply lost; a handler may stop before any statement. A roster that says nothing
else allows all of this everywhere; one may narrow it to describe the runs in which
certain statements come through.

What a handler has read stays true only as far as the others let it. A `Protocol`
fixes the invariant of the store and, for every name, what that handler relies on
the others for. `Safe` walks through a program: before each statement the store may
have moved along the rely, and the statement has to keep the invariant and every
other handler's rely. A name that no handler runs under is `idle`: a handler that ends,
or stops where the roster lets it, has to leave its name so. Safe handlers keep the
invariant in every interleaving, end in what they promise (`Protocol.holds`), and move
the store along the rely of anybody who takes no part (`Protocol.observed`).
-/

namespace NovoApex.Lib
set_option autoImplicit false
open Relation

variable {I : Interface} {ι σ α β : Type}

/-- A store and the named handlers in flight over it. -/
structure Crew (I : Interface) (ι σ : Type) where
  state : σ
  threads : List (ι × Program I Unit)

/-- The store, the handlers that may start under a name, and when a statement can proceed. -/
structure Roster (I : Interface) (ι σ : Type) where
  exec : I.Exec σ
  job : ι → Program I Unit → Prop
  allow : σ → I.Op → Prop
  /-- When a statement may fail without effect. -/
  faults : σ → I.Op → Prop := fun _ _ => True
  /-- When a statement that was executed may lose its reply. -/
  loses : σ → I.Op → Prop := fun _ _ => True
  /-- When a handler may stop before a statement. -/
  stops : σ → I.Op → Prop := fun _ _ => True

/-- A handler may leave: it has ended, or it stops where it is. -/
def Roster.leaves (R : Roster I ι σ) (s : σ) : Program I Unit → Prop
  | .ret _ => True
  | .stmt op _ => R.stops s op

/-- One step of an interleaving. -/
inductive Roster.Step (R : Roster I ι σ) : Crew I ι σ → Crew I ι σ → Prop where
  | spawn {s ts i p} (may : R.job i p) (unused : i ∉ ts.map Prod.fst) : Step R ⟨s, ts⟩ ⟨s, (i, p) :: ts⟩
  | exec {s pre post i op next} (may : R.allow s op) : Step R ⟨s, pre ++ (i, .stmt op next) :: post⟩
      ⟨(R.exec op s).2, pre ++ (i, next (R.exec op s).1) :: post⟩
  | lost {s pre post i op next} (may : R.allow s op) (loses : R.loses s op) : Step R ⟨s, pre ++ (i, .stmt op next) :: post⟩
      ⟨(R.exec op s).2, pre ++ (i, next (.error I.fault)) :: post⟩
  | fault {s pre post i op next} (faults : R.faults s op) :
      Step R ⟨s, pre ++ (i, .stmt op next) :: post⟩ ⟨s, pre ++ (i, next (.error I.fault)) :: post⟩
  | drop {s pre post i p} (leaves : R.leaves s p) : Step R ⟨s, pre ++ (i, p) :: post⟩ ⟨s, pre ++ post⟩

/-- The crews a run reaches. -/
def Roster.Reach (R : Roster I ι σ) : Crew I ι σ → Crew I ι σ → Prop := ReflTransGen R.Step

/-- What a step does to the store: nothing, or one allowed statement. -/
theorem Roster.Step.effect {R : Roster I ι σ} {a b : Crew I ι σ} (step : R.Step a b) :
    b.state = a.state ∨ ∃ op, R.allow a.state op ∧ b.state = (R.exec op a.state).2 := by
  cases step with
  | spawn may unused => exact .inl rfl
  | exec may => exact .inr ⟨_, may, rfl⟩
  | lost may loses => exact .inr ⟨_, may, rfl⟩
  | fault faults => exact .inl rfl
  | drop leaves => exact .inl rfl

/-- What every allowed statement keeps holds throughout a run, whoever takes part. -/
theorem Roster.keeps {R : Roster I ι σ} {inv : σ → Prop} (kept : ∀ s op, R.allow s op → inv s → inv (R.exec op s).2) {a b : Crew I ι σ}
    (reach : R.Reach a b) (start : inv a.state) : inv b.state := by
  induction reach with
  | refl => exact start
  | tail _ step ih =>
    rcases step.effect with same | ⟨op, may, moved⟩
    · rw [same]
      exact ih
    · rw [moved]
      exact kept _ op may ih

/-- A roster that allows less. -/
structure Roster.Within (R R' : Roster I ι σ) : Prop where
  exec : R.exec = R'.exec
  job : ∀ i p, R.job i p → R'.job i p
  allow : ∀ s op, R.allow s op → R'.allow s op
  faults : ∀ s op, R.faults s op → R'.faults s op
  loses : ∀ s op, R.loses s op → R'.loses s op
  stops : ∀ s op, R.stops s op → R'.stops s op

theorem Roster.Within.step {R R' : Roster I ι σ} (h : R.Within R') {a b : Crew I ι σ} (step : R.Step a b) : R'.Step a b := by
  cases step with
  | spawn may unused => exact .spawn (h.job _ _ may) unused
  | exec may =>
    rw [h.exec]
    exact .exec (h.allow _ _ may)
  | lost may loses =>
    rw [h.exec]
    exact .lost (h.allow _ _ may) (h.loses _ _ loses)
  | fault faults => exact .fault (h.faults _ _ faults)
  | @drop s pre post i p leaves =>
    refine .drop ?_
    cases p with
    | ret r => exact trivial
    | stmt op next => exact h.stops _ _ leaves

/-- A run of the narrower roster is one of the wider. -/
theorem Roster.Within.reach {R R' : Roster I ι σ} (h : R.Within R') {a b : Crew I ι σ} (reach : R.Reach a b) : R'.Reach a b := by
  induction reach with
  | refl => exact .refl
  | tail _ step ih => exact ih.tail (h.step step)

/-- The invariant of the store and what each handler relies on the others for. -/
structure Protocol (ι σ : Type) where
  inv : σ → Prop
  rely : ι → σ → σ → Prop
  refl : ∀ i s, rely i s s
  trans : ∀ i s t u, rely i s t → rely i t u → rely i s u
  /-- What holds of a name that no handler runs under. -/
  idle : ι → σ → Prop := fun _ _ => True
  steady : ∀ i s t, rely i s t → idle i s → idle i t := by exact fun _ _ _ _ _ => trivial

/-- Whatever the others do within the rely, the program keeps the protocol and ends in `Q`. -/
def Safe (R : Roster I ι σ) (P : Protocol ι σ) (i : ι) (Q : Except I.Err α → σ → Prop) : Program I α → σ → Prop
  | .ret r, s => Q r s
  | .stmt op next, s => ∀ t, P.rely i s t → P.inv t →
    (R.allow t op → P.inv (R.exec op t).2 ∧ (∀ j, j ≠ i → P.rely j t (R.exec op t).2) ∧
      Safe R P i Q (next (R.exec op t).1) (R.exec op t).2 ∧
      (R.loses t op → Safe R P i Q (next (.error I.fault)) (R.exec op t).2)) ∧
    (R.faults t op → Safe R P i Q (next (.error I.fault)) t) ∧ (R.stops t op → P.idle i t)

/-- `A` of a reply, `B` where there is none. -/
def Replied {ε : Type} (A : α → σ → Prop) (B : σ → Prop) : Except ε α → σ → Prop
  | .ok a, s => A a s
  | .error _, s => B s

namespace Safe

variable {R : Roster I ι σ} {P : Protocol ι σ} {i : ι}

/-! ## Rules -/

theorem mono {Q Q' : Except I.Err α → σ → Prop} {p : Program I α} {s : σ} (h : Safe R P i Q p s)
    (weaken : ∀ r s, Q r s → Q' r s) : Safe R P i Q' p s := by
  induction p generalizing s with
  | ret r => exact weaken r s h
  | stmt op next ih =>
    intro t rely inv
    obtain ⟨executed, failed, stopped⟩ := h t rely inv
    refine ⟨fun may => ?_, fun faults => ih _ (failed faults), stopped⟩
    obtain ⟨inv', others, replied, unreplied⟩ := executed may
    exact ⟨inv', others, ih _ replied, fun loses => ih _ (unreplied loses)⟩

theorem bind {Q : Except I.Err β → σ → Prop} {p : Program I α} {f : α → Program I β} {s : σ}
    (h : Safe R P i (fun r s => match r with
      | .ok a => Safe R P i Q (f a) s
      | .error e => Q (.error e) s) p s) : Safe R P i Q (p.bind f) s := by
  induction p generalizing s with
  | ret r =>
    cases r with
    | ok a => exact h
    | error e => exact h
  | stmt op next ih =>
    intro t rely inv
    obtain ⟨executed, failed, stopped⟩ := h t rely inv
    refine ⟨fun may => ?_, fun faults => ih _ (failed faults), stopped⟩
    obtain ⟨inv', others, replied, unreplied⟩ := executed may
    exact ⟨inv', others, ih _ replied, fun loses => ih _ (unreplied loses)⟩

theorem attempt {Q : Except I.Err (Except I.Err α) → σ → Prop} {p : Program I α} {s : σ}
    (h : Safe R P i (fun r => Q (.ok r)) p s) : Safe R P i Q p.attempt s := by
  induction p generalizing s with
  | ret r => exact h
  | stmt op next ih =>
    intro t rely inv
    obtain ⟨executed, failed, stopped⟩ := h t rely inv
    refine ⟨fun may => ?_, fun faults => ih _ (failed faults), stopped⟩
    obtain ⟨inv', others, replied, unreplied⟩ := executed may
    exact ⟨inv', others, ih _ replied, fun loses => ih _ (unreplied loses)⟩

theorem mapErr {Q : Except I.Err α → σ → Prop} {p : Program I α} {f : I.Err → I.Err} {s : σ}
    (h : Safe R P i (fun r => Q (r.mapError f)) p s) : Safe R P i Q (p.mapErr f) s := by
  induction p generalizing s with
  | ret r => exact h
  | stmt op next ih =>
    intro t rely inv
    obtain ⟨executed, failed, stopped⟩ := h t rely inv
    refine ⟨fun may => ?_, fun faults => ih _ (failed faults), stopped⟩
    obtain ⟨inv', others, replied, unreplied⟩ := executed may
    exact ⟨inv', others, ih _ replied, fun loses => ih _ (unreplied loses)⟩

/-- What is known of the error stays known. -/
theorem mapErr_replied {A : α → σ → Prop} {B : σ → Prop} {p : Program I α} {f : I.Err → I.Err} {s : σ}
    (h : Safe R P i (Replied A B) p s) : Safe R P i (Replied A B) (p.mapErr f) s := by
  refine mapErr (h.mono fun r t known => ?_)
  cases r <;> exact known

/-- One statement: it keeps the protocol wherever the others have moved the store. -/
theorem call {op : I.Op} {Q : Except I.Err (I.Reply op) → σ → Prop} {s : σ}
    (executed : ∀ t, P.rely i s t → P.inv t → R.allow t op →
      P.inv (R.exec op t).2 ∧ (∀ j, j ≠ i → P.rely j t (R.exec op t).2) ∧ Q (R.exec op t).1 (R.exec op t).2 ∧
        (R.loses t op → Q (.error I.fault) (R.exec op t).2))
    (failed : ∀ t, P.rely i s t → P.inv t → R.faults t op → Q (.error I.fault) t)
    (stopped : ∀ t, P.rely i s t → P.inv t → R.stops t op → P.idle i t) : Safe R P i Q (Program.call op) s :=
  fun t rely inv => ⟨executed t rely inv, failed t rely inv, stopped t rely inv⟩

/-- One statement, by what its execution comes to. -/
theorem call_eq {op : I.Op} {Q : Except I.Err (I.Reply op) → σ → Prop} {s : σ}
    (executed : ∀ t, P.rely i s t → P.inv t → R.allow t op → ∃ r t', R.exec op t = (r, t') ∧
      P.inv t' ∧ (∀ j, j ≠ i → P.rely j t t') ∧ Q r t' ∧ (R.loses t op → Q (.error I.fault) t'))
    (failed : ∀ t, P.rely i s t → P.inv t → R.faults t op → Q (.error I.fault) t)
    (stopped : ∀ t, P.rely i s t → P.inv t → R.stops t op → P.idle i t) : Safe R P i Q (Program.call op) s := by
  refine call (fun t rely inv may => ?_) failed stopped
  obtain ⟨r, t', moved, after⟩ := executed t rely inv may
  rw [moved]
  exact after

/-- A program whose statements keep the protocol, whatever is known. -/
theorem of_uses {A : I.Op → Prop} {p : Program I α} {s : σ} (uses : p.Uses A)
    (keep : ∀ op t, A op → P.inv t → R.allow t op → P.inv (R.exec op t).2 ∧ ∀ j, j ≠ i → P.rely j t (R.exec op t).2)
    (idle : ∀ t, P.idle i t) : Safe R P i (fun _ _ => True) p s := by
  induction p generalizing s with
  | ret r => trivial
  | stmt op next ih =>
    intro t rely inv
    refine ⟨fun may => ?_, fun _ => ih _ (uses.2 _), fun _ => idle t⟩
    obtain ⟨inv', others⟩ := keep op t uses.1 inv may
    exact ⟨inv', others, ih _ (uses.2 _), fun _ => ih _ (uses.2 _)⟩

/-- A program whose statements keep the protocol as long as `K` is known, which lasts. -/
theorem of_uses_known {A : I.Op → Prop} {K : σ → Prop} {p : Program I α} {s : σ} (uses : p.Uses A)
    (lasting : ∀ s t, P.rely i s t → K s → K t) (known : K s)
    (keep : ∀ op t, A op → K t → P.inv t → R.allow t op →
      P.inv (R.exec op t).2 ∧ (∀ j, j ≠ i → P.rely j t (R.exec op t).2) ∧ K (R.exec op t).2)
    (idle : ∀ t, K t → P.idle i t) : Safe R P i (fun _ => K) p s := by
  induction p generalizing s with
  | ret r => exact known
  | stmt op next ih =>
    intro t rely inv
    have known' := lasting s t rely known
    refine ⟨fun may => ?_, fun _ => ih _ (uses.2 _) known', fun _ => idle t known'⟩
    obtain ⟨inv', others, after⟩ := keep op t uses.1 known' inv may
    exact ⟨inv', others, ih _ (uses.2 _) after, fun _ => ih _ (uses.2 _) after⟩

/-- What a handler knows survives the others, as long as what it ends in does. -/
theorem stable {Q : Except I.Err α → σ → Prop} (lasting : ∀ r s t, P.rely i s t → Q r s → Q r t) {p : Program I α} {s t : σ}
    (h : Safe R P i Q p s) (rely : P.rely i s t) : Safe R P i Q p t := by
  cases p with
  | ret r => exact lasting r s t rely h
  | stmt op next => exact fun u rely' => h u (P.trans i s t u rely rely')

/-! ## Signed programs -/

section Signed

variable {κ : Type} {R : Roster (I.signed κ) ι σ} {k : κ}

/-- A sequence of signed programs. -/
theorem bind_signed {Q : Except I.Err β → σ → Prop} {p : Program I α} {f : α → Program I β} {s : σ}
    (h : Safe R P i (fun r s => match r with
      | .ok a => Safe R P i Q ((f a).signed k) s
      | .error e => Q (.error e) s) (p.signed k) s) : Safe R P i Q ((p >>= f).signed k) s := by
  rw [Program.bind_eq, Program.signed_bind]
  refine bind (h.mono fun r t known => ?_)
  cases r <;> exact known

/-- The error of a signed program, handed over as a value. -/
theorem attempt_signed {Q : Except I.Err (Except I.Err α) → σ → Prop} {p : Program I α} {s : σ}
    (h : Safe R P i (fun r => Q (.ok r)) (p.signed k) s) : Safe R P i Q (p.attempt.signed k) s := by
  rw [Program.signed_attempt]
  exact attempt h

end Signed

end Safe

/-! ## Runs -/

section Runs

variable {R : Roster I ι σ} {P : Protocol ι σ} {Q Q' : ι → Except I.Err Unit → σ → Prop}

/-- The invariant holds, every handler in flight is safe under its own name and the other names are idle. -/
structure Protocol.Holds (R : Roster I ι σ) (P : Protocol ι σ) (Q : ι → Except I.Err Unit → σ → Prop) (c : Crew I ι σ) :
    Prop where
  inv : P.inv c.state
  names : (c.threads.map Prod.fst).Nodup
  safe : ∀ thread ∈ c.threads, Safe R P thread.1 (Q thread.1) thread.2 c.state
  idle : ∀ i ∉ c.threads.map Prod.fst, P.idle i c.state

/-- What the handlers promise: it lasts while the others go on, and it leaves the name idle. -/
structure Protocol.Promise (P : Protocol ι σ) (Q : ι → Except I.Err Unit → σ → Prop) : Prop where
  lasting : ∀ i r s t, P.rely i s t → Q i r s → Q i r t
  leaves : ∀ i r s, Q i r s → P.idle i s

/-- To leave the name idle is the least a handler can promise. -/
theorem Protocol.promise_idle : P.Promise (I := I) fun i _ s => P.idle i s :=
  ⟨fun i _ s t rely idle => P.steady i s t rely idle, fun _ _ _ idle => idle⟩

/-- The handlers in flight may promise something else, if they promised enough. -/
theorem Protocol.Holds.mono {c : Crew I ι σ} (h : P.Holds R Q c)
    (weaken : ∀ i ∈ c.threads.map Prod.fst, ∀ r s, Q i r s → Q' i r s) : P.Holds R Q' c :=
  ⟨h.inv, h.names, fun thread mem => (h.safe thread mem).mono (weaken _ (List.mem_map_of_mem mem)), h.idle⟩

/-- A handler moves the store and goes on with `q`; the others are still safe. -/
theorem Protocol.Holds.move (promise : P.Promise Q) {s s' : σ} {pre post : List (ι × Program I Unit)} {i : ι}
    {p q : Program I Unit} (h : P.Holds R Q ⟨s, pre ++ (i, p) :: post⟩) (inv : P.inv s') (others : ∀ j, j ≠ i → P.rely j s s')
    (own : Safe R P i (Q i) q s') : P.Holds R Q ⟨s', pre ++ (i, q) :: post⟩ := by
  have names := h.names
  have idle := h.idle
  simp only [List.map_append, List.map_cons] at names idle
  have other : ∀ thread ∈ pre ++ post, thread.1 ≠ i := by
    intro thread mem same
    rw [List.nodup_middle] at names
    refine (List.nodup_cons.1 names).1 ?_
    rw [← List.map_append, ← same]
    exact List.mem_map_of_mem mem
  have kept : ∀ thread ∈ pre ++ post, Safe R P thread.1 (Q thread.1) thread.2 s' := by
    intro thread mem
    have was := h.safe thread (by simp only [List.mem_append, List.mem_cons] at mem ⊢; tauto)
    exact was.stable (promise.lasting thread.1) (others _ (other thread mem))
  refine ⟨inv, by simpa only [List.map_append, List.map_cons] using names, fun thread mem => ?_, fun j absent => ?_⟩
  · rcases List.mem_append.1 mem with mem | mem
    · exact kept thread (List.mem_append_left _ mem)
    · rcases List.mem_cons.1 mem with rfl | mem
      · exact own
      · exact kept thread (List.mem_append_right _ mem)
  · simp only [List.map_append, List.map_cons] at absent
    have apart : j ≠ i := by
      rintro rfl
      exact absent (by simp)
    exact P.steady j s s' (others j apart) (idle j absent)

theorem Protocol.Holds.step (promise : P.Promise Q) {a b : Crew I ι σ} (h : P.Holds R Q a)
    (start : ∀ i p, R.job i p → P.idle i a.state → Safe R P i (Q i) p a.state) (step : R.Step a b) : P.Holds R Q b := by
  cases step with
  | @spawn s ts i p may unused =>
    refine ⟨h.inv, List.nodup_cons.2 ⟨unused, h.names⟩, fun thread mem => ?_, fun j absent => ?_⟩
    · rcases List.mem_cons.1 mem with rfl | mem
      · exact start i p may (h.idle i unused)
      · exact h.safe thread mem
    · exact h.idle j fun mem => absent (List.mem_cons_of_mem _ mem)
  | @exec s pre post i op next may =>
    obtain ⟨inv, others, replied, -⟩ := (h.safe (i, .stmt op next) (by simp) s (P.refl i s) h.inv).1 may
    exact h.move promise inv others replied
  | @lost s pre post i op next may loses =>
    obtain ⟨inv, others, -, unreplied⟩ := (h.safe (i, .stmt op next) (by simp) s (P.refl i s) h.inv).1 may
    exact h.move promise inv others (unreplied loses)
  | @fault s pre post i op next faults =>
    have failed := (h.safe (i, .stmt op next) (by simp) s (P.refl i s) h.inv).2.1
    exact h.move promise h.inv (fun j _ => P.refl j s) (failed faults)
  | @drop s pre post i p leaves =>
    have names := h.names
    simp only [List.map_append, List.map_cons] at names
    rw [List.nodup_middle] at names
    refine ⟨h.inv, by simpa only [List.map_append] using (List.nodup_cons.1 names).2, fun thread mem => ?_, fun j absent => ?_⟩
    · rcases List.mem_append.1 mem with mem | mem
      · exact h.safe thread (List.mem_append_left _ mem)
      · exact h.safe thread (List.mem_append_right _ (List.mem_cons_of_mem _ mem))
    · by_cases own : j = i
      · subst own
        have safe := h.safe (j, p) (by simp)
        cases p with
        | ret r => exact promise.leaves j r s safe
        | stmt op next => exact (safe s (P.refl j s) h.inv).2.2 leaves
      · refine h.idle j fun mem => absent ?_
        simp only [List.map_append, List.map_cons, List.mem_append, List.mem_cons] at mem ⊢
        tauto

/-- The run lemma: handlers that are safe wherever they start keep the protocol in every interleaving. -/
theorem Protocol.Holds.run (promise : P.Promise Q) {a b : Crew I ι σ} (h : P.Holds R Q a)
    (start : ∀ c i p, R.Reach a c → R.job i p → P.inv c.state → P.idle i c.state → Safe R P i (Q i) p c.state)
    (reach : R.Reach a b) : P.Holds R Q b := by
  induction reach with
  | refl => exact h
  | @tail b c before step ih => exact ih.step promise (fun i p may idle => start b i p before may ih.inv idle) step

/-- The protocol holds in every run from a store without handlers. -/
theorem Protocol.holds (promise : P.Promise Q)
    (start : ∀ i p s, R.job i p → P.inv s → P.idle i s → Safe R P i (Q i) p s) {s : σ} {c : Crew I ι σ}
    (reach : R.Reach ⟨s, []⟩ c) (inv : P.inv s) (idle : ∀ i, P.idle i s) : P.Holds R Q c := by
  have first : P.Holds R Q ⟨s, []⟩ := ⟨inv, List.nodup_nil, fun thread mem => (nomatch mem), fun i _ => idle i⟩
  exact first.run promise (fun c i p _ may inv idle => start i p c.state may inv idle) reach

/-- The run lemma for the invariant alone. -/
theorem Protocol.invariant (start : ∀ i p s, R.job i p → P.inv s → P.idle i s → Safe R P i (fun _ => P.idle i) p s) {s : σ}
    {c : Crew I ι σ} (reach : R.Reach ⟨s, []⟩ c) (inv : P.inv s) (idle : ∀ i, P.idle i s) : P.inv c.state :=
  (Protocol.holds Protocol.promise_idle start reach inv idle).inv

/-- A step is within the rely of a name it is not taken under. -/
theorem Protocol.Holds.rely_step {a b : Crew I ι σ} (h : P.Holds R Q a) (step : R.Step a b) {i : ι}
    (absent : i ∉ a.threads.map Prod.fst) : P.rely i a.state b.state := by
  have away : ∀ {pre post : List (ι × Program I Unit)} {j : ι} {p : Program I Unit},
      i ∉ (pre ++ (j, p) :: post).map Prod.fst → i ≠ j := by
    intro pre post j p absent same
    exact absent (by simp [same])
  cases step with
  | @spawn s ts j p may unused => exact P.refl i s
  | @exec s pre post j op next may =>
    obtain ⟨-, others, -⟩ := (h.safe (j, .stmt op next) (by simp) s (P.refl j s) h.inv).1 may
    exact others i (away absent)
  | @lost s pre post j op next may loses =>
    obtain ⟨-, others, -⟩ := (h.safe (j, .stmt op next) (by simp) s (P.refl j s) h.inv).1 may
    exact others i (away absent)
  | @fault s pre post j op next faults => exact P.refl i s
  | @drop s pre post j p leaves => exact P.refl i s

/-- A name that no handler may start under stays unused. -/
theorem Roster.Step.absent {a b : Crew I ι σ} (step : R.Step a b) {i : ι} (outside : ∀ p, ¬ R.job i p)
    (absent : i ∉ a.threads.map Prod.fst) : i ∉ b.threads.map Prod.fst := by
  cases step with
  | @spawn s ts j p may unused =>
    simp only [List.map_cons, List.mem_cons, not_or]
    exact ⟨fun same => outside p (same ▸ may), absent⟩
  | @exec s pre post j op next may =>
    simp only [List.map_append, List.map_cons] at absent ⊢
    exact absent
  | @lost s pre post j op next may loses =>
    simp only [List.map_append, List.map_cons] at absent ⊢
    exact absent
  | @fault s pre post j op next faults =>
    simp only [List.map_append, List.map_cons] at absent ⊢
    exact absent
  | @drop s pre post j p leaves =>
    simp only [List.map_append, List.map_cons, List.mem_append, List.mem_cons, not_or] at absent ⊢
    exact ⟨absent.1, absent.2.2⟩

/-- Somebody who takes no part sees the store move along its rely, between any two crews of a run. -/
theorem Protocol.observed (promise : P.Promise Q)
    (start : ∀ i p s, R.job i p → P.inv s → P.idle i s → Safe R P i (Q i) p s) {s : σ} {a b : Crew I ι σ}
    (reach : R.Reach ⟨s, []⟩ a) (later : R.Reach a b) (inv : P.inv s) (idle : ∀ i, P.idle i s) {i : ι}
    (outside : ∀ p, ¬ R.job i p) : P.rely i a.state b.state := by
  have unnamed : ∀ {c : Crew I ι σ}, R.Reach ⟨s, []⟩ c → i ∉ c.threads.map Prod.fst := by
    intro c reach
    induction reach with
    | refl => exact List.not_mem_nil
    | tail _ step ih => exact step.absent outside ih
  induction later with
  | refl => exact P.refl i _
  | @tail b c first step ih =>
    have before := reach.trans first
    have holds : P.Holds R Q b := Protocol.holds promise start before inv idle
    exact P.trans i _ _ _ ih (holds.rely_step step (unnamed before))

/-- The statements an undisturbed execution of `p` issues can all proceed. -/
def Roster.Follows (R : Roster I ι σ) : Program I Unit → σ → Prop
  | .ret _, _ => True
  | .stmt op next, s => R.allow s op ∧ Follows R (next (R.exec op s).1) (R.exec op s).2

instance Roster.Follows.decidable [∀ s op, Decidable (R.allow s op)] :
    (p : Program I Unit) → (s : σ) → Decidable (R.Follows p s)
  | .ret _, _ => isTrue trivial
  | .stmt op next, s =>
    have := Roster.Follows.decidable (next (R.exec op s).1) (R.exec op s).2
    inferInstanceAs (Decidable (R.allow s op ∧ R.Follows (next (R.exec op s).1) (R.exec op s).2))

/-- A handler in flight runs to its end without interference. -/
theorem Roster.reach_end (pre post : List (ι × Program I Unit)) {i : ι} {p : Program I Unit} {s : σ} (follows : R.Follows p s) :
    R.Reach ⟨s, pre ++ (i, p) :: post⟩ ⟨(p.run R.exec s).2, pre ++ (i, .ret (p.run R.exec s).1) :: post⟩ := by
  induction p generalizing s with
  | ret r => exact .refl
  | stmt op next ih => exact .head (.exec follows.1) (ih _ follows.2)

/-- A handler may start and run to its end without interference. -/
theorem Roster.reach_job {i : ι} {p : Program I Unit} {s : σ} (may : R.job i p) (follows : R.Follows p s) :
    R.Reach ⟨s, []⟩ ⟨(p.run R.exec s).2, []⟩ := by
  have last : R.Step ⟨(p.run R.exec s).2, [] ++ (i, .ret (p.run R.exec s).1) :: []⟩ ⟨(p.run R.exec s).2, [] ++ []⟩ := .drop trivial
  exact .head (.spawn may List.not_mem_nil) ((R.reach_end [] [] follows).tail last)

/-- The first `n` statements of `p` can proceed. -/
def Roster.FollowsFor (R : Roster I ι σ) : Nat → Program I Unit → σ → Prop
  | 0, _, _ => True
  | _ + 1, .ret _, _ => True
  | n + 1, .stmt op next, s => R.allow s op ∧ FollowsFor R n (next (R.exec op s).1) (R.exec op s).2

instance Roster.FollowsFor.decidable [∀ s op, Decidable (R.allow s op)] :
    (n : Nat) → (p : Program I Unit) → (s : σ) → Decidable (R.FollowsFor n p s)
  | 0, _, _ => isTrue trivial
  | _ + 1, .ret _, _ => isTrue trivial
  | n + 1, .stmt op next, s =>
    have := Roster.FollowsFor.decidable n (next (R.exec op s).1) (R.exec op s).2
    inferInstanceAs (Decidable (R.allow s op ∧ R.FollowsFor n (next (R.exec op s).1) (R.exec op s).2))

/-- Where every statement can proceed, all of them can. -/
theorem Roster.followsFor_of_allows (allows : ∀ s op, R.allow s op) (n : Nat) (p : Program I Unit) (s : σ) : R.FollowsFor n p s := by
  induction n generalizing p s with
  | zero => trivial
  | succ n ih =>
    cases p with
    | ret r => trivial
    | stmt op next => exact ⟨allows s op, ih _ _⟩

/-- A handler in flight executes its next statements. -/
theorem Roster.reach_steps (n : Nat) (pre post : List (ι × Program I Unit)) {i : ι} {p : Program I Unit} {s : σ}
    (follows : R.FollowsFor n p s) :
    R.Reach ⟨s, pre ++ (i, p) :: post⟩ ⟨(p.steps R.exec n s).2, pre ++ (i, (p.steps R.exec n s).1) :: post⟩ := by
  induction n generalizing p s with
  | zero => exact .refl
  | succ n ih =>
    cases p with
    | ret r => exact .refl
    | stmt op next => exact .head (.exec follows.1) (ih follows.2)

/-- The next statement of `p` may fail. -/
def Roster.CanFail (R : Roster I ι σ) (s : σ) : Program I Unit → Prop
  | .ret _ => True
  | .stmt op _ => R.faults s op

instance Roster.CanFail.decidable [∀ s op, Decidable (R.faults s op)] (s : σ) : (p : Program I Unit) → Decidable (R.CanFail s p)
  | .ret _ => isTrue trivial
  | .stmt op _ => inferInstanceAs (Decidable (R.faults s op))

theorem Roster.canFail_of_faults (faults : ∀ s op, R.faults s op) (s : σ) (p : Program I Unit) : R.CanFail s p := by
  cases p with
  | ret r => trivial
  | stmt op next => exact faults s op

/-- The next statement of a handler in flight fails. -/
theorem Roster.reach_fail (pre post : List (ι × Program I Unit)) {i : ι} {p : Program I Unit} {s : σ} (can : R.CanFail s p) :
    R.Reach ⟨s, pre ++ (i, p) :: post⟩ ⟨s, pre ++ (i, p.failing) :: post⟩ := by
  cases p with
  | ret r => exact .refl
  | stmt op next => exact .single (.fault can)

end Runs

end NovoApex.Lib
