import NovoApex.Lib.Pool

/-!
# Handlers that know what they were answered

`Keeps` (`Lib/Pool`) bounds the statements of a handler whatever it is answered. Where a
handler first asks whether it may write, the bound has to say that the answer came from a
good store: `Finds`. If the statements it may then issue keep the stores good, every
interleaving does.
-/

namespace NovoApex.Lib
set_option autoImplicit false

namespace Program

variable {I J : Interface} {σ τ α : Type} {exec : I.Exec σ} {good : σ → Prop} {A : I.Op → Prop}

theorem Finds.able {B : I.Op → Prop} {Q : Except I.Err α → Prop} {p : Program I α} (h : p.Finds exec good A Q)
    (weaker : ∀ op, A op → B op) : p.Finds exec good B Q := by
  induction p with
  | ret r => exact h
  | stmt op next ih => exact ⟨weaker op h.1, fun s finds => ih _ (h.2.1 s finds), ih _ h.2.2⟩

/-- `p` may end so while others write: each of its statements finds some good store, or fails. -/
inductive MayEnd (exec : I.Exec σ) (good : σ → Prop) : Program I α → Except I.Err α → Prop where
  | ret {r} : MayEnd exec good (ret r) r
  | answered {op next r s} (finds : good s) (rest : MayEnd exec good (next (exec op s).1) r) : MayEnd exec good (stmt op next) r
  | failed {op next r} (rest : MayEnd exec good (next (.error I.fault)) r) : MayEnd exec good (stmt op next) r

theorem Finds.ends {Q : Except I.Err α → Prop} {p : Program I α} {r : Except I.Err α} (h : p.Finds exec good A Q)
    (ends : p.MayEnd exec good r) : Q r := by
  induction ends with
  | ret => exact h
  | answered finds _ ih => exact ih (h.2.1 _ finds)
  | failed _ ih => exact ih h.2.2

/-- Undisturbed, where nothing is written. -/
theorem MayEnd.of_run {s : σ} (finds : good s) (reads : ∀ op, (exec op s).2 = s) (p : Program I α) : p.MayEnd exec good (p.run exec s).1 := by
  induction p with
  | ret r => exact .ret
  | stmt op next ih =>
    have rest := ih (exec op s).1
    refine .answered finds ?_
    show MayEnd exec good _ ((next (exec op s).1).run exec (exec op s).2).1
    rw [reads]
    exact rest

/-- Fewer good stores are easier to be answered by. -/
theorem Finds.answered {good' : σ → Prop} {Q : Except I.Err α → Prop} {p : Program I α} (h : p.Finds exec good A Q)
    (better : ∀ s, good' s → good s) : p.Finds exec good' A Q := by
  induction p with
  | ret r => exact h
  | stmt op next ih => exact ⟨h.1, fun s finds => ih _ (h.2.1 s (better s finds)), ih _ h.2.2⟩

/-- An error is handed on as a value. -/
theorem Finds.attempt {Q : Except I.Err α → Prop} {p : Program I α} (h : p.Finds exec good A Q) :
    p.attempt.Finds exec good A fun r => ∃ r', r = .ok r' ∧ Q r' := by
  induction p with
  | ret r => exact ⟨r, rfl, h⟩
  | stmt op next ih => exact ⟨h.1, fun s finds => ih _ (h.2.1 s finds), ih _ h.2.2⟩

/-- What follows an attempt, by its result. -/
theorem Finds.attempt_bind {β : Type} {Q : Except I.Err α → Prop} {Q' : Except I.Err β → Prop} {p : Program I α}
    {f : Except I.Err α → Program I β} (h : p.Finds exec good A Q) (rest : ∀ r, Q r → (f r).Finds exec good A Q') :
    (p.attempt.bind f).Finds exec good A Q' := by
  refine Finds.bind (h.attempt.mono fun r known => ?_)
  obtain ⟨r', rfl, known⟩ := known
  exact rest r' known

/-- What follows one statement, by its answer. -/
theorem Finds.call_bind {β : Type} {op : I.Op} {Q : Except I.Err β → Prop} {f : I.Reply op → Program I β} (may : A op)
    (failed : Q (.error I.fault)) (refused : ∀ s e, good s → (exec op s).1 = .error e → Q (.error e))
    (rest : ∀ s a, good s → (exec op s).1 = .ok a → (f a).Finds exec good A Q) : ((call op).bind f).Finds exec good A Q := by
  refine ⟨may, fun s finds => ?_, failed⟩
  cases answer : (exec op s).1 with
  | ok a => exact rest s a finds answer
  | error e => exact refused s e finds answer

/-- Where any result will do. -/
theorem Finds.call_bind_any {β : Type} {op : I.Op} {f : I.Reply op → Program I β} (may : A op)
    (rest : ∀ s a, good s → (exec op s).1 = .ok a → (f a).Finds exec good A fun _ => True) :
    ((call op).bind f).Finds exec good A fun _ => True :=
  Finds.call_bind may trivial (fun _ _ _ _ => trivial) rest

/-- Any result will do, and what follows knows nothing of it. -/
theorem Finds.bind_any {β : Type} {p : Program I α} {f : α → Program I β} (first : p.Finds exec good A fun _ => True)
    (rest : ∀ a, (f a).Finds exec good A fun _ => True) : (p.bind f).Finds exec good A fun _ => True := by
  refine Finds.bind (first.mono fun r _ => ?_)
  cases r with
  | ok a => exact rest a
  | error e => trivial

/-- A program of a smaller store, as the larger one answers it. -/
theorem Finds.embed {f : I.Embedding J} {execJ : J.Exec τ} (view : τ → σ) {goodJ : τ → Prop} {B : J.Op → Prop}
    (reply : ∀ op t, f.reply op (execJ (f.op op) t).1 = (exec op (view t)).1) (fault : ∀ op, f.reply op (.error J.fault) = .error I.fault)
    (seen : ∀ t, goodJ t → good (view t)) (able : ∀ op, A op → B (f.op op)) {Q : Except I.Err α → Prop} {p : Program I α}
    (h : p.Finds exec good A Q) : (p.embed f).Finds execJ goodJ B fun r => ∃ r', r = r'.mapError f.err ∧ Q r' := by
  induction p with
  | ret r => exact ⟨r, rfl, h⟩
  | stmt op next ih =>
    refine ⟨able op h.1, fun t finds => ?_, ?_⟩
    · show ((next (f.reply op (execJ (f.op op) t).1)).embed f).Finds _ _ _ _
      rw [reply]
      exact ih _ (h.2.1 _ (seen t finds))
    · show ((next (f.reply op (.error J.fault))).embed f).Finds _ _ _ _
      rw [fault]
      exact ih _ h.2.2

/-- A program, issued by `i`. -/
theorem Finds.signed {ι : Type} {i : ι} {exec : (I.signed ι).Exec σ} {A : ι × I.Op → Prop} {Q : Except I.Err α → Prop} {p : Program I α}
    (h : p.Finds (fun op s => exec (i, op) s) good (fun op => A (i, op)) Q) : (p.signed i).Finds exec good A Q := by
  induction p with
  | ret r => exact h
  | stmt op next ih => exact ⟨h.1, fun s finds => ih _ (h.2.1 s finds), ih _ h.2.2⟩

end Program

namespace System

variable {I : Interface} {σ : Type} {S : System I σ} {good : σ → Prop} {able : I.Op → Prop}

/-- What the rule asks: handlers that are answered by good stores issue able statements, and these keep the stores good. -/
structure Answered (S : System I σ) (good : σ → Prop) (able : I.Op → Prop) : Prop where
  start : ∀ s p, good s → S.job s p → p.Finds S.exec good able fun _ => True
  keep : ∀ s op, able op → S.allow s op → good s → good (S.exec op s).2

/-- The handlers in flight. -/
def InFlight (S : System I σ) (good : σ → Prop) (able : I.Op → Prop) (pool : Pool I σ) : Prop :=
  ∀ p ∈ pool.threads, p.Finds S.exec good able fun _ => True

theorem Answered.step (K : Answered S good able) {a b : Pool I σ} (h : S.Step a b) (inv : good a.state)
    (flight : S.InFlight good able a) : good b.state ∧ S.InFlight good able b := by
  cases h with
  | @spawn s ts p may =>
    refine ⟨inv, fun q hq => ?_⟩
    rcases List.mem_cons.1 hq with rfl | hq
    · exact K.start _ _ inv may
    · exact flight q hq
  | @exec s pre post op next may =>
    have here : (Program.stmt op next).Finds S.exec good able fun _ => True := flight (.stmt op next) (by simp)
    refine ⟨K.keep s op here.1 may inv, fun q hq => ?_⟩
    rcases List.mem_append.1 hq with hq | hq
    · exact flight q (List.mem_append_left _ hq)
    · rcases List.mem_cons.1 hq with rfl | hq
      · exact here.2.1 s inv
      · exact flight q (by simp [hq])
  | @fault s pre post op next =>
    have here : (Program.stmt op next).Finds S.exec good able fun _ => True := flight (.stmt op next) (by simp)
    refine ⟨inv, fun q hq => ?_⟩
    rcases List.mem_append.1 hq with hq | hq
    · exact flight q (List.mem_append_left _ hq)
    · rcases List.mem_cons.1 hq with rfl | hq
      · exact here.2.2
      · exact flight q (by simp [hq])
  | @drop s pre post p =>
    refine ⟨inv, fun q hq => ?_⟩
    rcases List.mem_append.1 hq with hq | hq
    · exact flight q (List.mem_append_left _ hq)
    · exact flight q (by simp [hq])

/-- The run lemma. -/
theorem Answered.reach (K : Answered S good able) {a b : Pool I σ} (h : S.Reach a b) (inv : good a.state)
    (flight : S.InFlight good able a) : good b.state ∧ S.InFlight good able b := by
  induction h with
  | refl => exact ⟨inv, flight⟩
  | tail _ step ih => exact K.step step ih.1 ih.2

/-- Every store reached from a good one without handlers is good. -/
theorem Answered.invariant (K : Answered S good able) {s : σ} {b : Pool I σ} (h : S.Reach ⟨s, []⟩ b) (inv : good s) : good b.state :=
  (K.reach h inv fun p hp => by cases hp).1

/-- Where everything is allowed, every handler follows. -/
theorem Follows.of_forall (every : ∀ s op, S.allow s op) (p : Program I Unit) (s : σ) : S.Follows p s := by
  induction p generalizing s with
  | ret r => trivial
  | stmt op next ih => exact ⟨every s op, ih _ _⟩

end System

end NovoApex.Lib
