import NovoApex.Lib.Program

/-!
# Pre- and postconditions with crashes

`Guarded exec F C Q p s`: whatever happens to an attempt at `p` from `s`, every
state it passes before a statement satisfies the crash condition `C`, and an
execution that ends leaves result and state in `Q`. Statements may fail when `F`
holds; with `F` false this is the undisturbed run.
-/

namespace NovoApex.Lib.Program
set_option autoImplicit false

variable {I : Interface} {σ α β : Type} {exec : I.Exec σ} {F : Prop} {C : σ → Prop}

/-- The crash condition before every statement, the postcondition at every end. -/
def Guarded (exec : I.Exec σ) (F : Prop) (C : σ → Prop) (Q : Except I.Err α → σ → Prop) : Program I α → σ → Prop
  | ret r, s => Q r s
  | stmt op next, s => C s ∧ Guarded exec F C Q (next (exec op s).1) (exec op s).2 ∧
    (F → Guarded exec F C Q (next (.error I.fault)) s)

/-! ## Rules -/

theorem Guarded.mono {C' : σ → Prop} {Q Q' : Except I.Err α → σ → Prop} {p : Program I α} {s : σ}
    (h : Guarded exec F C Q p s) (crash : ∀ s, C s → C' s) (post : ∀ r s, Q r s → Q' r s) : Guarded exec F C' Q' p s := by
  induction p generalizing s with
  | ret r => exact post r s h
  | stmt op next ih => exact ⟨crash s h.1, ih _ h.2.1, fun f => ih _ (h.2.2 f)⟩

theorem Guarded.bind {Q : Except I.Err β → σ → Prop} {p : Program I α} {f : α → Program I β} {s : σ}
    (h : Guarded exec F C (fun r s => match r with
      | .ok a => Guarded exec F C Q (f a) s
      | .error e => Q (.error e) s) p s) : Guarded exec F C Q (p.bind f) s := by
  induction p generalizing s with
  | ret r =>
    cases r with
    | ok a => exact h
    | error e => exact h
  | stmt op next ih => exact ⟨h.1, ih _ h.2.1, fun f => ih _ (h.2.2 f)⟩

/-- A statement that answers without writing. -/
theorem guarded_query {op : I.Op} {Q : Except I.Err β → σ → Prop} {f : I.Reply op → Program I β} {s : σ}
    {answer : I.Reply op} (answers : exec op s = (.ok answer, s)) (before : C s) (faulty : F → Q (.error I.fault) s)
    (rest : Guarded exec F C Q (f answer) s) : Guarded exec F C Q ((call op).bind f) s := by
  refine ⟨before, ?_, faulty⟩
  rw [answers]
  exact rest

/-- Reading first changes nothing: only its errors have to be allowed for. -/
theorem Guarded.read {Q : Except I.Err β → σ → Prop} {p : Program I α} {f : α → Program I β} {s : σ}
    (reads : p.Uses fun op => ∀ s, (exec op s).2 = s) (before : C s) (failed : ∀ e, Q (.error e) s)
    (rest : ∀ a, Guarded exec F C Q (f a) s) : Guarded exec F C Q (p.bind f) s := by
  induction p with
  | ret r =>
    cases r with
    | ok a => exact rest a
    | error e => exact failed e
  | stmt op next ih =>
    refine ⟨before, ?_, fun _ => ih _ (reads.2 _)⟩
    rw [reads.1 s]
    exact ih _ (reads.2 _)

/-- A property the statements of a program keep is a crash condition and a postcondition of it. -/
theorem Guarded.of_uses {A : I.Op → Prop} {p : Program I α} {s : σ} (keep : ∀ op s, A op → C s → C (exec op s).2)
    (uses : p.Uses A) (start : C s) : Guarded exec F C (fun _ => C) p s := by
  induction p generalizing s with
  | ret r => exact start
  | stmt op next ih => exact ⟨start, ih _ (uses.2 _) (keep op s uses.1 start), fun _ => ih _ (uses.2 _) start⟩

/-! ## What the judgement says -/

theorem Guarded.ends {Q : Except I.Err α → σ → Prop} {p : Program I α} {s s' : σ} {r : Except I.Err α} (f : F)
    (h : Guarded exec F C Q p s) (ends : p.Ends exec s r s') : Q r s' := by
  induction ends with
  | ret r s => exact h
  | exec rest ih => exact ih h.2.1
  | fault rest ih => exact ih (h.2.2 f)

theorem Guarded.halts {Q : Except I.Err α → σ → Prop} {p : Program I α} {s s' : σ} (f : F)
    (h : Guarded exec F C Q p s) (failed : ∀ e s, Q (.error e) s → C s) (halts : p.Halts exec s s') : C s' := by
  induction halts with
  | crash op next s => exact h.1
  | error e s => exact failed e s h
  | exec rest ih => exact ih h.2.1
  | fault rest ih => exact ih (h.2.2 f)

theorem Guarded.run {Q : Except I.Err α → σ → Prop} {p : Program I α} {s : σ} (h : Guarded exec F C Q p s) :
    Q (p.run exec s).1 (p.run exec s).2 := by
  induction p generalizing s with
  | ret r => exact h
  | stmt op next ih => exact ih _ h.2.1

/-- An undisturbed run is an execution. -/
theorem ends_run (exec : I.Exec σ) (p : Program I α) (s : σ) : p.Ends exec s (p.run exec s).1 (p.run exec s).2 := by
  induction p generalizing s with
  | ret r => exact .ret r s
  | stmt op next ih => exact .exec (ih _ _)

/-! ## Leading reads -/

/-- From `s`, `p` reads its way to `q`: its statements answer without writing, and one that fails ends it. -/
inductive Reads (exec : I.Exec σ) (s : σ) : Program I α → Program I α → Prop where
  | refl (p : Program I α) : Reads exec s p p
  | query {op : I.Op} {next : Except I.Err (I.Reply op) → Program I α} {q : Program I α} (keeps : (exec op s).2 = s)
      (raises : next (.error I.fault) = ret (.error I.fault)) (rest : Reads exec s (next (exec op s).1) q) :
      Reads exec s (stmt op next) q

theorem reads_call {op : I.Op} {f : I.Reply op → Program I β} {q : Program I β} {s : σ} {answer : I.Reply op}
    (answers : exec op s = (.ok answer, s)) (rest : Reads exec s (f answer) q) : Reads exec s ((call op).bind f) q := by
  refine .query (by rw [answers]) rfl ?_
  rw [answers]
  exact rest

theorem Reads.guarded {Q : Except I.Err α → σ → Prop} {p q : Program I α} {s : σ} (reads : Reads exec s p q) (before : C s)
    (faulty : F → Q (.error I.fault) s) (h : Guarded exec F C Q q s) : Guarded exec F C Q p s := by
  induction reads with
  | refl p => exact h
  | query keeps raises rest ih =>
    refine ⟨before, ?_, fun f => ?_⟩
    · rw [keeps]
      exact ih h
    · rw [raises]
      exact faulty f

theorem Reads.run {p q : Program I α} {s : σ} (reads : Reads exec s p q) : p.run exec s = q.run exec s := by
  induction reads with
  | refl p => rfl
  | query keeps raises rest ih =>
    rw [Program.run, keeps]
    exact ih

/-- Where `q` can stop, `p` can. -/
theorem Reads.halts {p q : Program I α} {s s' : σ} (reads : Reads exec s p q) (h : q.Halts exec s s') : p.Halts exec s s' := by
  induction reads with
  | refl p => exact h
  | query keeps raises rest ih =>
    refine .exec ?_
    rw [keeps]
    exact ih h

end NovoApex.Lib.Program
