import NovoApex.Lib.Program

/-!
# Attempts at a program

A handler on its own, as the outside world lets it run: a statement is executed,
executed with its reply lost, or fails without effect, and the handler may stop before
any statement. `Tries` are such attempts; `counting` keeps count of the statements of some
kind, whether or not their replies arrived. `Always` walks through a program and asks that
wherever it stops the store satisfies `C`, and that it ends in `Q`.
-/

namespace NovoApex.Lib.Program
set_option autoImplicit false

variable {I : Interface} {σ α β : Type}

/-- An attempt at `p` from the first state, the result it ended in, if it did, and the state it leaves. -/
inductive Tries (exec : I.Exec σ) : Program I α → σ → Option (Except I.Err α) → σ → Prop where
  | ret (r s) : Tries exec (ret r) s (some r) s
  | crash (op next s) : Tries exec (stmt op next) s none s
  | exec {op next s r s'} (rest : Tries exec (next (exec op s).1) (exec op s).2 r s') : Tries exec (stmt op next) s r s'
  | lost {op next s r s'} (rest : Tries exec (next (.error I.fault)) (exec op s).2 r s') : Tries exec (stmt op next) s r s'
  | fault {op next s r s'} (rest : Tries exec (next (.error I.fault)) s r s') : Tries exec (stmt op next) s r s'

/-- Execution that counts the statements in `K` it has executed. -/
def counting (exec : I.Exec σ) (K : I.Op → Bool) : I.Exec (σ × Nat) := fun op s => ((exec op s.1).1, (exec op s.1).2, s.2 + (K op).toNat)

/-- Whatever fails on the way, `p` stops only in stores that satisfy `C` and ends in `Q`. -/
def Always (exec : I.Exec σ) (C : σ → Prop) (Q : Except I.Err α → σ → Prop) : Program I α → σ → Prop
  | ret r, s => Q r s
  | stmt op next, s => C s ∧ Always exec C Q (next (exec op s).1) (exec op s).2 ∧
    Always exec C Q (next (.error I.fault)) (exec op s).2 ∧ Always exec C Q (next (.error I.fault)) s

namespace Always

variable {exec : I.Exec σ} {C : σ → Prop}

theorem mono {Q Q' : Except I.Err α → σ → Prop} {p : Program I α} {s : σ} (h : p.Always exec C Q s)
    (weaken : ∀ r t, Q r t → Q' r t) : p.Always exec C Q' s := by
  induction p generalizing s with
  | ret r => exact weaken r s h
  | stmt op next ih =>
    obtain ⟨stops, executed, unreplied, failed⟩ := h
    exact ⟨stops, ih _ executed, ih _ unreplied, ih _ failed⟩

theorem stops {C' : σ → Prop} {Q : Except I.Err α → σ → Prop} {p : Program I α} {s : σ} (h : p.Always exec C Q s)
    (weaken : ∀ t, C t → C' t) : p.Always exec C' Q s := by
  induction p generalizing s with
  | ret r => exact h
  | stmt op next ih =>
    obtain ⟨stops, executed, unreplied, failed⟩ := h
    exact ⟨weaken s stops, ih _ executed, ih _ unreplied, ih _ failed⟩

theorem bind {Q : Except I.Err β → σ → Prop} {p : Program I α} {f : α → Program I β} {s : σ}
    (h : p.Always exec C (fun r t => match r with
      | .ok a => (f a).Always exec C Q t
      | .error e => Q (.error e) t) s) : (p.bind f).Always exec C Q s := by
  induction p generalizing s with
  | ret r => cases r <;> exact h
  | stmt op next ih =>
    obtain ⟨stops, executed, unreplied, failed⟩ := h
    exact ⟨stops, ih _ executed, ih _ unreplied, ih _ failed⟩

theorem attempt {Q : Except I.Err (Except I.Err α) → σ → Prop} {p : Program I α} {s : σ}
    (h : p.Always exec C (fun r => Q (.ok r)) s) : p.attempt.Always exec C Q s := by
  induction p generalizing s with
  | ret r => exact h
  | stmt op next ih =>
    obtain ⟨stops, executed, unreplied, failed⟩ := h
    exact ⟨stops, ih _ executed, ih _ unreplied, ih _ failed⟩

theorem call {op : I.Op} {Q : Except I.Err (I.Reply op) → σ → Prop} {s : σ} (stops : C s) (executed : Q (exec op s).1 (exec op s).2)
    (unreplied : Q (.error I.fault) (exec op s).2) (failed : Q (.error I.fault) s) : (call op).Always exec C Q s :=
  ⟨stops, executed, unreplied, failed⟩

/-- Every attempt is as the walk says. -/
theorem tries {Q : Except I.Err α → σ → Prop} {p : Program I α} {s t : σ} {r : Option (Except I.Err α)} (h : p.Always exec C Q s)
    (attempt : p.Tries exec s r t) : r.elim (C t) fun result => Q result t := by
  induction attempt with
  | ret r s => exact h
  | crash op next s => exact h.1
  | exec _ ih => exact ih h.2.1
  | lost _ ih => exact ih h.2.2.1
  | fault _ ih => exact ih h.2.2.2

end Always

/-- An execution without interference is an attempt. -/
theorem Tries.run (exec : I.Exec σ) (p : Program I α) (s : σ) : p.Tries exec s (some (p.run exec s).1) (p.run exec s).2 := by
  induction p generalizing s with
  | ret r => exact .ret r s
  | stmt op next ih => exact .exec (ih _ _)

end NovoApex.Lib.Program
