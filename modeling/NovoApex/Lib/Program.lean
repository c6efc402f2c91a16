/-!
# Programs of atomic statements

A `Program` is a handler as the store sees it: a tree of statements, each of
which is executed atomically and answers with a reply or an error, and a final
result. Between two statements anything may happen. `run` is the execution
without interference and without faults; `Ends` lets statements fail on the way,
`Halts` describes the attempts that do not succeed (crashes and errors at any
point), and `Uses` bounds the statements a program can issue, which is all an
invariant over interleavings needs to know.
-/

namespace NovoApex.Lib
set_option autoImplicit false

/-- The statements of a store, what each answers, the errors they raise and the one a statement raises
that fails for reasons of its own. -/
structure Interface where
  Op : Type
  Reply : Op → Type
  Err : Type
  fault : Err

/-- The same statements, each with the name of who issues it. -/
@[reducible] def Interface.signed (I : Interface) (ι : Type) : Interface :=
  ⟨ι × I.Op, fun op => I.Reply op.2, I.Err, I.fault⟩

/-- A store within another: its statements as statements of the larger one, what it makes of their replies, and its errors as
the larger one's. -/
structure Interface.Embedding (I J : Interface) where
  op : I.Op → J.Op
  reply : (o : I.Op) → Except J.Err (J.Reply (op o)) → Except I.Err (I.Reply o)
  err : I.Err → J.Err

/-- How a store executes its statements. -/
abbrev Interface.Exec (I : Interface) (σ : Type) : Type := (op : I.Op) → σ → Except I.Err (I.Reply op) × σ

/-- A handler as the tree of the statements it issues. -/
inductive Program (I : Interface) (α : Type) where
  | ret (result : Except I.Err α)
  | stmt (op : I.Op) (next : Except I.Err (I.Reply op) → Program I α)

namespace Program

variable {I : Interface} {σ α β : Type}

/-- Sequencing: an error result skips the rest. -/
def bind (p : Program I α) (f : α → Program I β) : Program I β :=
  match p with
  | ret (.ok a) => f a
  | ret (.error e) => ret (.error e)
  | stmt op next => stmt op fun r => (next r).bind f

instance : Monad (Program I) where
  pure a := ret (.ok a)
  bind := bind

/-- Issue one statement; its error is the program's. -/
def call (op : I.Op) : Program I (I.Reply op) := stmt op ret

/-- Stop with an error. -/
def raise (e : I.Err) : Program I α := ret (.error e)

/-- Run `p` and hand its error to the caller as a value. -/
def attempt (p : Program I α) : Program I (Except I.Err α) :=
  match p with
  | ret r => ret (.ok r)
  | stmt op next => stmt op fun r => (next r).attempt

/-- Run `p` and pass its error through `f`. -/
def mapErr (f : I.Err → I.Err) (p : Program I α) : Program I α :=
  match p with
  | ret r => ret (r.mapError f)
  | stmt op next => stmt op fun r => (next r).mapErr f

/-- Run `p` for its statements only. -/
def ignore (p : Program I α) : Program I Unit := p >>= fun _ => pure ()

/-- Execution without interference. -/
def run (exec : I.Exec σ) (p : Program I α) (s : σ) : Except I.Err α × σ :=
  match p with
  | ret r => (r, s)
  | stmt op next => (next (exec op s).1).run exec (exec op s).2

/-- The first `n` statements of an execution without interference: what is left to do and the state. -/
def steps (exec : I.Exec σ) : Nat → Program I α → σ → Program I α × σ
  | 0, p, s => (p, s)
  | _ + 1, ret r, s => (ret r, s)
  | n + 1, stmt op next, s => steps exec n (next (exec op s).1) (exec op s).2

/-- What is left to do when the next statement fails. -/
def failing : Program I α → Program I α
  | ret r => ret r
  | stmt _ next => next (.error I.fault)

/-- No statement is left. -/
def ended : Program I α → Bool
  | ret _ => true
  | stmt .. => false

theorem ended_iff {p : Program I α} : p.ended = true ↔ ∃ r, p = ret r := by
  cases p with
  | ret r => simp [ended]
  | stmt op next => simp [ended]

/-- An attempt at `p` from the first state that does not succeed and leaves the
second: it stops before some statement, or it ends in an error. A statement may
fail without effect at any time. -/
inductive Halts (exec : I.Exec σ) : Program I α → σ → σ → Prop where
  | crash (op next s) : Halts exec (stmt op next) s s
  | error (e s) : Halts exec (ret (.error e)) s s
  | exec {op next s s'} (rest : Halts exec (next (exec op s).1) (exec op s).2 s') : Halts exec (stmt op next) s s'
  | fault {op next s s'} (rest : Halts exec (next (.error I.fault)) s s') : Halts exec (stmt op next) s s'

/-- An execution of `p` from the first state to its end, with its result and the state it leaves. -/
inductive Ends (exec : I.Exec σ) : Program I α → σ → Except I.Err α → σ → Prop where
  | ret (r s) : Ends exec (ret r) s r s
  | exec {op next s r s'} (rest : Ends exec (next (exec op s).1) (exec op s).2 r s') : Ends exec (stmt op next) s r s'
  | fault {op next s r s'} (rest : Ends exec (next (.error I.fault)) s r s') : Ends exec (stmt op next) s r s'

/-- Every statement `p` can issue, whatever the replies, satisfies `A`. -/
def Uses (A : I.Op → Prop) : Program I α → Prop
  | ret _ => True
  | stmt op next => A op ∧ ∀ r, (next r).Uses A

@[simp] theorem pure_eq (a : α) : (pure a : Program I α) = ret (.ok a) := rfl

@[simp] theorem bind_eq (p : Program I α) (f : α → Program I β) : (p >>= f) = p.bind f := rfl

theorem bind_assoc {γ : Type} (p : Program I α) (f : α → Program I β) (g : β → Program I γ) :
    (p.bind f).bind g = p.bind fun a => (f a).bind g := by
  induction p with
  | ret r => cases r <;> rfl
  | stmt op next ih => exact congrArg (stmt op) (funext ih)

@[simp] theorem run_ret (exec : I.Exec σ) (r : Except I.Err α) (s : σ) : (ret r).run exec s = (r, s) := rfl

@[simp] theorem run_call (exec : I.Exec σ) (op : I.Op) (s : σ) : (call op).run exec s = exec op s := rfl

/-- What `bind` does with the first program's outcome. -/
def andThen (exec : I.Exec σ) (f : α → Program I β) : Except I.Err α × σ → Except I.Err β × σ
  | (.ok a, s) => (f a).run exec s
  | (.error e, s) => (.error e, s)

@[simp] theorem andThen_ok (exec : I.Exec σ) (f : α → Program I β) (a : α) (s : σ) :
    andThen exec f (.ok a, s) = (f a).run exec s := rfl

theorem run_bind (exec : I.Exec σ) (p : Program I α) (f : α → Program I β) (s : σ) :
    (p.bind f).run exec s = andThen exec f (p.run exec s) := by
  induction p generalizing s with
  | ret r => cases r <;> rfl
  | stmt op next ih => exact ih _ _

/-- A sequence that succeeds: both parts do. -/
theorem run_bind_ok {exec : I.Exec σ} {p : Program I α} {f : α → Program I β} {s t : σ} {b : β}
    (h : (p.bind f).run exec s = (.ok b, t)) : ∃ a u, p.run exec s = (.ok a, u) ∧ (f a).run exec u = (.ok b, t) := by
  rw [run_bind] at h
  rcases first : p.run exec s with ⟨r, u⟩
  rw [first] at h
  cases r with
  | ok a => exact ⟨a, u, rfl, h⟩
  | error e => cases h

theorem run_call_bind (exec : I.Exec σ) (op : I.Op) (f : I.Reply op → Program I β) (s : σ) :
    ((call op).bind f).run exec s = andThen exec f (exec op s) := run_bind exec (call op) f s

theorem run_attempt (exec : I.Exec σ) (p : Program I α) (s : σ) :
    p.attempt.run exec s = (.ok (p.run exec s).1, (p.run exec s).2) := by
  induction p generalizing s with
  | ret r => rfl
  | stmt op next ih => exact ih _ _

/-- A program that got through its first part can stop wherever the rest can. -/
theorem Halts.after {exec : I.Exec σ} {p : Program I α} {f : α → Program I β} {s t u : σ} {a : α}
    (first : p.run exec s = (.ok a, t)) (rest : (f a).Halts exec t u) : (p.bind f).Halts exec s u := by
  induction p generalizing s with
  | ret r =>
    cases first
    exact rest
  | stmt op next ih => exact .exec (ih _ first)

/-! ## Signed statements -/

section Signed

variable {ι : Type}

/-- `p`, issued by `i`. -/
def signed (i : ι) : Program I α → Program (I.signed ι) α
  | ret r => ret r
  | stmt op next => stmt (i, op) fun r => (next r).signed i

theorem signed_bind (i : ι) (p : Program I α) (f : α → Program I β) :
    (p.bind f).signed i = (p.signed i).bind fun a => (f a).signed i := by
  induction p with
  | ret r => cases r <;> rfl
  | stmt op next ih => exact congrArg (stmt (I := I.signed ι) (i, op)) (funext ih)

theorem signed_attempt (i : ι) (p : Program I α) : p.attempt.signed i = (p.signed i).attempt := by
  induction p with
  | ret r => rfl
  | stmt op next ih => exact congrArg (stmt (I := I.signed ι) (i, op)) (funext ih)

theorem signed_mapErr (i : ι) (f : I.Err → I.Err) (p : Program I α) : (p.mapErr f).signed i = mapErr (I := I.signed ι) f (p.signed i) := by
  induction p with
  | ret r => rfl
  | stmt op next ih => exact congrArg (stmt (I := I.signed ι) (i, op)) (funext ih)

end Signed

/-! ## Programs of a smaller store -/

/-- `p`, over a store that its own is part of. -/
def embed {J : Interface} (f : I.Embedding J) : Program I α → Program J α
  | ret r => ret (r.mapError f.err)
  | stmt op next => stmt (f.op op) fun r => (next (f.reply op r)).embed f

section Uses

variable {A B : I.Op → Prop}

@[simp] theorem uses_ret (r : Except I.Err α) : (ret r : Program I α).Uses A := trivial

@[simp] theorem uses_raise (e : I.Err) : (raise e : Program I α).Uses A := trivial

@[simp] theorem uses_call {op : I.Op} : (call op).Uses A ↔ A op := ⟨fun h => h.1, fun h => ⟨h, fun _ => trivial⟩⟩

theorem Uses.bind {p : Program I α} {f : α → Program I β} (hp : p.Uses A) (hf : ∀ a, (f a).Uses A) :
    (p.bind f).Uses A := by
  induction p with
  | ret r =>
    cases r with
    | ok a => exact hf a
    | error e => trivial
  | stmt op next ih => exact ⟨hp.1, fun r => ih r (hp.2 r)⟩

theorem Uses.attempt {p : Program I α} (hp : p.Uses A) : p.attempt.Uses A := by
  induction p with
  | ret r => trivial
  | stmt op next ih => exact ⟨hp.1, fun r => ih r (hp.2 r)⟩

theorem Uses.mapErr {p : Program I α} {f : I.Err → I.Err} (hp : p.Uses A) : (p.mapErr f).Uses A := by
  induction p with
  | ret r => trivial
  | stmt op next ih => exact ⟨hp.1, fun r => ih r (hp.2 r)⟩

theorem Uses.embed {J : Interface} {f : I.Embedding J} {A : J.Op → Prop} {p : Program I α} (hp : p.Uses fun op => A (f.op op)) :
    (p.embed f).Uses A := by
  induction p with
  | ret r => trivial
  | stmt op next ih => exact ⟨hp.1, fun r => ih _ (hp.2 _)⟩

theorem Uses.signed {ι : Type} {A : ι × I.Op → Prop} {i : ι} {p : Program I α} (hp : p.Uses fun op => A (i, op)) :
    (p.signed i).Uses A := by
  induction p with
  | ret r => trivial
  | stmt op next ih => exact ⟨hp.1, fun r => ih _ (hp.2 _)⟩

theorem Uses.ignore {p : Program I α} (hp : p.Uses A) : p.ignore.Uses A :=
  hp.bind fun _ => trivial

/-- What every statement of `p` keeps, its execution keeps. -/
theorem Uses.run_keeps {p : Program I α} (hp : p.Uses A) {exec : I.Exec σ} {P : σ → Prop}
    (step : ∀ op s, A op → P s → P (exec op s).2) {s : σ} (start : P s) : P (p.run exec s).2 := by
  induction p generalizing s with
  | ret r => exact start
  | stmt op next ih => exact ih _ (hp.2 _) (step op s hp.1 start)

/-- Two stores that answer the statements of `p` alike run it alike. -/
theorem Uses.run_related {p : Program I α} (hp : p.Uses A) {exec : I.Exec σ} {R : σ → σ → Prop}
    (step : ∀ op s t, A op → R s t → (exec op s).1 = (exec op t).1 ∧ R (exec op s).2 (exec op t).2) {s t : σ}
    (start : R s t) : (p.run exec s).1 = (p.run exec t).1 ∧ R (p.run exec s).2 (p.run exec t).2 := by
  induction p generalizing s t with
  | ret r => exact ⟨rfl, start⟩
  | stmt op next ih =>
    obtain ⟨same, after⟩ := step op s t hp.1 start
    show ((next (exec op s).1).run exec _).1 = ((next (exec op t).1).run exec _).1 ∧
      R ((next (exec op s).1).run exec _).2 ((next (exec op t).1).run exec _).2
    rw [same]
    exact ih _ (hp.2 _) after

theorem Uses.of_forall (h : ∀ op, A op) (p : Program I α) : p.Uses A := by
  induction p with
  | ret r => trivial
  | stmt op next ih => exact ⟨h op, ih⟩

theorem Uses.mono {p : Program I α} (hp : p.Uses A) (h : ∀ op, A op → B op) : p.Uses B := by
  induction p with
  | ret r => trivial
  | stmt op next ih => exact ⟨h op hp.1, fun r => ih r (hp.2 r)⟩

end Uses

/-! ## Statements answered by good stores -/

section Finds

variable {exec : I.Exec σ} {good : σ → Prop} {A : I.Op → Prop}

/-- `p` may issue the statement while others write: each statement before it finds some good store, or fails. -/
inductive Issued (exec : I.Exec σ) (good : σ → Prop) : Program I α → I.Op → Prop where
  | here {op next} : Issued exec good (stmt op next) op
  | answered {op next op' s} (finds : good s) (rest : Issued exec good (next (exec op s).1) op') : Issued exec good (stmt op next) op'
  | failed {op next op'} (rest : Issued exec good (next (.error I.fault)) op') : Issued exec good (stmt op next) op'

/-- As long as its statements find good stores, or fail, `p` issues statements in `A` and ends in `Q`. -/
def Finds (exec : I.Exec σ) (good : σ → Prop) (A : I.Op → Prop) (Q : Except I.Err α → Prop) : Program I α → Prop
  | ret r => Q r
  | stmt op next => A op ∧ (∀ s, good s → Finds exec good A Q (next (exec op s).1)) ∧ Finds exec good A Q (next (.error I.fault))

theorem Finds.issued {Q : Except I.Err α → Prop} {p : Program I α} {op : I.Op} (h : p.Finds exec good A Q)
    (issued : Issued exec good p op) : A op := by
  induction issued with
  | here => exact h.1
  | answered finds _ ih => exact ih (h.2.1 _ finds)
  | failed _ ih => exact ih h.2.2

theorem Finds.bind {Q : Except I.Err β → Prop} {p : Program I α} {f : α → Program I β}
    (h : p.Finds exec good A fun r => match r with
      | .ok a => (f a).Finds exec good A Q
      | .error e => Q (.error e)) : (p.bind f).Finds exec good A Q := by
  induction p with
  | ret r => cases r <;> exact h
  | stmt op next ih => exact ⟨h.1, fun s finds => ih _ (h.2.1 s finds), ih _ h.2.2⟩

theorem Finds.mono {Q Q' : Except I.Err α → Prop} {p : Program I α} (h : p.Finds exec good A Q) (weaken : ∀ r, Q r → Q' r) :
    p.Finds exec good A Q' := by
  induction p with
  | ret r => exact weaken r h
  | stmt op next ih => exact ⟨h.1, fun s finds => ih _ (h.2.1 s finds), ih _ h.2.2⟩

/-- A program of statements in `A`, whatever it ends in. -/
theorem Finds.of_uses {p : Program I α} (uses : p.Uses A) : p.Finds exec good A fun _ => True := by
  induction p with
  | ret r => trivial
  | stmt op next ih => exact ⟨uses.1, fun s _ => ih _ (uses.2 _), ih _ (uses.2 _)⟩

/-- What follows an undisturbed run of the first part. -/
theorem Issued.after {p : Program I α} {f : α → Program I β} {a : α} {s : σ} {op : I.Op} (finds : good s)
    (ends : p.run exec s = (.ok a, s)) (reads : p.Uses fun op => (exec op s).2 = s) (rest : Issued exec good (f a) op) :
    Issued exec good (p.bind f) op := by
  induction p with
  | ret r =>
    cases ends
    exact rest
  | stmt o next ih =>
    refine .answered finds (ih _ ?_ (reads.2 _))
    have run : (next (exec o s).1).run exec (exec o s).2 = (.ok a, s) := ends
    rwa [reads.1] at run

end Finds

end Program

end NovoApex.Lib
