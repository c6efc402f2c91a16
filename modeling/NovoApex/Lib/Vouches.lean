import NovoApex.Lib.Crew

/-!
# What a handler knows when it issues a statement

`Safe` says what a handler leaves behind; `Vouches` says what it finds: before every
statement the program issues, `A` holds of the statement and of the store, however
far the others have moved it. In a run `A` then holds of the next statement of every
handler in flight (`Protocol.vouched`).
-/

namespace NovoApex.Lib
set_option autoImplicit false
open Relation

variable {I : Interface} {ι σ α β : Type}

/-- Whatever the others do within the rely, every statement finds a store in which `A` holds of it. -/
def Vouches (R : Roster I ι σ) (P : Protocol ι σ) (i : ι) (A : I.Op → σ → Prop) : Program I α → σ → Prop
  | .ret _, _ => True
  | .stmt op next, s => ∀ t, P.rely i s t → P.inv t → A op t ∧
    (R.allow t op → Vouches R P i A (next (R.exec op t).1) (R.exec op t).2 ∧
      (R.loses t op → Vouches R P i A (next (.error I.fault)) (R.exec op t).2)) ∧
    (R.faults t op → Vouches R P i A (next (.error I.fault)) t)

namespace Vouches

variable {R : Roster I ι σ} {P : Protocol ι σ} {i : ι} {A : I.Op → σ → Prop}

/-! ## Rules -/

/-- The second part may use what the first ends in. -/
theorem bind {p : Program I α} {f : α → Program I β} {s : σ} (first : Vouches R P i A p s)
    (ends : Safe R P i (fun r t => ∀ a, r = .ok a → Vouches R P i A (f a) t) p s) : Vouches R P i A (p.bind f) s := by
  induction p generalizing s with
  | ret r =>
    cases r with
    | ok a => exact ends a rfl
    | error e => trivial
  | stmt op next ih =>
    intro t rely inv
    obtain ⟨holds, executed, failed⟩ := first t rely inv
    obtain ⟨executed', failed', -⟩ := ends t rely inv
    refine ⟨holds, fun may => ?_, fun faults => ih _ (failed faults) (failed' faults)⟩
    obtain ⟨replied, unreplied⟩ := executed may
    obtain ⟨-, -, replied', unreplied'⟩ := executed' may
    exact ⟨ih _ replied replied', fun loses => ih _ (unreplied loses) (unreplied' loses)⟩

theorem attempt {p : Program I α} {s : σ} (h : Vouches R P i A p s) : Vouches R P i A p.attempt s := by
  induction p generalizing s with
  | ret r => trivial
  | stmt op next ih =>
    intro t rely inv
    obtain ⟨holds, executed, failed⟩ := h t rely inv
    refine ⟨holds, fun may => ?_, fun faults => ih _ (failed faults)⟩
    obtain ⟨replied, unreplied⟩ := executed may
    exact ⟨ih _ replied, fun loses => ih _ (unreplied loses)⟩

theorem call {op : I.Op} {s : σ} (holds : ∀ t, P.rely i s t → P.inv t → A op t) : Vouches R P i A (Program.call op) s :=
  fun t rely inv => ⟨holds t rely inv, fun _ => ⟨trivial, fun _ => trivial⟩, fun _ => trivial⟩

/-- A program of statements of which `A` holds anywhere. -/
theorem of_uses {B : I.Op → Prop} {p : Program I α} {s : σ} (uses : p.Uses B) (holds : ∀ op t, B op → A op t) :
    Vouches R P i A p s := by
  induction p generalizing s with
  | ret r => trivial
  | stmt op next ih =>
    intro t _ _
    exact ⟨holds op t uses.1, fun _ => ⟨ih _ (uses.2 _), fun _ => ih _ (uses.2 _)⟩, fun _ => ih _ (uses.2 _)⟩

theorem mono {B : I.Op → σ → Prop} {p : Program I α} {s : σ} (h : Vouches R P i A p s) (weaken : ∀ op t, A op t → B op t) :
    Vouches R P i B p s := by
  induction p generalizing s with
  | ret r => trivial
  | stmt op next ih =>
    intro t rely inv
    obtain ⟨holds, executed, failed⟩ := h t rely inv
    refine ⟨weaken op t holds, fun may => ?_, fun faults => ih _ (failed faults)⟩
    obtain ⟨replied, unreplied⟩ := executed may
    exact ⟨ih _ replied, fun loses => ih _ (unreplied loses)⟩

theorem stable {p : Program I α} {s t : σ} (h : Vouches R P i A p s) (rely : P.rely i s t) : Vouches R P i A p t := by
  cases p with
  | ret r => trivial
  | stmt op next => exact fun u rely' => h u (P.trans i s t u rely rely')

end Vouches

/-! ## Runs -/

section Runs

variable {R : Roster I ι σ} {P : Protocol ι σ} {Q : ι → Except I.Err Unit → σ → Prop} {A : ι → I.Op → σ → Prop}

/-- Every handler in flight vouches for its statements under its own name. -/
def Protocol.Vouched (R : Roster I ι σ) (P : Protocol ι σ) (A : ι → I.Op → σ → Prop) (c : Crew I ι σ) : Prop :=
  ∀ thread ∈ c.threads, Vouches R P thread.1 (A thread.1) thread.2 c.state

/-- One handler moves the store along the others' rely. -/
theorem Protocol.Vouched.move {s s' : σ} {pre post : List (ι × Program I Unit)} {i : ι} {p q : Program I Unit}
    (h : P.Vouched R A ⟨s, pre ++ (i, p) :: post⟩) (names : ((pre ++ (i, p) :: post).map Prod.fst).Nodup)
    (others : ∀ j, j ≠ i → P.rely j s s') (own : Vouches R P i (A i) q s') : P.Vouched R A ⟨s', pre ++ (i, q) :: post⟩ := by
  simp only [List.map_append, List.map_cons] at names
  rw [List.nodup_middle, ← List.map_append] at names
  have other : ∀ thread ∈ pre ++ post, thread.1 ≠ i := by
    rintro thread mem rfl
    exact (List.nodup_cons.1 names).1 (List.mem_map_of_mem mem)
  intro thread mem
  simp only [List.mem_append, List.mem_cons] at mem
  rcases mem with mem | rfl | mem
  · exact (h thread (by simp [mem])).stable (others _ (other thread (List.mem_append_left _ mem)))
  · exact own
  · exact (h thread (by simp [mem])).stable (others _ (other thread (List.mem_append_right _ mem)))

theorem Protocol.Vouched.step {a b : Crew I ι σ} (h : P.Vouched R A a) (holds : P.Holds R Q a)
    (start : ∀ i p, R.job i p → P.idle i a.state → Vouches R P i (A i) p a.state) (step : R.Step a b) : P.Vouched R A b := by
  cases step with
  | @spawn s ts i p may unused =>
    intro thread mem
    rcases List.mem_cons.1 mem with rfl | mem
    · exact start i p may (holds.idle i unused)
    · exact h thread mem
  | @exec s pre post i op next may =>
    obtain ⟨-, others, -⟩ := (holds.safe (i, .stmt op next) (by simp) s (P.refl i s) holds.inv).1 may
    obtain ⟨-, executed, -⟩ := h (i, .stmt op next) (by simp) s (P.refl i s) holds.inv
    exact h.move holds.names others (executed may).1
  | @lost s pre post i op next may loses =>
    obtain ⟨-, others, -⟩ := (holds.safe (i, .stmt op next) (by simp) s (P.refl i s) holds.inv).1 may
    obtain ⟨-, executed, -⟩ := h (i, .stmt op next) (by simp) s (P.refl i s) holds.inv
    exact h.move holds.names others ((executed may).2 loses)
  | @fault s pre post i op next faults =>
    obtain ⟨-, -, failed⟩ := h (i, .stmt op next) (by simp) s (P.refl i s) holds.inv
    exact h.move holds.names (fun j _ => P.refl j s) (failed faults)
  | @drop s pre post i p leaves =>
    intro thread mem
    refine h thread ?_
    simp only [List.mem_append, List.mem_cons] at mem ⊢
    tauto

/-- In every interleaving, `A` holds of the next statement of every handler in flight. -/
theorem Protocol.vouched (promise : P.Promise Q) (start : ∀ i p s, R.job i p → P.inv s → P.idle i s → Safe R P i (Q i) p s)
    (vouches : ∀ i p s, R.job i p → P.inv s → P.idle i s → Vouches R P i (A i) p s) {s : σ} {c : Crew I ι σ}
    (reach : R.Reach ⟨s, []⟩ c) (inv : P.inv s) (idle : ∀ i, P.idle i s) {i : ι} {op : I.Op}
    {next : Except I.Err (I.Reply op) → Program I Unit} (mem : (i, .stmt op next) ∈ c.threads) : A i op c.state := by
  have holds : ∀ {c}, R.Reach ⟨s, []⟩ c → P.Holds R Q c := fun reach => Protocol.holds promise start reach inv idle
  have all : P.Vouched R A c := by
    clear mem
    induction reach with
    | refl => exact fun thread mem => absurd mem List.not_mem_nil
    | @tail b c first step ih =>
      exact ih.step (holds first) (fun i p may free => vouches i p _ may (holds first).inv free) step
  exact (all (i, .stmt op next) mem c.state (P.refl i c.state) (holds reach).inv).1

end Runs

end NovoApex.Lib
