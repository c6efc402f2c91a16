import NovoApex.Lib.Program
import Mathlib.Logic.Relation

/-!
# Interleavings

A `Pool` is a store and the handlers in flight over it. A step starts a new
handler, lets one handler execute its next statement, makes that statement fail
without effect, or drops a handler. `job` says which handlers may start in a
state; `allow` restricts the statements executed, so that a run "whose steps all
meet a condition" is a run of the same system.

An invariant over all interleavings follows from what single statements keep
(`Reach.invariant`): `able s op` is what is known of a statement some handler
may still issue, and has to survive the other handlers' statements.
-/

namespace NovoApex.Lib
set_option autoImplicit false
open Relation

/-- A store and the handlers in flight over it. -/
structure Pool (I : Interface) (σ : Type) where
  state : σ
  threads : List (Program I Unit)

/-- A system: its store, the handlers that may start, and the statements allowed. -/
structure System (I : Interface) (σ : Type) where
  exec : I.Exec σ
  job : σ → Program I Unit → Prop
  allow : σ → I.Op → Prop

namespace System

variable {I : Interface} {σ : Type}

/-- One step of an interleaving. -/
inductive Step (S : System I σ) : Pool I σ → Pool I σ → Prop where
  | spawn {s ts p} (may : S.job s p) : Step S ⟨s, ts⟩ ⟨s, p :: ts⟩
  | exec {s pre post op next} (may : S.allow s op) :
      Step S ⟨s, pre ++ .stmt op next :: post⟩ ⟨(S.exec op s).2, pre ++ next (S.exec op s).1 :: post⟩
  | fault {s pre post op next} :
      Step S ⟨s, pre ++ .stmt op next :: post⟩ ⟨s, pre ++ next (.error I.fault) :: post⟩
  | drop {s pre post p} : Step S ⟨s, pre ++ p :: post⟩ ⟨s, pre ++ post⟩

/-- The pools a run of `S` reaches. -/
def Reach (S : System I σ) : Pool I σ → Pool I σ → Prop := ReflTransGen S.Step

variable {S : System I σ}

/-- What a step does to the store: nothing, or one allowed statement of a handler in flight. -/
theorem Step.effect {a b : Pool I σ} (h : S.Step a b) :
    b.state = a.state ∨ ∃ op next, .stmt op next ∈ a.threads ∧ S.allow a.state op ∧ b.state = (S.exec op a.state).2 := by
  cases h with
  | spawn may => exact .inl rfl
  | @exec s pre post op next may => exact .inr ⟨op, next, by simp, may, rfl⟩
  | fault => exact .inl rfl
  | drop => exact .inl rfl

/-- The handlers in flight, and what is known of the statements they may issue. -/
def Able (able : σ → I.Op → Prop) (pool : Pool I σ) : Prop := ∀ p ∈ pool.threads, p.Uses (able pool.state)

section Invariant

variable {Inv : σ → Prop} {able : σ → I.Op → Prop}

/-- What the invariant rule asks of a system. -/
structure Keeps (S : System I σ) (Inv : σ → Prop) (able : σ → I.Op → Prop) : Prop where
  start : ∀ s p, S.job s p → p.Uses (able s)
  keep : ∀ s op, able s op → S.allow s op → Inv s → Inv (S.exec op s).2
  stable : ∀ s op, able s op → S.allow s op → Inv s → ∀ op', able s op' → able (S.exec op s).2 op'

theorem Keeps.step (K : Keeps S Inv able) {a b : Pool I σ} (h : S.Step a b) (inv : Inv a.state)
    (uses : Able able a) : Inv b.state ∧ Able able b := by
  cases h with
  | spawn may =>
    refine ⟨inv, fun p hp => ?_⟩
    rcases List.mem_cons.1 hp with rfl | hp
    · exact K.start _ _ may
    · exact uses p hp
  | @exec s pre post op next may =>
    have here : (Program.stmt op next).Uses (able s) := uses (.stmt op next) (by simp)
    have grows := K.stable s op here.1 may inv
    refine ⟨K.keep s op here.1 may inv, fun p hp => ?_⟩
    rcases List.mem_append.1 hp with hp | hp
    · exact (uses p (List.mem_append_left _ hp)).mono grows
    · rcases List.mem_cons.1 hp with rfl | hp
      · exact (here.2 _).mono grows
      · exact (uses p (by simp [hp])).mono grows
  | @fault s pre post op next =>
    have here : (Program.stmt op next).Uses (able s) := uses (.stmt op next) (by simp)
    refine ⟨inv, fun p hp => ?_⟩
    rcases List.mem_append.1 hp with hp | hp
    · exact uses p (List.mem_append_left _ hp)
    · rcases List.mem_cons.1 hp with rfl | hp
      · exact here.2 _
      · exact uses p (by simp [hp])
  | @drop s pre post p =>
    refine ⟨inv, fun q hq => ?_⟩
    rcases List.mem_append.1 hq with hq | hq
    · exact uses q (List.mem_append_left _ hq)
    · exact uses q (by simp [hq])

/-- The run lemma: the invariant and the handlers' knowledge hold of every pool reached. -/
theorem Keeps.reach (K : Keeps S Inv able) {a b : Pool I σ} (h : S.Reach a b) (inv : Inv a.state)
    (uses : Able able a) : Inv b.state ∧ Able able b := by
  induction h with
  | refl => exact ⟨inv, uses⟩
  | tail _ step ih => exact K.step step ih.1 ih.2

/-- Every state reached from a store without handlers satisfies the invariant. -/
theorem Keeps.invariant (K : Keeps S Inv able) {s : σ} {b : Pool I σ} (h : S.Reach ⟨s, []⟩ b) (inv : Inv s) :
    Inv b.state :=
  (K.reach h inv fun p hp => by cases hp).1

/-- What the invariant lets one say about a single step of a reachable pool. -/
theorem Keeps.effect (K : Keeps S Inv able) {s : σ} {a b : Pool I σ} (h : S.Reach ⟨s, []⟩ a) (inv : Inv s)
    (step : S.Step a b) : b.state = a.state ∨
      ∃ op, able a.state op ∧ S.allow a.state op ∧ Inv a.state ∧ b.state = (S.exec op a.state).2 := by
  obtain ⟨here, uses⟩ := K.reach h inv fun p hp => by cases hp
  rcases step.effect with same | ⟨op, next, mem, may, eq⟩
  · exact .inl same
  · exact .inr ⟨op, (uses _ mem).1, may, here, eq⟩

end Invariant

/-- The statements an undisturbed execution of `p` issues are all allowed. -/
def Follows (S : System I σ) : Program I Unit → σ → Prop
  | .ret _, _ => True
  | .stmt op next, s => S.allow s op ∧ Follows S (next (S.exec op s).1) (S.exec op s).2

instance Follows.decidable [∀ s op, Decidable (S.allow s op)] :
    (p : Program I Unit) → (s : σ) → Decidable (S.Follows p s)
  | .ret _, _ => isTrue trivial
  | .stmt op next, s =>
    have := Follows.decidable (next (S.exec op s).1) (S.exec op s).2
    inferInstanceAs (Decidable (S.allow s op ∧ S.Follows (next (S.exec op s).1) (S.exec op s).2))

/-- A handler in flight may run to its end without interference. -/
theorem reach_run {p : Program I Unit} {s : σ} (follows : S.Follows p s) (ts : List (Program I Unit)) :
    S.Reach ⟨s, p :: ts⟩ ⟨(p.run S.exec s).2, ts⟩ := by
  induction p generalizing s with
  | ret r =>
    have last : S.Step ⟨s, [] ++ .ret r :: ts⟩ ⟨s, [] ++ ts⟩ := .drop
    exact .single last
  | stmt op next ih =>
    have first : S.Step ⟨s, [] ++ .stmt op next :: ts⟩ ⟨(S.exec op s).2, [] ++ next (S.exec op s).1 :: ts⟩ :=
      .exec follows.1
    exact .head first (ih _ follows.2)

/-- A whole handler, from its start to its end. -/
theorem reach_job {s : σ} {p : Program I Unit} (may : S.job s p) (follows : S.Follows p s)
    (ts : List (Program I Unit)) : S.Reach ⟨s, ts⟩ ⟨(p.run S.exec s).2, ts⟩ :=
  .head (Step.spawn may) (reach_run follows ts)

end System

end NovoApex.Lib
