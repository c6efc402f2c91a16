import Mathlib.Logic.Function.Basic

/-!
# Derived values, refreshed by tasks

Sources under keys, and for each a value derived from it, which tasks refresh: a task
reads the source, derives, and writes what it derived, one after the other, while the
sources change and other tasks run. Whoever changes a source owes its key a task until
that is enqueued. Nothing marks a derived value as out of date and no write is
conditional, so two tasks of a key can overtake each other.

`Kept` is what every move of such a system keeps as long as no task reads a source that
another has read and not yet written for: a derived value that is not right is about to
be made so. Once nothing is owed and no task is left, every derived value is right
(`Kept.settled`).
-/

namespace NovoApex.Lib
set_option autoImplicit false

/-- How far a task has come. -/
inductive Stage (K V : Type) where
  | absent
  | waiting (key : K)
  | read (key : K) (source : V)
  | done (key : K)
  deriving DecidableEq

/-- The key of a task that is there. -/
def Stage.key? {K V : Type} : Stage K V → Option K
  | .absent => none
  | .waiting k => some k
  | .read k _ => some k
  | .done k => some k

/-- The sources, what is derived from them, the keys whose task is still to be enqueued, and the tasks. -/
structure Refresh (K V W ι : Type) where
  source : K → Option V
  derived : K → Option W
  owed : K → Prop
  stage : ι → Stage K V

namespace Refresh

variable {K V W ι : Type} (right : K → V → W → Prop)

/-- The value derived for a key is right for its source, if there is one. -/
def Right (r : Refresh K V W ι) (k : K) : Prop := ∀ v, r.source k = some v → ∃ w, r.derived k = some w ∧ right k v w

/-- A task that has not read the source is still to come. -/
def Coming (r : Refresh K V W ι) (k : K) : Prop := r.owed k ∨ ∃ i, r.stage i = .waiting k

/-- Some task has read the source and not written yet. -/
def BeingRead (r : Refresh K V W ι) (k : K) : Prop := ∃ i v, r.stage i = .read k v

/-- A derived value is right or about to be made so, and a task that has read what is no longer the source will not be the last. -/
structure Kept (r : Refresh K V W ι) : Prop where
  current : ∀ k v, r.source k = some v → (∃ w, r.derived k = some w ∧ right k v w) ∨ r.Coming k ∨ ∃ i, r.stage i = .read k v
  stale : ∀ i k v v', r.stage i = .read k v → r.source k = some v' → v ≠ v' → r.Coming k
  alone : ∀ i j k v v', r.stage i = .read k v → r.stage j = .read k v' → i = j

variable {right} {r q : Refresh K V W ι} {k : K} {i : ι}

/-- At rest every derived value is right. -/
theorem Kept.settled (kept : Kept right r) (nothing : ∀ k, ¬ r.owed k) (rest : ∀ i, r.stage i = .absent) (k : K) : r.Right right k := by
  intro v there
  rcases kept.current k v there with done | (owed | ⟨i, waits⟩) | ⟨i, reads⟩
  · exact done
  · exact absurd owed (nothing k)
  · rw [rest i] at waits
    cases waits
  · rw [rest i] at reads
    cases reads

/-- Sources change: each that does is gone or owed a task. -/
theorem Kept.change (kept : Kept right r) (stage : q.stage = r.stage) (owed : ∀ k, r.owed k → q.owed k)
    (moved : ∀ k, (q.source k = r.source k ∧ q.derived k = r.derived k) ∨ q.source k = none ∨ q.owed k) : Kept right q := by
  have coming : ∀ k, r.Coming k → q.Coming k := by
    rintro k (owes | waits)
    · exact .inl (owed k owes)
    · exact .inr (by rw [stage]; exact waits)
  refine ⟨fun k v there => ?_, fun i k v v' reads there ne => ?_, by rw [stage]; exact kept.alone⟩
  · rcases moved k with ⟨source, derived⟩ | gone | owes
    · rw [source] at there
      rw [derived, stage]
      exact (kept.current k v there).imp_right (Or.imp_left (coming k))
    · rw [gone] at there
      cases there
    · exact .inr (.inl (.inl owes))
  · rw [stage] at reads
    rcases moved k with ⟨source, -⟩ | gone | owes
    · rw [source] at there
      exact coming k (kept.stale i k v v' reads there ne)
    · rw [gone] at there
      cases there
    · exact .inl owes

/-- A derived value is made right; the tasks go on as they are. -/
theorem Kept.improve (kept : Kept right r) (source : q.source = r.source) (owed : q.owed = r.owed) (stage : q.stage = r.stage)
    (derived : ∀ k, q.derived k = r.derived k ∨ q.Right right k) : Kept right q := by
  have coming : ∀ k, q.Coming k ↔ r.Coming k := by
    intro k
    simp only [Coming, owed, stage]
  refine ⟨fun k v there => ?_, fun i k v v' reads there ne => ?_, by rw [stage]; exact kept.alone⟩
  · rcases derived k with same | now
    · rw [same, stage, coming]
      rw [source] at there
      exact kept.current k v there
    · exact .inl (now v there)
  · rw [stage] at reads
    rw [source] at there
    exact (coming k).2 (kept.stale i k v v' reads there ne)

section Tasks

variable [DecidableEq ι] {next : Stage K V}

/-- The reads after a task has moved on are the others' and perhaps its own. -/
theorem stage_moved {j : ι} {s : Stage K V} (stage : q.stage = Function.update r.stage i next) (h : q.stage j = s) :
    j = i ∧ next = s ∨ j ≠ i ∧ r.stage j = s := by
  rw [stage] at h
  by_cases same : j = i
  · subst same
    exact .inl ⟨rfl, (Function.update_self j next r.stage).symm.trans h⟩
  · exact .inr ⟨same, (Function.update_of_ne same next r.stage).symm.trans h⟩

/-- A task moves on without reading. One that waited does its part or is not needed, and one that has read writes what is right, unless
the source has changed since. -/
theorem Kept.advance (kept : Kept right r) (source : q.source = r.source) (stage : q.stage = Function.update r.stage i next)
    (owed : ∀ k, r.owed k → q.owed k ∨ next = .waiting k) (unread : ∀ k v, next ≠ .read k v)
    (waited : ∀ k, r.stage i = .waiting k → next = .waiting k ∨ r.source k = none ∨ q.Right right k ∧ ¬ r.BeingRead k)
    (wrote : ∀ k v, r.stage i = .read k v → next = .waiting k ∨ r.source k ≠ some v ∨ q.Right right k)
    (derived : ∀ k, q.derived k = r.derived k ∨ q.Right right k ∨ ∃ v, r.stage i = .read k v ∧ r.source k ≠ some v) :
    Kept right q := by
  have now : q.stage i = next := by rw [stage, Function.update_self]
  have others : ∀ {j}, j ≠ i → q.stage j = r.stage j := fun ne => by rw [stage, Function.update_of_ne ne]
  have coming : ∀ k v, r.source k = some v → r.Coming k → q.Coming k ∨ q.Right right k ∧ ¬ r.BeingRead k := by
    rintro k v there (owes | ⟨j, waits⟩)
    · exact .inl ((owed k owes).imp id fun new => ⟨i, now.trans new⟩)
    · by_cases same : j = i
      · subst same
        rcases waited k waits with new | gone | made
        · exact .inl (.inr ⟨j, now.trans new⟩)
        · rw [gone] at there
          cases there
        · exact .inr made
      · exact .inl (.inr ⟨j, (others same).trans waits⟩)
  -- a task that has read what is no longer the source is not the last
  have stale : ∀ j k v v', r.stage j = .read k v → r.source k = some v' → v ≠ v' → q.Coming k := fun j k v v' reads there ne =>
    (coming k v' there (kept.stale j k v v' reads there ne)).resolve_right fun h => h.2 ⟨j, v, reads⟩
  refine ⟨fun k v there => ?_, fun j k v v' reads there ne => ?_, fun j j' k v v' reads reads' => ?_⟩
  · rw [source] at there
    rcases derived k with same | made | ⟨v', reads, changed⟩
    · rw [same]
      rcases kept.current k v there with done | comes | ⟨j, reads⟩
      · exact .inl done
      · rcases coming k v there comes with comes | ⟨made, -⟩
        · exact .inr (.inl comes)
        · rw [← same]
          exact .inl (made v (source ▸ there))
      · by_cases here : j = i
        · subst here
          rcases wrote k v reads with new | changed | made
          · exact .inr (.inl (.inr ⟨j, now.trans new⟩))
          · exact absurd there changed
          · rw [← same]
            exact .inl (made v (source ▸ there))
        · exact .inr (.inr ⟨j, (others here).trans reads⟩)
    · exact .inl (made v (source ▸ there))
    · refine .inr (.inl (stale i k v' v reads there ?_))
      rintro rfl
      exact changed there
  · rw [source] at there
    rcases stage_moved stage reads with ⟨-, new⟩ | ⟨-, before⟩
    · exact absurd new (unread k v)
    · exact stale j k v v' before there ne
  · rcases stage_moved stage reads with ⟨-, new⟩ | ⟨-, before⟩
    · exact absurd new (unread k v)
    · rcases stage_moved stage reads' with ⟨-, new⟩ | ⟨-, before'⟩
      · exact absurd new (unread k v')
      · exact kept.alone j j' k v v' before before'

/-- A task reads its source, which no other has read and not yet written for. -/
theorem Kept.read (kept : Kept right r) {v : V} (source : q.source = r.source) (derived : q.derived = r.derived) (owed : q.owed = r.owed)
    (stage : q.stage = Function.update r.stage i (.read k v)) (waits : r.stage i = .waiting k) (there : r.source k = some v)
    (serial : ¬ r.BeingRead k) : Kept right q := by
  have now : q.stage i = .read k v := by rw [stage, Function.update_self]
  have others : ∀ {j}, j ≠ i → q.stage j = r.stage j := fun ne => by rw [stage, Function.update_of_ne ne]
  have coming : ∀ k', k' ≠ k → r.Coming k' → q.Coming k' := by
    rintro k' ne (owes | ⟨j, waits'⟩)
    · exact .inl (by rw [owed]; exact owes)
    · have apart : j ≠ i := by
        rintro rfl
        rw [waits] at waits'
        cases waits'
        exact ne rfl
      exact .inr ⟨j, (others apart).trans waits'⟩
  refine ⟨fun k' v' there' => ?_, fun j k' v' w reads there' ne => ?_, fun j j' k' v' w reads reads' => ?_⟩
  · rw [source] at there'
    by_cases same : k' = k
    · subst same
      rw [there] at there'
      cases there'
      exact .inr (.inr ⟨i, now⟩)
    · rw [derived]
      rcases kept.current k' v' there' with done | comes | ⟨j, reads⟩
      · exact .inl done
      · exact .inr (.inl (coming k' same comes))
      · refine .inr (.inr ⟨j, (others ?_).trans reads⟩)
        rintro rfl
        rw [waits] at reads
        cases reads
  · rw [source] at there'
    rcases stage_moved stage reads with ⟨-, new⟩ | ⟨-, before⟩
    · cases new
      rw [there] at there'
      cases there'
      exact absurd rfl ne
    · have apart : k' ≠ k := by
        rintro rfl
        exact serial ⟨j, v', before⟩
      exact coming k' apart (kept.stale j k' v' w before there' ne)
  · rcases stage_moved stage reads with ⟨here, new⟩ | ⟨-, before⟩
    · rcases stage_moved stage reads' with ⟨here', -⟩ | ⟨-, before'⟩
      · exact here.trans here'.symm
      · cases new
        exact absurd ⟨j', w, before'⟩ serial
    · rcases stage_moved stage reads' with ⟨-, new⟩ | ⟨-, before'⟩
      · cases new
        exact absurd ⟨j, v', before⟩ serial
      · exact kept.alone j j' k' v' w before before'

end Tasks

end Refresh

end NovoApex.Lib
