import NovoApex.Lib.Crew
import NovoApex.Lib.Table

/-!
# Rows and whom they belong to

A column that is written once says whom a row belongs to. `Owned` reads it under a key and
`OwnersKept` says that a table lost no row and gave none away, which is all that a reference
into the table needs to stay right.

`Safe.frame` is the rule a handler uses such a fact by: what no statement undoes is still
known where the handler ends.
-/

namespace NovoApex.Lib
set_option autoImplicit false

namespace Table

variable {R K O : Type} {key : R → K} {owner : R → O} {t u v : Table key} {k : K} {o : O}

/-- The row under the key belongs to the owner. -/
def Owned (owner : R → O) (t : Table key) (k : K) (o : O) : Prop := ∃ r ∈ t.rows, key r = k ∧ owner r = o

/-- No row is lost, and none changes its owner. -/
def OwnersKept (owner : R → O) (t u : Table key) : Prop := ∀ r ∈ t.rows, u.Owned owner (key r) (owner r)

instance [DecidableEq K] [DecidableEq O] (owner : R → O) (t : Table key) (k : K) (o : O) : Decidable (t.Owned owner k o) :=
  inferInstanceAs (Decidable (∃ r ∈ t.rows, _))

theorem Owned.of_mem (owner : R → O) {r : R} (mem : r ∈ t.rows) : t.Owned owner (key r) (owner r) := ⟨r, mem, rfl, rfl⟩

theorem Owned.kept (h : t.Owned owner k o) (kept : OwnersKept owner t u) : u.Owned owner k o := by
  obtain ⟨r, mem, rfl, rfl⟩ := h
  exact kept r mem

/-- A row belongs to one owner. -/
theorem Owned.unique {o' : O} (h : t.Owned owner k o) (h' : t.Owned owner k o') : o = o' := by
  obtain ⟨r, mem, same, rfl⟩ := h
  obtain ⟨r', mem', same', rfl⟩ := h'
  rw [eq_of_key mem mem' (same.trans same'.symm)]

/-- What an owner column holds, a coarser one does. -/
theorem Owned.map {O' : Type} {coarser : R → O'} {f : O → O'} (h : t.Owned owner k o) (agrees : ∀ r, coarser r = f (owner r)) :
    t.Owned coarser k (f o) := by
  obtain ⟨r, mem, same, rfl⟩ := h
  exact ⟨r, mem, same, agrees r⟩

theorem OwnersKept.refl (t : Table key) : OwnersKept owner t t := fun _ mem => .of_mem owner mem

theorem OwnersKept.trans (first : OwnersKept owner t u) (second : OwnersKept owner u v) : OwnersKept owner t v :=
  fun r mem => (first r mem).kept second

/-- Who keeps an owner column keeps a coarser one. -/
theorem OwnersKept.map {O' : Type} {coarser : R → O'} {f : O → O'} (h : OwnersKept owner t u) (agrees : ∀ r, coarser r = f (owner r)) :
    OwnersKept coarser t u := by
  intro r mem
  rw [agrees r]
  exact (h r mem).map agrees

/-- A write in place that leaves key and owner alone. -/
theorem OwnersKept.of_map {f : R → R} (rows : u.rows = t.rows.map f) (same : ∀ r, key (f r) = key r ∧ owner (f r) = owner r) :
    OwnersKept owner t u := by
  intro r mem
  refine ⟨f r, ?_, (same r).1, (same r).2⟩
  rw [rows]
  exact List.mem_map_of_mem mem

theorem OwnersKept.update {p : R → Bool} {f : R → R} (keeps : ∀ r, key (f r) = key r) (same : ∀ r, owner (f r) = owner r) :
    OwnersKept owner t (t.update p f keeps) := by
  refine .of_map (f := rewrite p f) rfl fun r => ⟨rewrite_key keeps r, ?_⟩
  unfold rewrite
  split
  · exact same r
  · rfl

theorem OwnersKept.append {added : List R} (rows : u.rows = t.rows ++ added) : OwnersKept owner t u := by
  intro r mem
  refine .of_mem owner ?_
  rw [rows]
  exact List.mem_append_left _ mem

theorem OwnersKept.insert [DecidableEq K] {r : R} (inserted : t.insert r = some u) : OwnersKept owner t u :=
  .append (insert_eq_some.1 inserted).2

/-- The row that was inserted. -/
theorem Owned.insert [DecidableEq K] {r : R} (inserted : t.insert r = some u) : u.Owned owner (key r) (owner r) := by
  refine .of_mem owner ?_
  rw [(insert_eq_some.1 inserted).2]
  exact List.mem_append_right _ List.mem_cons_self

end Table

section Frame

variable {I : Interface} {ι σ α : Type} {R : Roster I ι σ} {P : Protocol ι σ} {i : ι}

/-- What lasts under the others and under every statement is known at the end as it was at the start. -/
theorem Safe.frame {K : σ → Prop} {Q : Except I.Err α → σ → Prop} {p : Program I α} {s : σ} (h : Safe R P i Q p s)
    (lasting : ∀ s t, P.rely i s t → K s → K t) (own : ∀ op t, K t → K (R.exec op t).2) (known : K s) :
    Safe R P i (fun r t => Q r t ∧ K t) p s := by
  induction p generalizing s with
  | ret r => exact ⟨h, known⟩
  | stmt op next ih =>
    intro t rely inv
    obtain ⟨executed, failed, stopped⟩ := h t rely inv
    have before := lasting s t rely known
    refine ⟨fun may => ?_, fun faults => ih _ (failed faults) before, stopped⟩
    obtain ⟨inv', others, replied, unreplied⟩ := executed may
    have after := own op t before
    exact ⟨inv', others, ih _ replied after, fun loses => ih _ (unreplied loses) after⟩

end Frame

namespace Program

variable {I J : Interface} {α β : Type}

/-- A sequence over the smaller store, part by part. -/
theorem embed_bind (f : I.Embedding J) (p : Program I α) (g : α → Program I β) :
    (p.bind g).embed f = (p.embed f).bind fun a => (g a).embed f := by
  induction p with
  | ret r => cases r <;> rfl
  | stmt op next ih => exact congrArg (stmt (f.op op)) (funext fun r => ih _)

end Program

end NovoApex.Lib
