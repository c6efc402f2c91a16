import Mathlib.Algebra.BigOperators.Group.List.Basic
import Mathlib.Data.List.Dedup
import Mathlib.Data.List.Sort

/-!
# Grouping, ordering and cutting off

    SELECT key, SUM(value) FROM rows GROUP BY key ORDER BY … LIMIT n
    SELECT DISTINCT ON (key) * FROM rows ORDER BY key, …

A group is the rows of one key. Every row is in one group, so aggregates over the groups
add up to the aggregate over all (`sum_groupBy`), also for the groups of a coarser key
(`sum_rollup`). Of an ordered list that is cut off, nothing that is left out comes before
what is kept (`take_before`). `DISTINCT ON` keeps a first row of every group.
-/

namespace NovoApex.Lib.Aggregates
set_option autoImplicit false

variable {R K J M : Type}

section Groups

variable [DecidableEq K] {key : R → K} {rows : List R} {k : K}

/-- The rows of a key. -/
def groupOf (key : R → K) (rows : List R) (k : K) : List R := rows.filter fun r => decide (key r = k)

/-- `GROUP BY key`: every key once, with its rows. -/
def groupBy (key : R → K) (rows : List R) : List (K × List R) := (rows.map key).dedup.map fun k => (k, groupOf key rows k)

theorem mem_groupOf {r : R} : r ∈ groupOf key rows k ↔ r ∈ rows ∧ key r = k := by
  simp [groupOf]

theorem groupBy_keys : (groupBy key rows).map Prod.fst = (rows.map key).dedup := by
  simp [groupBy, Function.comp_def]

/-- A key has one group. -/
theorem groupBy_nodup : ((groupBy key rows).map Prod.fst).Nodup := by
  rw [groupBy_keys]
  exact List.nodup_dedup _

theorem mem_groupBy {g : K × List R} : g ∈ groupBy key rows ↔ (∃ r ∈ rows, key r = g.1) ∧ g.2 = groupOf key rows g.1 := by
  unfold groupBy
  rw [List.mem_map]
  constructor
  · rintro ⟨k, mem, rfl⟩
    rw [List.mem_dedup, List.mem_map] at mem
    exact ⟨mem, rfl⟩
  · rintro ⟨⟨r, mem, same⟩, group⟩
    refine ⟨g.1, ?_, Prod.ext rfl group.symm⟩
    rw [List.mem_dedup, List.mem_map]
    exact ⟨r, mem, same⟩

/-! ## Sums over groups -/

variable [AddCommMonoid M]

/-- Of distinct keys, one is the row's. -/
theorem sum_single {keys : List K} (nodup : keys.Nodup) (m : M) (mem : k ∈ keys) : (keys.map fun j => if k = j then m else 0).sum = m := by
  induction keys with
  | nil => cases mem
  | cons j rest ih =>
    obtain ⟨fresh, nodup⟩ := List.nodup_cons.1 nodup
    rw [List.map_cons, List.sum_cons]
    by_cases same : k = j
    · have others : (rest.map fun j => if k = j then m else 0).sum = 0 := by
        refine List.sum_eq_zero fun x listed => ?_
        obtain ⟨j', there, rfl⟩ := List.mem_map.1 listed
        refine if_neg fun again => fresh ?_
        rw [← same, again]
        exact there
      rw [if_pos same, others, add_zero]
    · rw [if_neg same, zero_add]
      exact ih nodup ((List.mem_cons.1 mem).resolve_left same)

/-- Sums over the rows of distinct keys add up to the sum over all, if the keys are those of the rows. -/
theorem sum_groups {keys : List K} (nodup : keys.Nodup) (f : R → M) (all : ∀ r ∈ rows, key r ∈ keys) :
    (keys.map fun k => ((groupOf key rows k).map f).sum).sum = (rows.map f).sum := by
  induction rows with
  | nil => simp [groupOf]
  | cons r rest ih =>
    have step : ∀ k, ((groupOf key (r :: rest) k).map f).sum = (if key r = k then f r else 0) + ((groupOf key rest k).map f).sum := by
      intro k
      unfold groupOf
      by_cases same : key r = k <;> simp [same]
    rw [List.map_congr_left fun k _ => step k, List.sum_map_add, sum_single nodup _ (all r List.mem_cons_self),
      ih fun r mem => all r (List.mem_cons_of_mem _ mem), List.map_cons, List.sum_cons]

/-- The groups add up to the whole. -/
theorem sum_groupBy (key : R → K) (rows : List R) (f : R → M) :
    ((groupBy key rows).map fun g => (g.2.map f).sum).sum = (rows.map f).sum := by
  unfold groupBy
  rw [List.map_map]
  exact sum_groups (List.nodup_dedup _) f fun r mem => List.mem_dedup.2 (List.mem_map_of_mem mem)

/-- The groups whose keys have one coarser key add up to the group of that. -/
theorem sum_rollup [DecidableEq J] (key : R → K) (coarser : K → J) (rows : List R) (f : R → M) (j : J) :
    (((groupBy key rows).filter fun g => decide (coarser g.1 = j)).map fun g => (g.2.map f).sum).sum =
      ((groupOf (fun r => coarser (key r)) rows j).map f).sum := by
  unfold groupBy
  rw [List.filter_map, List.map_map]
  have same : ∀ k ∈ (rows.map key).dedup.filter fun k => decide (coarser k = j),
      ((groupOf key rows k).map f).sum = ((groupOf key (groupOf (fun r => coarser (key r)) rows j) k).map f).sum := by
    intro k mem
    have coarse : coarser k = j := of_decide_eq_true (List.mem_filter.1 mem).2
    unfold groupOf
    rw [List.filter_filter]
    congr 2
    refine List.filter_congr fun r _ => ?_
    by_cases own : key r = k <;> simp [own, coarse]
  have shape : ((fun g : K × List R => (g.2.map f).sum) ∘ fun k => (k, groupOf key rows k)) = fun k => ((groupOf key rows k).map f).sum := rfl
  have selects : ((fun g : K × List R => decide (coarser g.1 = j)) ∘ fun k => (k, groupOf key rows k)) = fun k => decide (coarser k = j) := rfl
  rw [shape, selects, List.map_congr_left same]
  refine sum_groups ((List.nodup_dedup _).filter _) f fun r mem => ?_
  obtain ⟨mem, coarse⟩ := mem_groupOf.1 mem
  exact List.mem_filter.2 ⟨List.mem_dedup.2 (List.mem_map_of_mem mem), decide_eq_true coarse⟩

end Groups

/-! ## Order and limit -/

section Order

variable (before : R → R → Prop) {rows : List R}

variable {before} in
/-- What a limit keeps comes before what it leaves out. -/
theorem take_before {l : List R} (ordered : l.Pairwise before) (n : Nat) : ∀ r ∈ l.take n, ∀ u ∈ l.drop n, before r u := by
  rw [← List.take_append_drop n l, List.pairwise_append] at ordered
  exact ordered.2.2

/-- The first `n` rows in an order, as far as the order determines them. -/
structure TopOf (n : Nat) (rows top : List R) : Prop where
  ordered : top.Pairwise before
  length : top.length = min n rows.length
  best : ∃ rest, (top ++ rest).Perm rows ∧ ∀ r ∈ top, ∀ u ∈ rest, before r u

variable {before} in
/-- What is among the first is a row. -/
theorem TopOf.mem {n : Nat} {top : List R} (h : TopOf before n rows top) {r : R} (mem : r ∈ top) : r ∈ rows := by
  obtain ⟨rest, perm, -⟩ := h.best
  exact perm.mem_iff.1 (List.mem_append_left rest mem)

variable [DecidableRel before]

/-- `ORDER BY`; rows that tie stay as they are. -/
def orderBy (rows : List R) : List R := rows.insertionSort before

theorem orderBy_perm (rows : List R) : (orderBy before rows).Perm rows := List.perm_insertionSort before rows

theorem mem_orderBy {r : R} : r ∈ orderBy before rows ↔ r ∈ rows := List.mem_insertionSort before

theorem orderBy_pairwise [Std.Total before] [IsTrans R before] (rows : List R) : (orderBy before rows).Pairwise before :=
  List.pairwise_insertionSort before rows

/-- `ORDER BY … LIMIT n`. -/
theorem topOf_take [Std.Total before] [IsTrans R before] (n : Nat) (rows : List R) :
    TopOf before n rows ((orderBy before rows).take n) where
  ordered := (orderBy_pairwise before rows).sublist (List.take_sublist n _)
  length := by rw [List.length_take, (orderBy_perm before rows).length_eq]
  best := by
    refine ⟨(orderBy before rows).drop n, ?_, take_before (orderBy_pairwise before rows) n⟩
    rw [List.take_append_drop]
    exact orderBy_perm before rows

/-- An aggregate does not see the order. -/
theorem sum_orderBy [AddCommMonoid M] (f : R → M) : ((orderBy before rows).map f).sum = (rows.map f).sum :=
  ((orderBy_perm before rows).map f).sum_eq

end Order

/-! ## The first of each group -/

section Distinct

variable [DecidableEq K] {key : R → K} (before : R → R → Prop) [DecidableRel before] {rows : List R}

/-- `DISTINCT ON (key) … ORDER BY key, before`. -/
def distinctOn (key : R → K) (rows : List R) : List R := (groupBy key rows).filterMap fun g => (orderBy before g.2).head?

/-- It is a row, and of its key no row comes before it. -/
theorem mem_distinctOn [Std.Total before] [IsTrans R before] {r : R} (h : r ∈ distinctOn before key rows) :
    r ∈ rows ∧ ∀ u ∈ rows, key u = key r → before r u := by
  obtain ⟨g, mem, first⟩ := List.mem_filterMap.1 h
  obtain ⟨-, group⟩ := mem_groupBy.1 mem
  obtain ⟨rest, sorted⟩ := List.head?_eq_some_iff.1 first
  have own : r ∈ groupOf key rows g.1 := by
    rw [← group, ← mem_orderBy before, sorted]
    exact List.mem_cons_self
  obtain ⟨there, key⟩ := mem_groupOf.1 own
  refine ⟨there, fun u mem same => ?_⟩
  have listed : u ∈ orderBy before g.2 := by
    rw [mem_orderBy, group]
    exact mem_groupOf.2 ⟨mem, same.trans key⟩
  have pairwise := orderBy_pairwise before g.2
  rw [sorted] at listed pairwise
  rcases List.mem_cons.1 listed with rfl | later
  · exact (Std.Total.total (r := before) u u).elim id id
  · exact (List.pairwise_cons.1 pairwise).1 u later

/-- A key with a row has one that is kept. -/
theorem exists_distinctOn {u : R} (mem : u ∈ rows) : ∃ r ∈ distinctOn before key rows, key r = key u := by
  have grouped : (key u, groupOf key rows (key u)) ∈ groupBy key rows := mem_groupBy.2 ⟨⟨u, mem, rfl⟩, rfl⟩
  cases sorted : orderBy before (groupOf key rows (key u)) with
  | nil =>
    have absurd : u ∈ orderBy before (groupOf key rows (key u)) := (mem_orderBy before).2 (mem_groupOf.2 ⟨mem, rfl⟩)
    rw [sorted] at absurd
    cases absurd
  | cons r rest =>
    refine ⟨r, List.mem_filterMap.2 ⟨_, grouped, by rw [sorted]; rfl⟩, ?_⟩
    have own : r ∈ groupOf key rows (key u) := (mem_orderBy before).1 (sorted ▸ List.mem_cons_self)
    exact (mem_groupOf.1 own).2

/-- And one only. -/
theorem distinctOn_keys : ((distinctOn before key rows).map key).Nodup := by
  have keys : ∀ gs : List (K × List R), (∀ g ∈ gs, ∀ r ∈ g.2, key r = g.1) →
      ((gs.filterMap fun g => (orderBy before g.2).head?).map key).Sublist (gs.map Prod.fst) := by
    intro gs
    induction gs with
    | nil => exact fun _ => List.Sublist.refl _
    | cons g rest ih =>
      intro own
      have tail := ih fun g mem => own g (List.mem_cons_of_mem _ mem)
      rw [List.filterMap_cons, List.map_cons]
      cases first : (orderBy before g.2).head? with
      | none => exact tail.cons _
      | some r =>
        have mem : r ∈ g.2 := (mem_orderBy before).1 (List.mem_of_mem_head? first)
        rw [List.map_cons, own g List.mem_cons_self r mem]
        exact tail.cons_cons _
  refine (keys (groupBy key rows) fun g mem r own => ?_).nodup groupBy_nodup
  rw [(mem_groupBy.1 mem).2] at own
  exact (mem_groupOf.1 own).2

/-- As many rows as there are keys. -/
theorem distinctOn_length : (distinctOn before key rows).length = (rows.map key).dedup.length := by
  have perm : ((distinctOn before key rows).map key).Perm (rows.map key).dedup := by
    refine (List.perm_ext_iff_of_nodup (distinctOn_keys before) (List.nodup_dedup _)).2 fun k => ?_
    rw [List.mem_dedup, List.mem_map, List.mem_map]
    constructor
    · rintro ⟨r, mem, rfl⟩
      obtain ⟨g, grouped, first⟩ := List.mem_filterMap.1 mem
      have own : r ∈ g.2 := (mem_orderBy before).1 (List.mem_of_mem_head? first)
      rw [(mem_groupBy.1 grouped).2] at own
      exact ⟨r, (mem_groupOf.1 own).1, rfl⟩
    · rintro ⟨u, mem, rfl⟩
      exact exists_distinctOn before mem
  simpa using perm.length_eq

end Distinct

end NovoApex.Lib.Aggregates
