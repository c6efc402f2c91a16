import Mathlib.Data.List.Chain
import Mathlib.Data.List.Sort
import Mathlib.Tactic.Linarith

/-!
# Windows of a timeline

The newest entries of two lists taken apart are the newest of both together, and the
last entries without a gap between neighbours are found by one scan for the last gap.
How entries with equal keys are arranged is left open.
-/

namespace NovoApex.Lib
set_option autoImplicit false

/-- A way to sort: whatever it does with entries that may stand either way. -/
structure Sorting {α : Type} (before : α → α → Prop) where
  sort : List α → List α
  perm : ∀ l, (sort l).Perm l
  sorted : ∀ l, (sort l).Pairwise before

/-- The sorting that keeps entries that may stand either way in their order. -/
def Sorting.stable {α : Type} (before : α → α → Prop) [DecidableRel before] [Std.Total before] [IsTrans α before] : Sorting before where
  sort := List.insertionSort before
  perm := List.perm_insertionSort before
  sorted := List.pairwise_insertionSort before

/-- The last `k` entries. -/
def newest {α : Type} (k : Nat) (l : List α) : List α := l.drop (l.length - k)

theorem newest_append {α : Type} {k : Nat} (front : List α) {back : List α} (full : back.length = k) : newest k (front ++ back) = back := by
  unfold newest
  rw [List.length_append, full, Nat.add_sub_cancel, List.drop_left]

theorem newest_short {α : Type} {k : Nat} {l : List α} (short : l.length ≤ k) : newest k l = l := by
  unfold newest
  rw [Nat.sub_eq_zero_of_le short, List.drop_zero]

theorem newest_map {α β : Type} (f : α → β) (k : Nat) (l : List α) : newest k (l.map f) = (newest k l).map f := by
  unfold newest
  rw [List.length_map, List.map_drop]

theorem newest_reverse {α : Type} (k : Nat) (l : List α) : newest k l.reverse = (l.take k).reverse := by
  unfold newest
  rw [List.reverse_take, List.length_reverse]

theorem newest_suffix {α : Type} (k : Nat) (l : List α) : newest k l <:+ l := List.drop_suffix _ _

section Merge

variable {α κ : Type} [LinearOrder κ] {key : α → κ} {k : Nat}

/-- What a list sorted in descending order does not show of its first entries is not newer than any of them. -/
theorem rest_of_take {l : List α} (sorted : l.Pairwise fun a b => key b ≤ key a) {r : α} (later : r ∈ l.drop k) :
    (l.take k).length = k ∧ ∀ a ∈ l.take k, key r ≤ key a := by
  have long : k < l.length := by
    have := List.length_pos_of_mem later
    rw [List.length_drop] at this
    omega
  refine ⟨by rw [List.length_take]; omega, fun a mem => ?_⟩
  rw [← List.take_append_drop k l, List.pairwise_append] at sorted
  exact sorted.2.2 a mem r later

/-- An entry that is left out on one side is not newer than any of the newest of both. -/
theorem newest_above {l front back : List α} (sorted : (front ++ back).Pairwise fun a b => key a ≤ key b) (full : back.length ≤ k)
    {shown : List α} (many : shown.length = k) (among : shown.Sublist l) (perm : (front ++ back).Perm l) {r : α}
    (above : ∀ a ∈ shown, key r ≤ key a) : ∀ t ∈ back, key r ≤ key t := by
  intro t mem
  by_contra older
  have older : key t < key r := lt_of_not_ge older
  -- count the entries that are not older than the one left out
  have front_none : front.countP (fun a => decide (key r ≤ key a)) = 0 := by
    rw [List.countP_eq_zero]
    intro a here
    rw [decide_eq_true_eq]
    exact not_le_of_gt (lt_of_le_of_lt ((List.pairwise_append.1 sorted).2.2 a here t mem) older)
  have all : shown.countP (fun a => decide (key r ≤ key a)) = k := by
    rw [← many]
    exact List.countP_eq_length.2 fun a here => decide_eq_true (above a here)
  have counted : k ≤ back.countP fun a => decide (key r ≤ key a) := by
    have := among.countP_le (p := fun a => decide (key r ≤ key a))
    rw [← perm.countP_eq, List.countP_append, front_none, all] at this
    omega
  have short : back.countP (fun a => decide (key r ≤ key a)) < back.length := by
    refine lt_of_le_of_ne List.countP_le_length fun same => ?_
    have := List.countP_eq_length.1 same t mem
    rw [decide_eq_true_eq] at this
    exact absurd this (not_le_of_gt older)
  omega

/-- The newest of what two sides show of theirs, at least as many each, are the newest of all. -/
theorem newest_merge {xs ys xs' ys' merged : List α} (permX : xs'.Perm xs) (permY : ys'.Perm ys)
    (sortedX : xs'.Pairwise fun a b => key b ≤ key a) (sortedY : ys'.Pairwise fun a b => key b ≤ key a)
    (perm : merged.Perm (xs'.take k ++ ys'.take k)) (sorted : merged.Pairwise fun a b => key a ≤ key b) :
    ∃ all : List α, all.Perm (xs ++ ys) ∧ (all.Pairwise fun a b => key a ≤ key b) ∧ newest k all = newest k merged := by
  have split : merged.take (merged.length - k) ++ newest k merged = merged := List.take_append_drop _ _
  let rest := xs'.drop k ++ ys'.drop k ++ merged.take (merged.length - k)
  have full : (newest k merged).length ≤ k := by
    unfold newest
    rw [List.length_drop]
    omega
  have older : ∀ r ∈ rest, ∀ t ∈ newest k merged, key r ≤ key t := by
    have split_sorted := sorted
    rw [← split] at split_sorted
    have split_perm := perm
    rw [← split] at split_perm
    intro r mem
    rcases List.mem_append.1 mem with unseen | dropped
    · rcases List.mem_append.1 unseen with onX | onY
      · have ⟨many, above⟩ := rest_of_take sortedX onX
        exact newest_above split_sorted full many (List.sublist_append_left _ _) split_perm above
      · have ⟨many, above⟩ := rest_of_take sortedY onY
        exact newest_above split_sorted full many (List.sublist_append_right _ _) split_perm above
    · exact (List.pairwise_append.1 split_sorted).2.2 r dropped
  refine ⟨(Sorting.stable fun a b => key a ≤ key b).sort rest ++ newest k merged, ?_, ?_, ?_⟩
  · have ends : ∀ l : List α, (l.drop k ++ l.take k).Perm l := fun l => by
      have turned : (l.drop k ++ l.take k).Perm (l.take k ++ l.drop k) := List.perm_append_comm
      rwa [List.take_append_drop] at turned
    have gathered : (rest ++ newest k merged).Perm (xs'.drop k ++ ys'.drop k ++ (xs'.take k ++ ys'.take k)) := by
      rw [List.append_assoc, split]
      exact perm.append_left _
    have paired : (xs'.drop k ++ ys'.drop k ++ (xs'.take k ++ ys'.take k)).Perm (xs' ++ ys') := by
      refine List.Perm.trans ?_ ((ends xs').append (ends ys'))
      rw [List.append_assoc, List.append_assoc]
      apply List.Perm.append_left
      rw [← List.append_assoc, ← List.append_assoc]
      exact List.perm_append_comm.append_right _
    exact ((Sorting.perm _ _).append_right _).trans (gathered.trans (paired.trans (permX.append permY)))
  · rw [List.pairwise_append]
    refine ⟨Sorting.sorted _ _, sorted.sublist (newest_suffix k merged).sublist, fun r mem t => ?_⟩
    exact older r ((Sorting.perm _ _).mem_iff.1 mem) t
  · by_cases long : k ≤ merged.length
    · apply newest_append
      unfold newest
      rw [List.length_drop]
      omega
    · -- nothing was left out on either side
      have shown := perm.length_eq
      rw [List.length_append, List.length_take, List.length_take] at shown
      have nothing : rest = [] := by
        apply List.eq_nil_of_length_eq_zero
        simp only [rest, List.length_append, List.length_drop, List.length_take]
        omega
      rw [nothing]
      have : (Sorting.stable fun a b => key a ≤ key b).sort [] = [] := rfl
      rw [this, List.nil_append, newest_short full]

end Merge

section Gaps

variable {α : Type} {gap : α → α → Bool}

/-- `for i := 1; i < len(l); i++ { if gap(l[i-1], l[i]) { last = i } }`, from `i` on. -/
def lastGapIdx (gap : α → α → Bool) : List α → Nat → Nat → Nat
  | a :: b :: rest, i, last => lastGapIdx gap (b :: rest) (i + 1) (if gap a b then i else last)
  | [_], _, last => last
  | [], _, last => last

/-- The entries from the last gap on. -/
def afterLastGap (gap : α → α → Bool) (l : List α) : List α := l.drop (lastGapIdx gap l 1 0)

/-- No gap between neighbours. -/
def Gapless (gap : α → α → Bool) (l : List α) : Prop := l.IsChain fun a b => gap a b = false

/-- The longest suffix of a list with a property. -/
structure LongestSuffix (P : List α → Prop) (l s : List α) : Prop where
  suffix : s <:+ l
  holds : P s
  longest : ∀ t, t <:+ l → P t → t <:+ s

theorem LongestSuffix.unique {P : List α → Prop} {l s t : List α} (hs : LongestSuffix P l s) (ht : LongestSuffix P l t) : s = t := by
  have here := ht.longest s hs.suffix hs.holds
  exact here.eq_of_length_le (hs.longest t ht.suffix ht.holds).length_le

/-- The scan ends at the last gap, if there is one. -/
theorem lastGapIdx_spec (l : List α) (i last : Nat) :
    ∃ before after, l = before ++ after ∧ Gapless gap after ∧
      (before = [] ∧ lastGapIdx gap l i last = last ∨
        (∃ a ∈ before.getLast?, ∃ b ∈ after.head?, gap a b = true) ∧ lastGapIdx gap l i last = i + before.length - 1) := by
  induction l generalizing i last with
  | nil => exact ⟨[], [], rfl, List.IsChain.nil, .inl ⟨rfl, rfl⟩⟩
  | cons a rest ih =>
    cases rest with
    | nil => exact ⟨[], [a], rfl, List.IsChain.singleton a, .inl ⟨rfl, rfl⟩⟩
    | cons b rest =>
      obtain ⟨before, after, parts, gapless, none_found | ⟨⟨x, lastOne, y, first, found⟩, index⟩⟩ := ih (i + 1) (if gap a b then i else last)
      · obtain ⟨rfl, index⟩ := none_found
        rw [List.nil_append] at parts
        subst parts
        by_cases here : gap a b = true
        · rw [if_pos here] at index
          refine ⟨[a], b :: rest, rfl, gapless, .inr ⟨⟨a, rfl, b, rfl, here⟩, ?_⟩⟩
          unfold lastGapIdx
          rw [if_pos here, index, List.length_singleton, Nat.add_sub_cancel]
        · rw [if_neg here] at index
          refine ⟨[], a :: b :: rest, rfl, ?_, .inl ⟨rfl, ?_⟩⟩
          · exact List.IsChain.cons_cons (Bool.not_eq_true _ ▸ here) gapless
          · unfold lastGapIdx
            rw [if_neg here, index]
      · refine ⟨a :: before, after, by rw [parts, List.cons_append], gapless, .inr ⟨⟨x, ?_, y, first, found⟩, ?_⟩⟩
        · rw [List.getLast?_cons, Option.mem_def.1 lastOne]
          rfl
        · unfold lastGapIdx
          rw [index, List.length_cons]
          omega

/-- The scan cuts at the last gap, or nowhere. -/
theorem afterLastGap_split (l : List α) :
    Gapless gap (afterLastGap gap l) ∧ ∃ before, l = before ++ afterLastGap gap l ∧
      (before = [] ∨ ∃ a ∈ before.getLast?, ∃ b ∈ (afterLastGap gap l).head?, gap a b = true) := by
  obtain ⟨before, after, rfl, gapless, ⟨rfl, index⟩ | ⟨border, index⟩⟩ := @lastGapIdx_spec _ gap l 1 0
  · unfold afterLastGap
    rw [index, List.nil_append, List.drop_zero]
    exact ⟨gapless, [], rfl, .inl rfl⟩
  · unfold afterLastGap
    rw [index, Nat.add_sub_cancel_left, List.drop_left]
    exact ⟨gapless, before, rfl, .inr border⟩

/-- From the last gap on is the longest suffix without a gap. -/
theorem afterLastGap_longest (l : List α) : LongestSuffix (Gapless gap) l (afterLastGap gap l) := by
  obtain ⟨gapless, before, parts, border⟩ := @afterLastGap_split _ gap l
  generalize afterLastGap gap l = session at gapless parts border ⊢
  subst parts
  refine ⟨List.suffix_append _ _, gapless, fun t suffix clear => ?_⟩
  rcases border with rfl | ⟨x, lastOne, y, first, found⟩
  · rwa [List.nil_append] at suffix
  · rcases List.suffix_or_suffix_of_suffix suffix (List.suffix_append _ _) with inside | ⟨more, rfl⟩
    · exact inside
    · rw [List.suffix_append_self_iff] at suffix
      rcases List.eq_nil_or_concat more with rfl | ⟨front, z, rfl⟩
      · exact List.suffix_rfl
      · -- a longer suffix crosses the gap
        obtain ⟨farther, rfl⟩ := suffix
        have last : z = x := by
          rw [List.concat_eq_append, ← List.append_assoc, List.getLast?_concat] at lastOne
          exact Option.some.inj lastOne
        have apart := (List.isChain_append.1 clear).2.2 z (by rw [List.concat_eq_append, List.getLast?_concat]; rfl) y first
        rw [last, found] at apart
        cases apart

theorem lastGapIdx_map {κ : Type} (gap : κ → κ → Bool) (key : α → κ) (l : List α) (i last : Nat) :
    lastGapIdx gap (l.map key) i last = lastGapIdx (fun a b => gap (key a) (key b)) l i last := by
  induction l generalizing i last with
  | nil => rfl
  | cons a rest ih =>
    cases rest with
    | nil => rfl
    | cons b rest => exact ih _ _

theorem afterLastGap_map {κ : Type} (gap : κ → κ → Bool) (key : α → κ) (l : List α) :
    afterLastGap gap (l.map key) = (afterLastGap (fun a b => gap (key a) (key b)) l).map key := by
  unfold afterLastGap
  rw [lastGapIdx_map, List.map_drop]

end Gaps

section Sessions

variable {α κ : Type} [LinearOrder κ] {key : α → κ} {gap : κ → κ → Bool}

/-- A gap lies between two neighbours of which none is older than `t`. -/
def GapFrom (gap : κ → κ → Bool) (line : List κ) (t : κ) : Prop :=
  ∃ before a b after, line = before ++ a :: b :: after ∧ t ≤ a ∧ gap a b = true

theorem gap_apart (still : ∀ a, gap a a = false) {a b : κ} (le : a ≤ b) (found : gap a b = true) : a < b := by
  refine lt_of_le_of_ne le fun same => ?_
  rw [same, still] at found
  cases found

/-- Where equal keys have no gap, the cut leaves the keys before it behind. -/
theorem afterLastGap_border (still : ∀ a, gap a a = false) {line : List κ} (sorted : line.Pairwise (· ≤ ·)) :
    ∃ before, line = before ++ afterLastGap gap line ∧ (∀ a ∈ before, GapFrom gap line a) ∧
      ∀ a ∈ before, ∀ b ∈ afterLastGap gap line, a < b := by
  obtain ⟨-, before, parts, rfl | ⟨x, lastOne, y, first, found⟩⟩ := @afterLastGap_split _ gap line
  · exact ⟨[], parts, fun a mem => absurd mem List.not_mem_nil, fun a mem => absurd mem List.not_mem_nil⟩
  · obtain ⟨front, rfl⟩ := List.getLast?_eq_some_iff.1 lastOne
    obtain ⟨back, start⟩ := List.head?_eq_some_iff.1 first
    rw [start] at parts ⊢
    have split_sorted := sorted
    rw [parts, List.pairwise_append] at split_sorted
    have upto : ∀ a ∈ front ++ [x], a ≤ x := by
      intro a mem
      rcases List.mem_append.1 mem with mem | mem
      · exact (List.pairwise_append.1 split_sorted.1).2.2 a mem x (List.mem_singleton_self x)
      · rw [List.mem_singleton.1 mem]
    refine ⟨front ++ [x], parts, fun a mem => ?_, fun a mem b later => ?_⟩
    · refine ⟨front, x, y, back, ?_, upto a mem, found⟩
      rw [parts, List.append_assoc, List.singleton_append]
    · have from_y : y ≤ b := by
        rcases List.mem_cons.1 later with rfl | later
        · exact le_rfl
        · exact List.rel_of_pairwise_cons split_sorted.2.1 later
      have apart : x < y := gap_apart still (split_sorted.2.2 x (List.mem_append_right _ (List.mem_singleton_self x)) y List.mem_cons_self) found
      exact lt_of_le_of_lt (upto a mem) (lt_of_lt_of_le apart from_y)

/-- A key stays exactly when no gap follows it. -/
theorem mem_afterLastGap (still : ∀ a, gap a a = false) {line : List κ} (sorted : line.Pairwise (· ≤ ·)) {t : κ} :
    t ∈ afterLastGap gap line ↔ t ∈ line ∧ ¬ GapFrom gap line t := by
  obtain ⟨before, parts, followed, -⟩ := afterLastGap_border still sorted
  constructor
  · intro stays
    have here : afterLastGap gap line <:+ line := ⟨before, parts.symm⟩
    refine ⟨here.subset stays, ?_⟩
    rintro ⟨front, a, b, back, cut, older, found⟩
    have gapless := (@afterLastGap_split _ gap line).1
    have tail : a :: b :: back <:+ line := ⟨front, cut.symm⟩
    rcases List.suffix_or_suffix_of_suffix tail here with ⟨more, inside⟩ | after
    · rw [← inside] at gapless
      have := (List.isChain_cons_cons.1 (List.isChain_append.1 gapless).2.1).1
      rw [found] at this
      cases this
    · rcases List.suffix_cons_iff.1 after with same | after
      · rw [same] at gapless
        have := (List.isChain_cons_cons.1 gapless).1
        rw [found] at this
        cases this
      · -- what stays is newer than the gap
        have suffix_sorted := sorted.sublist tail.sublist
        have apart : a < b := gap_apart still (List.rel_of_pairwise_cons suffix_sorted List.mem_cons_self) found
        have from_b : b ≤ t := by
          rcases List.mem_cons.1 (after.subset stays) with rfl | later
          · exact le_rfl
          · exact List.rel_of_pairwise_cons (List.Pairwise.of_cons suffix_sorted) later
        exact absurd (lt_of_le_of_lt older apart) (not_lt_of_ge from_b)
  · rintro ⟨mem, clear⟩
    rw [parts] at mem
    rcases List.mem_append.1 mem with mem | mem
    · exact absurd (followed t mem) clear
    · exact mem

/-- The entries from the last gap on are those whose keys stay. -/
theorem afterLastGap_filter (still : ∀ a, gap a a = false) {l : List α} (sorted : l.Pairwise fun a b => key a ≤ key b) :
    afterLastGap (fun a b => gap (key a) (key b)) l = l.filter fun x => decide (key x ∈ afterLastGap gap (l.map key)) := by
  have keys_sorted : (l.map key).Pairwise (· ≤ ·) := List.pairwise_map.2 sorted
  obtain ⟨before, parts, -, older⟩ := afterLastGap_border still keys_sorted
  obtain ⟨-, front, cut, -⟩ := @afterLastGap_split _ (fun a b => gap (key a) (key b)) l
  generalize stays : afterLastGap (fun a b => gap (key a) (key b)) l = session at cut
  rw [afterLastGap_map, stays] at parts older ⊢
  have same : before = front.map key := by
    rw [cut, List.map_append] at parts
    exact (List.append_cancel_right parts).symm
  subst same
  conv => rhs; rw [cut]
  rw [List.filter_append, List.filter_eq_nil_iff.2, List.filter_eq_self.2, List.nil_append]
  · exact fun x mem => decide_eq_true (List.mem_map_of_mem mem)
  · intro x mem stays
    exact lt_irrefl _ (older _ (List.mem_map_of_mem mem) _ (of_decide_eq_true stays))

/-- The keys of some entries, in order. -/
def timeline (key : α → κ) (l : List α) : List κ := (Sorting.stable (α := κ) (· ≤ ·)).sort (l.map key)

theorem timeline_sorted (l : List α) : (timeline key l).Pairwise (· ≤ ·) := Sorting.sorted _ _

/-- However the entries are arranged, their keys are. -/
theorem map_key_eq_timeline {all l : List α} (perm : all.Perm l) (sorted : all.Pairwise fun a b => key a ≤ key b) :
    all.map key = timeline key l :=
  ((perm.map key).trans (Sorting.perm _ _).symm).eq_of_pairwise' (List.pairwise_map.2 sorted) (timeline_sorted l)

/-- Fewer than `k` keys are newer than one of the newest `k`. -/
theorem few_newer {line : List κ} (sorted : line.Pairwise (· ≤ ·)) {k : Nat} {t : κ} (mem : t ∈ newest k line) :
    line.countP (fun u => decide (t < u)) < k := by
  have split : line.take (line.length - k) ++ newest k line = line := List.take_append_drop _ _
  have short : (newest k line).length ≤ k := by
    unfold newest
    rw [List.length_drop]
    omega
  rw [← split] at sorted ⊢
  have none_before : (line.take (line.length - k)).countP (fun u => decide (t < u)) = 0 := by
    rw [List.countP_eq_zero]
    intro a here
    rw [decide_eq_true_eq]
    exact not_lt_of_ge ((List.pairwise_append.1 sorted).2.2 a here t mem)
  have not_all : (newest k line).countP (fun u => decide (t < u)) < (newest k line).length := by
    refine lt_of_le_of_ne List.countP_le_length fun same => ?_
    have := List.countP_eq_length.1 same t mem
    rw [decide_eq_true_eq] at this
    exact lt_irrefl t this
  rw [List.countP_append, none_before]
  omega

end Sessions

section Favor

variable {α κ : Type} [LinearOrder κ]

/-- The other way round. -/
def Sorting.reversed {key : α → κ} (up : Sorting fun a b : α => key a ≤ key b) : Sorting fun a b : α => key b ≤ key a where
  sort l := (up.sort l).reverse
  perm l := (List.reverse_perm _).trans (up.perm l)
  sorted l := List.pairwise_reverse.2 (up.sorted l)

theorem Sorting.take_reversed {key : α → κ} (up : Sorting fun a b : α => key a ≤ key b) (k : Nat) (l : List α) :
    (up.reversed.sort l).take k = (newest k (up.sort l)).reverse := List.take_reverse

variable [DecidableEq α]

/-- Ascending keys, one entry after the others of its key. -/
def Favored (key : α → κ) (x a b : α) : Prop := key a < key b ∨ key a = key b ∧ (a = x → b = x)

instance (key : α → κ) (x : α) : DecidableRel (Favored key x) := fun _ _ => inferInstanceAs (Decidable (_ ∨ _))

instance (key : α → κ) (x : α) : Std.Total (Favored key x) where
  total a b := by
    rcases lt_trichotomy (key a) (key b) with less | same | more
    · exact .inl (.inl less)
    · by_cases here : b = x
      · exact .inl (.inr ⟨same, fun _ => here⟩)
      · exact .inr (.inr ⟨same.symm, fun there => absurd there here⟩)
    · exact .inr (.inl more)

instance (key : α → κ) (x : α) : IsTrans α (Favored key x) where
  trans a b c ab bc := by
    rcases ab with ab | ⟨ab, keepsAB⟩
    · rcases bc with bc | ⟨bc, -⟩
      · exact .inl (ab.trans bc)
      · exact .inl (bc ▸ ab)
    · rcases bc with bc | ⟨bc, keepsBC⟩
      · exact .inl (ab ▸ bc)
      · exact .inr ⟨ab.trans bc, fun here => keepsBC (keepsAB here)⟩

/-- The sorting that arranges one entry as late as its key allows. -/
def Sorting.favor (key : α → κ) (x : α) : Sorting fun a b : α => key a ≤ key b where
  sort := List.insertionSort (Favored key x)
  perm := List.perm_insertionSort _
  sorted l := (List.pairwise_insertionSort (Favored key x) l).imp fun earlier => by
    rcases earlier with less | ⟨same, -⟩
    · exact less.le
    · exact same.le

/-- An entry that could be among the newest is, if it is favored. -/
theorem Sorting.favor_shown {key : α → κ} {x : α} {k : Nat} {l : List α} (mem : x ∈ l)
    (few : l.countP (fun y => decide (key x < key y)) < k) : x ∈ newest k ((Sorting.favor key x).sort l) := by
  have arranged : ((Sorting.favor key x).sort l).Pairwise (Favored key x) := List.pairwise_insertionSort (Favored key x) l
  have perm := (Sorting.favor key x).perm l
  generalize (Sorting.favor key x).sort l = all at arranged perm ⊢
  have split : all.take (all.length - k) ++ newest k all = all := List.take_append_drop _ _
  rw [← perm.mem_iff, ← split] at mem
  rcases List.mem_append.1 mem with left | shown
  · by_contra out
    rw [← split] at arranged
    have above : ∀ y ∈ newest k all, decide (key x < key y) = true := by
      intro y here
      rcases (List.pairwise_append.1 arranged).2.2 x left y here with newer | ⟨-, keeps⟩
      · exact decide_eq_true newer
      · exact absurd (keeps rfl ▸ here) out
    have many : (newest k all).length = k := by
      have := List.length_pos_of_mem left
      rw [List.length_take] at this
      unfold newest
      rw [List.length_drop]
      omega
    have counted := List.countP_eq_length.2 above
    rw [← perm.countP_eq, ← split, List.countP_append] at few
    omega
  · exact shown

end Favor

section Steady

variable {α : Type} {before : α → α → Prop}

/-- Leaving entries out does not rearrange the others. -/
def Sorting.Steady (s : Sorting before) : Prop := ∀ (p : α → Bool) l, (s.sort l).filter p = s.sort (l.filter p)

theorem filter_orderedInsert {r : α → α → Prop} [DecidableRel r] [IsTrans α r] (p : α → Bool) (a : α) {l : List α} (sorted : l.Pairwise r) :
    (l.orderedInsert r a).filter p = if p a then (l.filter p).orderedInsert r a else l.filter p := by
  induction l with
  | nil => rw [List.orderedInsert_nil, List.filter_cons, List.filter_nil, List.orderedInsert_nil]
  | cons b l ih =>
    have ih := ih (List.Pairwise.of_cons sorted)
    by_cases here : r a b
    · rw [List.orderedInsert_cons_of_le r l here]
      by_cases kept : p a = true
      · rw [if_pos kept, List.filter_cons_of_pos kept]
        have least : ∀ c ∈ (b :: l).filter p, r a c := by
          intro c mem
          rcases List.mem_cons.1 (List.mem_of_mem_filter mem) with rfl | mem
          · exact here
          · exact IsTrans.trans _ _ _ here (List.rel_of_pairwise_cons sorted mem)
        generalize (b :: l).filter p = rest at least
        cases rest with
        | nil => rfl
        | cons c rest => exact (List.orderedInsert_cons_of_le r rest (least c List.mem_cons_self)).symm
      · rw [if_neg kept, List.filter_cons_of_neg kept]
    · rw [List.orderedInsert_of_not_le r l here]
      by_cases shown : p b = true
      · rw [List.filter_cons_of_pos shown, ih, List.filter_cons_of_pos shown]
        split
        · exact (List.orderedInsert_of_not_le r _ here).symm
        · rfl
      · rw [List.filter_cons_of_neg shown, ih, List.filter_cons_of_neg shown]

theorem filter_insertionSort {r : α → α → Prop} [DecidableRel r] [Std.Total r] [IsTrans α r] (p : α → Bool) (l : List α) :
    (l.insertionSort r).filter p = (l.filter p).insertionSort r := by
  induction l with
  | nil => rfl
  | cons a l ih =>
    rw [List.insertionSort_cons, filter_orderedInsert p a (List.pairwise_insertionSort r l), ih, List.filter_cons]
    split
    · rfl
    · rfl

theorem Sorting.steady_stable [DecidableRel before] [Std.Total before] [IsTrans α before] : (Sorting.stable before).Steady :=
  filter_insertionSort

theorem Sorting.steady_favor {κ : Type} [LinearOrder κ] [DecidableEq α] {key : α → κ} {x : α} : (Sorting.favor key x).Steady :=
  filter_insertionSort

theorem Sorting.Steady.reversed {κ : Type} [LinearOrder κ] {key : α → κ} {up : Sorting fun a b : α => key a ≤ key b} (steady : up.Steady) :
    up.reversed.Steady := by
  intro p l
  show (up.sort l).reverse.filter p = (up.sort (l.filter p)).reverse
  rw [List.filter_reverse, steady p l]

variable {κ : Type} [LinearOrder κ] {key : α → κ} {k : Nat}

/-- A list whose first part a test leaves out and whose second part it keeps, or the other way round. -/
theorem split_filter {p : α → Bool} {l : List α} (stays : l.Pairwise fun a b => p a = true → p b = true) :
    l = l.filter (fun a => !p a) ++ l.filter p := by
  induction l with
  | nil => rfl
  | cons a l ih =>
    have ih := ih (List.Pairwise.of_cons stays)
    by_cases kept : p a = true
    · have all : l.filter p = l := List.filter_eq_self.2 fun b mem => List.rel_of_pairwise_cons stays mem kept
      have rest : l.filter (fun a => !p a) = [] := by
        rw [List.filter_eq_nil_iff]
        intro b mem
        rw [List.rel_of_pairwise_cons stays mem kept]
        decide
      rw [List.filter_cons_of_pos kept, List.filter_cons_of_neg (by rw [kept]; decide), rest, all, List.nil_append]
    · rw [List.filter_cons_of_neg kept, List.filter_cons_of_pos (by rw [Bool.eq_false_iff.2 kept]; rfl), List.cons_append, ← ih]

/-- The newest of what a test keeps, where it keeps the newer part. -/
theorem newest_filter {p : α → Bool} {l : List α} (stays : l.Pairwise fun a b => p a = true → p b = true) :
    newest k (l.filter p) = (newest k l).filter p := by
  have out : (l.filter fun a => !p a).filter p = [] := by
    rw [List.filter_filter, List.filter_eq_nil_iff]
    intro a _
    cases p a <;> decide
  have kept : ∀ n, ((l.filter p).drop n).filter p = (l.filter p).drop n := fun n =>
    List.filter_eq_self.2 fun a mem => (List.mem_filter.1 (List.mem_of_mem_drop mem)).2
  conv => rhs; rw [split_filter stays]
  unfold newest
  rw [List.length_append, List.drop_append, List.filter_append, kept]
  have none_left : ((l.filter fun a => !p a).drop ((l.filter fun a => !p a).length + (l.filter p).length - k)).filter p = [] := by
    rw [List.filter_eq_nil_iff] at out ⊢
    exact fun a mem => out a (List.mem_of_mem_drop mem)
  rw [none_left, List.nil_append]
  congr 1
  omega

/-- The first of what a test keeps, where it keeps the first part. -/
theorem take_filter {p : α → Bool} {l : List α} (stays : l.Pairwise fun a b => p b = true → p a = true) :
    (l.filter p).take k = (l.take k).filter p := by
  have reversed := @newest_filter _ k p l.reverse (List.pairwise_reverse.2 stays)
  rw [List.filter_reverse, newest_reverse, newest_reverse, List.filter_reverse] at reversed
  exact List.reverse_injective reversed

theorem Gapless.of_suffix {gap : α → α → Bool} {l s : List α} (gapless : Gapless gap l) (suffix : s <:+ l) : Gapless gap s := by
  obtain ⟨front, rfl⟩ := suffix
  exact (List.isChain_append.1 gapless).2.1

/-- The last stretch of what a test keeps, where it keeps the newer part. -/
theorem afterLastGap_kept {gap : α → α → Bool} {p : α → Bool} {l : List α} (stays : l.Pairwise fun a b => p a = true → p b = true) :
    afterLastGap gap (l.filter p) = (afterLastGap gap l).filter p := by
  have whole := @afterLastGap_longest _ gap l
  have kept_suffix : l.filter p <:+ l := ⟨_, (split_filter stays).symm⟩
  have kept_session : (afterLastGap gap l).filter p <:+ afterLastGap gap l :=
    ⟨_, (split_filter (stays.sublist whole.suffix.sublist)).symm⟩
  refine (afterLastGap_longest _).unique ⟨whole.suffix.filter p, whole.holds.of_suffix kept_session, fun t suffix gapless => ?_⟩
  have filtered := (whole.longest t (suffix.trans kept_suffix) gapless).filter p
  rwa [List.filter_eq_self.2 fun a mem => (List.mem_filter.1 (suffix.subset mem)).2] at filtered

end Steady

end NovoApex.Lib
