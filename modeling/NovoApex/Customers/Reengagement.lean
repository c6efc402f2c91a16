import NovoApex.Workers.Retention

/-!
# Re-engagements are a cooldown apart

A scan enqueues a task and stamps the customer's profile in its transaction; the task
stays when the transaction is rolled back. A scan that fails after its first task takes
back the stamps of everybody it has contacted, and the next one contacts them again. As
long as a scan that has enqueued a task is not rolled back, any two tasks of a customer
are the cooldown apart: the lock makes the stamps that a scan reads cover every task
there is.
-/

namespace NovoApex.Customers
set_option autoImplicit false
open Lib Program Db Workers

/-- The cooldown in milliseconds. -/
def cooldown (deps : RetentionDeps) : Int := deps.cooldownDays * dayMillis

/-- Any two tasks of a customer are the cooldown apart. -/
def Spaced (deps : RetentionDeps) (w : RetentionWorld) : Prop :=
  w.tasks.Pairwise fun a b => a.payload.customerID = b.payload.customerID → a.time + cooldown deps ≤ b.time

/-- A scan enqueues nothing once its transaction is rolled back, and its transaction is not rolled back once it has
enqueued a task. -/
def commitsTasks (w : RetentionWorld) : RetentionStmt → Prop
  | .enqueue tx _ _ => ∃ stamps, w.scans.state tx = .active stamps
  | .rollback tx => (∃ stamps, w.scans.state tx = .active stamps) → ∀ task ∈ w.tasks, task.tx ≠ tx
  | _ => True

/-! ## The cooldown -/

theorem daysSince_lt (now t : Int) (days : Nat) : daysSince now t < days ↔ now - t < days * dayMillis := by
  have positive : (0 : ℚ) < dayMillis := by decide
  unfold daysSince
  rw [div_lt_iff₀ positive]
  exact_mod_cast Iff.rfl

/-- A profile that is not passed over has cooled down. -/
theorem cooled {deps : RetentionDeps} {now b : Int} {p : ProfileRow} (due : deps.skips now p = false)
    (last : p.lastReengagement = some b) : b + cooldown deps ≤ now := by
  unfold RetentionDeps.skips at due
  rw [last, Option.any_some, Bool.or_eq_false_iff, decide_eq_false_iff_not, decide_eq_false_iff_not, daysSince_lt] at due
  unfold cooldown
  omega

theorem cooldown_nonneg (deps : RetentionDeps) : 0 ≤ cooldown deps := by
  unfold cooldown dayMillis
  omega

/-! ## Stamps -/

theorem stamp_rows {profiles : Table RetentionProfile.customerID} {s : Stamp} {p : RetentionProfile} (mem : p ∈ profiles.rows) :
    ∃ q ∈ (s.apply profiles).rows, q.customerID = p.customerID ∧
      q.lastReengagementAt = if p.customerID = s.customerID then some s.time else p.lastReengagementAt := by
  refine ⟨_, List.mem_map_of_mem mem, ?_⟩
  unfold Table.rewrite
  by_cases same : p.customerID = s.customerID
  · simp [same]
  · simp [same]

/-- The stamps of a scan leave a profile with the last of its own, or as it was. -/
theorem applyStamps_rows {now : Int} (stamps : List Stamp) (times : ∀ s ∈ stamps, s.time = now)
    {profiles : Table RetentionProfile.customerID} {p : RetentionProfile} (mem : p ∈ profiles.rows) :
    ∃ q ∈ (applyStamps profiles stamps).rows, q.customerID = p.customerID ∧
      q.lastReengagementAt = if p.customerID ∈ stamps.map Stamp.customerID then some now else p.lastReengagementAt := by
  induction stamps generalizing profiles p with
  | nil => exact ⟨p, mem, rfl, by simp⟩
  | cons s rest ih =>
    obtain ⟨q, stamped, same, last⟩ := stamp_rows (s := s) mem
    obtain ⟨r, after, same', last'⟩ := ih (fun t ht => times t (List.mem_cons_of_mem _ ht)) stamped
    refine ⟨r, after, same'.trans same, ?_⟩
    rw [last', last, same, times s List.mem_cons_self]
    by_cases later : p.customerID ∈ rest.map Stamp.customerID
    · simp [later]
    · by_cases now' : p.customerID = s.customerID
      · simp [now']
      · simp [later, now']

/-! ## What a scan knows -/

/-- How far a scan is: it has begun; it has the lock; or these profiles are left, and one customer may have a task and no
stamp yet. -/
inductive ScanStage where
  | begun
  | locked
  | holding (now : Int) (rest : List ProfileRow) (pending : Option String)

/-- The stamps and the profiles that are left, as they are while the scan holds the lock. -/
structure Holding (tx : String) (now : Int) (rest : List ProfileRow) (pending : Option String) (stamps : List Stamp)
    (w : RetentionWorld) : Prop where
  holder : w.scans.holder = some tx
  active : w.scans.state tx = .active stamps
  tasks : ∀ task ∈ w.tasks, task.tx = tx → task.time = now ∧
    (task.payload.customerID ∈ stamps.map Stamp.customerID ∨ pending = some task.payload.customerID)
  stamped : ∀ s ∈ stamps, s.time = now ∧ s.customerID ∉ rest.map ProfileRow.customerID ∧
    ∃ p ∈ w.profiles.rows, p.customerID = s.customerID ∧ ∀ b, p.lastReengagementAt = some b → b ≤ now
  left : ∀ r ∈ rest, ∃ p ∈ w.profiles.rows, p.customerID = r.customerID ∧ p.lastReengagementAt = r.lastReengagement

/-- What a scan knows at a stage. -/
def Knows (tx : String) : ScanStage → RetentionWorld → Prop
  | .begun, w => w.scans.state tx = .active [] ∧ ∀ task ∈ w.tasks, task.tx ≠ tx
  | .locked, w => w.scans.holder = some tx ∧ w.scans.state tx = .active [] ∧ ∀ task ∈ w.tasks, task.tx ≠ tx
  | .holding now rest pending, w => ∃ stamps, Holding tx now rest pending stamps w

/-- The connection was lost, and nobody was contacted. -/
def Dead (tx : String) (w : RetentionWorld) : Prop := w.scans.state tx = .rolledBack ∧ ∀ task ∈ w.tasks, task.tx ≠ tx

/-- What a scan knows, unless its connection was lost. -/
def Stands (tx : String) (stage : ScanStage) (w : RetentionWorld) : Prop := Dead tx w ∨ Knows tx stage w

/-- Every task belongs to the scan that holds the lock, or its stamp is visible. -/
def Settled (w : RetentionWorld) : Prop := ∀ task ∈ w.tasks,
  (w.scans.holder = some task.tx ∧ ∃ stamps, w.scans.state task.tx = .active stamps) ∨
    (∃ stamps, w.scans.state task.tx = .committed stamps) ∧
      ∃ p ∈ w.profiles.rows, p.customerID = task.payload.customerID ∧ ∃ b, p.lastReengagementAt = some b ∧ task.time ≤ b

/-- A scan relies on the others for what it knows. -/
def retentionProtocol (deps : RetentionDeps) : Protocol RetentionName RetentionWorld where
  inv w := Spaced deps w ∧ Settled w
  rely i s t := match i with
    | .scan tx => ∀ stage, Stands tx stage s → Stands tx stage t
    | _ => True
  refl i s := by cases i <;> simp
  trans i s t u first second := by
    cases i with
    | scan tx => exact fun stage known => second stage (first stage known)
    | _ => trivial

/-! ## What leaves a scan alone -/

/-- Every profile is still there with its stamp. -/
def LastKept (s t : RetentionWorld) : Prop :=
  ∀ p ∈ s.profiles.rows, ∃ q ∈ t.profiles.rows, q.customerID = p.customerID ∧ q.lastReengagementAt = p.lastReengagementAt

theorem LastKept.of_eq {s t : RetentionWorld} (same : t.profiles = s.profiles) : LastKept s t :=
  fun p mem => ⟨p, same ▸ mem, rfl, rfl⟩

/-- A step that a scan does not notice. -/
structure Beside (tx : String) (s t : RetentionWorld) : Prop where
  state : t.scans.state tx = s.scans.state tx
  holder : s.scans.holder = some tx → t.scans.holder = some tx
  tasks : ∀ task ∈ t.tasks, task.tx = tx → task ∈ s.tasks
  kept : s.scans.holder = some tx → LastKept s t

theorem Beside.holding {tx : String} {now : Int} {rest : List ProfileRow} {pending : Option String} {stamps : List Stamp}
    {s t : RetentionWorld} (h : Beside tx s t) (known : Holding tx now rest pending stamps s) :
    Holding tx now rest pending stamps t := by
  have kept := h.kept known.holder
  constructor
  · exact h.holder known.holder
  · rw [h.state]
    exact known.active
  · intro task mem own
    exact known.tasks task (h.tasks task mem own) own
  · intro stamp mem
    obtain ⟨time, apart, p, hp, same, last⟩ := known.stamped stamp mem
    obtain ⟨q, hq, same', last'⟩ := kept p hp
    exact ⟨time, apart, q, hq, same'.trans same, fun b hb => last b (last' ▸ hb)⟩
  · intro r mem
    obtain ⟨p, hp, same, last⟩ := known.left r mem
    obtain ⟨q, hq, same', last'⟩ := kept p hp
    exact ⟨q, hq, same'.trans same, last'.trans last⟩

theorem Beside.stands {tx : String} {stage : ScanStage} {s t : RetentionWorld} (h : Beside tx s t) (known : Stands tx stage s) :
    Stands tx stage t := by
  have none : (∀ task ∈ s.tasks, task.tx ≠ tx) → ∀ task ∈ t.tasks, task.tx ≠ tx :=
    fun none task mem own => none task (h.tasks task mem own) own
  rcases known with ⟨dead, quiet⟩ | known
  · exact .inl ⟨h.state.trans dead, none quiet⟩
  · refine .inr ?_
    cases stage with
    | begun => exact ⟨h.state.trans known.1, none known.2⟩
    | locked => exact ⟨h.holder known.1, h.state.trans known.2.1, none known.2.2⟩
    | holding now rest pending =>
      obtain ⟨stamps, holding⟩ := known
      exact ⟨stamps, h.holding holding⟩

/-- A step that keeps the scans, the tasks and the stamps. -/
theorem beside_of_same {s t : RetentionWorld} (scans : t.scans = s.scans) (tasks : t.tasks = s.tasks) (kept : LastKept s t)
    (tx : String) : Beside tx s t :=
  ⟨by rw [scans], fun holds => by rw [scans]; exact holds, fun _ mem _ => tasks ▸ mem, fun _ => kept⟩

/-- The invariant under a step that keeps the tasks. -/
theorem settled_of_beside {s t : RetentionWorld} (inv : Settled s) (tasks : t.tasks = s.tasks)
    (beside : ∀ task ∈ s.tasks, Beside task.tx s t) (kept : LastKept s t) : Settled t := by
  intro task mem
  rw [tasks] at mem
  have h := beside task mem
  rcases inv task mem with ⟨holds, stamps, active⟩ | ⟨⟨stamps, committed⟩, p, hp, same, b, last, le⟩
  · exact .inl ⟨h.holder holds, stamps, h.state.trans active⟩
  · obtain ⟨q, hq, same', last'⟩ := kept p hp
    exact .inr ⟨⟨stamps, h.state.trans committed⟩, q, hq, same'.trans same, b, last'.trans last, le⟩

theorem spaced_of_tasks {deps : RetentionDeps} {s t : RetentionWorld} (inv : Spaced deps s) (tasks : t.tasks = s.tasks) :
    Spaced deps t := by
  unfold Spaced
  rw [tasks]
  exact inv

/-! ## Statements -/

section Statements

variable {deps : RetentionDeps} {w : RetentionWorld}

theorem kept_update (p : RetentionProfile → Bool) (f : RetentionProfile → RetentionProfile)
    (keeps : ∀ r, (f r).customerID = r.customerID) (last : ∀ r, (f r).lastReengagementAt = r.lastReengagementAt) :
    LastKept w { w with profiles := w.profiles.update p f keeps } := by
  intro r mem
  refine ⟨_, List.mem_map_of_mem mem, Table.rewrite_key keeps r, ?_⟩
  unfold Table.rewrite
  split
  · exact last r
  · rfl

theorem kept_insert {row : RetentionProfile} {profiles : Table RetentionProfile.customerID}
    (inserted : w.profiles.insert row = some profiles) : LastKept w { w with profiles := profiles } := by
  intro r mem
  refine ⟨r, ?_, rfl, rfl⟩
  show r ∈ profiles.rows
  rw [(Table.insert_eq_some.1 inserted).2]
  exact List.mem_append_left _ mem

/-- What a step keeps that no scan notices. -/
theorem keeps_same {t : RetentionWorld} (scans : t.scans = w.scans) (tasks : t.tasks = w.tasks) (kept : LastKept w t)
    (inv : (retentionProtocol deps).inv w) :
    (retentionProtocol deps).inv t ∧ ∀ tx stage, Stands tx stage w → Stands tx stage t := by
  have beside := beside_of_same scans tasks kept
  exact ⟨⟨spaced_of_tasks inv.1 tasks, settled_of_beside inv.2 tasks (fun task _ => beside task.tx) kept⟩,
    fun tx stage known => (beside tx).stands known⟩

/-- A step that ends one transaction of which there is no task. -/
theorem keeps_rollback {tx : String} (may : commitsTasks w (.rollback tx)) (inv : (retentionProtocol deps).inv w) :
    (retentionProtocol deps).inv (rollbackScan tx w) ∧ ∀ other stage, Stands other stage w → Stands other stage (rollbackScan tx w) := by
  unfold rollbackScan
  split
  · rename_i stamps active
    have quiet := may ⟨stamps, active⟩
    have beside : ∀ other, other ≠ tx → Beside other w { w with scans := w.scans.finish tx .rolledBack } := by
      intro other ne
      exact ⟨Function.update_of_ne ne _ _, fun holds => Transactions.finish_holder_of_ne _ holds ne, fun _ mem _ => mem,
        fun _ => .of_eq rfl⟩
    refine ⟨⟨spaced_of_tasks inv.1 rfl, ?_⟩, ?_⟩
    · exact settled_of_beside inv.2 rfl (fun task mem => beside task.tx (quiet task mem)) (.of_eq rfl)
    · intro other stage known
      by_cases own : other = tx
      · subst own
        exact .inl ⟨Function.update_self .., quiet⟩
      · exact (beside other own).stands known
  · exact ⟨inv, fun _ _ known => known⟩

/-- The statements that anybody may issue. -/
def Passive : RetentionStmt → Prop
  | .begin _ | .lockScanner _ | .enqueue .. | .stamp .. | .commit _ => False
  | _ => True

/-- A statement that anybody may issue keeps the protocol. -/
theorem keeps_passive {op : RetentionStmt} (passive : Passive op) (may : commitsTasks w op)
    (inv : (retentionProtocol deps).inv w) :
    (retentionProtocol deps).inv (retentionExec op w).2 ∧
      ∀ tx stage, Stands tx stage w → Stands tx stage (retentionExec op w).2 := by
  have unchanged : ∀ {t : RetentionWorld}, t = w → (retentionProtocol deps).inv t ∧
      ∀ tx stage, Stands tx stage w → Stands tx stage t := by
    rintro t rfl
    exact ⟨inv, fun _ _ known => known⟩
  cases op with
  | begin tx => exact passive.elim
  | lockScanner tx => exact passive.elim
  | enqueue tx payload time => exact passive.elim
  | stamp tx customerID time => exact passive.elim
  | commit tx => exact passive.elim
  | profiles tx => exact unchanged (withinScan_reads tx w _)
  | now => exact unchanged rfl
  | lastOrder tx customerID => exact unchanged (withinScan_reads tx w _)
  | rollback tx => exact keeps_rollback may inv
  | tick later =>
    apply keeps_same _ _ _ inv
    · rfl
    · rfl
    · exact .of_eq rfl
  | insertProfile customerID =>
    simp only [retentionExec]
    split
    · rename_i profiles inserted
      exact keeps_same rfl rfl (kept_insert inserted) inv
    · exact unchanged rfl
  | setStats customerID lastOrderAt orderFrequencyDays =>
    apply keeps_same _ _ _ inv
    · rfl
    · rfl
    · exact kept_update _ _ _ fun _ => rfl
  | insertOrder row =>
    simp only [retentionExec]
    split
    · exact keeps_same rfl rfl (.of_eq rfl) inv
    · exact unchanged rfl

end Statements

/-! ## A scan's own statements -/

section Scan

variable {deps : RetentionDeps} {tx : String} {w : RetentionWorld}

/-- The runs in which scans commit their tasks. -/
abbrev committing (deps : RetentionDeps) : Roster retentionStore RetentionName RetentionWorld := retentionFlow deps commitsTasks

/-- A scan has a task only while it is open or once it has committed. -/
theorem no_tasks {w : RetentionWorld} (inv : Settled w) (active : ∀ stamps, w.scans.state tx ≠ .active stamps)
    (committed : ∀ stamps, w.scans.state tx ≠ .committed stamps) : ∀ task ∈ w.tasks, task.tx ≠ tx := by
  rintro task mem rfl
  rcases inv task mem with ⟨-, stamps, here⟩ | ⟨⟨stamps, here⟩, -⟩
  · exact active stamps here
  · exact committed stamps here

theorem Dead.ended (dead : Dead tx w) (stamps : List Stamp) : w.scans.state tx ≠ .active stamps := by
  rw [dead.1]
  intro h
  cases h

/-- What the others rely on, under a step of this scan. -/
theorem others_rely {s t : RetentionWorld} (h : ∀ other, other ≠ tx → Beside other s t) :
    ∀ j, j ≠ RetentionName.scan tx → (retentionProtocol deps).rely j s t := by
  intro j ne
  cases j with
  | scan other =>
    intro stage known
    exact (h other fun same => ne (same ▸ rfl)).stands known
  | server n => trivial
  | other n => trivial

/-- A statement that anybody may issue, in a scan that stands at a stage. -/
theorem safe_passive {op : RetentionStmt} (passive : Passive op) {stage : ScanStage} (known : Stands tx stage w)
    {A : retentionStore.Reply op → RetentionWorld → Prop}
    (replied : ∀ t reply, Stands tx stage t → (retentionExec op t).1 = .ok reply → A reply (retentionExec op t).2) :
    Safe (committing deps) (retentionProtocol deps) (.scan tx) (Replied A fun _ => True) (call (I := retentionStore) op) w := by
  apply Safe.call
  · intro t rely inv may
    obtain ⟨inv', others⟩ := keeps_passive passive may.2 inv
    refine ⟨inv', ?_, ?_, fun _ => trivial⟩
    · intro j _
      cases j with
      | scan other => exact others other
      | server n => trivial
      | other n => trivial
    · show Replied A (fun _ => True) (retentionExec op t).1 (retentionExec op t).2
      cases reply : (retentionExec op t).1 with
      | ok a => exact replied t a (rely stage known) reply
      | error e => trivial
  · intro t _ _ _
    trivial
  · intro t _ _ _
    trivial

theorem safe_begin : Safe (committing deps) (retentionProtocol deps) (.scan tx)
    (Replied (fun _ => Stands tx .begun) fun _ => True) (call (I := retentionStore) (.begin tx)) w := by
  apply Safe.call
  · intro t _ inv _
    show (retentionProtocol deps).inv (retentionExec (.begin tx) t).2 ∧ _
    simp only [committing, retentionFlow, retentionExec]
    split
    · rename_i unused
      have quiet : ∀ task ∈ t.tasks, task.tx ≠ tx :=
        no_tasks inv.2 (fun _ h => by rw [unused] at h; cases h) fun _ h => by rw [unused] at h; cases h
      have beside : ∀ other, other ≠ tx → Beside other t { t with scans := t.scans.start tx unused } := by
        intro other ne
        exact ⟨Function.update_of_ne ne _ _, fun holds => holds, fun _ mem _ => mem, fun _ => .of_eq rfl⟩
      refine ⟨⟨spaced_of_tasks inv.1 rfl, ?_⟩, others_rely beside, .inr ⟨Function.update_self .., quiet⟩, fun _ => trivial⟩
      exact settled_of_beside inv.2 rfl (fun task mem => beside task.tx (quiet task mem)) (.of_eq rfl)
    · exact ⟨inv, fun j _ => (retentionProtocol deps).refl j t, trivial, fun _ => trivial⟩
  · intro t _ _ _
    trivial
  · intro t _ _ _
    trivial

/-- Where the transaction has ended, its statements answer with an error. -/
theorem dead_statement {α : Type} {t : RetentionWorld} (dead : Dead tx t)
    {f : (stamps : List Stamp) → t.scans.state tx = .active stamps → Except ScanErr α × RetentionWorld} :
    withinScan tx t f = (.error .txClosed, t) := withinScan_ended dead.ended

theorem safe_lock (known : Stands tx .begun w) : Safe (committing deps) (retentionProtocol deps) (.scan tx)
    (Replied (fun _ => Stands tx .locked) fun _ => True) (call (I := retentionStore) (.lockScanner tx)) w := by
  apply Safe.call
  · intro t rely inv may
    have free : t.scans.holder = none ∨ t.scans.holder = some tx := may.1
    rcases rely .begun known with dead | ⟨active, quiet⟩
    · have failed : retentionExec (.lockScanner tx) t = (.error .txClosed, t) := dead_statement dead
      simp only [committing, retentionFlow, failed]
      exact ⟨inv, fun j _ => (retentionProtocol deps).refl j t, trivial, fun _ => trivial⟩
    · have taken : retentionExec (.lockScanner tx) t = (.ok (), { t with scans := t.scans.acquire tx active }) :=
        withinScan_active active
      simp only [committing, retentionFlow, taken]
      have beside : ∀ other, Beside other t { t with scans := t.scans.acquire tx active } := by
        intro other
        refine ⟨rfl, fun holds => ?_, fun _ mem _ => mem, fun _ => .of_eq rfl⟩
        rcases free with none | own
        · rw [none] at holds
          cases holds
        · exact own.symm.trans holds
      refine ⟨⟨spaced_of_tasks inv.1 rfl, ?_⟩, others_rely fun other _ => beside other, .inr ⟨rfl, active, quiet⟩, fun _ => trivial⟩
      exact settled_of_beside inv.2 rfl (fun task _ => beside task.tx) (.of_eq rfl)
  · intro t _ _ _
    trivial
  · intro t _ _ _
    trivial

/-- The rows of the profiles query: one for each customer, as in the table. -/
theorem profile_rows (w : RetentionWorld) : ((w.profiles.rows.filterMap (profileRow w)).map ProfileRow.customerID).Nodup ∧
    ∀ r ∈ w.profiles.rows.filterMap (profileRow w),
      ∃ p ∈ w.profiles.rows, p.customerID = r.customerID ∧ p.lastReengagementAt = r.lastReengagement := by
  have row : ∀ p r, profileRow w p = some r → p.customerID = r.customerID ∧ p.lastReengagementAt = r.lastReengagement := by
    intro p r h
    unfold profileRow at h
    split at h
    · cases h
      exact ⟨rfl, rfl⟩
    · cases h
  constructor
  · exact w.profiles.nodup_filterMap fun p r found => (row p r found).1.symm
  · intro r mem
    obtain ⟨p, hp, found⟩ := List.mem_filterMap.1 mem
    exact ⟨p, hp, row p r found⟩

theorem safe_profiles (known : Stands tx .locked w) : Safe (committing deps) (retentionProtocol deps) (.scan tx)
    (Replied (fun rows t => (rows.map ProfileRow.customerID).Nodup ∧ ∀ now, Stands tx (.holding now rows none) t) fun _ => True)
    (call (I := retentionStore) (.profiles tx)) w := by
  refine safe_passive ?_ known ?_
  · trivial
  intro t rows known replied
  have state : (retentionExec (.profiles tx) t).2 = t := withinScan_reads tx t _
  rw [state]
  rcases known with dead | ⟨holder, active, quiet⟩
  · have failed : retentionExec (.profiles tx) t = (.error .txClosed, t) := dead_statement dead
    rw [failed] at replied
    cases replied
  · have read : retentionExec (.profiles tx) t = (.ok (t.profiles.rows.filterMap (profileRow t)), t) := withinScan_active active
    rw [read] at replied
    obtain rfl := Except.ok.inj replied
    obtain ⟨nodup, left⟩ := profile_rows t
    refine ⟨nodup, fun now => .inr ⟨[], ?_⟩⟩
    constructor
    · exact holder
    · exact active
    · exact fun task mem own => (quiet task mem own).elim
    · exact fun s mem => (List.not_mem_nil mem).elim
    · exact left

theorem safe_enqueue {payload : FollowUpPayload} {now : Int} {p : ProfileRow} {rest : List ProfileRow}
    (same : payload.customerID = p.customerID) (due : deps.skips now p = false) (known : Stands tx (.holding now (p :: rest) none) w) :
    Safe (committing deps) (retentionProtocol deps) (.scan tx)
      (Replied (fun _ => Stands tx (.holding now (p :: rest) (some p.customerID))) fun _ => True)
      (call (I := retentionStore) (.enqueue tx payload now)) w := by
  apply Safe.call
  · intro t rely inv may
    obtain ⟨_, open'⟩ : ∃ stamps, t.scans.state tx = .active stamps := may.2
    rcases rely _ known with dead | ⟨stamps, holding⟩
    · exact (dead.ended _ open').elim
    · have enqueued : retentionExec (.enqueue tx payload now) t = (.ok (), { t with tasks := t.tasks ++ [⟨tx, payload, now⟩] }) := rfl
      simp only [committing, retentionFlow, enqueued]
      -- whoever has a task already holds no lock, so that its stamp is what the scan has read
      have spaced : ∀ task ∈ t.tasks, task.payload.customerID = payload.customerID → task.time + cooldown deps ≤ now := by
        intro task mem customer
        rw [same] at customer
        rcases inv.2 task mem with ⟨holds, -⟩ | ⟨-, q, hq, key, b, last, le⟩
        · have own : task.tx = tx := Option.some.inj (holds.symm.trans holding.holder)
          rcases (holding.tasks task mem own).2 with stamped | pending
          · obtain ⟨s, hs, same'⟩ := List.mem_map.1 stamped
            exact ((holding.stamped s hs).2.1 (by simp [same', customer])).elim
          · cases pending
        · obtain ⟨r, hr, key', last'⟩ := holding.left p List.mem_cons_self
          obtain rfl : q = r := Table.eq_of_key hq hr ((key.trans customer).trans key'.symm)
          have cooled := cooled due (last'.symm.trans last)
          omega
      have beside : ∀ other, other ≠ tx → Beside other t { t with tasks := t.tasks ++ [⟨tx, payload, now⟩] } := by
        intro other ne
        refine ⟨rfl, fun holds => holds, fun task mem own => ?_, fun _ => .of_eq rfl⟩
        rcases List.mem_append.1 mem with old | new
        · exact old
        · obtain rfl := List.mem_singleton.1 new
          exact (ne own.symm).elim
      refine ⟨⟨?_, ?_⟩, others_rely beside, .inr ⟨stamps, ?_⟩, fun _ => trivial⟩
      · refine List.pairwise_append.2 ⟨inv.1, List.pairwise_singleton _ _, fun task mem new hn customer => ?_⟩
        obtain rfl := List.mem_singleton.1 hn
        exact spaced task mem customer
      · intro task mem
        rcases List.mem_append.1 mem with old | new
        · exact inv.2 task old
        · obtain rfl := List.mem_singleton.1 new
          exact .inl ⟨holding.holder, stamps, holding.active⟩
      · refine ⟨holding.holder, holding.active, fun task mem own => ?_, holding.stamped, holding.left⟩
        rcases List.mem_append.1 mem with old | new
        · obtain ⟨time, stamped | pending⟩ := holding.tasks task old own
          · exact ⟨time, .inl stamped⟩
          · cases pending
        · obtain rfl := List.mem_singleton.1 new
          exact ⟨rfl, .inr (by rw [same])⟩
  · intro t _ _ _
    trivial
  · intro t _ _ _
    trivial

/-- A stamp that the others do not see yet. -/
theorem beside_write {t : RetentionWorld} (stamps : List Stamp) (s : Stamp) (other : String) (ne : other ≠ tx) :
    Beside other t { t with scans := t.scans.write tx stamps s } :=
  ⟨Function.update_of_ne ne _ _, fun holds => holds, fun _ mem _ => mem, fun _ => .of_eq rfl⟩

theorem Holding.stamp {now : Int} {p : ProfileRow} {rest : List ProfileRow} {stamps : List Stamp} {t : RetentionWorld}
    (nodup : ((p :: rest).map ProfileRow.customerID).Nodup) (due : deps.skips now p = false)
    (holding : Holding tx now (p :: rest) (some p.customerID) stamps t) :
    Holding tx now rest none (stamps ++ [⟨p.customerID, now⟩]) { t with scans := t.scans.write tx stamps ⟨p.customerID, now⟩ } := by
  have apart := (List.nodup_cons.1 nodup).1
  constructor
  · exact holding.holder
  · exact Function.update_self ..
  · intro task mem own
    obtain ⟨time, stamped | pending⟩ := holding.tasks task mem own
    · refine ⟨time, .inl ?_⟩
      rw [List.map_append]
      exact List.mem_append_left _ stamped
    · refine ⟨time, .inl ?_⟩
      rw [List.map_append, ← Option.some.inj pending]
      exact List.mem_append_right _ (List.mem_singleton_self _)
  · intro s mem
    rcases List.mem_append.1 mem with old | new
    · obtain ⟨time, notLeft, read⟩ := holding.stamped s old
      exact ⟨time, fun later => notLeft (List.mem_cons_of_mem _ later), read⟩
    · obtain rfl := List.mem_singleton.1 new
      obtain ⟨q, hq, key, last⟩ := holding.left p List.mem_cons_self
      refine ⟨rfl, apart, q, hq, key, fun b hb => ?_⟩
      have cooled := cooled due (last.symm.trans hb)
      have positive := cooldown_nonneg deps
      omega
  · intro r mem
    exact holding.left r (List.mem_cons_of_mem _ mem)

theorem safe_stamp {now : Int} {p : ProfileRow} {rest : List ProfileRow} (nodup : ((p :: rest).map ProfileRow.customerID).Nodup)
    (due : deps.skips now p = false) (known : Stands tx (.holding now (p :: rest) (some p.customerID)) w) :
    Safe (committing deps) (retentionProtocol deps) (.scan tx) (Replied (fun _ => Stands tx (.holding now rest none)) fun _ => True)
      (call (I := retentionStore) (.stamp tx p.customerID now)) w := by
  apply Safe.call
  · intro t rely inv _
    rcases rely _ known with dead | ⟨stamps, holding⟩
    · have failed : retentionExec (.stamp tx p.customerID now) t = (.error .txClosed, t) := dead_statement dead
      simp only [committing, retentionFlow, failed]
      exact ⟨inv, fun j _ => (retentionProtocol deps).refl j t, trivial, fun _ => trivial⟩
    · have stamped : retentionExec (.stamp tx p.customerID now) t =
          (.ok (), { t with scans := t.scans.write tx stamps ⟨p.customerID, now⟩ }) := withinScan_active holding.active
      simp only [committing, retentionFlow, stamped]
      refine ⟨⟨spaced_of_tasks inv.1 rfl, ?_⟩, others_rely fun other => beside_write stamps _ other, .inr ⟨_, holding.stamp nodup due⟩,
        fun _ => trivial⟩
      intro task mem
      by_cases own : task.tx = tx
      · refine .inl ⟨own ▸ holding.holder, stamps ++ [⟨p.customerID, now⟩], ?_⟩
        rw [own]
        exact Function.update_self ..
      · rcases inv.2 task mem with ⟨holds, -⟩ | ⟨⟨stamps', committed⟩, settled⟩
        · exact (own (Option.some.inj (holds.symm.trans holding.holder))).elim
        · exact .inr ⟨⟨stamps', (Function.update_of_ne own _ _).trans committed⟩, settled⟩
  · intro t _ _ _
    trivial
  · intro t _ _ _
    trivial

/-- The commit makes the stamps of all of the scan's tasks visible. -/
theorem safe_commit {now : Int} (known : Stands tx (.holding now [] none) w) :
    Safe (committing deps) (retentionProtocol deps) (.scan tx) (fun _ _ => True) (call (I := retentionStore) (.commit tx)) w := by
  apply Safe.call
  · intro t rely inv _
    rcases rely _ known with dead | ⟨stamps, holding⟩
    · have failed : retentionExec (.commit tx) t = (.error .txClosed, t) := dead_statement dead
      simp only [committing, retentionFlow, failed]
      exact ⟨inv, fun j _ => (retentionProtocol deps).refl j t, trivial, fun _ => trivial⟩
    · have committed : retentionExec (.commit tx) t = (.ok (), { t with
          profiles := applyStamps t.profiles stamps, scans := t.scans.finish tx (.committed stamps) }) :=
        withinScan_active holding.active
      simp only [committing, retentionFlow, committed]
      have rows := fun {p} => @applyStamps_rows now stamps (fun s mem => (holding.stamped s mem).1) t.profiles p
      refine ⟨⟨spaced_of_tasks inv.1 rfl, ?_⟩, others_rely fun other ne => ?_, trivial, fun _ => trivial⟩
      · intro task mem
        by_cases own : task.tx = tx
        · obtain ⟨time, stamped | pending⟩ := holding.tasks task mem own
          · obtain ⟨s, hs, same⟩ := List.mem_map.1 stamped
            obtain ⟨-, -, p, hp, key, -⟩ := holding.stamped s hs
            obtain ⟨q, hq, key', last⟩ := rows hp
            rw [key, same, if_pos stamped] at last
            have ended : (t.scans.finish tx (.committed stamps)).state task.tx = .committed stamps := by
              rw [own]
              exact Function.update_self ..
            exact .inr ⟨⟨stamps, ended⟩, q, hq, (key'.trans key).trans same, now, last, time.le⟩
          · cases pending
        · rcases inv.2 task mem with ⟨holds, -⟩ | ⟨⟨stamps', committed⟩, p, hp, key, b, last, le⟩
          · exact (own (Option.some.inj (holds.symm.trans holding.holder))).elim
          · obtain ⟨q, hq, key', last'⟩ := rows hp
            refine .inr ⟨⟨stamps', (Function.update_of_ne own _ _).trans committed⟩, q, hq, key'.trans key, ?_⟩
            by_cases stamped : p.customerID ∈ stamps.map Stamp.customerID
            · rw [if_pos stamped] at last'
              obtain ⟨s, hs, same⟩ := List.mem_map.1 stamped
              obtain ⟨-, -, r, hr, keyR, bound⟩ := holding.stamped s hs
              obtain rfl : p = r := Table.eq_of_key hp hr (same.symm.trans keyR.symm)
              exact ⟨now, last', le.trans (bound b last)⟩
            · rw [if_neg stamped] at last'
              exact ⟨b, last'.trans last, le⟩
      · have free : t.scans.holder ≠ some other := by
          rw [holding.holder]
          exact fun same => ne (Option.some.inj same).symm
        exact ⟨Function.update_of_ne ne _ _, fun holds => (free holds).elim, fun _ mem _ => mem, fun holds => (free holds).elim⟩
  · intro t _ _ _
    trivial
  · intro t _ _ _
    trivial

/-! ## Scans -/

theorem Stands.skip {now : Int} {p : ProfileRow} {rest : List ProfileRow} (known : Stands tx (.holding now (p :: rest) none) w) :
    Stands tx (.holding now rest none) w := by
  rcases known with dead | ⟨stamps, holding⟩
  · exact .inl dead
  · refine .inr ⟨stamps, holding.holder, holding.active, holding.tasks, fun s mem => ?_, fun r mem => ?_⟩
    · obtain ⟨time, apart, read⟩ := holding.stamped s mem
      exact ⟨time, fun later => apart (List.mem_cons_of_mem _ later), read⟩
    · exact holding.left r (List.mem_cons_of_mem _ mem)

/-- What an error leaves open. -/
abbrev Reaching (stage : ScanStage) (tx : String) : Except ScanErr Unit → RetentionWorld → Prop :=
  Replied (fun _ => Stands tx stage) fun _ => True

theorem safe_reengage {publisher : Bool} {now : Int} {p : ProfileRow} {rest : List ProfileRow}
    (nodup : ((p :: rest).map ProfileRow.customerID).Nodup) (due : deps.skips now p = false)
    (known : Stands tx (.holding now (p :: rest) none) w) :
    Safe (committing deps) (retentionProtocol deps) (.scan tx) (Reaching (.holding now rest none) tx) (reengage tx publisher now p) w := by
  have order : Safe (committing deps) (retentionProtocol deps) (.scan tx)
      (Replied (fun _ => Stands tx (.holding now (p :: rest) none)) fun _ => True)
      (call (I := retentionStore) (.lastOrder tx p.customerID)) w := by
    refine safe_passive ?_ known ?_
    · trivial
    · intro t _ known _
      rw [show (retentionExec (.lastOrder tx p.customerID) t).2 = t from withinScan_reads tx t _]
      exact known
  unfold reengage
  refine Safe.bind ((Safe.mapErr_replied order).mono fun reply t known => ?_)
  cases reply with
  | error e => trivial
  | ok lastOrderID =>
    simp only
    cases publisher with
    | false => exact known.skip
    | true =>
      refine Safe.bind ((Safe.mapErr_replied (safe_enqueue rfl due known)).mono fun reply u known => ?_)
      cases reply with
      | error e => trivial
      | ok _ => exact Safe.mapErr_replied (safe_stamp nodup due known)

theorem safe_reengageAll {publisher : Bool} {now : Int} {rest : List ProfileRow} (nodup : (rest.map ProfileRow.customerID).Nodup)
    (known : Stands tx (.holding now rest none) w) :
    Safe (committing deps) (retentionProtocol deps) (.scan tx) (Reaching (.holding now [] none) tx)
      (reengageAll deps tx publisher now rest) w := by
  induction rest generalizing w with
  | nil => exact known
  | cons p rest ih =>
    have nodup' := (List.nodup_cons.1 nodup).2
    unfold reengageAll
    cases due : deps.skips now p with
    | true => exact ih nodup' known.skip
    | false =>
      refine Safe.bind ((safe_reengage nodup due known).mono fun reply t known => ?_)
      cases reply with
      | error e => trivial
      | ok _ => exact ih nodup' known

theorem safe_scanWithin {publisher : Bool} (known : Stands tx .begun w) :
    Safe (committing deps) (retentionProtocol deps) (.scan tx) (fun _ _ => True) (scanWithin deps tx publisher) w := by
  unfold scanWithin
  refine Safe.bind ((Safe.mapErr_replied (safe_lock known)).mono fun reply t known => ?_)
  cases reply with
  | error e => trivial
  | ok _ =>
    refine Safe.bind ((Safe.mapErr_replied (safe_profiles known)).mono fun reply t known => ?_)
    cases reply with
    | error e => trivial
    | ok profiles =>
      obtain ⟨nodup, known⟩ := known
      have clock : Safe (committing deps) (retentionProtocol deps) (.scan tx)
          (Replied (fun now => Stands tx (.holding now profiles none)) fun _ => True) (call (I := retentionStore) .now) t := by
        apply Safe.call
        · intro u rely inv _
          exact ⟨inv, fun j _ => (retentionProtocol deps).refl j u, rely _ (known u.clock), fun _ => trivial⟩
        · intro u _ _ _
          trivial
        · intro u _ _ _
          trivial
      refine Safe.bind (clock.mono fun reply u known => ?_)
      cases reply with
      | error e => trivial
      | ok now =>
        refine Safe.bind ((safe_reengageAll nodup known).mono fun reply v known => ?_)
        cases reply with
        | error e => trivial
        | ok _ => exact Safe.mapErr (safe_commit known)

/-- One statement that anybody may issue. -/
theorem safe_other {i : RetentionName} {op : RetentionStmt} (passive : Passive op) :
    Safe (committing deps) (retentionProtocol deps) i (fun _ _ => True) (call (I := retentionStore) op) w := by
  refine Safe.of_uses (A := Passive) (uses_call.2 passive) (fun op t passive inv may => ?_) fun _ => trivial
  obtain ⟨inv', others⟩ := keeps_passive passive may.2 inv
  refine ⟨inv', fun j _ => ?_⟩
  cases j with
  | scan other => exact others other
  | server n => trivial
  | other n => trivial

theorem safe_sweep {publisher : Bool} :
    Safe (committing deps) (retentionProtocol deps) (.scan tx) (fun _ _ => True) (sweepRetention deps tx publisher) w := by
  unfold sweepRetention
  refine Safe.bind ((Safe.mapErr_replied safe_begin).mono fun reply t known => ?_)
  cases reply with
  | error e => trivial
  | ok _ =>
    refine Safe.bind (Safe.attempt ((safe_scanWithin known).mono fun scanned u _ => ?_))
    have back : Safe (committing deps) (retentionProtocol deps) (.scan tx) (fun _ _ => True) (call (I := retentionStore) (.rollback tx)) u :=
      safe_other trivial
    refine Safe.bind (Safe.bind (Safe.attempt (back.mono fun r v _ => ?_)))
    cases scanned <;> trivial

end Scan

/-- In every run in which no scan is rolled back that has enqueued a task or goes on to enqueue one, any two tasks of a
customer are the cooldown apart. -/
theorem reengagements_spaced {deps : RetentionDeps} {w : RetentionWorld} {c : Crew retentionStore RetentionName RetentionWorld}
    (fresh : w.tasks = []) (reach : (committing deps).Reach ⟨w, []⟩ c) : Spaced deps c.state := by
  have first : (retentionProtocol deps).inv w := by
    refine ⟨?_, fun task mem => ?_⟩
    · unfold Spaced
      rw [fresh]
      exact List.Pairwise.nil
    · rw [fresh] at mem
      cases mem
  refine (Protocol.invariant (R := committing deps) (P := retentionProtocol deps) ?_ reach first fun _ => trivial).1
  intro i p s job _ _
  cases job with
  | scan tx publisher => exact safe_sweep
  | disconnect n tx => exact safe_other trivial
  | tick n later => exact safe_other trivial
  | insertProfile n customerID => exact safe_other trivial
  | setStats n customerID lastOrderAt orderFrequencyDays => exact safe_other trivial
  | insertOrder n row => exact safe_other trivial

/-! ## A scan that fails late -/

/-- `retentionProceeds` and `commitsTasks`, computed. -/
def proceedsNow (w : RetentionWorld) : RetentionStmt → Bool
  | .lockScanner tx => w.scans.holder == none || w.scans.holder == some tx
  | _ => true

def commitsTasksNow (w : RetentionWorld) : RetentionStmt → Bool
  | .enqueue tx _ _ => (w.scans.state tx).isActive
  | .rollback tx => !(w.scans.state tx).isActive || w.tasks.all fun task => task.tx != tx
  | _ => true

theorem proceedsNow_iff (w : RetentionWorld) (op : RetentionStmt) : proceedsNow w op = true ↔ retentionProceeds w op := by
  unfold proceedsNow retentionProceeds
  split <;> simp

theorem commitsTasksNow_iff (w : RetentionWorld) (op : RetentionStmt) : commitsTasksNow w op = true ↔ commitsTasks w op := by
  unfold commitsTasksNow commitsTasks
  split
  · exact TxState.isActive_iff
  · simp only [Bool.or_eq_true, Bool.not_eq_true', ← Bool.not_eq_true, TxState.isActive_iff, List.all_eq_true, bne_iff_ne,
      imp_iff_not_or]
  · simp

instance (deps : RetentionDeps) (w : RetentionWorld) (op : RetentionStmt) : Decidable ((committing deps).allow w op) :=
  decidable_of_iff (proceedsNow w op = true ∧ commitsTasksNow w op = true)
    (and_congr (proceedsNow_iff w op) (commitsTasksNow_iff w op))

/-- Every run of the retention scanner. -/
abbrev anyRetention (deps : RetentionDeps) : Roster retentionStore RetentionName RetentionWorld := retentionFlow deps fun _ _ => True

instance (deps : RetentionDeps) (w : RetentionWorld) (op : RetentionStmt) : Decidable ((anyRetention deps).allow w op) :=
  decidable_of_iff (proceedsNow w op = true) ((proceedsNow_iff w op).trans (and_iff_left trivial).symm)

instance (deps : RetentionDeps) (w : RetentionWorld) (op : RetentionStmt) : Decidable ((anyRetention deps).faults w op) := isTrue trivial

instance (deps : RetentionDeps) (w : RetentionWorld) : Decidable (Spaced deps w) :=
  inferInstanceAs (Decidable (List.Pairwise _ _))

/-- The settings left at their defaults. -/
def defaultDeps : RetentionDeps := ⟨0, 0⟩

/-- Two customers who ordered every ten days, until a hundred days ago. -/
def lapsed : RetentionWorld where
  clock := 100 * dayMillis
  customers := ⟨[⟨"ama", "biz", "233200000001"⟩, ⟨"kofi", "biz", "233200000002"⟩], by decide⟩
  profiles := ⟨[⟨"ama", some 0, some 10, none⟩, ⟨"kofi", some 0, some 10, none⟩], by decide⟩
  orders := Table.empty
  scans := .empty
  tasks := []

def firstScan : RetentionHandler Unit := sweepRetention defaultDeps "first" true

def secondScan : RetentionHandler Unit := sweepRetention defaultDeps "second" true

def contacted : RetentionWorld := (firstScan.run retentionExec lapsed).2

/-- A month and a day later. -/
def monthLater : RetentionWorld := (retentionExec (.tick (31 * 86400000)) contacted).2

/-- Two scans a month apart contact both customers twice. -/
theorem reengagements_spaced_monthly : ∃ c : Crew retentionStore RetentionName RetentionWorld,
    c.state.tasks.length = 4 ∧ Spaced defaultDeps c.state := by
  have contacts : (committing defaultDeps).Reach ⟨lapsed, []⟩ ⟨contacted, []⟩ :=
    (committing defaultDeps).reach_job (i := .scan "first") (p := firstScan) (.scan ..) (by decide +kernel)
  have waits : (committing defaultDeps).Reach ⟨contacted, []⟩ ⟨monthLater, []⟩ :=
    (committing defaultDeps).reach_job (i := .other 0) (p := call (I := retentionStore) (.tick (31 * 86400000))) (.tick ..)
      (by decide +kernel)
  have again := (committing defaultDeps).reach_job (i := .scan "second") (p := secondScan) (s := monthLater) (.scan ..)
    (by decide +kernel)
  exact ⟨_, by decide +kernel, reengagements_spaced rfl (contacts.trans (waits.trans again))⟩

/-- The second customer's task is not enqueued: the first one, who has been contacted, is contacted again. -/
theorem failed_scan_contacts_again : ¬ ∀ c : Crew retentionStore RetentionName RetentionWorld,
    (anyRetention defaultDeps).Reach ⟨lapsed, []⟩ c → Spaced defaultDeps c.state := by
  intro whole
  have starts : (anyRetention defaultDeps).Step ⟨lapsed, []⟩ ⟨lapsed, [] ++ (.scan "first", firstScan) :: []⟩ :=
    .spawn (.scan ..) List.not_mem_nil
  have contacts := (anyRetention defaultDeps).reach_steps (i := .scan "first") (p := firstScan) (s := lapsed) 8 [] []
    (by decide +kernel)
  have fails := (anyRetention defaultDeps).reach_fail (i := .scan "first") (p := (firstScan.steps retentionExec 8 lapsed).1)
    (s := (firstScan.steps retentionExec 8 lapsed).2) [] [] (by decide +kernel)
  have rollsBack := (anyRetention defaultDeps).reach_end (i := .scan "first")
    (p := (firstScan.steps retentionExec 8 lapsed).1.failing) (s := (firstScan.steps retentionExec 8 lapsed).2) [] [] (by decide +kernel)
  have next : (anyRetention defaultDeps).Step
      ⟨((firstScan.steps retentionExec 8 lapsed).1.failing.run retentionExec (firstScan.steps retentionExec 8 lapsed).2).2,
        [] ++ (.scan "first", .ret ((firstScan.steps retentionExec 8 lapsed).1.failing.run retentionExec
          (firstScan.steps retentionExec 8 lapsed).2).1) :: []⟩ _ := .drop trivial
  have scans := (anyRetention defaultDeps).reach_job (i := .scan "second") (p := secondScan)
    (s := ((firstScan.steps retentionExec 8 lapsed).1.failing.run retentionExec (firstScan.steps retentionExec 8 lapsed).2).2) (.scan ..)
    (by decide +kernel)
  have again := whole _ (.head starts (contacts.trans (fails.trans (rollsBack.trans (.head next scans)))))
  exact absurd again (by decide +kernel)

end NovoApex.Customers
