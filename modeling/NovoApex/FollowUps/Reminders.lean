import NovoApex.Workers.FollowUp

/-!
# At most one reminder

A follow-up gets at most one reminder, and none once it is cancelled, as long as what was
enqueued is committed and no run fails that has written its row. A row whose task was
enqueued is executed or held by the transaction that enqueued it, so nobody else claims
it; and a task that is waiting has no reminder yet.
-/

namespace NovoApex.FollowUps
set_option autoImplicit false
open Lib Program Db Workers

/-- The reminders of a follow-up. -/
def remindersOf (f : String) (w : FollowUpWorld) : List Reminder := w.reminders.filter fun r => decide (r.followUp = f)

/-- A task is enqueued by a transaction that is open and is not rolled back, and no run fails that has written its row. -/
def keepsWord (w : FollowUpWorld) : FollowUpStmt → Prop
  | .enqueue tx _ _ => (openFollowUpTx tx w).isSome = true
  | .rollback tx => ((openFollowUpTx tx w).all fun t => t.enqueued.isEmpty) = true
  | .finishTask run false => remindersOf run.followUp w = []
  | _ => True

instance (w : FollowUpWorld) : DecidablePred (keepsWord w) := fun op => by
  unfold keepsWord
  split <;> infer_instance

/-- The runs in which what was enqueued is committed and what was written is not written again. -/
def committedFlow : Roster followUpStore FollowUpName FollowUpWorld where
  exec := followUpExec
  job := FollowUpJob
  allow w op := followUpProceeds w op ∧ keepsWord w op

instance (w : FollowUpWorld) (op : FollowUpStmt) : Decidable (committedFlow.allow w op) :=
  inferInstanceAs (Decidable (followUpProceeds w op ∧ keepsWord w op))

/-! ## The protocol -/

/-- The transaction has claimed the row. -/
def Claims (t : FollowUpTx) (f : String) : Prop := ∃ now, (f, now) ∈ t.claimed

/-- The row is neither executed nor cancelled. -/
def OpenRow (f : String) (w : FollowUpWorld) : Prop := ∃ row ∈ w.followUps.rows, row.id = f ∧ row.isOpen = true

/-- The row is executed and not cancelled. -/
def ExecutedRow (f : String) (w : FollowUpWorld) : Prop :=
  ∃ row ∈ w.followUps.rows, row.id = f ∧ row.executedAt.isSome = true ∧ row.cancelledAt = none

/-- The row is executed, or an open transaction has enqueued its task. -/
def Taken (f : String) (w : FollowUpWorld) : Prop :=
  ExecutedRow f w ∨ ∃ tx t, openFollowUpTx tx w = some t ∧ f ∈ t.enqueued

/-- No run of the task is active. -/
def Waiting (f : String) (w : FollowUpWorld) : Prop := ∀ r ∈ w.running, r.followUp ≠ f

/-- The invariant. -/
structure OneReminder (w : FollowUpWorld) : Prop where
  once : ∀ f, (remindersOf f w).length ≤ 1
  waiting : ∀ f payload retried, w.queue.slot (followUpTaskID f) = .live payload retried → Waiting f w → remindersOf f w = []
  taken : ∀ f, w.queue.slot (followUpTaskID f) ≠ .free ∨ remindersOf f w ≠ [] → Taken f w
  enqueued : ∀ tx t f, openFollowUpTx tx w = some t → f ∈ t.enqueued → Claims t f
  held : ∀ tx t f, openFollowUpTx tx w = some t → Claims t f → OpenRow f w
  apart : ∀ tx tx' t t' f, openFollowUpTx tx w = some t → openFollowUpTx tx' w = some t' → Claims t f →
    Claims t' f → tx = tx'
  active : ∀ r ∈ w.running, ∃ payload retried, w.queue.slot (followUpTaskID r.followUp) = .live payload retried
  alone : ∀ r ∈ w.running, ∀ r' ∈ w.running, r.followUp = r'.followUp → r = r'

/-- What each name relies on: a run for its task and its reminders, a sweep for its transaction. -/
def reminderRely : FollowUpName → FollowUpWorld → FollowUpWorld → Prop
  | .run r, w, w' => (r ∈ w'.running ↔ r ∈ w.running) ∧ (r ∈ w.running → remindersOf r.followUp w' = remindersOf r.followUp w)
  | .sweep tx, w, w' => ∀ t, openFollowUpTx tx w' = some t → openFollowUpTx tx w = some t
  | _, _, _ => True

/-- The protocol of the follow-ups. -/
def reminderProtocol : Protocol FollowUpName FollowUpWorld where
  inv := OneReminder
  rely := reminderRely
  refl i w := by
    cases i with
    | run r => exact ⟨Iff.rfl, fun _ => rfl⟩
    | sweep tx => exact fun t isOpen => isOpen
    | delivery d => trivial
    | expiry n => trivial
    | other n => trivial
  trans i u v w h h' := by
    cases i with
    | run r => exact ⟨h'.1.trans h.1, fun running => (h'.2 (h.1.2 running)).trans (h.2 running)⟩
    | sweep tx => exact fun t isOpen => h t (h' t isOpen)
    | delivery d => trivial
    | expiry n => trivial
    | other n => trivial

/-- A statement of `i` keeps the protocol. -/
structure KeepsOne (i : FollowUpName) (w w' : FollowUpWorld) : Prop where
  inv : OneReminder w'
  others : ∀ j, j ≠ i → reminderRely j w w'

/-! ## Transactions -/

section Transactions

variable {tx : String} {w : FollowUpWorld}

theorem openFollowUpTx_eq_some {t : FollowUpTx} :
    openFollowUpTx tx w = some t ↔ t ∈ w.transactions.rows ∧ t.id = tx ∧ t.ended = false := by
  unfold openFollowUpTx
  rw [Option.filter_eq_some_iff, Table.find?_eq_some, and_assoc]
  simp

theorem openFollowUpTx_set_of_ne {f : FollowUpTx → FollowUpTx} {keeps : ∀ t, (f t).id = t.id} {other : String} (apart : other ≠ tx) :
    openFollowUpTx other (setFollowUpTx tx f keeps w) = openFollowUpTx other w := by
  unfold openFollowUpTx setFollowUpTx
  rw [Table.find?_update_of_ne _ f keeps apart]

/-- An open transaction that is rewritten and stays open. -/
theorem openFollowUpTx_set_eq {f : FollowUpTx → FollowUpTx} {keeps : ∀ t, (f t).id = t.id} {t : FollowUpTx}
    (isOpen : openFollowUpTx tx w = some t) (still : (f t).ended = false) :
    openFollowUpTx tx (setFollowUpTx tx f keeps w) = some (f t) := by
  obtain ⟨mem, rfl, -⟩ := openFollowUpTx_eq_some.1 isOpen
  refine openFollowUpTx_eq_some.2 ⟨?_, keeps t, still⟩
  exact (@Table.mem_update_keyed _ _ _ _ w.transactions t.id f keeps (f t)).2 (.inr ⟨t, mem, rfl, rfl⟩)

theorem openFollowUpTx_finish {keeps : ∀ t, (FollowUpTx.finish t).id = t.id} :
    openFollowUpTx tx (setFollowUpTx tx .finish keeps w) = none := by
  unfold openFollowUpTx setFollowUpTx
  rw [Table.find?_update_keyed]
  cases w.transactions.find? tx <;> rfl

theorem openFollowUpTx_begin {transactions : Table FollowUpTx.id} {t : FollowUpTx} (h : w.transactions.insert t = some transactions)
    (named : t.id = tx) (fresh : t.ended = false) :
    openFollowUpTx tx { w with transactions := transactions } = some t ∧
      ∀ other, other ≠ tx → openFollowUpTx other { w with transactions := transactions } = openFollowUpTx other w := by
  subst named
  constructor
  · unfold openFollowUpTx
    rw [Table.find?_insert h]
    simp [Option.filter, fresh]
  · intro other apart
    unfold openFollowUpTx
    rw [Table.find?_insert_of_ne h apart]

end Transactions

/-! ## Statements -/

section Statements

variable {i : FollowUpName} {tx : String} {w w' : FollowUpWorld}

/-- What the invariant reads is the same. -/
structure SameCore (w w' : FollowUpWorld) : Prop where
  followUps : w'.followUps = w.followUps
  queue : w'.queue = w.queue
  running : w'.running = w.running
  reminders : w'.reminders = w.reminders

theorem SameCore.remindersOf (same : SameCore w w') (f : String) : remindersOf f w' = remindersOf f w := by
  unfold FollowUps.remindersOf
  rw [same.reminders]

theorem SameCore.openRow (same : SameCore w w') {f : String} (h : OpenRow f w) : OpenRow f w' := by
  unfold OpenRow at *
  rwa [same.followUps]

theorem SameCore.executedRow (same : SameCore w w') {f : String} (h : ExecutedRow f w) : ExecutedRow f w' := by
  unfold ExecutedRow at *
  rwa [same.followUps]

theorem SameCore.rely_run (same : SameCore w w') (r : FollowUpRun) : reminderRely (.run r) w w' :=
  ⟨by rw [same.running], fun _ => same.remindersOf r.followUp⟩

/-- A sweep's statement on its own transaction. -/
theorem keepsOne_tx (inv : OneReminder w) (same : SameCore w w')
    (others : ∀ tx', tx' ≠ tx → openFollowUpTx tx' w' = openFollowUpTx tx' w)
    (kept : ∀ t f, openFollowUpTx tx w = some t → f ∈ t.enqueued → ∃ t', openFollowUpTx tx w' = some t' ∧ f ∈ t'.enqueued)
    (enqueued : ∀ t', openFollowUpTx tx w' = some t' → ∀ f ∈ t'.enqueued, Claims t' f)
    (held : ∀ t', openFollowUpTx tx w' = some t' → ∀ f, Claims t' f → OpenRow f w ∧
      ∀ tx' u, tx' ≠ tx → openFollowUpTx tx' w = some u → ¬ Claims u f) : KeepsOne (.sweep tx) w w' := by
  refine ⟨⟨fun f => ?_, fun f payload retried live waiting => ?_, fun f used => ?_, fun tx' t f isOpen listed => ?_, fun tx' t f isOpen holds => ?_,
    fun tx' tx'' t t' f isOpen isOpen' holds holds' => ?_, ?_, ?_⟩, fun j apart => ?_⟩
  · rw [same.remindersOf]
    exact inv.once f
  · rw [same.queue] at live
    rw [same.remindersOf]
    refine inv.waiting f payload retried live ?_
    unfold Waiting at *
    rwa [same.running] at waiting
  · rw [same.queue, same.remindersOf] at used
    rcases inv.taken f used with executed | ⟨tx', t, isOpen, listed⟩
    · exact .inl (same.executedRow executed)
    · by_cases own : tx' = tx
      · subst own
        obtain ⟨t', isOpen', listed'⟩ := kept t f isOpen listed
        exact .inr ⟨tx', t', isOpen', listed'⟩
      · exact .inr ⟨tx', t, (others tx' own).trans isOpen, listed⟩
  · by_cases own : tx' = tx
    · subst own
      exact enqueued t isOpen f listed
    · exact inv.enqueued tx' t f ((others tx' own).symm.trans isOpen) listed
  · by_cases own : tx' = tx
    · subst own
      exact same.openRow (held t isOpen f holds).1
    · exact same.openRow (inv.held tx' t f ((others tx' own).symm.trans isOpen) holds)
  · by_cases own : tx' = tx
    · subst own
      by_cases own' : tx'' = tx'
      · exact own'.symm
      · exact ((held t isOpen f holds).2 tx'' t' own' ((others tx'' own').symm.trans isOpen') holds').elim
    · by_cases own' : tx'' = tx
      · subst own'
        exact ((held t' isOpen' f holds').2 tx' t own ((others tx' own).symm.trans isOpen) holds).elim
      · exact inv.apart tx' tx'' t t' f ((others tx' own).symm.trans isOpen) ((others tx'' own').symm.trans isOpen') holds holds'
  · rw [same.running, same.queue]
    exact inv.active
  · rw [same.running]
    exact inv.alone
  · cases j with
    | run r => exact same.rely_run r
    | sweep tx' =>
      intro t isOpen
      exact (others tx' fun own => apart (own ▸ rfl)).symm.trans isOpen
    | delivery d => trivial
    | expiry n => trivial
    | other n => trivial

/-- A statement on rows, which may end transactions: what one had enqueued is executed afterwards. -/
theorem keepsOne_rows (inv : OneReminder w) (queue : w'.queue = w.queue) (running : w'.running = w.running)
    (reminders : w'.reminders = w.reminders)
    (opens : ∀ tx t, openFollowUpTx tx w' = some t → openFollowUpTx tx w = some t)
    (ended : ∀ tx t f, openFollowUpTx tx w = some t → f ∈ t.enqueued → openFollowUpTx tx w' = some t ∨ ExecutedRow f w')
    (openRow : ∀ tx t f, openFollowUpTx tx w' = some t → Claims t f → OpenRow f w → OpenRow f w')
    (executed : ∀ f, ExecutedRow f w → ExecutedRow f w') : KeepsOne i w w' := by
  have same : ∀ f, remindersOf f w' = remindersOf f w := by
    intro f
    unfold remindersOf
    rw [reminders]
  refine ⟨⟨fun f => ?_, fun f payload retried live waiting => ?_, fun f used => ?_, fun tx t f isOpen => ?_, fun tx t f isOpen claims => ?_,
    fun tx tx' t t' f isOpen isOpen' => ?_, ?_, ?_⟩, fun j _ => ?_⟩
  · rw [same]
    exact inv.once f
  · rw [queue] at live
    rw [same]
    refine inv.waiting f payload retried live ?_
    unfold Waiting at *
    rwa [running] at waiting
  · rw [queue, same] at used
    rcases inv.taken f used with done | ⟨tx, t, isOpen, listed⟩
    · exact .inl (executed f done)
    · rcases ended tx t f isOpen listed with still | done
      · exact .inr ⟨tx, t, still, listed⟩
      · exact .inl done
  · exact inv.enqueued tx t f (opens tx t isOpen)
  · exact openRow tx t f isOpen claims (inv.held tx t f (opens tx t isOpen) claims)
  · exact inv.apart tx tx' t t' f (opens tx t isOpen) (opens tx' t' isOpen')
  · rw [running, queue]
    exact inv.active
  · rw [running]
    exact inv.alone
  · cases j with
    | run r => exact ⟨by rw [running], fun _ => same r.followUp⟩
    | sweep tx => exact opens tx
    | delivery d => trivial
    | expiry n => trivial
    | other n => trivial

/-- A statement that touches nothing of this. -/
theorem SameCore.keepsOne (same : SameCore w w') (inv : OneReminder w) (transactions : w'.transactions = w.transactions) : KeepsOne i w w' := by
  have opens : ∀ tx, openFollowUpTx tx w' = openFollowUpTx tx w := by
    intro tx
    unfold openFollowUpTx
    rw [transactions]
  exact keepsOne_rows inv same.queue same.running same.reminders (fun tx t isOpen => opens tx ▸ isOpen)
    (fun tx t f isOpen _ => .inl ((opens tx).trans isOpen)) (fun _ _ _ _ _ => same.openRow) fun _ => same.executedRow

/-- New rows. -/
theorem keepsOne_insert {row : ScheduledFollowUp} (inv : OneReminder w) (h : insertFollowUp row w = .ok w') : KeepsOne i w w' := by
  obtain ⟨followUps, inserted, -, -, rfl⟩ := insertFollowUp_ok h
  obtain ⟨-, rows⟩ := Table.insert_eq_some.1 inserted
  have grows : ∀ r ∈ w.followUps.rows, r ∈ followUps.rows := by
    intro r mem
    rw [rows]
    exact List.mem_append_left _ mem
  refine keepsOne_rows inv rfl rfl rfl (fun _ _ isOpen => isOpen) (fun _ _ _ isOpen _ => .inl isOpen) ?_ ?_
  · rintro tx t f - - ⟨r, mem, isRow⟩
    exact ⟨r, grows r mem, isRow⟩
  · rintro f ⟨r, mem, isRow⟩
    exact ⟨r, grows r mem, isRow⟩

/-- The claims of other transactions keep their rows from being cancelled. -/
theorem keepsOne_cancelFollowUps {orderID : String} {now : Nat} {keeps : ∀ r, (ScheduledFollowUp.cancel now r).id = r.id}
    (inv : OneReminder w) (waits : unclaimed none (fun x => (w.followUps.find? x).any fun f => decide (f.orderID = orderID)) w) :
    KeepsOne i w { w with
      followUps := w.followUps.update (fun f => decide (f.orderID = orderID) && f.isOpen) (.cancel now) keeps } := by
  refine keepsOne_rows inv rfl rfl rfl (fun _ _ isOpen => isOpen) (fun _ _ _ isOpen _ => .inl isOpen) ?_ ?_
  · rintro tx t f isOpen ⟨e, claimed⟩ ⟨row, mem, rfl, openRow⟩
    obtain ⟨listed, -, notEnded⟩ := openFollowUpTx_eq_some.1 isOpen
    have spared : ((w.followUps.find? row.id).any fun f => decide (f.orderID = orderID)) = false :=
      waits t listed (fun absurd => nomatch absurd) notEnded _ claimed
    rw [Table.find?_eq_some.2 ⟨mem, rfl⟩] at spared
    have spared : decide (row.orderID = orderID) = false := spared
    refine ⟨row, Table.mem_rewrite_of_neg mem ?_, rfl, openRow⟩
    rw [spared]
    rfl
  · rintro f ⟨row, mem, named, done, uncancelled⟩
    refine ⟨row, Table.mem_rewrite_of_neg mem ?_, named, done, uncancelled⟩
    unfold ScheduledFollowUp.isOpen
    rw [Option.isSome_iff_ne_none] at done
    cases own : row.executedAt with
    | none => exact (done own).elim
    | some e => exact Bool.and_false _

theorem claims_iff {t : FollowUpTx} {f : String} : Claims t f ↔ (t.claimed.lookup f).isSome = true := by
  rw [List.lookup_isSome_iff]
  constructor
  · rintro ⟨now, mem⟩
    exact ⟨(f, now), mem, BEq.rfl⟩
  · rintro ⟨⟨g, now⟩, mem, same⟩
    obtain rfl := eq_of_beq same
    exact ⟨now, mem⟩

/-- The claims become visible: the rows of the transaction are executed. -/
theorem keepsOne_commit {t : FollowUpTx} {keeps : ∀ t, (FollowUpTx.finish t).id = t.id} (inv : OneReminder w)
    (isOpen : openFollowUpTx tx w = some t) : KeepsOne i w (setFollowUpTx tx .finish keeps (applyClaims t.claimed w)) := by
  have others : ∀ tx', tx' ≠ tx → openFollowUpTx tx' (setFollowUpTx tx .finish keeps (applyClaims t.claimed w)) = openFollowUpTx tx' w :=
    fun tx' apart => openFollowUpTx_set_of_ne apart
  have opens : ∀ tx' u, openFollowUpTx tx' (setFollowUpTx tx .finish keeps (applyClaims t.claimed w)) = some u →
      openFollowUpTx tx' w = some u ∧ tx' ≠ tx := by
    intro tx' u isOpen'
    by_cases own : tx' = tx
    · rw [own, openFollowUpTx_finish] at isOpen'
      cases isOpen'
    · exact ⟨(others tx' own).symm.trans isOpen', own⟩
  have written : ∀ row ∈ w.followUps.rows, row.cancelledAt = none → row.executedAt.isSome = true ∨ Claims t row.id →
      ExecutedRow row.id (setFollowUpTx tx .finish keeps (applyClaims t.claimed w)) := by
    intro row mem uncancelled done
    have mem' : Table.rewrite (fun f => (t.claimed.lookup f.id).isSome) (.execute t.claimed) row ∈ (applyClaims t.claimed w).followUps.rows :=
      List.mem_map_of_mem mem
    refine ⟨_, mem', Table.rewrite_key (ScheduledFollowUp.execute_id t.claimed) row, ?_⟩
    unfold Table.rewrite
    split
    · rename_i claimed
      obtain ⟨now, found⟩ := Option.isSome_iff_exists.1 claimed
      unfold ScheduledFollowUp.execute
      rw [found]
      exact ⟨rfl, uncancelled⟩
    · rename_i unclaimed
      exact ⟨done.resolve_right fun claims => unclaimed (claims_iff.1 claims), uncancelled⟩
  refine keepsOne_rows inv rfl rfl rfl (fun tx' u isOpen' => (opens tx' u isOpen').1) ?_ ?_ ?_
  · intro tx' u f isOpen' listed
    by_cases own : tx' = tx
    · subst own
      obtain rfl : u = t := Option.some.inj (isOpen'.symm.trans isOpen)
      have claims := inv.enqueued tx' u f isOpen' listed
      obtain ⟨row, mem, rfl, openRow⟩ := inv.held tx' u f isOpen' claims
      unfold ScheduledFollowUp.isOpen at openRow
      rw [Bool.and_eq_true, Option.isNone_iff_eq_none, Option.isNone_iff_eq_none] at openRow
      exact .inr (written row mem openRow.2 (.inr claims))
    · exact .inl ((others tx' own).trans isOpen')
  · rintro tx' u f isOpen' claims ⟨row, mem, rfl, openRow⟩
    obtain ⟨before, apart⟩ := opens tx' u isOpen'
    have unclaimed : ¬ Claims t row.id := fun claims' => apart (inv.apart tx' tx u t row.id before isOpen claims claims')
    refine ⟨row, Table.mem_rewrite_of_neg mem ?_, rfl, openRow⟩
    rw [claims_iff] at unclaimed
    exact Bool.eq_false_iff.2 unclaimed
  · rintro f ⟨row, mem, rfl, done, uncancelled⟩
    exact written row mem uncancelled (.inl done)

/-- A transaction that has enqueued nothing is rolled back. -/
theorem keepsOne_rollback {keeps : ∀ t, (FollowUpTx.finish t).id = t.id} (inv : OneReminder w)
    (idle : ((openFollowUpTx tx w).all fun t => t.enqueued.isEmpty) = true) : KeepsOne i w (setFollowUpTx tx .finish keeps w) := by
  refine keepsOne_rows inv rfl rfl rfl (fun tx' t isOpen => ?_) (fun tx' t f isOpen listed => ?_) (fun _ _ _ _ _ row => row) fun _ row => row
  · by_cases own : tx' = tx
    · rw [own, openFollowUpTx_finish] at isOpen
      cases isOpen
    · exact (openFollowUpTx_set_of_ne own).symm.trans isOpen
  · by_cases own : tx' = tx
    · rw [own] at isOpen
      rw [isOpen] at idle
      rw [List.isEmpty_iff.1 idle] at listed
      cases listed
    · exact .inl ((openFollowUpTx_set_of_ne own).trans isOpen)

theorem keepsOne_begin {transactions : Table FollowUpTx.id} (inv : OneReminder w)
    (h : w.transactions.insert ⟨tx, false, false, [], []⟩ = some transactions) :
    KeepsOne (.sweep tx) w { w with transactions := transactions } := by
  obtain ⟨own, others⟩ := openFollowUpTx_begin (w := w) h rfl rfl
  have fresh : openFollowUpTx tx w = none := by
    cases isOpen : openFollowUpTx tx w with
    | none => rfl
    | some t =>
      obtain ⟨mem, named, -⟩ := openFollowUpTx_eq_some.1 isOpen
      exact ((Table.insert_eq_some.1 h).1 t mem named).elim
  refine keepsOne_tx inv ⟨rfl, rfl, rfl, rfl⟩ others (fun t f isOpen => ?_) (fun t' isOpen' f listed => ?_) fun t' isOpen' f claims => ?_
  · rw [fresh] at isOpen
    cases isOpen
  · obtain rfl := Option.some.inj (own.symm.trans isOpen')
    cases listed
  · obtain rfl := Option.some.inj (own.symm.trans isOpen')
    obtain ⟨now, absurd⟩ := claims
    cases absurd

/-- A rewrite of the own transaction that enqueues nothing. -/
theorem keepsOne_set {g : FollowUpTx → FollowUpTx} {keeps : ∀ t, (g t).id = t.id} {t : FollowUpTx} (inv : OneReminder w)
    (isOpen : openFollowUpTx tx w = some t) (still : (g t).ended = false) (enqueued : (g t).enqueued = t.enqueued)
    (claims : ∀ f, Claims (g t) f → Claims t f ∨ OpenRow f w ∧ ∀ tx' u, tx' ≠ tx → openFollowUpTx tx' w = some u → ¬ Claims u f)
    (kept : ∀ f, Claims t f → Claims (g t) f) : KeepsOne (.sweep tx) w (setFollowUpTx tx g keeps w) := by
  have own : openFollowUpTx tx (setFollowUpTx tx g keeps w) = some (g t) := openFollowUpTx_set_eq isOpen still
  refine keepsOne_tx inv ⟨rfl, rfl, rfl, rfl⟩ (fun tx' apart => openFollowUpTx_set_of_ne apart) (fun u f isOpen' listed => ?_)
    (fun t' isOpen' f listed => ?_) fun t' isOpen' f claimed => ?_
  · obtain rfl := Option.some.inj (isOpen.symm.trans isOpen')
    exact ⟨g t, own, enqueued ▸ listed⟩
  · obtain rfl := Option.some.inj (own.symm.trans isOpen')
    exact kept f (inv.enqueued tx t f isOpen (enqueued ▸ listed))
  · obtain rfl := Option.some.inj (own.symm.trans isOpen')
    rcases claims f claimed with before | new
    · exact ⟨inv.held tx t f isOpen before, fun tx' u apart isOpen' claimed' => apart (inv.apart tx' tx u t f isOpen' isOpen claimed' before)⟩
    · exact new

theorem followUpTaskID_injective {f g : String} (same : followUpTaskID f = followUpTaskID g) : f = g := by
  unfold followUpTaskID at same
  exact (String.append_right_inj _).1 same

/-- The task of a row that the transaction has just claimed: the row had none before. -/
theorem keepsOne_enqueue {t : FollowUpTx} {f : String} {payload : FollowUpPayload} {keeps : ∀ t, (FollowUpTx.enqueue f t).id = t.id}
    (inv : OneReminder w) (isOpen : openFollowUpTx tx w = some t) (claims : Claims t f) (new : f ∉ t.enqueued) :
    KeepsOne (.sweep tx) w { setFollowUpTx tx (.enqueue f) keeps w with queue := w.queue.enqueue (followUpTaskID f) payload } := by
  have own : openFollowUpTx tx { setFollowUpTx tx (.enqueue f) keeps w with queue := w.queue.enqueue (followUpTaskID f) payload } =
      some (t.enqueue f) := @openFollowUpTx_set_eq tx w (.enqueue f) keeps t isOpen (openFollowUpTx_eq_some.1 isOpen).2.2
  have others : ∀ tx', tx' ≠ tx → openFollowUpTx tx' { setFollowUpTx tx (.enqueue f) keeps w with
      queue := w.queue.enqueue (followUpTaskID f) payload } = openFollowUpTx tx' w :=
    fun tx' apart => @openFollowUpTx_set_of_ne tx w (.enqueue f) keeps tx' apart
  -- Whoever else had a task for the row would hold it, or have executed it.
  have untaken : ¬ Taken f w := by
    rintro (⟨row, mem, named, done, -⟩ | ⟨tx', t', isOpen', listed⟩)
    · obtain ⟨row', mem', named', openRow⟩ := inv.held tx t f isOpen claims
      obtain rfl := Table.eq_of_key mem mem' (named.trans named'.symm)
      unfold ScheduledFollowUp.isOpen at openRow
      rw [Option.isSome_iff_ne_none] at done
      rw [Bool.and_eq_true, Option.isNone_iff_eq_none] at openRow
      exact done openRow.1
    · obtain rfl := inv.apart tx' tx t' t f isOpen' isOpen (inv.enqueued tx' t' f isOpen' listed) claims
      obtain rfl := Option.some.inj (isOpen.symm.trans isOpen')
      exact new listed
  have free : w.queue.slot (followUpTaskID f) = .free := by
    by_contra used
    exact untaken (inv.taken f (.inl used))
  have unreminded : remindersOf f w = [] := by
    by_contra used
    exact untaken (inv.taken f (.inr used))
  have slots : ∀ g, g ≠ f → (w.queue.enqueue (followUpTaskID f) payload).slot (followUpTaskID g) = w.queue.slot (followUpTaskID g) :=
    fun g apart => w.queue.enqueue_slot_of_ne payload fun same => apart (followUpTaskID_injective same)
  refine ⟨⟨inv.once, fun g p n live waiting => ?_, fun g used => ?_, fun tx' u g isOpen' listed => ?_, fun tx' u g isOpen' claimed => ?_,
    fun tx' tx'' u u' g isOpen' isOpen'' claimed claimed' => ?_, fun r running => ?_, inv.alone⟩, fun j apart => ?_⟩
  · by_cases same : g = f
    · rw [same]
      exact unreminded
    · exact inv.waiting g p n ((slots g same).symm.trans live) waiting
  · by_cases same : g = f
    · rw [same]
      exact .inr ⟨tx, t.enqueue f, own, List.mem_cons_self⟩
    · have used : w.queue.slot (followUpTaskID g) ≠ .free ∨ remindersOf g w ≠ [] := used.imp (fun h => (slots g same) ▸ h) id
      rcases inv.taken g used with executed | ⟨tx', u, isOpen', listed⟩
      · exact .inl executed
      · by_cases mine : tx' = tx
        · subst mine
          obtain rfl := Option.some.inj (isOpen.symm.trans isOpen')
          exact .inr ⟨tx', t.enqueue f, own, List.mem_cons_of_mem _ listed⟩
        · exact .inr ⟨tx', u, (others tx' mine).trans isOpen', listed⟩
  · by_cases mine : tx' = tx
    · subst mine
      obtain rfl := Option.some.inj (own.symm.trans isOpen')
      rcases List.mem_cons.1 listed with rfl | listed
      · exact claims
      · exact inv.enqueued tx' t g isOpen listed
    · exact inv.enqueued tx' u g ((others tx' mine).symm.trans isOpen') listed
  · by_cases mine : tx' = tx
    · subst mine
      obtain rfl := Option.some.inj (own.symm.trans isOpen')
      exact inv.held tx' t g isOpen claimed
    · exact inv.held tx' u g ((others tx' mine).symm.trans isOpen') claimed
  · have before : ∀ {tx' u}, openFollowUpTx tx' { setFollowUpTx tx (.enqueue f) keeps w with
        queue := w.queue.enqueue (followUpTaskID f) payload } = some u → Claims u g → ∃ v, openFollowUpTx tx' w = some v ∧ Claims v g := by
      intro tx' u isOpen' claimed
      by_cases mine : tx' = tx
      · subst mine
        obtain rfl := Option.some.inj (own.symm.trans isOpen')
        exact ⟨t, isOpen, claimed⟩
      · exact ⟨u, (others tx' mine).symm.trans isOpen', claimed⟩
    obtain ⟨v, vOpen, vClaims⟩ := before isOpen' claimed
    obtain ⟨v', vOpen', vClaims'⟩ := before isOpen'' claimed'
    exact inv.apart tx' tx'' v v' g vOpen vOpen' vClaims vClaims'
  · obtain ⟨p, n, live⟩ := inv.active r running
    by_cases same : r.followUp = f
    · rw [same, free] at live
      cases live
    · exact ⟨p, n, (slots r.followUp same).trans live⟩
  · cases j with
    | run r => exact ⟨Iff.rfl, fun _ => rfl⟩
    | sweep tx' =>
      intro u isOpen'
      exact (others tx' fun mine => apart (mine ▸ rfl)).symm.trans isOpen'
    | delivery d => trivial
    | expiry n => trivial
    | other n => trivial

/-- Asynq starts a run of a task that is waiting, which has no reminder yet. -/
theorem keepsOne_startTask {r : FollowUpRun} {payload : FollowUpPayload} {retried : Nat} (inv : OneReminder w)
    (waiting : Waiting r.followUp w) (live : w.queue.slot (followUpTaskID r.followUp) = .live payload retried) :
    KeepsOne (.run r) w { w with running := r :: w.running } ∧ remindersOf r.followUp w = [] := by
  refine ⟨⟨⟨inv.once, fun f p n live' waits => ?_, inv.taken, inv.enqueued, inv.held, inv.apart, fun r' mem => ?_, fun r' mem' r'' mem'' same => ?_⟩,
    fun j apart => ?_⟩, inv.waiting r.followUp payload retried live waiting⟩
  · exact inv.waiting f p n live' fun r' mem => waits r' (List.mem_cons_of_mem _ mem)
  · rcases List.mem_cons.1 mem with rfl | mem
    · exact ⟨payload, retried, live⟩
    · exact inv.active r' mem
  · rcases List.mem_cons.1 mem' with rfl | was'
    · rcases List.mem_cons.1 mem'' with rfl | was''
      · rfl
      · exact (waiting r'' was'' same.symm).elim
    · rcases List.mem_cons.1 mem'' with rfl | was''
      · exact (waiting r' was' same).elim
      · exact inv.alone r' was' r'' was'' same
  · cases j with
    | run r' =>
      refine ⟨⟨fun mem => ?_, fun mem => List.mem_cons_of_mem _ mem⟩, fun _ => rfl⟩
      exact (List.mem_cons.1 mem).resolve_left fun same => apart (same ▸ rfl)
    | sweep tx => exact fun t isOpen => isOpen
    | delivery d => trivial
    | expiry n => trivial
    | other n => trivial

/-- A run ends: it succeeded, or it had written nothing. -/
theorem keepsOne_finishTask {r : FollowUpRun} {success : Bool} (inv : OneReminder w)
    (clean : success = false → remindersOf r.followUp w = []) : KeepsOne (.run r) w (finishTask r success w) := by
  unfold finishTask
  split
  · rename_i running
    obtain ⟨payload, retried, live⟩ := inv.active r running
    rw [live]
    have gone : ∀ r', r' ∈ (w.running.filter fun x => decide (x ≠ r)) ↔ r' ∈ w.running ∧ r' ≠ r := by
      intro r'
      rw [List.mem_filter, decide_eq_true_eq]
    have apartTask : ∀ f, f ≠ r.followUp → followUpTaskID f ≠ followUpTaskID r.followUp :=
      fun f apart same => apart (followUpTaskID_injective same)
    have slots : ∀ f, f ≠ r.followUp → (if success then w.queue.complete (followUpTaskID r.followUp)
        else w.queue.fail followUpMaxRetry (followUpTaskID r.followUp) payload retried).slot (followUpTaskID f) =
          w.queue.slot (followUpTaskID f) := by
      intro f apart
      split
      · exact w.queue.complete_slot_of_ne (apartTask f apart)
      · exact w.queue.fail_slot_of_ne _ _ _ (apartTask f apart)
    refine ⟨⟨inv.once, fun f p n live' waits => ?_, fun f used => ?_, inv.enqueued, inv.held, inv.apart, fun r' mem => ?_,
      fun r' mem' r'' mem'' same => ?_⟩, fun j apart => ?_⟩
    · by_cases same : f = r.followUp
      · subst same
        cases success with
        | true =>
          have freed : (w.queue.complete (followUpTaskID r.followUp)).slot (followUpTaskID r.followUp) = .live p n := live'
          rw [TaskQueue.complete_slot] at freed
          cases freed
        | false => exact clean rfl
      · refine inv.waiting f p n ((slots f same).symm.trans live') fun r' mem named => waits r' ((gone r').2 ⟨mem, ?_⟩) named
        rintro rfl
        exact same named.symm
    · by_cases same : f = r.followUp
      · subst same
        refine inv.taken r.followUp (.inl ?_)
        rw [live]
        exact fun absurd => nomatch absurd
      · refine inv.taken f (used.imp (fun h => ?_) id)
        rw [← slots f same]
        exact h
    · obtain ⟨mem, apart⟩ := (gone r').1 mem
      obtain ⟨p, n, live'⟩ := inv.active r' mem
      refine ⟨p, n, (slots r'.followUp fun same => apart ?_).trans live'⟩
      exact inv.alone r' mem r running same
    · exact inv.alone r' ((gone r').1 mem').1 r'' ((gone r'').1 mem'').1 same
    · cases j with
      | run r' =>
        refine ⟨⟨fun mem => ((gone r').1 mem).1, fun mem => (gone r').2 ⟨mem, fun same => apart (same ▸ rfl)⟩⟩, fun _ => rfl⟩
      | sweep tx => exact fun t isOpen => isOpen
      | delivery d => trivial
      | expiry n => trivial
      | other n => trivial
  · exact SameCore.keepsOne ⟨rfl, rfl, rfl, rfl⟩ inv rfl

/-- The one reminder of a run. -/
theorem keepsOne_reminder {r : FollowUpRun} {reminder : Reminder} (inv : OneReminder w) (own : reminder.followUp = r.followUp)
    (running : r ∈ w.running) (first : remindersOf r.followUp w = []) (core : w'.followUps = w.followUps) (queue : w'.queue = w.queue)
    (runs : w'.running = w.running) (transactions : w'.transactions = w.transactions) (reminders : w'.reminders = reminder :: w.reminders) :
    KeepsOne (.run r) w w' := by
  have others : ∀ f, f ≠ r.followUp → remindersOf f w' = remindersOf f w := by
    intro f apart
    unfold remindersOf
    rw [reminders, List.filter_cons_of_neg]
    simpa [own] using Ne.symm apart
  have mine : remindersOf r.followUp w' = [reminder] := by
    unfold remindersOf at first ⊢
    rw [reminders, List.filter_cons_of_pos (by simp [own]), first]
  have opens : ∀ tx, openFollowUpTx tx w' = openFollowUpTx tx w := by
    intro tx
    unfold openFollowUpTx
    rw [transactions]
  have executed : ∀ f, ExecutedRow f w → ExecutedRow f w' := by
    intro f
    unfold ExecutedRow
    rw [core]
    exact id
  have openRow : ∀ f, OpenRow f w → OpenRow f w' := by
    intro f
    unfold OpenRow
    rw [core]
    exact id
  refine ⟨⟨fun f => ?_, fun f p n live waits => ?_, fun f used => ?_, fun tx t f isOpen => inv.enqueued tx t f (opens tx ▸ isOpen),
    fun tx t f isOpen claims => openRow f (inv.held tx t f (opens tx ▸ isOpen) claims),
    fun tx tx' t t' f isOpen isOpen' => inv.apart tx tx' t t' f (opens tx ▸ isOpen) (opens tx' ▸ isOpen'), ?_, ?_⟩, fun j apart => ?_⟩
  · by_cases same : f = r.followUp
    · rw [same, mine]
      exact Nat.le_refl 1
    · rw [others f same]
      exact inv.once f
  · by_cases same : f = r.followUp
    · unfold Waiting at waits
      rw [runs] at waits
      exact (waits r running same.symm).elim
    · rw [others f same]
      unfold Waiting at waits
      rw [runs] at waits
      rw [queue] at live
      exact inv.waiting f p n live waits
  · have before : w.queue.slot (followUpTaskID f) ≠ .free ∨ remindersOf f w ≠ [] := by
      by_cases same : f = r.followUp
      · obtain ⟨p, n, live⟩ := inv.active r running
        rw [same, live]
        exact .inl fun absurd => nomatch absurd
      · rw [queue, others f same] at used
        exact used
    rcases inv.taken f before with done | ⟨tx, t, isOpen, listed⟩
    · exact .inl (executed f done)
    · exact .inr ⟨tx, t, (opens tx).trans isOpen, listed⟩
  · rw [runs, queue]
    exact inv.active
  · rw [runs]
    exact inv.alone
  · cases j with
    | run r' =>
      refine ⟨by rw [runs], fun running' => others r'.followUp fun same => apart ?_⟩
      rw [inv.alone r' running' r running same]
    | sweep tx => exact fun t isOpen => opens tx ▸ isOpen
    | delivery d => trivial
    | expiry n => trivial
    | other n => trivial

/-- The statements that keep the protocol under any name. -/
def Plain : FollowUpStmt → Prop
  | .insertOutboundRow .. | .startTask .. | .finishTask .. | .begin .. | .lockScanner .. | .claim .. | .enqueue .. => False
  | _ => True

theorem keepsOne_plain {op : FollowUpStmt} (plain : Plain op) (inv : OneReminder w) (may : committedFlow.allow w op) :
    KeepsOne i w (followUpExec op w).2 := by
  have same : KeepsOne i w w := SameCore.keepsOne ⟨rfl, rfl, rfl, rfl⟩ inv rfl
  cases op with
  | now | lookupOrder | lookupConversation | publishOutbound | existsFollowUp | expiredOrders => exact same
  | tick | recordLatePayment | scheduled | setStatus | setName => exact SameCore.keepsOne ⟨rfl, rfl, rfl, rfl⟩ inv rfl
  | due tx now =>
    simp only [followUpExec, withinTx]
    split <;> exact same
  | commit tx =>
    simp only [followUpExec, withinTx]
    split
    · rename_i t isOpen
      exact keepsOne_commit inv isOpen
    · exact same
  | rollback tx => exact keepsOne_rollback inv may.2
  | cancelFollowUps orderID now => exact keepsOne_cancelFollowUps inv may.1
  | insertPair d first second =>
    rcases insertPair_cases d first second w with ⟨e, failed⟩ | ⟨mid, last, inserted, inserted', executed⟩
    · rw [failed]
      exact same
    · rw [executed]
      have before := keepsOne_insert (i := i) inv inserted
      have after := keepsOne_insert (i := i) before.inv inserted'
      have noted : KeepsOne i last { last with halfway := d :: last.halfway } := SameCore.keepsOne ⟨rfl, rfl, rfl, rfl⟩ after.inv rfl
      refine ⟨noted.inv, fun j apart => reminderProtocol.trans j _ _ _ (before.others j apart) ?_⟩
      exact reminderProtocol.trans j _ _ _ (after.others j apart) (noted.others j apart)
  | insertThird d row =>
    simp only [followUpExec]
    cases inserted : insertFollowUp row w with
    | error e => exact same
    | ok mid =>
      have first := keepsOne_insert (i := i) inv inserted
      have noted : KeepsOne i mid { mid with halfway := mid.halfway.filter fun x => decide (x ≠ d) } :=
        SameCore.keepsOne ⟨rfl, rfl, rfl, rfl⟩ first.inv rfl
      exact ⟨noted.inv, fun j apart => reminderProtocol.trans j _ _ _ (first.others j apart) (noted.others j apart)⟩
  | insertDeliveryConfirmation row =>
    simp only [followUpExec]
    cases inserted : insertFollowUp row w with
    | error e => exact same
    | ok mid => exact keepsOne_insert inv inserted
  | cancelOrder orderID reason =>
    simp only [followUpExec, cancelOrder]
    split
    · exact SameCore.keepsOne ⟨rfl, rfl, rfl, rfl⟩ inv rfl
    · exact same
  | insertOrder o =>
    simp only [followUpExec]
    split
    · exact same
    · split
      · exact same
      · split
        · exact SameCore.keepsOne ⟨rfl, rfl, rfl, rfl⟩ inv rfl
        · exact same
  | insertOutboundRow | startTask | finishTask | begin | lockScanner | claim | enqueue => exact plain.elim

end Statements

/-! ## Handlers -/

section Handlers

variable {i : FollowUpName} {r : FollowUpRun} {tx : String} {w : FollowUpWorld}

/-- The run is active and has written nothing. -/
def Fresh (r : FollowUpRun) (w : FollowUpWorld) : Prop := r ∈ w.running ∧ remindersOf r.followUp w = []

theorem Fresh.relies {t : FollowUpWorld} (h : Fresh r w) (rely : reminderRely (.run r) w t) : Fresh r t :=
  ⟨rely.1.2 h.1, (rely.2 h.1).trans h.2⟩

/-- A plain statement of a run that has written nothing. -/
theorem Fresh.safe_plain (op : FollowUpStmt) (h : Fresh r w) (plain : Plain op)
    (kept : ∀ t, Fresh r t → Fresh r (followUpExec op t).2) :
    Safe committedFlow reminderProtocol (.run r) (fun _ => Fresh r) (call (I := followUpStore) op) w := by
  refine Safe.call (fun t rely inv may => ?_) (fun t rely _ _ => h.relies rely) fun _ _ _ _ => trivial
  have keeps : KeepsOne (.run r) t (followUpExec op t).2 := keepsOne_plain plain inv may
  have after := kept t (h.relies rely)
  exact ⟨keeps.inv, keeps.others, after, fun _ => after⟩

/-- A plain statement. -/
theorem safe_statement (op : FollowUpStmt) (plain : Plain op) :
    Safe committedFlow reminderProtocol i (fun _ _ => True) (call (I := followUpStore) op) w := by
  refine Safe.call (fun t _ inv may => ?_) (fun _ _ _ _ => trivial) fun _ _ _ _ => trivial
  have keeps : KeepsOne i t (followUpExec op t).2 := keepsOne_plain plain inv may
  exact ⟨keeps.inv, keeps.others, trivial, fun _ => trivial⟩

theorem Fresh.safe_insert {fp : FollowUpPayload} {row : OutboundMessage} (h : Fresh r w) :
    Safe committedFlow reminderProtocol (.run r) (fun _ _ => True) (call (I := followUpStore) (.insertOutboundRow r fp row)) w := by
  refine Safe.call (fun t rely inv may => ?_) (fun _ _ _ _ => trivial) fun _ _ _ _ => trivial
  obtain ⟨running, first⟩ := h.relies rely
  have keeps : KeepsOne (.run r) t (followUpExec (.insertOutboundRow r fp row) t).2 := by
    simp only [followUpExec]
    cases inserted : insertOutboundRow row t with
    | error e => exact SameCore.keepsOne ⟨rfl, rfl, rfl, rfl⟩ inv rfl
    | ok mid =>
      obtain ⟨messages, rfl⟩ := insertOutboundRow_ok inserted
      exact keepsOne_reminder inv rfl running first rfl rfl rfl rfl rfl
  exact ⟨keeps.inv, keeps.others, trivial, fun _ => trivial⟩

theorem Fresh.safe_sendReminder {publisher : Bool} {outboundID customerPhone text : String} {fp : FollowUpPayload} (h : Fresh r w) :
    Safe committedFlow reminderProtocol (.run r) (fun _ _ => True) (sendReminder r publisher outboundID fp customerPhone text) w := by
  unfold sendReminder
  have lookup := h.safe_plain (.lookupConversation r fp.businessID customerPhone) trivial fun _ fresh => fresh
  refine Safe.bind ((Safe.mapErr (Q := fun _ => Fresh r) lookup).mono fun found t fresh => ?_)
  rcases found with e | ⟨_ | conversationID⟩
  · trivial
  · trivial
  · refine Safe.bind ((Safe.mapErr (Q := fun _ _ => True) fresh.safe_insert).mono fun inserted t _ => ?_)
    cases inserted with
    | error e => trivial
    | ok _ =>
      cases publisher with
      | true => exact Safe.mapErr (safe_statement _ trivial)
      | false => trivial

theorem Fresh.safe_handleFollowUp {publisher : Bool} {outboundID : String} {fp : FollowUpPayload} (h : Fresh r w) :
    Safe committedFlow reminderProtocol (.run r) (fun _ _ => True) (handleFollowUp r publisher outboundID fp) w := by
  unfold handleFollowUp
  have lookup := h.safe_plain (.lookupOrder r fp.orderID) trivial fun _ fresh => fresh
  refine Safe.bind ((Safe.mapErr (Q := fun _ => Fresh r) lookup).mono fun found t fresh => ?_)
  rcases found with e | ⟨_ | order⟩
  · trivial
  · trivial
  · simp only
    split
    · trivial
    · rename_i text late said
      cases late with
      | false => exact fresh.safe_sendReminder
      | true =>
        have counts := fresh.safe_plain (.recordLatePayment fp.customerID) trivial fun _ fresh => fresh
        refine Safe.bind (Safe.bind (Safe.attempt (counts.mono fun _ _ fresh => ?_)))
        exact fresh.safe_sendReminder

/-- The end of a run; the runs considered have it clean where it failed. -/
theorem safe_finishTask {success : Bool} :
    Safe committedFlow reminderProtocol (.run r) (fun _ _ => True) (call (I := followUpStore) (.finishTask r success)) w := by
  refine Safe.call (fun t _ inv may => ?_) (fun _ _ _ _ => trivial) fun _ _ _ _ => trivial
  have keeps : KeepsOne (.run r) t (finishTask r success t) := keepsOne_finishTask inv fun failed => by
    subst failed
    exact may.2
  exact ⟨keeps.inv, keeps.others, trivial, fun _ => trivial⟩

theorem safe_startTask : Safe committedFlow reminderProtocol (.run r) (Replied (fun _ => Fresh r) fun _ => True)
    (call (I := followUpStore) (.startTask r)) w := by
  refine Safe.call (fun t _ inv may => ?_) (fun _ _ _ _ => trivial) fun _ _ _ _ => trivial
  simp only [committedFlow, followUpExec]
  cases slot : t.queue.slot (followUpTaskID r.followUp) with
  | live payload retried =>
    obtain ⟨keeps, first⟩ := keepsOne_startTask inv may.1 slot
    exact ⟨keeps.inv, keeps.others, ⟨List.mem_cons_self, first⟩, fun _ => trivial⟩
  | free =>
    have same : KeepsOne (.run r) t t := SameCore.keepsOne ⟨rfl, rfl, rfl, rfl⟩ inv rfl
    exact ⟨same.inv, same.others, trivial, fun _ => trivial⟩
  | archived =>
    have same : KeepsOne (.run r) t t := SameCore.keepsOne ⟨rfl, rfl, rfl, rfl⟩ inv rfl
    exact ⟨same.inv, same.others, trivial, fun _ => trivial⟩

theorem safe_followUpTask {publisher : Bool} {outboundID : String} :
    Safe committedFlow reminderProtocol (.run r) (fun _ _ => True) (followUpTask r publisher outboundID) w := by
  unfold followUpTask
  refine Safe.bind (safe_startTask.mono fun started t fresh => ?_)
  cases started with
  | error e => trivial
  | ok fp => exact Safe.bind (Safe.attempt ((Fresh.safe_handleFollowUp fresh).mono fun _ _ _ => safe_finishTask))

/-! ## Sweeps -/

/-- The open transaction has claimed the row and not enqueued its task. -/
def Claimed (tx f : String) (w : FollowUpWorld) : Prop := ∀ t, openFollowUpTx tx w = some t → Claims t f ∧ f ∉ t.enqueued

theorem safe_lockScanner :
    Safe committedFlow reminderProtocol (.sweep tx) (fun _ _ => True) (call (I := followUpStore) (.lockScanner tx)) w := by
  refine Safe.call (fun t _ inv may => ?_) (fun _ _ _ _ => trivial) fun _ _ _ _ => trivial
  have keeps : KeepsOne (.sweep tx) t (followUpExec (.lockScanner tx) t).2 := by
    simp only [followUpExec, withinTx]
    split
    · rename_i u isOpen
      exact keepsOne_set inv isOpen (openFollowUpTx_eq_some.1 isOpen).2.2 rfl (fun _ claims => .inl claims) fun _ claims => claims
    · exact SameCore.keepsOne ⟨rfl, rfl, rfl, rfl⟩ inv rfl
  exact ⟨keeps.inv, keeps.others, trivial, fun _ => trivial⟩

/-- A claim: the row is open, and nobody else has claimed it. -/
theorem safe_claim {f : String} {now : Nat} : Safe committedFlow reminderProtocol (.sweep tx)
    (Replied (fun claimed t => claimed = true → Claimed tx f t) fun _ => True) (call (I := followUpStore) (.claim tx f now)) w := by
  refine Safe.call (fun t _ inv may => ?_) (fun _ _ _ _ => trivial) fun _ _ _ _ => trivial
  have same : KeepsOne (.sweep tx) t t := SameCore.keepsOne ⟨rfl, rfl, rfl, rfl⟩ inv rfl
  simp only [committedFlow, followUpExec, withinTx]
  cases isOpen : openFollowUpTx tx t with
  | none => exact ⟨same.inv, same.others, trivial, fun _ => trivial⟩
  | some u =>
    simp only
    split
    · rename_i able
      unfold claimable at able
      rw [Bool.and_eq_true, Option.isNone_iff_eq_none] at able
      obtain ⟨found, unclaimed⟩ := able
      have new : ¬ Claims u f := by
        rw [claims_iff, unclaimed]
        exact Bool.false_ne_true
      have openRow : OpenRow f t := by
        cases row : t.followUps.find? f with
        | none =>
          rw [row] at found
          cases found
        | some x =>
          rw [row] at found
          obtain ⟨mem, named⟩ := Table.find?_eq_some.1 row
          exact ⟨x, mem, named, found⟩
      have apart : ∀ tx' v, tx' ≠ tx → openFollowUpTx tx' t = some v → ¬ Claims v f := by
        rintro tx' v other isOpen' ⟨e, claimed⟩
        obtain ⟨listed, named, notEnded⟩ := openFollowUpTx_eq_some.1 isOpen'
        have waits := may.1 v listed (fun same => other (named.symm.trans (Option.some.inj same).symm)) notEnded _ claimed
        simp at waits
      have still : (FollowUpTx.claim f now u).ended = false := (openFollowUpTx_eq_some.1 isOpen).2.2
      have keeps : KeepsOne (.sweep tx) t (setFollowUpTx tx (.claim f now) (fun _ => rfl) t) := by
        refine keepsOne_set inv isOpen still rfl (fun g claims => ?_) fun g claims => claims.imp fun e claimed =>
          List.mem_cons_of_mem _ claimed
        obtain ⟨e, claimed⟩ := claims
        rcases List.mem_cons.1 claimed with same | before
        · obtain ⟨rfl, rfl⟩ := Prod.mk.inj same
          exact .inr ⟨openRow, apart⟩
        · exact .inl ⟨e, before⟩
      refine ⟨keeps.inv, keeps.others, fun _ v isOpen' => ?_, fun _ => trivial⟩
      obtain rfl := Option.some.inj (isOpen'.symm.trans (openFollowUpTx_set_eq isOpen still))
      exact ⟨⟨now, List.mem_cons_self⟩, fun listed => new (inv.enqueued tx u f isOpen listed)⟩
    · exact ⟨same.inv, same.others, fun taken => absurd taken Bool.false_ne_true, fun _ => trivial⟩

theorem Claimed.safe_enqueue {f : String} {payload : FollowUpPayload} (h : Claimed tx f w) :
    Safe committedFlow reminderProtocol (.sweep tx) (fun _ _ => True) (call (I := followUpStore) (.enqueue tx f payload)) w := by
  refine Safe.call (fun t rely inv may => ?_) (fun _ _ _ _ => trivial) fun _ _ _ _ => trivial
  obtain ⟨u, isOpen⟩ := Option.isSome_iff_exists.1 may.2
  obtain ⟨claims, new⟩ := h u (rely u isOpen)
  have keeps : KeepsOne (.sweep tx) t (followUpExec (.enqueue tx f payload) t).2 := keepsOne_enqueue inv isOpen claims new
  exact ⟨keeps.inv, keeps.others, trivial, fun _ => trivial⟩

theorem safe_claimDue {publisher : Bool} {now : Nat} {rows : List ScheduledFollowUp} :
    Safe committedFlow reminderProtocol (.sweep tx) (fun _ _ => True) (claimDue tx publisher now rows) w := by
  induction rows generalizing w with
  | nil => trivial
  | cons d rest ih =>
    unfold claimDue
    refine Safe.bind ((Safe.mapErr_replied safe_claim).mono fun reply t h => ?_)
    cases reply with
    | error e => trivial
    | ok claimed =>
      cases claimed with
      | false => exact ih
      | true =>
        cases publisher with
        | false => exact ih
        | true => exact Safe.bind (Safe.bind (Safe.attempt ((Claimed.safe_enqueue (h rfl)).mono fun _ _ _ => ih)))

theorem safe_begin : Safe committedFlow reminderProtocol (.sweep tx) (fun _ _ => True) (call (I := followUpStore) (.begin tx)) w := by
  refine Safe.call (fun t _ inv may => ?_) (fun _ _ _ _ => trivial) fun _ _ _ _ => trivial
  have keeps : KeepsOne (.sweep tx) t (followUpExec (.begin tx) t).2 := by
    simp only [followUpExec]
    split
    · rename_i transactions inserted
      exact keepsOne_begin inv inserted
    · exact SameCore.keepsOne ⟨rfl, rfl, rfl, rfl⟩ inv rfl
  exact ⟨keeps.inv, keeps.others, trivial, fun _ => trivial⟩

theorem safe_sweepFollowUps {publisher : Bool} :
    Safe committedFlow reminderProtocol (.sweep tx) (fun _ _ => True) (sweepFollowUps tx publisher) w := by
  unfold sweepFollowUps
  refine Safe.bind ((safe_statement .now trivial).mono fun clock t _ => ?_)
  cases clock with
  | error e => trivial
  | ok now =>
    refine Safe.bind ((Safe.mapErr (Q := fun _ _ => True) safe_begin).mono fun begun t _ => ?_)
    cases begun with
    | error e => trivial
    | ok _ =>
      have body : Safe committedFlow reminderProtocol (.sweep tx) (fun _ _ => True) (sweepDue tx publisher now) t := by
        unfold sweepDue
        refine Safe.bind ((Safe.mapErr (Q := fun _ _ => True) safe_lockScanner).mono fun locked t _ => ?_)
        cases locked with
        | error e => trivial
        | ok _ =>
          refine Safe.bind ((Safe.mapErr (Q := fun _ _ => True) (safe_statement (.due tx now) trivial)).mono fun rows t _ => ?_)
          cases rows with
          | error e => trivial
          | ok rows =>
            refine Safe.bind (safe_claimDue.mono fun claimed t _ => ?_)
            cases claimed with
            | error e => trivial
            | ok _ => exact Safe.mapErr (safe_statement (.commit tx) trivial)
      refine Safe.bind (Safe.attempt (body.mono fun swept t _ => ?_))
      cases swept with
      | ok _ => trivial
      | error e => exact Safe.bind (Safe.bind (Safe.attempt ((safe_statement (.rollback tx) trivial).mono fun _ _ _ => trivial)))

theorem uses_deliverSchedule {d : ScheduleDelivery} {evt : OrderCreated} {ids : FollowUpIDs} :
    (deliverSchedule d evt ids).Uses Plain := by
  have schedule : (handleFollowUpSchedule d evt ids).Uses Plain := by
    unfold handleFollowUpSchedule
    refine (uses_call.2 trivial).bind fun found => ?_
    split
    · trivial
    · refine (uses_call.2 trivial).bind fun now => ?_
      exact (Uses.mapErr (uses_call.2 trivial)).bind fun _ => Uses.mapErr (uses_call.2 trivial)
  exact schedule.bind fun _ => uses_call.2 trivial

theorem uses_cancelExpiredOrders (orderIDs : List String) : (cancelExpiredOrders orderIDs).Uses Plain := by
  induction orderIDs with
  | nil => trivial
  | cons orderID rest ih =>
    exact Uses.bind (Uses.ignore (Uses.attempt (uses_call.2 trivial))) fun _ => ih

theorem uses_sweepExpiredOrders : sweepExpiredOrders.Uses Plain := by
  refine (uses_call.2 trivial).bind fun now => ?_
  exact (uses_call.2 trivial).bind fun orderIDs => uses_cancelExpiredOrders orderIDs

theorem plain_of_outside {op : FollowUpStmt} (outside : Outside op) : Plain op := by
  cases op <;> trivial

theorem safe_uses {p : FollowUpHandler Unit} (uses : p.Uses Plain) : Safe committedFlow reminderProtocol i (fun _ _ => True) p w := by
  refine Safe.of_uses uses (fun op t plain inv may => ?_) fun _ => trivial
  have keeps : KeepsOne i t (followUpExec op t).2 := keepsOne_plain plain inv may
  exact ⟨keeps.inv, keeps.others⟩

theorem safe_committedJob {p : FollowUpHandler Unit} (may : FollowUpJob i p) :
    Safe committedFlow reminderProtocol i (fun _ _ => True) p w := by
  cases may with
  | task r publisher outboundID => exact safe_followUpTask
  | limited r =>
    refine Safe.bind (safe_startTask.mono fun started t _ => ?_)
    cases started with
    | error e => trivial
    | ok fp => exact safe_finishTask
  | recover r => exact safe_finishTask
  | sweep tx publisher => exact safe_sweepFollowUps
  | schedule d evt ids own => exact safe_uses uses_deliverSchedule
  | expiry n => exact safe_uses uses_sweepExpiredOrders
  | other n op outside => exact safe_uses (Uses.ignore (Uses.attempt (uses_call.2 (plain_of_outside outside))))

end Handlers

/-! ## Every run -/

/-- No task was enqueued yet. -/
structure Unstarted (w : FollowUpWorld) : Prop where
  slots : ∀ f, w.queue.slot (followUpTaskID f) = .free
  running : w.running = []
  reminders : w.reminders = []
  transactions : w.transactions.rows = []

theorem Unstarted.oneReminder {w : FollowUpWorld} (h : Unstarted w) : OneReminder w := by
  have none' : ∀ f, remindersOf f w = [] := by
    intro f
    unfold remindersOf
    rw [h.reminders]
    rfl
  have closed : ∀ tx t, openFollowUpTx tx w ≠ some t := by
    intro tx t isOpen
    have mem := (openFollowUpTx_eq_some.1 isOpen).1
    rw [h.transactions] at mem
    cases mem
  refine ⟨fun f => ?_, fun f _ _ _ _ => none' f, fun f used => ?_, fun tx t _ isOpen => (closed tx t isOpen).elim,
    fun tx t _ isOpen => (closed tx t isOpen).elim, fun tx _ t _ _ isOpen => (closed tx t isOpen).elim, fun r mem => ?_, fun r mem => ?_⟩
  · rw [none' f]
    exact Nat.zero_le 1
  · rcases used with used | used
    · exact (used (h.slots f)).elim
    · exact (used (none' f)).elim
  · rw [h.running] at mem
    cases mem
  · rw [h.running] at mem
    cases mem

/-- Where what was enqueued is committed and no run fails that has written its row, a follow-up gets at most one reminder,
and a cancelled one none. -/
theorem reminded_at_most_once {w : FollowUpWorld} {c : Crew followUpStore FollowUpName FollowUpWorld} (start : Unstarted w)
    (reach : committedFlow.Reach ⟨w, []⟩ c) :
    (∀ f, (remindersOf f c.state).length ≤ 1) ∧
      ∀ row ∈ c.state.followUps.rows, row.cancelledAt.isSome = true → remindersOf row.id c.state = [] := by
  have inv : OneReminder c.state :=
    Protocol.invariant (P := reminderProtocol) (fun i p s may _ _ => safe_committedJob may) reach start.oneReminder fun _ => trivial
  refine ⟨inv.once, fun row mem cancelled => ?_⟩
  by_contra reminded
  rcases inv.taken row.id (.inr reminded) with ⟨row', mem', named, -, uncancelled⟩ | ⟨tx, t, isOpen, listed⟩
  · rw [Table.eq_of_key mem' mem named] at uncancelled
    rw [uncancelled] at cancelled
    cases cancelled
  · obtain ⟨row', mem', named, openRow⟩ := inv.held tx t row.id isOpen (inv.enqueued tx t row.id isOpen listed)
    rw [Table.eq_of_key mem' mem named] at openRow
    unfold ScheduledFollowUp.isOpen at openRow
    rw [Bool.and_eq_true, Option.isNone_iff_eq_none, Option.isNone_iff_eq_none] at openRow
    rw [openRow.2] at cancelled
    cases cancelled

/-- An order of a customer with a conversation, and its follow-ups. -/
def storeOf (name : Option String) (followUps : Table ScheduledFollowUp.id) : FollowUpWorld where
  businesses := ⟨[⟨"biz", "GHS", some "RCP_reminders"⟩], by decide⟩
  customers := ⟨[⟨"ama", name, "233200000000"⟩], List.nodup_singleton _⟩
  profiles := Table.empty
  conversations := ⟨[⟨"conv", "biz", "233200000000", .invoicing, false⟩], by decide⟩
  orders := ⟨[⟨"o1", "biz", "ama", some "conv", .confirmed, ⟨1000, by decide⟩, "GHS", 0, 0, none, .delivery, none, none⟩], by decide⟩
  followUps := followUps
  outboundMessages := Table.empty
  transactions := Table.empty
  queue := TaskQueue.empty
  running := []
  clock := 0
  reminders := []
  halfway := []
  scheduled := []
  succeeded := []
  cancellations := []

/-- A follow-up of that order that is due. -/
def dueRow (id jobType : String) : ScheduledFollowUp := ⟨id, "o1", "biz", "ama", jobType, 0, none, none⟩

/-- One abandoned cart. -/
def abandoned : FollowUpWorld := storeOf (some "Ama") ⟨[dueRow "f1" "abandoned-cart"], by decide⟩

/-- The sweep has claimed the row and enqueued its task. -/
def swept : FollowUpWorld := ((sweepFollowUps "t1" true).run followUpExec abandoned).2

/-- The task was run. -/
def reminded : FollowUpWorld := ((followUpTask ⟨0, "f1"⟩ true "m1").run followUpExec swept).2

theorem abandoned_unstarted : Unstarted abandoned := ⟨fun _ => rfl, rfl, rfl, rfl⟩

/-- A sweep and the run of the task. -/
theorem reminded_at_most_once_swept : (remindersOf "f1" reminded).length = 1 ∧ (∀ f, (remindersOf f reminded).length ≤ 1) := by
  have claimed : committedFlow.Reach ⟨abandoned, []⟩ ⟨swept, []⟩ :=
    committedFlow.reach_job (i := .sweep "t1") (.sweep "t1" true) (by decide +kernel)
  have ran : committedFlow.Reach ⟨swept, []⟩ ⟨reminded, []⟩ :=
    committedFlow.reach_job (i := .run ⟨0, "f1"⟩) (.task ⟨0, "f1"⟩ true "m1") (by decide +kernel)
  exact ⟨by decide +kernel, (reminded_at_most_once abandoned_unstarted (claimed.trans ran)).1⟩

/-- The row of the reminder is written and is about to be published. -/
def written : FollowUpHandler Unit × FollowUpWorld := (followUpTask ⟨0, "f1"⟩ true "m1").steps followUpExec 4 swept

/-- The publish fails, and asynq takes the task back. -/
def unpublished : FollowUpHandler Unit × FollowUpWorld := written.1.failing.steps followUpExec 5 written.2

/-- When the publish after the insert fails, the next run of the task writes a second reminder. -/
theorem reminded_twice : ¬ ∀ c : Crew followUpStore FollowUpName FollowUpWorld, followUpFlow.Reach ⟨abandoned, []⟩ c →
    ∀ f, (remindersOf f c.state).length ≤ 1 := by
  intro once
  have claimed : followUpFlow.Reach ⟨abandoned, []⟩ ⟨swept, []⟩ :=
    followUpFlow.reach_job (i := .sweep "t1") (.sweep "t1" true) (by decide +kernel)
  have started := claimed.tail (.spawn (.task ⟨0, "f1"⟩ true "m1") List.not_mem_nil)
  have inserted := started.trans (followUpFlow.reach_steps 4 [] [] (by decide +kernel))
  have failed := inserted.trans (followUpFlow.reach_fail [] [] (by decide +kernel))
  have ended := failed.trans (followUpFlow.reach_steps 5 [] [] (by decide +kernel))
  have again := ended.tail (.spawn (.task ⟨1, "f1"⟩ true "m2") (by decide))
  have twice := again.trans (followUpFlow.reach_steps 10 [] [(.run ⟨0, "f1"⟩, unpublished.1)] (by decide +kernel))
  exact absurd (once _ twice "f1") (by decide +kernel)

end NovoApex.FollowUps
