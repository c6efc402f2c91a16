import NovoApex.Outbound.Verdicts
import NovoApex.Lib.TaskQueue

/-!
# What a sweep does with stranded rows

`SweepOutbox` over the rows and the outbound queue. It decides by `created_at` whether
a newer message of the conversation went out, which is the send order of `Deliver`
only where `created_at` and `seq` agree on it. It publishes the other rows again under
their fixed task id, which leaves them stranded where an archived task keeps that id:
a task whose attempts all failed before the row was marked.
-/

namespace NovoApex.Outbound
set_option autoImplicit false
open Lib Program Db Workers

/-- The tables, the outbound queue and the publishes of a run. -/
structure Outbox where
  db : OutboundWorld
  queue : TaskQueue String
  published : List String

/-- `OutboundTaskID`. -/
def outboundTaskID (outboundMessageID : String) : String := "outbound:" ++ outboundMessageID

/-- `PublishOutbound`: an id in use drops the task, and the client says nothing of it. -/
def Outbox.publish (id : String) (s : Outbox) : Outbox :=
  { s with queue := s.queue.enqueue (outboundTaskID id) id, published := s.published ++ [id] }

/-- The store of the sweep: its publishes reach the queue. -/
def outboxExec : outboundStore.Exec Outbox
  | .publishOutbound id, s => (.ok (), s.publish id)
  | op, s => ((outboundExec op s.db).1, { s with db := (outboundExec op s.db).2 })

/-- Of `r` and a row of its conversation that was sent: `earlier` puts `r` first. -/
def LaterSent (earlier : OutboundRow → OutboundRow → Prop) (w : OutboundWorld) (id : String) : Prop :=
  ∃ r ∈ w.messages.rows, r.id = id ∧ ∃ conversation, r.conversation = some conversation ∧
    ∃ n ∈ w.messages.rows, n.conversation = some conversation ∧ n.status = .sent ∧ earlier r n

/-- The send order of `Deliver`. -/
def bySeq (r n : OutboundRow) : Prop := r.seq < n.seq

/-- The order of the sweep, which takes an empty conversation id for none. -/
def byCreation (r n : OutboundRow) : Prop := r.createdAt < n.createdAt ∧ r.conversation ≠ some ""

/-- The row is marked `failed_stale`. -/
def FailedStale (id : String) (w : OutboundWorld) : Prop := ∃ r ∈ w.messages.rows, r.id = id ∧ r.status = .failedStale

/-- The row has a send task that is scheduled, pending, active or retrying. -/
def HasTask (id : String) (q : TaskQueue String) : Prop := ∃ payload retried, q.slot (outboundTaskID id) = .live payload retried

/-- Every row of that id is pending. -/
def PendingRow (w : OutboundWorld) (id : String) : Prop := ∀ r ∈ w.messages.rows, r.id = id → r.status = .pending

/-! ## The staleness probe -/

section Probe

variable {w : OutboundWorld} {tx : String}

/-- The probe of one row finds it stale. -/
def staleIn (w : OutboundWorld) (msg : StrandedRow) : Bool :=
  decide (msg.conversationID ≠ "") && (newerSent [] msg.conversationID msg.id w).isSome

theorem newerSent_isSome {stale : List String} {conversationID id : String} : (newerSent stale conversationID id w).isSome = true ↔
    ∃ r ∈ w.messages.rows, r.id = id ∧ ∃ n ∈ w.messages.rows, n.conversation = some conversationID ∧ n.status = .sent ∧ n.id ∉ stale ∧
      r.createdAt < n.createdAt := by
  unfold newerSent
  constructor
  · intro found
    obtain ⟨x, found⟩ := Option.isSome_iff_exists.1 found
    obtain ⟨r, row, found⟩ := Option.bind_eq_some_iff.1 found
    obtain ⟨n, newer, -⟩ := Option.map_eq_some_iff.1 found
    obtain ⟨mem, named⟩ := Table.find?_eq_some.1 row
    have holds := List.find?_some newer
    simp only [Bool.and_eq_true, decide_eq_true_eq] at holds
    obtain ⟨⟨⟨conversation, sent⟩, apart⟩, later⟩ := holds
    exact ⟨r, mem, named, n, List.mem_of_find?_eq_some newer, conversation, sent, apart, later⟩
  · rintro ⟨r, mem, named, n, hn, conversation, sent, apart, later⟩
    rw [Table.find?_eq_some.2 ⟨mem, named⟩]
    simp only [Option.bind_some, Option.isSome_map]
    refine List.find?_isSome.2 ⟨n, hn, ?_⟩
    simp [conversation, sent, apart, later]

/-- The verdicts of the transaction do not count: what it has marked was pending. -/
theorem newerSent_stale {stale : List String} {conversationID id : String} (pending : ∀ x ∈ stale, PendingRow w x) :
    (newerSent stale conversationID id w).isSome = (newerSent [] conversationID id w).isSome := by
  refine Bool.eq_iff_iff.2 (newerSent_isSome.trans (Iff.trans ?_ newerSent_isSome.symm))
  constructor
  · rintro ⟨r, mem, named, n, hn, conversation, sent, -, later⟩
    exact ⟨r, mem, named, n, hn, conversation, sent, List.not_mem_nil, later⟩
  · rintro ⟨r, mem, named, n, hn, conversation, sent, -, later⟩
    refine ⟨r, mem, named, n, hn, conversation, sent, fun listed => ?_, later⟩
    have was := pending n.id listed n hn rfl
    rw [sent] at was
    cases was

/-- Where the sweep reads a row as its conversation's, the probe compares creation times. -/
theorem staleIn_iff {msg : StrandedRow} {r : OutboundRow} (mem : r ∈ w.messages.rows) (named : r.id = msg.id)
    (read : msg.conversationID = r.conversation.getD "") : staleIn w msg = true ↔ LaterSent byCreation w msg.id := by
  unfold staleIn
  rw [Bool.and_eq_true, decide_eq_true_eq, newerSent_isSome]
  constructor
  · rintro ⟨nonempty, r', mem', named', n, hn, conversation, sent, -, later⟩
    obtain rfl : r' = r := Table.eq_of_key mem' mem (named'.trans named.symm)
    cases own : r'.conversation with
    | none =>
      rw [own] at read
      exact (nonempty read).elim
    | some c =>
      rw [own] at read
      have same : msg.conversationID = c := read
      refine ⟨r', mem, named, c, own, n, hn, same ▸ conversation, sent, later, fun empty => nonempty ?_⟩
      rw [same, ← Option.some.inj (own.symm.trans empty)]
  · rintro ⟨r', mem', named', c, own, n, hn, conversation, sent, later, nonempty⟩
    obtain rfl : r' = r := Table.eq_of_key mem' mem (named'.trans named.symm)
    have same : msg.conversationID = c := by
      rw [read, own]
      rfl
    refine ⟨fun empty => nonempty ?_, r', mem, named, n, hn, same ▸ conversation, sent, List.not_mem_nil, later⟩
    rw [own, ← same, empty]

end Probe

/-! ## The run of a sweep -/

section Run

variable {tx : String} {s s' : Outbox} {t : SweepTx}

/-- What the loop over the rows has done. -/
structure Swept (tx : String) (rows : List StrandedRow) (s s' : Outbox) (stale : List String) : Prop where
  messages : s'.db.messages = s.db.messages
  isOpen : ∃ t', openSweep tx s'.db = some t' ∧ ∀ id, id ∈ t'.stale ↔ id ∈ stale ∨ ∃ msg ∈ rows, msg.id = id ∧ staleIn s.db msg = true
  published : s'.published = s.published ++ (rows.filter fun msg => !staleIn s.db msg).map StrandedRow.id
  archived : ∀ id, s'.queue.slot id = .archived ↔ s.queue.slot id = .archived
  inUse : ∀ id, s.queue.slot id ≠ .free → s'.queue.slot id ≠ .free
  enqueued : ∀ msg ∈ rows, staleIn s.db msg = false → s'.queue.slot (outboundTaskID msg.id) ≠ .free

/-- One row: the verdict is staged in the transaction. -/
theorem run_markStale {msg : StrandedRow} (isOpen : openSweep tx s.db = some t) (pending : ∀ id ∈ t.stale, PendingRow s.db id) :
    (markStale tx msg).run outboxExec s = (.ok (staleIn s.db msg), if staleIn s.db msg = true then
      { s with db := setSweep tx (fun t => { t with stale := msg.id :: t.stale }) (fun _ => rfl) s.db } else s) := by
  unfold markStale
  by_cases empty : msg.conversationID = ""
  · have fresh : staleIn s.db msg = false := by
      unfold staleIn
      rw [empty]
      rfl
    rw [if_pos empty, fresh]
    rfl
  · rw [if_neg empty, bind_eq, run_call_bind]
    have stale : (newerSent t.stale msg.conversationID msg.id s.db).isSome = (newerSent [] msg.conversationID msg.id s.db).isSome :=
      newerSent_stale pending
    have probe : outboxExec (.newerSent tx msg.conversationID msg.id) s =
        (.ok (newerSent t.stale msg.conversationID msg.id s.db), s) := by
      simp only [outboxExec, outboundExec, withinSweep, isOpen]
    rw [probe, andThen_ok]
    cases found : newerSent t.stale msg.conversationID msg.id s.db with
    | none =>
      have fresh : staleIn s.db msg = false := by
        unfold staleIn
        rw [← stale, found]
        exact Bool.and_false _
      rw [fresh]
      rfl
    | some n =>
      have old : staleIn s.db msg = true := by
        unfold staleIn
        rw [← stale, found]
        simp [empty]
      have marks : outboxExec (.markFailedStale tx msg.id) s =
          (.ok (), { s with db := setSweep tx (fun t => { t with stale := msg.id :: t.stale }) (fun _ => rfl) s.db }) := by
        simp only [outboxExec, outboundExec, withinSweep, isOpen]
      rw [old, if_pos rfl]
      show Program.run outboxExec ((call (I := outboundStore) (.markFailedStale tx msg.id)).bind fun _ => pure true) s = _
      rw [run_call_bind, marks]
      rfl

/-- The loop over the stranded rows. -/
theorem run_sweepRows (rows : List StrandedRow) (isOpen : openSweep tx s.db = some t) (staged : ∀ id ∈ t.stale, PendingRow s.db id)
    (pending : ∀ msg ∈ rows, PendingRow s.db msg.id) :
    ∃ s', (sweepRows tx true rows).run outboxExec s = (.ok (), s') ∧ Swept tx rows s s' t.stale := by
  induction rows generalizing s t with
  | nil =>
    refine ⟨s, rfl, rfl, ⟨t, isOpen, fun id => ?_⟩, (List.append_nil _).symm, fun _ => Iff.rfl, fun _ => id, fun msg mem => absurd mem List.not_mem_nil⟩
    exact ⟨.inl, fun h => h.resolve_right fun ⟨_, mem, _⟩ => absurd mem List.not_mem_nil⟩
  | cons msg rest ih =>
    have later : ∀ msg' ∈ rest, PendingRow s.db msg'.id := fun msg' mem => pending msg' (List.mem_cons_of_mem _ mem)
    unfold sweepRows
    rw [bind_eq, run_bind, run_markStale isOpen staged, andThen_ok]
    cases verdict : staleIn s.db msg with
    | true =>
      rw [if_pos rfl]
      have stays : openSweep tx (setSweep tx (fun t => { t with stale := msg.id :: t.stale }) (fun _ => rfl) s.db) =
          some { t with stale := msg.id :: t.stale } := openSweep_setSweep isOpen (openSweep_eq_some.1 isOpen).2.2
      have staged' : ∀ id ∈ msg.id :: t.stale, PendingRow s.db id := by
        intro id mem
        rcases List.mem_cons.1 mem with rfl | mem
        · exact pending msg List.mem_cons_self
        · exact staged id mem
      obtain ⟨s', runs, swept⟩ := ih (s := { s with db := setSweep tx (fun t => { t with stale := msg.id :: t.stale }) (fun _ => rfl) s.db })
        stays staged' later
      refine ⟨s', runs, swept.messages, ?_, ?_, swept.archived, swept.inUse, fun msg' mem fresh => ?_⟩
      · obtain ⟨t', isOpen', members⟩ := swept.isOpen
        refine ⟨t', isOpen', fun id => (members id).trans ?_⟩
        constructor
        · rintro (listed | ⟨msg', mem, named, old⟩)
          · rcases List.mem_cons.1 listed with rfl | listed
            · exact .inr ⟨msg, List.mem_cons_self, rfl, verdict⟩
            · exact .inl listed
          · exact .inr ⟨msg', List.mem_cons_of_mem _ mem, named, old⟩
        · rintro (listed | ⟨msg', mem, named, old⟩)
          · exact .inl (List.mem_cons_of_mem _ listed)
          · rcases List.mem_cons.1 mem with rfl | mem
            · exact .inl (named ▸ List.mem_cons_self)
            · exact .inr ⟨msg', mem, named, old⟩
      · rw [swept.published, List.filter_cons_of_neg (by rw [verdict]; exact Bool.false_ne_true)]
        rfl
      · rcases List.mem_cons.1 mem with rfl | mem
        · rw [verdict] at fresh
          cases fresh
        · exact swept.enqueued msg' mem fresh
    | false =>
      rw [if_neg Bool.false_ne_true]
      obtain ⟨s', runs, swept⟩ := ih (s := s.publish msg.id) isOpen staged later
      refine ⟨s', runs, swept.messages, ?_, ?_, fun id => ?_, fun id inUse => ?_, fun msg' mem fresh => ?_⟩
      · obtain ⟨t', isOpen', members⟩ := swept.isOpen
        refine ⟨t', isOpen', fun id => (members id).trans ?_⟩
        constructor
        · rintro (listed | ⟨msg', mem, named, old⟩)
          · exact .inl listed
          · exact .inr ⟨msg', List.mem_cons_of_mem _ mem, named, old⟩
        · rintro (listed | ⟨msg', mem, named, old⟩)
          · exact .inl listed
          · rcases List.mem_cons.1 mem with rfl | mem
            · rw [verdict] at old
              cases old
            · exact .inr ⟨msg', mem, named, old⟩
      · rw [swept.published, List.filter_cons_of_pos (by rw [verdict]; rfl)]
        exact List.append_assoc ..
      · exact (swept.archived id).trans (TaskQueue.enqueue_archived ..)
      · exact swept.inUse id (TaskQueue.enqueue_keeps_used _ _ inUse)
      · rcases List.mem_cons.1 mem with rfl | mem
        · exact swept.inUse _ (TaskQueue.enqueue_slot_ne_free _ _ _)
        · exact swept.enqueued msg' mem fresh

/-- A row with its verdict. -/
def staled (r : OutboundRow) : OutboundRow := { r with status := .failedStale }

theorem staled_id (r : OutboundRow) : (staled r).id = r.id := rfl

/-- What a successful sweep of the rows it selects leaves behind. -/
structure SweepDone (rows : List StrandedRow) (s s' : Outbox) : Prop where
  messages : ∃ stale : List String, s'.db.messages.rows = s.db.messages.rows.map (Table.rewrite (fun r => decide (r.id ∈ stale)) staled) ∧
    ∀ id, id ∈ stale ↔ ∃ msg ∈ rows, msg.id = id ∧ staleIn s.db msg = true
  published : s'.published = s.published ++ (rows.filter fun msg => !staleIn s.db msg).map StrandedRow.id
  archived : ∀ id, s'.queue.slot id = .archived ↔ s.queue.slot id = .archived
  enqueued : ∀ msg ∈ rows, staleIn s.db msg = false → s'.queue.slot (outboundTaskID msg.id) ≠ .free

/-- A row the sweep selects is pending. -/
theorem stranded_pending {cutoff : Int} {w : OutboundWorld} {msg : StrandedRow} (mem : msg ∈ stranded cutoff w) :
    ∃ r ∈ w.messages.rows, r.id = msg.id ∧ r.status = .pending ∧ msg.conversationID = r.conversation.getD "" := by
  obtain ⟨r, taken, rfl⟩ := List.mem_map.1 mem
  have kept := (List.mem_insertionSort _).1 (List.mem_of_mem_take taken)
  obtain ⟨listed, holds⟩ := List.mem_filter.1 kept
  simp only [Bool.and_eq_true, decide_eq_true_eq] at holds
  exact ⟨r, listed, rfl, holds.1, rfl⟩

theorem pendingRow_of_stranded {cutoff : Int} {w : OutboundWorld} {msg : StrandedRow} (mem : msg ∈ stranded cutoff w) :
    PendingRow w msg.id := by
  obtain ⟨r, hr, named, pending, -⟩ := stranded_pending mem
  intro r' hr' named'
  rw [Table.eq_of_key hr' hr (named'.trans named.symm)]
  exact pending

/-- The body of the transaction, from its begin on. -/
theorem run_sweepWithin (now : Int) (isOpen : openSweep tx s.db = some ⟨tx, false, false, []⟩) :
    ∃ s', (sweepWithin tx now true).run outboxExec s = (.ok (), s') ∧ SweepDone (stranded (sweepCutoff now) s.db) s s' := by
  have locks : outboxExec (.lockSweep tx) s = (.ok (), { s with db := setSweep tx (fun t => { t with locked := true }) (fun _ => rfl) s.db }) := by
    simp only [outboxExec, outboundExec, withinSweep, isOpen]
  have isOpen' : openSweep tx (setSweep tx (fun t => { t with locked := true }) (fun _ => rfl) s.db) = some ⟨tx, false, true, []⟩ :=
    openSweep_setSweep isOpen rfl
  have selects : outboxExec (.stranded tx (sweepCutoff now)) { s with db := setSweep tx (fun t => { t with locked := true }) (fun _ => rfl) s.db } =
      (.ok (stranded (sweepCutoff now) s.db), { s with db := setSweep tx (fun t => { t with locked := true }) (fun _ => rfl) s.db }) := by
    simp only [outboxExec, outboundExec, withinSweep, isOpen']
    rfl
  obtain ⟨s', runs, swept⟩ := run_sweepRows (s := { s with db := setSweep tx (fun t => { t with locked := true }) (fun _ => rfl) s.db })
    (stranded (sweepCutoff now) s.db) isOpen' (fun id mem => absurd mem List.not_mem_nil) fun msg mem => pendingRow_of_stranded mem
  obtain ⟨t', isOpen'', members⟩ := swept.isOpen
  refine ⟨{ s' with db := endSweep tx (applyStale t'.stale s'.db) }, ?_, ⟨t'.stale, ?_, fun id => ?_⟩, swept.published, swept.archived, swept.enqueued⟩
  · unfold sweepWithin
    simp only [bind_eq]
    rw [run_call_bind, locks, andThen_ok, run_call_bind, selects, andThen_ok, run_bind, runs, andThen_ok, run_call]
    simp only [outboxExec, outboundExec, withinSweep, isOpen'']
  · show List.map _ s'.db.messages.rows = _
    rw [swept.messages]
    rfl
  · exact (members id).trans ⟨fun h => h.resolve_left List.not_mem_nil, .inr⟩

/-- A sweep that returns success. -/
theorem run_sweepOutbox {now : Int} (success : ((sweepOutbox tx now true).run outboxExec s).1 = .ok ()) :
    SweepDone (stranded (sweepCutoff now) s.db) s ((sweepOutbox tx now true).run outboxExec s).2 := by
  unfold sweepOutbox at success ⊢
  rw [bind_eq, run_call_bind] at success ⊢
  cases fresh : s.db.transactions.insert ⟨tx, false, false, []⟩ with
  | none =>
    simp only [outboxExec, outboundExec, fresh] at success
    cases success
  | some transactions =>
    have begins : outboxExec (.begin tx) s = (.ok (), { s with db := { s.db with transactions := transactions } }) := by
      simp only [outboxExec, outboundExec, fresh]
    have isOpen : openSweep tx { s.db with transactions := transactions } = some ⟨tx, false, false, []⟩ := by
      refine openSweep_eq_some.2 ⟨?_, rfl, rfl⟩
      show _ ∈ transactions.rows
      rw [(Table.insert_eq_some.1 fresh).2]
      exact List.mem_append_right _ List.mem_cons_self
    obtain ⟨s', runs, done⟩ := run_sweepWithin (s := { s with db := { s.db with transactions := transactions } }) now isOpen
    rw [begins, andThen_ok, bind_eq, run_bind, run_attempt, runs]
    exact ⟨done.messages, done.published, done.archived, done.enqueued⟩

end Run

/-! ## What becomes of a stranded row -/

section Stranded

variable {cutoff now : Int} {tx : String} {s s' : Outbox} {msg msg' : StrandedRow}

/-- The sweep selects a row once. -/
theorem stranded_unique (mem : msg ∈ stranded cutoff s.db) (mem' : msg' ∈ stranded cutoff s.db) (same : msg'.id = msg.id) : msg' = msg := by
  obtain ⟨r, hr, named, -, read⟩ := stranded_pending mem
  obtain ⟨r', hr', named', -, read'⟩ := stranded_pending mem'
  obtain rfl : r' = r := Table.eq_of_key hr' hr (named'.trans (same.trans named.symm))
  cases msg
  cases msg'
  simp only [StrandedRow.mk.injEq]
  exact ⟨same, read'.trans read.symm⟩

theorem SweepDone.failedStale_iff (h : SweepDone (stranded cutoff s.db) s s') (mem : msg ∈ stranded cutoff s.db) :
    FailedStale msg.id s'.db ↔ staleIn s.db msg = true := by
  obtain ⟨stale, rows, members⟩ := h.messages
  obtain ⟨r, hr, named, pending, -⟩ := stranded_pending mem
  constructor
  · rintro ⟨r', hr', named', status⟩
    rw [rows] at hr'
    obtain ⟨old, hold, rfl⟩ := List.mem_map.1 hr'
    rw [Table.rewrite_key staled_id] at named'
    obtain rfl : old = r := Table.eq_of_key hold hr (named'.trans named.symm)
    by_cases listed : old.id ∈ stale
    · obtain ⟨msg', mem', named', old⟩ := (members _).1 listed
      rw [stranded_unique mem mem' (named'.trans named)] at old
      exact old
    · rw [Table.rewrite_of_neg (p := fun r : OutboundRow => decide (r.id ∈ stale)) (decide_eq_false listed), pending] at status
      cases status
  · intro old
    have listed : r.id ∈ stale := (members _).2 ⟨msg, mem, named.symm, old⟩
    refine ⟨_, rows ▸ List.mem_map_of_mem hr, (Table.rewrite_key staled_id r).trans named, ?_⟩
    rw [Table.rewrite_of_pos (p := fun r : OutboundRow => decide (r.id ∈ stale)) (decide_eq_true listed)]
    rfl

theorem SweepDone.published_iff (h : SweepDone (stranded cutoff s.db) s s') (mem : msg ∈ stranded cutoff s.db) :
    msg.id ∈ s'.published.drop s.published.length ↔ staleIn s.db msg = false := by
  rw [h.published, List.drop_left]
  constructor
  · intro listed
    obtain ⟨msg', kept, same⟩ := List.mem_map.1 listed
    obtain ⟨mem', fresh⟩ := List.mem_filter.1 kept
    rw [stranded_unique mem mem' same] at fresh
    simpa using fresh
  · intro fresh
    exact List.mem_map_of_mem (List.mem_filter.2 ⟨mem, by rw [fresh]; rfl⟩)

/-- The sweep marks exactly the rows `failed_stale` that are out of the send order, and publishes the others, if and only if
creation times and send order agree on whether a later message of a stranded row's conversation was sent. -/
theorem sweep_follows_send_order (success : ((sweepOutbox tx now true).run outboxExec s).1 = .ok ()) :
    (∀ msg ∈ stranded (sweepCutoff now) s.db,
      (FailedStale msg.id ((sweepOutbox tx now true).run outboxExec s).2.db ↔ LaterSent bySeq s.db msg.id) ∧
      (msg.id ∈ ((sweepOutbox tx now true).run outboxExec s).2.published.drop s.published.length ↔ ¬ LaterSent bySeq s.db msg.id)) ↔
    ∀ msg ∈ stranded (sweepCutoff now) s.db, LaterSent byCreation s.db msg.id ↔ LaterSent bySeq s.db msg.id := by
  have done := run_sweepOutbox success
  refine forall₂_congr fun msg mem => ?_
  obtain ⟨r, hr, named, -, read⟩ := stranded_pending mem
  rw [done.failedStale_iff mem, done.published_iff mem, ← staleIn_iff hr named read]
  cases staleIn s.db msg with
  | true => simp
  | false => simp

/-- Every row that a successful sweep selects is marked `failed_stale` or has a send task, if and only if none of those it
does not mark had an archived task. -/
theorem sweep_recovers_iff (success : ((sweepOutbox tx now true).run outboxExec s).1 = .ok ()) :
    (∀ msg ∈ stranded (sweepCutoff now) s.db,
      FailedStale msg.id ((sweepOutbox tx now true).run outboxExec s).2.db ∨
        HasTask msg.id ((sweepOutbox tx now true).run outboxExec s).2.queue) ↔
    ∀ msg ∈ stranded (sweepCutoff now) s.db, LaterSent byCreation s.db msg.id ∨ s.queue.slot (outboundTaskID msg.id) ≠ .archived := by
  have done := run_sweepOutbox success
  refine forall₂_congr fun msg mem => ?_
  obtain ⟨r, hr, named, -, read⟩ := stranded_pending mem
  rw [done.failedStale_iff mem, ← staleIn_iff hr named read, ne_eq, ← done.archived]
  cases verdict : staleIn s.db msg with
  | true => simp
  | false =>
    simp only [Bool.false_eq_true, false_or]
    have inUse := done.enqueued msg mem verdict
    unfold HasTask
    cases slot : ((sweepOutbox tx now true).run outboxExec s).2.queue.slot (outboundTaskID msg.id) with
    | free => exact (inUse slot).elim
    | live payload retried => exact ⟨fun _ => (nomatch ·), fun _ => ⟨payload, retried, rfl⟩⟩
    | archived => exact ⟨fun ⟨_, _, absurd⟩ => (nomatch absurd), fun absurd => (absurd rfl).elim⟩

end Stranded

/-! ## Runs of the queue -/

/-- `MaxRetry` of the outbound queue. -/
def outboundMaxRetry : Nat := 2

/-- What asynq does with a task after an attempt. -/
def Outbox.after (s : Outbox) (id : String) (retried : Nat) (r : Except OutboundErr Unit) (db : OutboundWorld) : Outbox :=
  { s with
    db := db
    queue := match r with
      | .ok _ => s.queue.complete (outboundTaskID id)
      | .error _ => s.queue.fail outboundMaxRetry (outboundTaskID id) id retried }

/-- Rows are written and published, tasks are attempted, and sweeps run. -/
inductive Outbox.Step : Outbox → Outbox → Prop where
  | insert {s row db} (inserted : insertOutbound row s.db = .ok db) : Step s { s with db := db }
  | publish {s} (id : String) : Step s (s.publish id)
  /-- An attempt that ends, statements of which may have failed. -/
  | attempt {s retried r db} (c : OutboundCall) (wa : Option Sender) (live : s.queue.slot (outboundTaskID c.row) = .live c.row retried)
      (ends : Ends outboundExec (deliver c wa c.row (decide (outboundMaxRetry ≤ retried))) s.db r db) : Step s (s.after c.row retried r db)
  /-- An attempt that the rate limiter turns away. -/
  | rateLimited {s retried} (id : String) (live : s.queue.slot (outboundTaskID id) = .live id retried) :
      Step s (s.after id retried (.error .connClosed) s.db)
  /-- An attempt whose worker is gone. -/
  | crash {s retried db} (c : OutboundCall) (wa : Option Sender) (live : s.queue.slot (outboundTaskID c.row) = .live c.row retried)
      (halts : Halts outboundExec (deliver c wa c.row (decide (outboundMaxRetry ≤ retried))) s.db db) :
      Step s (s.after c.row retried (.error .connClosed) db)
  | sweep {s} (tx : String) (now : Int) : Step s ((sweepOutbox tx now true).run outboxExec s).2

/-- The states of the queue that a run reaches. -/
def Outbox.Reach : Outbox → Outbox → Prop := Relation.ReflTransGen Step

instance (id : String) (w : OutboundWorld) : Decidable (FailedStale id w) :=
  inferInstanceAs (Decidable (∃ r ∈ w.messages.rows, r.id = id ∧ r.status = .failedStale))

/-- A row of a conversation. -/
def textRow (id : String) (seq : Int) (status : OutboundStatus) (createdAt : Int) : OutboundRow :=
  ⟨id, seq, "text", "233200000000", status, some "Hello", none, none, none, some "conv", createdAt, none, none⟩

/-- Rows without tasks. -/
def outboxOf (rows : Table OutboundRow.id) : Outbox := ⟨⟨Table.empty, rows, Table.empty, fun _ => none, Table.empty, [], []⟩, TaskQueue.empty, []⟩

/-- A row that was written and never published. -/
def unpublished : Outbox := outboxOf ⟨[textRow "m1" 1 .pending 0], by decide⟩

/-- The gap between persisting and publishing is what the sweep is for. -/
theorem sweep_recovers_iff_unpublished :
    FailedStale "m1" ((sweepOutbox "t1" 200000 true).run outboxExec unpublished).2.db ∨
      HasTask "m1" ((sweepOutbox "t1" 200000 true).run outboxExec unpublished).2.queue :=
  (sweep_recovers_iff (s := unpublished) (by decide +kernel)).2 (fun _ _ => .inr nofun) ⟨"m1", "conv"⟩ (by decide +kernel)

/-- An attempt whose first statement fails. -/
def Outbox.unloaded (s : Outbox) (id : String) (retried : Nat) : Outbox :=
  s.after id retried (.error (.context ("outbound: load message " ++ id) (.db .transient))) s.db

theorem step_unloaded {s : Outbox} (id : String) (retried : Nat) (live : s.queue.slot (outboundTaskID id) = .live id retried) :
    Outbox.Step s (s.unloaded id retried) :=
  .attempt ⟨retried, id⟩ none live (.fault (.ret _ _))

/-- The row is published, and no attempt gets to load it. -/
def givenUp : Outbox := (((unpublished.publish "m1").unloaded "m1" 0).unloaded "m1" 1).unloaded "m1" 2

theorem reach_givenUp : Outbox.Reach unpublished givenUp := by
  have published : Outbox.Reach unpublished (unpublished.publish "m1") := .single (.publish "m1")
  have once := published.tail (step_unloaded "m1" 0 (by decide +kernel))
  have twice := once.tail (step_unloaded "m1" 1 (by decide +kernel))
  exact twice.tail (step_unloaded "m1" 2 (by decide +kernel))

/-- An archived task keeps the id of its row: the sweep publishes it and nothing happens. -/
theorem sweep_leaves_stranded : ¬ ∀ s, Outbox.Reach unpublished s → ∀ tx now, ((sweepOutbox tx now true).run outboxExec s).1 = .ok () →
    ∀ msg ∈ stranded (sweepCutoff now) s.db, FailedStale msg.id ((sweepOutbox tx now true).run outboxExec s).2.db ∨
      HasTask msg.id ((sweepOutbox tx now true).run outboxExec s).2.queue := by
  intro recovers
  have selected : (⟨"m1", "conv"⟩ : StrandedRow) ∈ stranded (sweepCutoff 200000) givenUp.db := by decide +kernel
  rcases recovers givenUp reach_givenUp "t1" 200000 (by decide +kernel) _ selected with stale | ⟨payload, retried, live⟩
  · exact absurd stale (by decide +kernel)
  · have archived : ((sweepOutbox "t1" 200000 true).run outboxExec givenUp).2.queue.slot (outboundTaskID "m1") = .archived := by
      decide +kernel
    rw [archived] at live
    cases live

/-- A row that waits while the row after it, of a later millisecond, was sent. -/
def overtaken : Outbox := outboxOf ⟨[textRow "m1" 1 .pending 0, textRow "m2" 2 .sent 5], by decide⟩

/-- The two rows were written in the same millisecond. -/
def overtakenAtOnce : Outbox := outboxOf ⟨[textRow "m1" 1 .pending 0, textRow "m2" 2 .sent 0], by decide⟩

instance (earlier : OutboundRow → OutboundRow → Prop) [DecidableRel earlier] (w : OutboundWorld) (id : String) :
    Decidable (LaterSent earlier w id) :=
  decidable_of_iff (∃ r ∈ w.messages.rows, r.id = id ∧ ∃ n ∈ w.messages.rows, r.conversation.isSome = true ∧
      n.conversation = r.conversation ∧ n.status = .sent ∧ earlier r n) (by
    refine exists_congr fun r => and_congr_right fun _ => and_congr_right fun _ => ?_
    constructor
    · rintro ⟨n, hn, isSome, same, sent, before⟩
      obtain ⟨conversation, own⟩ := Option.isSome_iff_exists.1 isSome
      exact ⟨conversation, own, n, hn, same.trans own, sent, before⟩
    · rintro ⟨conversation, own, n, hn, theirs, sent, before⟩
      exact ⟨n, hn, Option.isSome_of_eq_some own, theirs.trans own.symm, sent, before⟩)

instance : DecidableRel bySeq := fun r n => inferInstanceAs (Decidable (r.seq < n.seq))

instance : DecidableRel byCreation := fun r n => inferInstanceAs (Decidable (r.createdAt < n.createdAt ∧ r.conversation ≠ some ""))

/-- Rows of different milliseconds: both orders say that the row is stale. -/
theorem sweep_follows_send_order_overtaken :
    (FailedStale "m1" ((sweepOutbox "t1" 200000 true).run outboxExec overtaken).2.db ↔ LaterSent bySeq overtaken.db "m1") ∧
    ("m1" ∈ ((sweepOutbox "t1" 200000 true).run outboxExec overtaken).2.published.drop overtaken.published.length ↔
      ¬ LaterSent bySeq overtaken.db "m1") :=
  (sweep_follows_send_order (by decide +kernel)).2 (by decide +kernel) ⟨"m1", "conv"⟩ (by decide +kernel)

/-- Of two rows of one millisecond the second is sent: the sweep publishes the first. -/
theorem sweep_publishes_overtaken : ¬ ∀ s tx now, ((sweepOutbox tx now true).run outboxExec s).1 = .ok () →
    ∀ msg ∈ stranded (sweepCutoff now) s.db,
      (FailedStale msg.id ((sweepOutbox tx now true).run outboxExec s).2.db ↔ LaterSent bySeq s.db msg.id) ∧
      (msg.id ∈ ((sweepOutbox tx now true).run outboxExec s).2.published.drop s.published.length ↔ ¬ LaterSent bySeq s.db msg.id) := by
  intro follows
  have selected : (⟨"m1", "conv"⟩ : StrandedRow) ∈ stranded (sweepCutoff 200000) overtakenAtOnce.db := by decide +kernel
  obtain ⟨marks, -⟩ := follows overtakenAtOnce "t1" 200000 (by decide +kernel) _ selected
  have later : LaterSent bySeq overtakenAtOnce.db "m1" := by decide +kernel
  exact absurd (marks.2 later) (by decide +kernel)

end NovoApex.Outbound
