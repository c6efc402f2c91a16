import NovoApex.Outbound.Sessions

/-!
# At most one acceptance

A row is accepted by WhatsApp at most once, as long as every accepted send is answered
and recorded. A row that may be sent has one guardian: the holder of its conversation's
lock, or, without a conversation, the task that runs for it. What was accepted is
settled, except for the row its guardian is about to record; so nobody finds an
accepted row among those to send.
-/

namespace NovoApex.Outbound
set_option autoImplicit false
open Lib Program Db Workers

/-- A send that WhatsApp accepts is answered. -/
def Answers (wa : Option Sender) : Prop :=
  ∀ sender, wa = some sender → ∀ m request, (sender m request).accepted = true → ∃ r, (sender m request).answer = .ok r

/-- The send tasks and the sweeps, with any sender. -/
def tasksAndSweeps : OutboundSetup := ⟨True, False, True, fun _ => True⟩

/-- The write that records a send. -/
def recordsSend : OutboundStmt → Bool
  | .markSent .. => true
  | _ => false

/-- No connection is lost before its backlog is recorded. -/
def keepsConnection (w : OutboundWorld) : OutboundStmt → Prop
  | .loseConnection c => backlogOf c w = some []
  | _ => True

instance (w : OutboundWorld) : DecidablePred (keepsConnection w) := fun op => by
  unfold keepsConnection
  split <;> infer_instance

/-- The runs in which an accepted send is answered and then recorded. -/
def recordedFlow : Roster outboundStore OutboundName OutboundWorld where
  exec := outboundExec
  job := OutboundJob ⟨True, False, True, Answers⟩
  allow w op := outboundProceeds w op ∧ keepsConnection w op
  faults _ op := mayFail op ∧ recordsSend op = false
  loses _ op := mayFail op
  stops _ op := recordsSend op = false

instance (w : OutboundWorld) (op : OutboundStmt) : Decidable (recordedFlow.allow w op) :=
  inferInstanceAs (Decidable (outboundProceeds w op ∧ keepsConnection w op))

/-- The rows WhatsApp has accepted, once for each acceptance. -/
def acceptedIDs (w : OutboundWorld) : List String := (w.sends.filter Sending.accepted).map Sending.id

/-- Sent, or with a verdict: `skipOutbound` skips the row. -/
def Settled (r : OutboundRow) : Prop := r.status = .sent ∨ r.status.isVerdict = true

/-- The call may send the row: it holds the conversation's lock, or it runs the row's task. -/
def Guards (c : OutboundCall) (w : OutboundWorld) (r : OutboundRow) : Prop :=
  (r.conversation = none ∧ c ∈ w.tasks ∧ c.row = r.id) ∨
    ∃ conversation, r.conversation = some conversation ∧ w.locks (lockKey conversation) = some c

/-! ## The protocol -/

/-- What was accepted is settled, or its guardian is about to record it. -/
structure AtMostOnce (w : OutboundWorld) : Prop where
  once : (acceptedIDs w).Nodup
  kept : ∀ id ∈ acceptedIDs w, ∃ row ∈ w.messages.rows, row.id = id ∧
    (Settled row ∨ ∃ c, Guards c w row ∧ (row.conversation ≠ none → ∃ ids, backlogOf c w = some ids ∧ id ∈ ids))
  tasks : ∀ c ∈ w.tasks, ∀ c' ∈ w.tasks, c.row = c'.row → c = c'

/-- What the call guards and was accepted is settled, apart from the rows in `except`. -/
def SettledBut (except : List String) (c : OutboundCall) (w : OutboundWorld) : Prop :=
  ∀ row ∈ w.messages.rows, Guards c w row → row.id ∈ acceptedIDs w → row.id ∉ except → Settled row

/-- What a call relies on: its task and session stay, accepted rows stay settled, and what it guards is not sent by others. -/
structure Untouched (c : OutboundCall) (w w' : OutboundWorld) : Prop where
  tasks : c ∈ w'.tasks ↔ c ∈ w.tasks
  session : Session c w w'
  grows : ∀ id ∈ acceptedIDs w, id ∈ acceptedIDs w'
  rows : ∀ row ∈ w.messages.rows, ∃ row' ∈ w'.messages.rows, row'.id = row.id ∧ row'.conversation = row.conversation ∧
    (row.id ∈ acceptedIDs w → Settled row → Settled row')
  back : ∀ row' ∈ w'.messages.rows, Guards c w' row' → row'.id ∈ acceptedIDs w' →
    ∃ row ∈ w.messages.rows, row.id = row'.id ∧ row.conversation = row'.conversation ∧ row.id ∈ acceptedIDs w

section Protocol

variable {c : OutboundCall} {u v w w' : OutboundWorld}

/-- A row the call guards was guarded by it before. -/
theorem Guards.before {row row' : OutboundRow} (h : Guards c w' row') (tasks : c ∈ w'.tasks ↔ c ∈ w.tasks) (session : Session c w w')
    (id : row'.id = row.id) (conversation : row'.conversation = row.conversation) : Guards c w row := by
  rcases h with ⟨alone, running, own⟩ | ⟨conv, inConversation, held⟩
  · exact .inl ⟨conversation.symm.trans alone, tasks.1 running, own.trans id⟩
  · exact .inr ⟨conv, conversation.symm.trans inConversation, session.before held⟩

theorem Untouched.refl (c : OutboundCall) (w : OutboundWorld) : Untouched c w w where
  tasks := Iff.rfl
  session := .refl c w
  grows _ accepted := accepted
  rows row mem := ⟨row, mem, rfl, rfl, fun _ settled => settled⟩
  back row mem _ accepted := ⟨row, mem, rfl, rfl, accepted⟩

theorem Untouched.trans (h : Untouched c u v) (h' : Untouched c v w) : Untouched c u w := by
  refine ⟨h'.tasks.trans h.tasks, h.session.trans h'.session, fun id mem => h'.grows id (h.grows id mem), fun row mem => ?_,
    fun row'' mem'' guards accepted => ?_⟩
  · obtain ⟨row', mem', id', conversation', settles⟩ := h.rows row mem
    obtain ⟨row'', mem'', id'', conversation'', settles'⟩ := h'.rows row' mem'
    refine ⟨row'', mem'', id''.trans id', conversation''.trans conversation', fun accepted settled => ?_⟩
    exact settles' (id'.symm ▸ h.grows _ accepted) (settles accepted settled)
  · obtain ⟨row', mem', id', conversation', accepted'⟩ := h'.back row'' mem'' guards accepted
    have guards' := guards.before h'.tasks h'.session id'.symm conversation'.symm
    obtain ⟨row, mem, id, conversation, before⟩ := h.back row' mem' guards' accepted'
    exact ⟨row, mem, id.trans id', conversation.trans conversation', before⟩

theorem SettledBut.relies {except : List String} (h : SettledBut except c w) (rely : Untouched c w w') : SettledBut except c w' := by
  intro row' mem' guards accepted apart
  obtain ⟨row, mem, id, conversation, before⟩ := rely.back row' mem' guards accepted
  have settled := h row mem (guards.before rely.tasks rely.session id.symm conversation.symm) before (id.symm ▸ apart)
  obtain ⟨row'', mem'', id'', -, settles⟩ := rely.rows row mem
  rw [← Table.eq_of_key mem'' mem' (id''.trans id)]
  exact settles before settled

/-- What was accepted is not sent again. -/
def Unrepeated (w w' : OutboundWorld) : Prop := ∀ id ∈ acceptedIDs w, id ∈ acceptedIDs w' ∧ sendsOf id w' = sendsOf id w

/-- What each name relies on. -/
def onceRely : OutboundName → OutboundWorld → OutboundWorld → Prop
  | .call c, w, w' => Untouched c w w'
  | .observer, w, w' => Unrepeated w w'
  | _, _, _ => True

/-- A call that is gone has nothing to record. -/
def onceIdle : OutboundName → OutboundWorld → Prop
  | .call c, w => SettledBut [] c w
  | _, _ => True

/-- The protocol of the send tasks. -/
def onceProtocol : Protocol OutboundName OutboundWorld where
  inv := AtMostOnce
  rely := onceRely
  refl i w := by
    cases i with
    | call c => exact .refl c w
    | observer => exact fun id accepted => ⟨accepted, rfl⟩
    | sweep tx => trivial
    | writer n => trivial
    | server n => trivial
  trans i u v w h h' := by
    cases i with
    | call c => exact Untouched.trans h h'
    | observer =>
      intro id accepted
      obtain ⟨accepted', sends⟩ := h id accepted
      obtain ⟨accepted'', sends'⟩ := h' id accepted'
      exact ⟨accepted'', sends'.trans sends⟩
    | sweep tx => trivial
    | writer n => trivial
    | server n => trivial
  idle := onceIdle
  steady i w w' rely idle := by
    cases i with
    | call c => exact SettledBut.relies idle rely
    | sweep tx => trivial
    | writer n => trivial
    | server n => trivial
    | observer => trivial

/-- A statement of `i` keeps the protocol. -/
structure KeepsOnce (i : OutboundName) (w w' : OutboundWorld) : Prop where
  inv : AtMostOnce w'
  untouched : ∀ c, i ≠ .call c → Untouched c w w'
  unrepeated : Unrepeated w w'

theorem KeepsOnce.rely {i j : OutboundName} (h : KeepsOnce i w w') (other : j ≠ i) : onceRely j w w' := by
  cases j with
  | call c => exact h.untouched c (Ne.symm other)
  | observer => exact h.unrepeated
  | sweep tx => trivial
  | writer n => trivial
  | server n => trivial

/-- A statement that is no send repeats none. -/
theorem unrepeated_of_sends (sends : w'.sends = w.sends) : Unrepeated w w' := by
  intro id accepted
  unfold acceptedIDs sendsOf at *
  rw [sends]
  exact ⟨accepted, rfl⟩

theorem AtMostOnce.same {i : OutboundName} (inv : AtMostOnce w) : KeepsOnce i w w :=
  ⟨inv, fun c _ => .refl c w, unrepeated_of_sends rfl⟩

end Protocol

/-! ## Statements -/

section Statements

variable {i : OutboundName} {c : OutboundCall} {w w' : OutboundWorld}

theorem acceptedIDs_congr (sends : w'.sends = w.sends) : acceptedIDs w' = acceptedIDs w := by
  unfold acceptedIDs
  rw [sends]

/-- Guards of rows of conversations depend on the locks only. -/
theorem Guards.congr {row : OutboundRow} (h : Guards c w row) (tasks : w'.tasks = w.tasks)
    (locks : ∀ k, w.locks k = some c → w'.locks k = some c) : Guards c w' row := by
  rcases h with ⟨alone, running, own⟩ | ⟨conv, inConversation, held⟩
  · exact .inl ⟨alone, tasks ▸ running, own⟩
  · exact .inr ⟨conv, inConversation, locks _ held⟩

/-- A conversation that nobody has locked is settled. -/
theorem AtMostOnce.settled_of_free (inv : AtMostOnce w) {row : OutboundRow} {conversation : String} (mem : row ∈ w.messages.rows)
    (inConversation : row.conversation = some conversation) (free : w.locks (lockKey conversation) = none)
    (accepted : row.id ∈ acceptedIDs w) : Settled row := by
  obtain ⟨row', mem', id', settled | ⟨c, guards, -⟩⟩ := inv.kept row.id accepted
  · rwa [← Table.eq_of_key mem' mem id']
  · obtain rfl := Table.eq_of_key mem' mem id'
    rcases guards with ⟨alone, -, -⟩ | ⟨conv, inConversation', held⟩
    · rw [inConversation] at alone
      cases alone
    · obtain rfl : conversation = conv := Option.some.inj (inConversation.symm.trans inConversation')
      rw [free] at held
      cases held

/-- A call whose rows are settled may do anything with its session. -/
theorem SessionStep.keepsOnce (h : SessionStep c w w') (inv : AtMostOnce w) (settled : SettledBut [] c w) :
    KeepsOnce (.call c) w w' ∧ SettledBut [] c w' := by
  have ids := acceptedIDs_congr h.sends
  refine ⟨⟨⟨ids ▸ inv.once, fun id accepted => ?_, h.tasks ▸ inv.tasks⟩, fun j other => ?_, unrepeated_of_sends h.sends⟩,
    fun row mem guards accepted _ => ?_⟩
  · rw [ids] at accepted
    obtain ⟨row, mem, rfl, known⟩ := inv.kept id accepted
    refine ⟨row, h.messages ▸ mem, rfl, ?_⟩
    rcases known with done | ⟨j, guards, listed⟩
    · exact .inl done
    · by_cases own : j = c
      · exact .inl (settled row mem (own ▸ guards) accepted List.not_mem_nil)
      · obtain ⟨backlog, locks⟩ := h.others j own
        exact .inr ⟨j, guards.congr h.tasks fun k => (locks k).2, fun conversing => backlog.symm ▸ listed conversing⟩
  · have other : j ≠ c := fun same => other (same ▸ rfl)
    refine ⟨by rw [h.tasks], h.session other, fun id mem => ids ▸ mem, fun row mem => ⟨row, h.messages ▸ mem, rfl, rfl, fun _ done => done⟩,
      fun row mem _ accepted => ⟨row, h.messages ▸ mem, rfl, rfl, ids ▸ accepted⟩⟩
  · rw [h.messages] at mem
    rw [ids] at accepted
    rcases guards with ⟨alone, running, own⟩ | ⟨conv, inConversation, held⟩
    · exact settled row mem (.inl ⟨alone, h.tasks ▸ running, own⟩) accepted List.not_mem_nil
    · rcases h.own _ held with before | free
      · exact settled row mem (.inr ⟨conv, inConversation, before⟩) accepted List.not_mem_nil
      · exact inv.settled_of_free mem inConversation free accepted

/-- A statement on rows: accepted rows stay settled, and the rows of the call that makes it are settled afterwards. -/
theorem keepsOnce_rows (inv : AtMostOnce w) (sends : w'.sends = w.sends) (tasks : w'.tasks = w.tasks) (locks : w'.locks = w.locks)
    (backlogs : ∀ j, i ≠ .call j → backlogOf j w' = backlogOf j w)
    (rows : ∀ row ∈ w.messages.rows, ∃ row' ∈ w'.messages.rows, row'.id = row.id ∧ row'.conversation = row.conversation ∧
      (row.id ∈ acceptedIDs w → Settled row → Settled row'))
    (back : ∀ row' ∈ w'.messages.rows, row'.id ∈ acceptedIDs w →
      ∃ row ∈ w.messages.rows, row.id = row'.id ∧ row.conversation = row'.conversation)
    (own : ∀ c, i = .call c → SettledBut [] c w') : KeepsOnce i w w' := by
  have ids := acceptedIDs_congr sends
  refine ⟨⟨ids ▸ inv.once, fun id accepted => ?_, tasks ▸ inv.tasks⟩, fun j other => ?_, unrepeated_of_sends sends⟩
  · have before := ids ▸ accepted
    obtain ⟨row, mem, rfl, known⟩ := inv.kept id before
    obtain ⟨row', mem', id', conversation', settles⟩ := rows row mem
    refine ⟨row', mem', id', ?_⟩
    rcases known with done | ⟨j, guards, listed⟩
    · exact .inl (settles before done)
    · have guards' : Guards j w' row' := by
        rcases guards with ⟨alone, running, mine⟩ | ⟨conv, inConversation, held⟩
        · exact .inl ⟨conversation'.trans alone, tasks ▸ running, mine.trans id'.symm⟩
        · exact .inr ⟨conv, conversation'.trans inConversation, locks ▸ held⟩
      by_cases mine : i = .call j
      · exact .inl (own j mine row' mem' guards' (id' ▸ accepted) List.not_mem_nil)
      · refine .inr ⟨j, guards', fun conversing => ?_⟩
        rw [backlogs j mine]
        exact listed (conversation' ▸ conversing)
  · refine ⟨by rw [tasks], .inl ⟨backlogs j other, fun k => by rw [locks]⟩, fun id mem => ids ▸ mem, rows, fun row' mem' _ accepted => ?_⟩
    have before := ids ▸ accepted
    obtain ⟨row, mem, id, conversation⟩ := back row' mem' before
    exact ⟨row, mem, id, conversation, id ▸ before⟩

/-- A status write, by a call that has nothing left to record or by somebody else. -/
theorem keepsOnce_update {p : OutboundRow → Bool} {f : OutboundRow → OutboundRow} (keeps : ∀ r, (f r).id = r.id) (inv : AtMostOnce w)
    (messages : w'.messages = w.messages.update p f keeps) (sends : w'.sends = w.sends) (tasks : w'.tasks = w.tasks)
    (locks : w'.locks = w.locks) (backlogs : ∀ j, i ≠ .call j → backlogOf j w' = backlogOf j w)
    (conversations : ∀ r, (f r).conversation = r.conversation)
    (settles : ∀ row ∈ w.messages.rows, p row = true → row.id ∈ acceptedIDs w → Settled row → Settled (f row))
    (own : ∀ c, i = .call c → SettledBut [] c w') : KeepsOnce i w w' := by
  refine keepsOnce_rows inv sends tasks locks backlogs (fun row mem => ⟨Table.rewrite p f row, ?_, Table.rewrite_key keeps row, ?_, ?_⟩)
    (fun row' mem' _ => ?_) own
  · rw [messages, Table.mem_update]
    exact ⟨row, mem, rfl⟩
  · unfold Table.rewrite
    split
    · exact conversations row
    · rfl
  · intro accepted done
    unfold Table.rewrite
    split
    · rename_i selected
      exact settles row mem selected accepted done
    · exact done
  · rw [messages, Table.mem_update] at mem'
    obtain ⟨row, mem, rfl⟩ := mem'
    refine ⟨row, mem, (Table.rewrite_key keeps row).symm, ?_⟩
    unfold Table.rewrite
    split
    · exact (conversations row).symm
    · rfl

theorem keepsOnce_insert {row : OutboundRow} {n : Nat} (inv : AtMostOnce w) (h : insertOutbound row w = .ok w') :
    KeepsOnce (.writer n) w w' := by
  obtain ⟨messages, inserted, rfl⟩ := insertOutbound_ok h
  obtain ⟨fresh, rows⟩ := Table.insert_eq_some.1 inserted
  refine keepsOnce_rows inv rfl rfl rfl (fun _ _ => rfl) (fun r mem => ⟨r, ?_, rfl, rfl, fun _ done => done⟩)
    (fun r mem accepted => ?_) fun c absurd => nomatch absurd
  · show r ∈ messages.rows
    rw [rows]
    exact List.mem_append_left _ mem
  · have mem : r ∈ messages.rows := mem
    rw [rows, List.mem_append, List.mem_singleton] at mem
    rcases mem with mem | rfl
    · exact ⟨r, mem, rfl, rfl⟩
    · obtain ⟨r', mem', same, -⟩ := inv.kept r.id accepted
      exact (fresh r' mem' same).elim

/-- Verdicts become visible. -/
theorem keepsOnce_commit {tx x : String} {stale : List String} (inv : AtMostOnce w) :
    KeepsOnce (.sweep x) w (endSweep tx (applyStale stale w)) :=
  keepsOnce_update (p := fun r => decide (r.id ∈ stale)) (f := fun r => { r with status := .failedStale }) (fun _ => rfl) inv
    rfl rfl rfl rfl (fun _ _ => rfl) (fun _ => rfl) (fun _ _ _ _ _ => .inr rfl) fun _ absurd => nomatch absurd

/-- A statement on the sweeps only. -/
theorem keepsOnce_sweep {transactions : Table SweepTx.id} (inv : AtMostOnce w) :
    KeepsOnce i w { w with transactions := transactions } :=
  ⟨⟨inv.once, inv.kept, inv.tasks⟩, fun c _ => ⟨Iff.rfl, .refl c w, fun _ mem => mem,
    fun row mem => ⟨row, mem, rfl, rfl, fun _ done => done⟩, fun row mem _ accepted => ⟨row, mem, rfl, rfl, accepted⟩⟩,
    unrepeated_of_sends rfl⟩

/-- The server loses a connection whose backlog is recorded. -/
theorem keepsOnce_lost {n : Nat} (inv : AtMostOnce w) (empty : backlogOf c w = some []) :
    KeepsOnce (.server n) w (closeConnection c w) := by
  refine ⟨⟨inv.once, fun id accepted => ?_, inv.tasks⟩, fun j _ => ?_, unrepeated_of_sends rfl⟩
  · obtain ⟨row, mem, rfl, known⟩ := inv.kept id accepted
    refine ⟨row, mem, rfl, ?_⟩
    rcases known with done | ⟨j, guards, listed⟩
    · exact .inl done
    · by_cases alone : row.conversation = none
      · refine .inr ⟨j, ?_, fun conversing => (conversing alone).elim⟩
        rcases guards with guards | ⟨conv, inConversation, -⟩
        · exact .inl guards
        · rw [alone] at inConversation
          cases inConversation
      · obtain ⟨ids, read, mem'⟩ := listed alone
        have holds := (session_lost (c := c) (j := j) empty).holds read mem'
        exact .inr ⟨j, guards.congr rfl fun k => (holds.2 k).2, fun _ => ⟨ids, holds.1, mem'⟩⟩
  · exact ⟨Iff.rfl, session_lost empty, fun _ mem => mem, fun row mem => ⟨row, mem, rfl, rfl, fun _ done => done⟩,
      fun row mem _ accepted => ⟨row, mem, rfl, rfl, accepted⟩⟩

/-- A task starts: no other runs for its row. -/
theorem keepsOnce_start (inv : AtMostOnce w) (settled : SettledBut [] c w) (free : ∀ t ∈ w.tasks, t.row ≠ c.row) :
    KeepsOnce (.call c) w { w with tasks := c :: w.tasks } ∧ SettledBut [] c { w with tasks := c :: w.tasks } := by
  refine ⟨⟨⟨inv.once, fun id accepted => ?_, fun a ha b hb same => ?_⟩, fun j other => ?_, unrepeated_of_sends rfl⟩,
    fun row mem guards accepted _ => ?_⟩
  · obtain ⟨row, mem, rfl, known⟩ := inv.kept id accepted
    refine ⟨row, mem, rfl, known.imp_right ?_⟩
    rintro ⟨j, guards, listed⟩
    exact ⟨j, guards.imp_left fun h => ⟨h.1, List.mem_cons_of_mem _ h.2.1, h.2.2⟩, listed⟩
  · rcases List.mem_cons.1 ha with started | before
    · rcases List.mem_cons.1 hb with started' | before'
      · exact started.trans started'.symm
      · exact (free b before' (started ▸ same.symm)).elim
    · rcases List.mem_cons.1 hb with started' | before'
      · exact (free a before (started' ▸ same)).elim
      · exact inv.tasks a before b before' same
  · have other : j ≠ c := fun same => other (same ▸ rfl)
    exact ⟨by simp [other], .inl ⟨rfl, fun _ => Iff.rfl⟩, fun _ mem => mem, fun row mem => ⟨row, mem, rfl, rfl, fun _ done => done⟩,
      fun row mem _ accepted => ⟨row, mem, rfl, rfl, accepted⟩⟩
  · rcases guards with ⟨alone, -, own⟩ | ⟨conv, inConversation, held⟩
    · obtain ⟨row', mem', id', done | ⟨j, guards, -⟩⟩ := inv.kept row.id accepted
      · rwa [← Table.eq_of_key mem' mem id']
      · obtain rfl := Table.eq_of_key mem' mem id'
        rcases guards with ⟨-, running, mine⟩ | ⟨conv, inConversation, -⟩
        · exact (free j running (mine.trans own.symm)).elim
        · rw [alone] at inConversation
          cases inConversation
    · exact settled row mem (.inr ⟨conv, inConversation, held⟩) accepted List.not_mem_nil

/-- A task ends. -/
theorem keepsOnce_finish (inv : AtMostOnce w) (settled : SettledBut [] c w) :
    KeepsOnce (.call c) w { w with tasks := w.tasks.filter fun t => decide (t ≠ c) } ∧
      SettledBut [] c { w with tasks := w.tasks.filter fun t => decide (t ≠ c) } := by
  have tasks : ∀ j, j ∈ w.tasks.filter (fun t => decide (t ≠ c)) ↔ j ∈ w.tasks ∧ j ≠ c := by
    intro j
    simp [List.mem_filter]
  refine ⟨⟨⟨inv.once, fun id accepted => ?_, fun a ha b hb => ?_⟩, fun j other => ?_, unrepeated_of_sends rfl⟩,
    fun row mem guards accepted apart => ?_⟩
  · obtain ⟨row, mem, rfl, known⟩ := inv.kept id accepted
    refine ⟨row, mem, rfl, ?_⟩
    rcases known with done | ⟨j, guards, listed⟩
    · exact .inl done
    · by_cases own : j = c
      · exact .inl (settled row mem (own ▸ guards) accepted List.not_mem_nil)
      · exact .inr ⟨j, guards.imp_left fun h => ⟨h.1, (tasks j).2 ⟨h.2.1, own⟩, h.2.2⟩, listed⟩
  · exact inv.tasks a ((tasks a).1 ha).1 b ((tasks b).1 hb).1
  · have other : j ≠ c := fun same => other (same ▸ rfl)
    refine ⟨(tasks j).trans (and_iff_left other), .inl ⟨rfl, fun _ => Iff.rfl⟩, fun _ mem => mem,
      fun row mem => ⟨row, mem, rfl, rfl, fun _ done => done⟩, fun row mem _ accepted => ⟨row, mem, rfl, rfl, accepted⟩⟩
  · refine settled row mem ?_ accepted apart
    exact guards.imp_left fun h => ⟨h.1, ((tasks c).1 h.2.1).1, h.2.2⟩

theorem Guards.unique {j : OutboundCall} {row : OutboundRow} (inv : AtMostOnce w) (h : Guards c w row) (h' : Guards j w row) : c = j := by
  rcases h with ⟨alone, running, own⟩ | ⟨conv, inConversation, held⟩
  · rcases h' with ⟨-, running', own'⟩ | ⟨conv, inConversation, -⟩
    · exact inv.tasks c running j running' (own.trans own'.symm)
    · rw [alone] at inConversation
      cases inConversation
  · rcases h' with ⟨alone, -, -⟩ | ⟨conv', inConversation', held'⟩
    · rw [alone] at inConversation
      cases inConversation
    · obtain rfl : conv = conv' := Option.some.inj (inConversation.symm.trans inConversation')
      exact Option.some.inj (held.symm.trans held')

end Statements

/-! ## What a delivery owes -/

/-- The call guards the row of the message, and its session has it to record. -/
def Held (c : OutboundCall) (on : Option OutboundCall) (m : QueuedMessage) (w : OutboundWorld) : Prop :=
  ∃ row ∈ w.messages.rows, row.id = m.id ∧ Guards c w row ∧ ((on = none ∧ row.conversation = none) ∨
    (on = some c ∧ ∃ ids, backlogOf c w = some ids ∧ m.id ∈ ids))

/-- The messages the call has to deliver or to record; none was accepted, except for those in `except`. -/
structure Owes (except : List String) (c : OutboundCall) (on : Option OutboundCall) (ms : List QueuedMessage) (w : OutboundWorld) :
    Prop where
  mine : on = none ∨ on = some c
  nodup : (ms.map QueuedMessage.id).Nodup
  settled : SettledBut except c w
  held : ∀ m ∈ ms, Held c on m w
  unaccepted : ∀ m ∈ ms, m.id ∉ except → m.id ∉ acceptedIDs w

section Owing

variable {except : List String} {c : OutboundCall} {on : Option OutboundCall} {m : QueuedMessage} {ms rest : List QueuedMessage}
  {w w' : OutboundWorld}

theorem Held.relies (h : Held c on m w) (rely : Untouched c w w') : Held c on m w' := by
  obtain ⟨row, mem, named, guards, where'⟩ := h
  obtain ⟨row', mem', id', conversation', -⟩ := rely.rows row mem
  refine ⟨row', mem', id'.trans named, ?_, ?_⟩
  · rcases guards with ⟨alone, running, own⟩ | ⟨conv, inConversation, locked⟩
    · exact .inl ⟨conversation'.trans alone, rely.tasks.2 running, own.trans id'.symm⟩
    · rcases where' with ⟨-, alone⟩ | ⟨-, ids, read, listed⟩
      · rw [alone] at inConversation
        cases inConversation
      · exact .inr ⟨conv, conversation'.trans inConversation, ((rely.session.holds read listed).2 _).2 locked⟩
  · rcases where' with ⟨none', alone⟩ | ⟨own, ids, read, listed⟩
    · exact .inl ⟨none', conversation'.trans alone⟩
    · exact .inr ⟨own, ids, (rely.session.holds read listed).1, listed⟩

theorem Owes.relies (h : Owes except c on ms w) (rely : Untouched c w w') : Owes except c on ms w' := by
  refine ⟨h.mine, h.nodup, h.settled.relies rely, fun m mem => (h.held m mem).relies rely, fun m mem apart accepted => ?_⟩
  obtain ⟨row', mem', named, guards, -⟩ := (h.held m mem).relies rely
  obtain ⟨row, -, id, -, before⟩ := rely.back row' mem' guards (named ▸ accepted)
  exact h.unaccepted m mem apart ((id.trans named) ▸ before)

theorem Owes.tail (h : Owes except c on (m :: rest) w) : Owes except c on rest w := by
  have nodup := h.nodup
  rw [List.map_cons, List.nodup_cons] at nodup
  exact ⟨h.mine, nodup.2, h.settled, fun m' mem => h.held m' (List.mem_cons_of_mem _ mem),
    fun m' mem => h.unaccepted m' (List.mem_cons_of_mem _ mem)⟩

theorem acceptedIDs_send {s : Sending} :
    acceptedIDs { w with sends := w.sends ++ [s] } = acceptedIDs w ++ if s.accepted then [s.id] else [] := by
  unfold acceptedIDs
  rw [List.filter_append, List.map_append]
  cases accepted : s.accepted <;> simp [accepted]

/-- A message that was not accepted is handed to the sender. -/
theorem unrepeated_send {s : Sending} (fresh : s.id ∉ acceptedIDs w) : Unrepeated w { w with sends := w.sends ++ [s] } := by
  intro id accepted
  have apart : s.id ≠ id := fun same => fresh (same ▸ accepted)
  refine ⟨?_, ?_⟩
  · rw [acceptedIDs_send]
    exact List.mem_append_left _ accepted
  · simp [sendsOf, List.filter_append, apart]

/-- WhatsApp refuses the message: it is still to do. -/
theorem Owes.refused {s : Sending} (h : Owes [] c on (m :: rest) w) (inv : AtMostOnce w) (refused : s.accepted = false) (named : s.id = m.id) :
    KeepsOnce (.call c) w { w with sends := w.sends ++ [s] } ∧ Owes [] c on (m :: rest) { w with sends := w.sends ++ [s] } := by
  have fresh := h.unaccepted m List.mem_cons_self List.not_mem_nil
  have ids : acceptedIDs { w with sends := w.sends ++ [s] } = acceptedIDs w := by
    rw [acceptedIDs_send, refused]
    simp
  refine ⟨⟨⟨ids ▸ inv.once, fun id accepted => inv.kept id (ids ▸ accepted), inv.tasks⟩, fun j _ => ?_, unrepeated_send (named ▸ fresh)⟩,
    h.mine, h.nodup, ?_, h.held, ?_⟩
  · exact ⟨Iff.rfl, .refl j w, fun _ mem => ids ▸ mem, fun row mem => ⟨row, mem, rfl, rfl, fun _ done => done⟩,
      fun row mem _ accepted => ⟨row, mem, rfl, rfl, ids ▸ accepted⟩⟩
  · exact fun row mem guards accepted => h.settled row mem guards (ids ▸ accepted)
  · exact fun m mem apart accepted => h.unaccepted m mem apart (ids ▸ accepted)

/-- WhatsApp accepts the message: it is the guardian's to record. -/
theorem Owes.accepted {s : Sending} (h : Owes [] c on (m :: rest) w) (inv : AtMostOnce w) (accepts : s.accepted = true) (named : s.id = m.id) :
    KeepsOnce (.call c) w { w with sends := w.sends ++ [s] } ∧ Owes [m.id] c on (m :: rest) { w with sends := w.sends ++ [s] } := by
  have ids : acceptedIDs { w with sends := w.sends ++ [s] } = acceptedIDs w ++ [m.id] := by
    rw [acceptedIDs_send, accepts, named]
    rfl
  have fresh := h.unaccepted m List.mem_cons_self List.not_mem_nil
  obtain ⟨row, mem, rowNamed, guards, where'⟩ := h.held m List.mem_cons_self
  refine ⟨⟨⟨?_, fun id accepted => ?_, inv.tasks⟩, fun j other => ?_, unrepeated_send (named ▸ fresh)⟩,
    h.mine, h.nodup, ?_, h.held, ?_⟩
  · rw [ids]
    exact List.nodup_append.2 ⟨inv.once, List.nodup_singleton _, fun a ha b hb same => fresh (List.mem_singleton.1 hb ▸ same ▸ ha)⟩
  · rw [ids, List.mem_append, List.mem_singleton] at accepted
    rcases accepted with before | rfl
    · exact inv.kept id before
    · refine ⟨row, mem, rowNamed, .inr ⟨c, guards, fun conversing => ?_⟩⟩
      rcases where' with ⟨-, alone⟩ | ⟨-, ids, read, listed⟩
      · exact (conversing alone).elim
      · exact ⟨ids, read, listed⟩
  · have other : j ≠ c := fun same => other (same ▸ rfl)
    refine ⟨Iff.rfl, .refl j w, fun _ mem => ids ▸ List.mem_append_left _ mem, fun row mem => ⟨row, mem, rfl, rfl, fun _ done => done⟩,
      fun row' mem' guards' accepted => ?_⟩
    rw [ids, List.mem_append, List.mem_singleton] at accepted
    rcases accepted with before | own
    · exact ⟨row', mem', rfl, rfl, before⟩
    · obtain rfl := Table.eq_of_key mem mem' (rowNamed.trans own.symm)
      exact (other (Guards.unique inv guards' guards)).elim
  · intro row' mem' guards' accepted apart
    rw [ids, List.mem_append] at accepted
    rcases accepted with before | own
    · exact h.settled row' mem' guards' before List.not_mem_nil
    · exact (apart own).elim
  · intro m' mem' apart accepted
    rw [ids, List.mem_append] at accepted
    rcases accepted with before | own
    · exact h.unaccepted m' mem' List.not_mem_nil before
    · exact apart own

/-- The outcome of the first message is recorded. -/
theorem Owes.record {f : OutboundRow → OutboundRow} (keeps : ∀ r, (f r).id = r.id) (h : Owes except c on (m :: rest) w)
    (inv : AtMostOnce w) (only : ∀ id ∈ except, id = m.id) (conversations : ∀ r, (f r).conversation = r.conversation)
    (settles : ∀ row, m.id ∈ acceptedIDs w → Settled (f row)) :
    KeepsOnce (.call c) w (recorded on m.id (setOutbound m.id f keeps w)) ∧
      Owes [] c on rest (recorded on m.id (setOutbound m.id f keeps w)) := by
  have nodup := h.nodup
  rw [List.map_cons, List.nodup_cons] at nodup
  have ids : acceptedIDs (recorded on m.id (setOutbound m.id f keeps w)) = acceptedIDs w := acceptedIDs_congr recorded_sends
  have guards : ∀ {j : OutboundCall} {row : OutboundRow}, Guards j (recorded on m.id (setOutbound m.id f keeps w)) row ↔ Guards j w row := by
    intro j row
    unfold Guards
    rw [recorded_tasks, recorded_locks]
    rfl
  have settled : SettledBut [] c (recorded on m.id (setOutbound m.id f keeps w)) := by
    intro row mem guards' accepted _
    rw [recorded_messages] at mem
    rcases mem_setOutbound.1 mem with ⟨mem, other⟩ | ⟨old, -, own, rfl⟩
    · exact h.settled row mem (guards.1 guards') (ids ▸ accepted) fun listed => other (only _ listed)
    · exact settles old ((keeps old).trans own ▸ ids ▸ accepted)
  refine ⟨keepsOnce_update (p := fun r => decide (r.id = m.id)) (f := f) keeps inv recorded_messages recorded_sends recorded_tasks
    recorded_locks (fun j other => ?_) conversations (fun row _ own accepted _ => ?_) fun j same => ?_,
    h.mine, nodup.2, settled, fun m' mem => ?_, fun m' mem _ accepted => ?_⟩
  · exact backlogOf_recorded_ne h.mine fun same => other (same ▸ rfl)
  · exact settles row (of_decide_eq_true own ▸ accepted)
  · cases same
    exact settled
  · have apart : m'.id ≠ m.id := fun same => nodup.1 (same ▸ List.mem_map_of_mem mem)
    obtain ⟨row, hrow, named, guards', where'⟩ := h.held m' (List.mem_cons_of_mem _ mem)
    refine ⟨row, ?_, named, guards.2 guards', ?_⟩
    · rw [recorded_messages]
      exact mem_setOutbound.2 (.inl ⟨hrow, named ▸ apart⟩)
    · rcases where' with alone | ⟨rfl, read⟩
      · exact .inl alone
      · obtain ⟨ids', read, listed⟩ := read
        refine .inr ⟨rfl, ids'.erase m.id, ?_, (List.mem_erase_of_ne apart).2 listed⟩
        rw [backlogOf_recorded, show backlogOf c (setOutbound m.id f keeps w) = some ids' from read]
        rfl
  · have apart : m'.id ≠ m.id := fun same => nodup.1 (same ▸ List.mem_map_of_mem mem)
    exact h.unaccepted m' (List.mem_cons_of_mem _ mem) (fun listed => apart (only _ listed)) (ids ▸ accepted)

/-- The session of a call that has something to record is open. -/
theorem Owes.onConnection {α : Type} {f : Except OutboundErr α × OutboundWorld} (h : Owes except c on (m :: rest) w) :
    Db.onConnection on w f = f := by
  rcases onConnection_cases on f with ⟨runs, -⟩ | ⟨-, j, same, closed⟩
  · exact runs
  · obtain ⟨row, -, -, -, ⟨none', -⟩ | ⟨own, ids, read, -⟩⟩ := h.held m List.mem_cons_self
    · rw [none'] at same
      cases same
    · obtain rfl : c = j := Option.some.inj (own.symm.trans same)
      rw [closed] at read
      cases read

end Owing

/-! ## Deliveries -/

section Deliveries

variable {i : OutboundName} {c : OutboundCall} {wa : Option Sender} {w : OutboundWorld}

/-- One statement. -/
theorem safe_once {op : OutboundStmt} {Q : Except OutboundErr op.Reply → OutboundWorld → Prop}
    (executed : ∀ t, onceRely i w t → AtMostOnce t → outboundProceeds t op → keepsConnection t op →
      KeepsOnce i t (outboundExec op t).2 ∧ Q (outboundExec op t).1 (outboundExec op t).2 ∧
        (mayFail op → Q (.error (.db .transient)) (outboundExec op t).2))
    (failed : ∀ t, onceRely i w t → mayFail op → recordsSend op = false → Q (.error (.db .transient)) t)
    (stopped : ∀ t, onceRely i w t → recordsSend op = false → onceIdle i t) :
    Safe recordedFlow onceProtocol i Q (call (I := outboundStore) op) w := by
  refine Safe.call (fun t rely inv may => ?_) (fun t rely _ faults => failed t rely faults.1 faults.2) fun t rely _ stops => stopped t rely stops
  obtain ⟨keeps, replied, unreplied⟩ := executed t rely inv may.1 may.2
  exact ⟨keeps.inv, fun j other => keeps.rely other, replied, unreplied⟩

/-- A statement of a call that has nothing to record, before and after. -/
theorem SettledBut.safe {op : OutboundStmt} {Q : Except OutboundErr op.Reply → OutboundWorld → Prop} (settled : SettledBut [] c w)
    (executed : ∀ t, Untouched c w t → AtMostOnce t → outboundProceeds t op → SettledBut [] c t →
      KeepsOnce (.call c) t (outboundExec op t).2 ∧ SettledBut [] c (outboundExec op t).2)
    (next : ∀ r t, SettledBut [] c t → Q r t) : Safe recordedFlow onceProtocol (.call c) Q (call (I := outboundStore) op) w := by
  refine safe_once (fun t rely inv may _ => ?_) (fun t rely _ _ => next _ t (settled.relies rely)) fun t rely _ => settled.relies rely
  obtain ⟨keeps, after⟩ := executed t rely inv may (settled.relies rely)
  exact ⟨keeps, next _ _ after, fun _ => next _ _ after⟩

/-- A statement on the session. -/
theorem SettledBut.safe_session {op : OutboundStmt} (settled : SettledBut [] c w)
    (runs : ∀ t, outboundProceeds t op → SessionStep c t (outboundExec op t).2) :
    Safe recordedFlow onceProtocol (.call c) (fun _ => SettledBut [] c) (call (I := outboundStore) op) w :=
  settled.safe (fun t _ inv may before => (runs t may).keepsOnce inv before) fun _ _ after => after

/-- The call has the conversation's lock for as long as its connection is open. -/
def LockHeld (c : OutboundCall) (conversation : String) (w : OutboundWorld) : Prop :=
  ∀ ids, backlogOf c w = some ids → w.locks (lockKey conversation) = some c

theorem LockHeld.relies {conversation : String} {t : OutboundWorld} (h : LockHeld c conversation w) (session : Session c w t) :
    LockHeld c conversation t := by
  intro ids read
  rcases session with ⟨backlog, locks⟩ | ⟨-, lost, -⟩
  · exact (locks _).2 (h ids (backlog.symm.trans read))
  · rw [lost] at read
    cases read

theorem lockHeld_lock (conversation : String) : (∃ e, outboundExec (.lockConversation c (lockKey conversation)) w = (.error e, w)) ∨
    LockHeld c conversation (outboundExec (.lockConversation c (lockKey conversation)) w).2 := by
  simp only [outboundExec]
  rcases onConnection_cases (w := w) (some c) ((.ok (), { w with locks := Function.update w.locks (lockKey conversation) (some c) }) :
    Except OutboundErr Unit × OutboundWorld) with ⟨runs, -⟩ | ⟨runs, -⟩
  · rw [runs]
    exact .inr fun _ _ => Function.update_self ..
  · rw [runs]
    exact .inl ⟨_, rfl⟩

theorem SettledBut.safe_lock {conversation : String} (settled : SettledBut [] c w) :
    Safe recordedFlow onceProtocol (.call c)
      (Replied (fun _ t => SettledBut [] c t ∧ LockHeld c conversation t) (SettledBut [] c))
      (call (I := outboundStore) (.lockConversation c (lockKey conversation))) w := by
  refine safe_once (fun t rely inv may _ => ?_) (fun t rely _ _ => settled.relies rely) fun t rely _ => settled.relies rely
  obtain ⟨keeps, after⟩ := (sessionStep_lock may).keepsOnce inv (settled.relies rely)
  refine ⟨keeps, ?_, fun _ => after⟩
  rcases lockHeld_lock (c := c) (w := t) conversation with ⟨e, runs⟩ | held
  · rw [runs]
    exact settled.relies rely
  · cases (outboundExec (.lockConversation c (lockKey conversation)) t).1 with
    | ok _ => exact ⟨after, held⟩
    | error e => exact after

/-- The backlog: rows the call guards, and none of them was accepted. -/
theorem SettledBut.safe_loadBacklog {conversation : String} {seq : Int} (settled : SettledBut [] c w)
    (locked : LockHeld c conversation w) :
    Safe recordedFlow onceProtocol (.call c) (Replied (fun backlog => Owes [] c (some c) backlog) (SettledBut [] c))
      (call (I := outboundStore) (.loadBacklog c conversation seq)) w := by
  refine safe_once (fun t rely inv may _ => ?_) (fun t rely _ _ => settled.relies rely) fun t rely _ => settled.relies rely
  obtain ⟨keeps, after⟩ := (sessionStep_loadBacklog conversation seq).keepsOnce inv (settled.relies rely)
  refine ⟨keeps, ?_, fun _ => after⟩
  simp only [outboundExec] at after ⊢
  rcases onConnection_cases (w := t) (some c) ((.ok (loadBacklog conversation seq t), setConnection c (fun x =>
    { x with backlog := (loadBacklog conversation seq t).map QueuedMessage.id }) (fun _ => rfl) t) :
    Except OutboundErr (List QueuedMessage) × OutboundWorld) with ⟨runs, isOpen⟩ | ⟨runs, -⟩
  · obtain ⟨ids, read⟩ := isOpen c rfl
    rw [runs] at after ⊢
    have held := locked.relies rely.session ids read
    have reads := backlogOf_setConnection (c := c) (w := t) (g := fun _ => (loadBacklog conversation seq t).map QueuedMessage.id)
    rw [read] at reads
    refine ⟨.inr rfl, loadBacklog_nodup, after, fun m mem => ?_, fun m mem _ accepted => ?_⟩
    · obtain ⟨row, hrow, inConversation, -, -, scanned⟩ := mem_loadBacklog.1 mem
      refine ⟨row, hrow, (joined_eq scanned).1.symm, .inr ⟨conversation, inConversation, held⟩, .inr ⟨rfl, _, reads, ?_⟩⟩
      exact List.mem_map_of_mem mem
    · obtain ⟨row, hrow, inConversation, pending, -, scanned⟩ := mem_loadBacklog.1 mem
      have done := settled.relies rely row hrow (.inr ⟨conversation, inConversation, held⟩) ((joined_eq scanned).1 ▸ accepted)
        List.not_mem_nil
      rcases done with sent | verdict
      · rw [pending] at sent
        cases sent
      · rw [pending] at verdict
        cases verdict
  · rw [runs]
    exact settled.relies rely

/-- A send: the answer is an error only where nothing was accepted. -/
theorem Owes.safe_send {on : Option OutboundCall} {m : QueuedMessage} {rest : List QueuedMessage} {request : SendRequest}
    {outcome : SendOutcome} (h : Owes [] c on (m :: rest) w) (answers : outcome.accepted = true → ∃ r, outcome.answer = .ok r) :
    Safe recordedFlow onceProtocol (.call c)
      (Replied (fun _ t => ∃ except, (∀ id ∈ except, id = m.id) ∧ Owes except c on (m :: rest) t) (Owes [] c on (m :: rest)))
      (call (I := outboundStore) (.send m request outcome)) w := by
  refine safe_once (fun t rely inv _ _ => ?_) (fun _ _ may _ => may.elim) fun t rely _ => (h.relies rely).settled
  have owes := h.relies rely
  simp only [outboundExec]
  cases accepts : outcome.accepted with
  | true =>
    obtain ⟨response, answer⟩ := answers accepts
    obtain ⟨keeps, after⟩ := owes.accepted (s := ⟨m.id, m.seq, m.conversation, request, true⟩) inv rfl rfl
    rw [answer]
    exact ⟨keeps, ⟨[m.id], fun id listed => List.mem_singleton.1 listed, after⟩, fun may => may.elim⟩
  | false =>
    obtain ⟨keeps, after⟩ := owes.refused (s := ⟨m.id, m.seq, m.conversation, request, false⟩) inv rfl rfl
    refine ⟨keeps, ?_, fun may => may.elim⟩
    cases outcome.answer with
    | ok response => exact ⟨[], fun id listed => absurd listed List.not_mem_nil, after⟩
    | error message => exact after

/-- The write after a send comes through. -/
theorem Owes.safe_markSent {except : List String} {on : Option OutboundCall} {m : QueuedMessage} {rest : List QueuedMessage}
    {whatsappMessageID : Option String} {response : MetaResponse} (h : Owes except c on (m :: rest) w) (only : ∀ id ∈ except, id = m.id) :
    Safe recordedFlow onceProtocol (.call c) (fun _ => Owes [] c on rest)
      (call (I := outboundStore) (.markSent on m.id whatsappMessageID response)) w := by
  refine safe_once (fun t rely inv _ _ => ?_) (fun _ _ _ records => nomatch records) fun _ _ records => nomatch records
  have owes := h.relies rely
  have runs : outboundExec (.markSent on m.id whatsappMessageID response) t = _ := owes.onConnection
  obtain ⟨keeps, after⟩ := owes.record (f := .markSent whatsappMessageID response) (fun _ => rfl) inv only (fun _ => rfl)
    fun _ _ => .inl rfl
  rw [runs]
  exact ⟨keeps, after, fun _ => after⟩

theorem Owes.safe_markFailed {on : Option OutboundCall} {m : QueuedMessage} {rest : List QueuedMessage} {error : String}
    (h : Owes [] c on (m :: rest) w) :
    Safe recordedFlow onceProtocol (.call c) (fun _ => Owes [] c on rest) (call (I := outboundStore) (.markFailed on m.id error)) w := by
  refine safe_once (fun t rely inv _ _ => ?_) (fun t rely _ _ => (h.relies rely).tail) fun t rely _ => (h.relies rely).settled
  have owes := h.relies rely
  have runs : outboundExec (.markFailed on m.id error) t = _ := owes.onConnection
  have refused := owes.unaccepted m List.mem_cons_self List.not_mem_nil
  obtain ⟨keeps, after⟩ := owes.record (f := .markFailed error) (fun _ => rfl) inv (fun id listed => nomatch listed)
    (fun _ => rfl) fun _ accepted => (refused accepted).elim
  rw [runs]
  exact ⟨keeps, after, fun _ => after⟩

/-- What a delivery knows where. -/
def onceOutline (c : OutboundCall) {wa : Option Sender} (answers : Answers wa) :
    Outline recordedFlow onceProtocol c wa fun _ => SettledBut [] c where
  ready _ _ := SettledBut [] c
  acquired _ _ := SettledBut [] c
  locked conversation _ w := SettledBut [] c w ∧ LockHeld c conversation w
  todo on rest := Owes [] c on rest
  sent on m rest w := ∃ except, (∀ id ∈ except, id = m.id) ∧ Owes except c on (m :: rest) w
  failed on m rest := Owes [] c on (m :: rest)
  leaving _ := SettledBut [] c
  acquire _ _ _ ready := (ready.safe_session fun _ _ => sessionStep_acquire).mono fun r _ after => by
    cases r with
    | ok _ => exact after
    | error e => exact fun _ => after
  lock _ _ _ acquired := acquired.safe_lock.mono fun r _ after => by
    cases r with
    | ok _ => exact after
    | error e => exact fun _ => after
  load _ _ _ locked := (locked.1.safe_loadBacklog locked.2).mono fun r _ after => by
    cases r with
    | ok _ => exact after
    | error e => exact fun _ => after
  unsent _ _ _ _ _ todo := todo
  send _ m _ request _ _ sends todo := by
    obtain ⟨sender, wa', rfl⟩ := sends
    exact todo.safe_send (answers sender wa' m request)
  markSent _ _ _ _ _ _ sent := by
    obtain ⟨except, only, owes⟩ := sent
    exact owes.safe_markSent only
  markFailed _ _ _ _ _ failed := failed.safe_markFailed
  skip _ _ _ _ failed := failed.tail
  finish _ _ todo := todo.settled
  leave _ _ todo := todo.settled
  unlock _ _ _ leaving := leaving.safe_session fun _ _ => sessionStep_unlock
  release _ _ leaving := leaving.safe_session fun _ _ => sessionStep_close
  close _ _ leaving := leaving.safe_session fun _ _ => sessionStep_close

/-- A row that is loaded by its task and not skipped was not accepted. -/
theorem SettledBut.safe_loadMessage (settled : SettledBut [] c w) (running : c ∈ w.tasks) :
    Safe recordedFlow onceProtocol (.call c) (Loaded (fun _ => SettledBut [] c) (fun _ _ => SettledBut [] c) (Owes [] c))
      (call (I := outboundStore) (.loadMessage c.row)) w := by
  refine safe_once (fun t rely inv _ _ => ⟨inv.same, ?_, fun _ _ => settled.relies rely⟩) (fun t rely _ _ _ => settled.relies rely)
    fun t rely _ => settled.relies rely
  have settled := settled.relies rely
  simp only [outboundExec]
  cases found : loadMessage c.row t with
  | none => exact settled
  | some m =>
    refine ⟨fun _ => settled, fun kept => ⟨fun alone => ?_, fun _ _ => settled⟩⟩
    obtain ⟨row, hrow, own, scanned⟩ := loadMessage_eq found
    obtain ⟨named, -, status, conversation⟩ := joined_eq scanned
    have guards : Guards c t row := .inl ⟨conversation.symm.trans alone, rely.tasks.2 running, own.symm⟩
    refine ⟨.inl rfl, List.nodup_singleton _, settled, fun m' mem => ?_, fun m' mem _ accepted => ?_⟩
    · rw [List.mem_singleton.1 mem]
      exact ⟨row, hrow, named.symm, guards, .inl ⟨rfl, conversation.symm.trans alone⟩⟩
    · rw [List.mem_singleton.1 mem, named] at accepted
      have skips : skipOutbound m = true := by
        unfold skipOutbound
        rw [status]
        rcases settled row hrow guards accepted List.not_mem_nil with sent | verdict
        · simp [sent]
        · simp [verdict]
      rw [skips] at kept
      cases kept

theorem SettledBut.safe_handleOutboundSend {finalAttempt : Bool} (answers : Answers wa) (settled : SettledBut [] c w) :
    Safe recordedFlow onceProtocol (.call c) (fun _ => SettledBut [] c) (handleOutboundSend c wa finalAttempt) w := by
  unfold handleOutboundSend
  have starts : Safe recordedFlow onceProtocol (.call c)
      (Replied (fun _ t => SettledBut [] c t ∧ c ∈ t.tasks) (SettledBut [] c)) (call (I := outboundStore) (.startTask c)) w := by
    refine safe_once (fun t rely inv may _ => ?_) (fun t rely _ _ => settled.relies rely) fun t rely _ => settled.relies rely
    obtain ⟨keeps, after⟩ := keepsOnce_start inv (settled.relies rely) may
    exact ⟨keeps, ⟨after, List.mem_cons_self⟩, fun _ => after⟩
  refine Safe.bind (starts.mono fun started t after => ?_)
  cases started with
  | error e => exact after
  | ok _ =>
    have delivers : Safe recordedFlow onceProtocol (.call c) (fun _ => SettledBut [] c) (deliver c wa c.row finalAttempt) t :=
      (onceOutline c answers).safe_deliver rfl (after.1.safe_loadMessage after.2)
    refine Safe.bind (Safe.bind (Safe.attempt (delivers.mono fun _ u after => ?_)))
    exact after.safe (fun v _ inv _ before => keepsOnce_finish inv before) fun _ _ done => done

end Deliveries

/-! ## Runs -/

/-- A statement of somebody who guards nothing. -/
theorem safe_aside {i : OutboundName} {op : OutboundStmt} {w : OutboundWorld} (idle : ∀ t, onceIdle i t)
    (executed : ∀ t, AtMostOnce t → keepsConnection t op → KeepsOnce i t (outboundExec op t).2) :
    Safe recordedFlow onceProtocol i (fun _ _ => True) (call (I := outboundStore) op) w :=
  safe_once (fun t _ inv _ keeps => ⟨executed t inv keeps, trivial, fun _ => trivial⟩) (fun _ _ _ _ => trivial) fun t _ _ => idle t

/-- A statement of a sweep's transaction. -/
theorem safe_sweeps {tx : String} {op : OutboundStmt} {w : OutboundWorld}
    {body : OutboundWorld → SweepTx → Except OutboundErr op.Reply × OutboundWorld}
    (runs : ∀ t, outboundExec op t = withinSweep tx t (body t))
    (executed : ∀ t tr, AtMostOnce t → KeepsOnce (.sweep tx) t (body t tr).2) :
    Safe recordedFlow onceProtocol (.sweep tx) (fun _ _ => True) (call (I := outboundStore) op) w := by
  refine safe_aside (fun _ => trivial) fun t inv _ => ?_
  rw [runs t, withinSweep]
  cases openSweep tx t with
  | none => exact inv.same
  | some tr => exact executed t tr inv

theorem safe_sweepRows_once {tx : String} {publisher : Bool} {rows : List StrandedRow} {w : OutboundWorld} :
    Safe recordedFlow onceProtocol (.sweep tx) (fun _ _ => True) (sweepRows tx publisher rows) w := by
  have marks : ∀ {msg : StrandedRow} {w : OutboundWorld}, Safe recordedFlow onceProtocol (.sweep tx) (fun _ _ => True) (markStale tx msg) w := by
    intro msg w
    unfold markStale
    split
    · exact trivial
    · refine Safe.bind ((safe_sweeps (fun _ => rfl) fun t _ inv => inv.same).mono fun newer t _ => ?_)
      match newer with
      | .error e => exact trivial
      | .ok none => exact trivial
      | .ok (some _) =>
        refine Safe.bind ((safe_sweeps (fun _ => rfl) fun t _ inv => keepsOnce_sweep inv).mono fun marked u _ => ?_)
        cases marked <;> exact trivial
  induction rows generalizing w with
  | nil => exact trivial
  | cons msg rest ih =>
    refine Safe.bind (marks.mono fun stale t _ => ?_)
    cases stale with
    | error e => exact trivial
    | ok stale =>
      simp only
      split
      · exact ih
      · exact Safe.bind (Safe.bind (Safe.attempt ((safe_aside (i := .sweep tx) (fun _ => trivial) fun t inv _ => inv.same).mono fun _ _ _ => ih)))

theorem safe_sweepOutbox_once {tx : String} {now : Int} {publisher : Bool} {w : OutboundWorld} :
    Safe recordedFlow onceProtocol (.sweep tx) (fun _ _ => True) (sweepOutbox tx now publisher) w := by
  have within' : ∀ {w : OutboundWorld}, Safe recordedFlow onceProtocol (.sweep tx) (fun _ _ => True) (sweepWithin tx now publisher) w := by
    intro w
    unfold sweepWithin
    refine Safe.bind ((safe_sweeps (fun _ => rfl) fun t _ inv => keepsOnce_sweep inv).mono fun locked t _ => ?_)
    cases locked with
    | error e => exact trivial
    | ok _ =>
      refine Safe.bind ((safe_sweeps (fun _ => rfl) fun t _ inv => inv.same).mono fun rows u _ => ?_)
      cases rows with
      | error e => exact trivial
      | ok rows =>
        refine Safe.bind (safe_sweepRows_once.mono fun swept v _ => ?_)
        cases swept with
        | error e => exact trivial
        | ok _ => exact safe_sweeps (fun _ => rfl) fun t _ inv => keepsOnce_commit inv
  unfold sweepOutbox
  refine Safe.bind ((safe_aside (i := .sweep tx) (fun _ => trivial) fun t inv _ => ?_).mono fun began t _ => ?_)
  · simp only [outboundExec]
    split
    · exact keepsOnce_sweep inv
    · exact inv.same
  · cases began with
    | error e => exact trivial
    | ok _ =>
      refine Safe.bind (Safe.attempt (within'.mono fun swept u _ => ?_))
      cases swept with
      | ok _ => exact trivial
      | error e => exact Safe.bind (Safe.bind (Safe.attempt (safe_aside (fun _ => trivial) fun t inv _ => keepsOnce_sweep inv)))

/-- Every job keeps the protocol wherever it starts. -/
theorem safe_recordedJob {i : OutboundName} {p : OutboundHandler Unit} {w : OutboundWorld} (may : recordedFlow.job i p)
    (idle : onceIdle i w) : Safe recordedFlow onceProtocol i (fun _ => onceIdle i) p w := by
  cases may with
  | task c wa finalAttempt _ answers => exact SettledBut.safe_handleOutboundSend answers idle
  | deliver c wa finalAttempt may => exact may.elim
  | disconnect c =>
    exact Safe.bind (Safe.bind (Safe.attempt (SettledBut.safe_session idle fun _ _ => sessionStep_close)))
  | recover c =>
    refine Safe.bind (Safe.bind (Safe.attempt (SettledBut.safe idle (fun t _ inv _ before => keepsOnce_finish inv before) ?_)))
    exact fun _ _ done => done
  | sweep tx now publisher => exact safe_sweepOutbox_once
  | insert n row =>
    refine safe_aside (fun _ => trivial) fun t inv _ => ?_
    simp only [outboundExec]
    split
    · rename_i w' inserted
      exact keepsOnce_insert inv inserted
    · exact inv.same
  | rollback n tx => exact safe_aside (fun _ => trivial) fun t inv _ => keepsOnce_sweep inv
  | loseConnection n c => exact safe_aside (fun _ => trivial) fun t inv empty => keepsOnce_lost inv empty

/-- As long as every accepted send is answered and the write that records it comes through, WhatsApp accepts a row at most
once, and a row it has accepted is not handed to the sender again. -/
theorem accepted_once {w : OutboundWorld} {a b : Crew outboundStore OutboundName OutboundWorld} (unsent : w.sends = [])
    (quiet : w.tasks = []) (reach : recordedFlow.Reach ⟨w, []⟩ a) (later : recordedFlow.Reach a b) (id : String) :
    (acceptedIDs b.state).count id ≤ 1 ∧ (id ∈ acceptedIDs a.state → sendsOf id b.state = sendsOf id a.state) := by
  have none' : acceptedIDs w = [] := by
    unfold acceptedIDs
    rw [unsent]
    rfl
  have start : AtMostOnce w := by
    refine ⟨?_, fun id accepted => ?_, fun c running => ?_⟩
    · rw [none']
      exact List.nodup_nil
    · rw [none'] at accepted
      cases accepted
    · rw [quiet] at running
      cases running
  have idle : ∀ i, onceIdle i w := by
    intro i
    cases i with
    | call c =>
      intro row _ _ accepted
      rw [none'] at accepted
      cases accepted
    | sweep tx => trivial
    | writer n => trivial
    | server n => trivial
    | observer => trivial
  have safe : ∀ i p s, recordedFlow.job i p → onceProtocol.inv s → onceProtocol.idle i s →
      Safe recordedFlow onceProtocol i (fun _ => onceProtocol.idle i) p s := fun i p s may _ idle => safe_recordedJob may idle
  have inv := Protocol.invariant safe (reach.trans later) start idle
  have outside : ∀ p, ¬ recordedFlow.job .observer p := fun p may => nomatch may
  have unrepeated : Unrepeated a.state b.state :=
    Protocol.observed Protocol.promise_idle safe reach later start idle outside
  exact ⟨List.nodup_iff_count_le_one.1 inv.once id, fun accepted => (unrepeated id accepted).2⟩

/-- The task of the invoice, in its first or a later attempt. -/
def invoiceTask (attempt : Nat) : OutboundHandler Unit := handleOutboundSend ⟨attempt, "m1"⟩ (some accepting) false

/-- A conversation with the invoice only. -/
def invoiced : OutboundWorld := conversationOf [invoice] (by decide)

/-- Two attempts at the invoice, the first of which is recorded. -/
theorem accepted_once_recorded :
    ∃ a b : Crew outboundStore OutboundName OutboundWorld, recordedFlow.Reach ⟨invoiced, []⟩ a ∧ recordedFlow.Reach a b ∧
      acceptedIDs a.state = ["m1"] ∧ (acceptedIDs b.state).count "m1" ≤ 1 ∧ sendsOf "m1" b.state = sendsOf "m1" a.state := by
  have answers : Answers (some accepting) := by
    rintro sender same m request _
    cases same
    exact ⟨_, rfl⟩
  have first := recordedFlow.reach_job (i := .call ⟨0, "m1"⟩) (s := invoiced) (.task ⟨0, "m1"⟩ (some accepting) false trivial answers)
    (by decide +kernel)
  have second := recordedFlow.reach_job (i := .call ⟨1, "m1"⟩) (.task ⟨1, "m1"⟩ (some accepting) false trivial answers)
    (by decide +kernel : recordedFlow.Follows (invoiceTask 1) ((invoiceTask 0).run outboundExec invoiced).2)
  have accepted : acceptedIDs ((invoiceTask 0).run outboundExec invoiced).2 = ["m1"] := by decide +kernel
  have mem : "m1" ∈ acceptedIDs ((invoiceTask 0).run outboundExec invoiced).2 := by
    rw [accepted]
    exact List.mem_singleton_self _
  obtain ⟨once, unrepeated⟩ := accepted_once rfl rfl first second "m1"
  exact ⟨_, _, first, second, accepted, once, unrepeated mem⟩

/-- The invoice is sent, and is about to be recorded. -/
def invoiceSent : OutboundHandler Unit × OutboundWorld := (invoiceTask 0).steps outboundExec 6 invoiced

/-- The write fails, and the attempt ends. -/
def unrecorded : OutboundHandler Unit × OutboundWorld := invoiceSent.1.failing.steps outboundExec 20 invoiceSent.2

/-- Two minutes later the sweep finds the row pending and publishes it again. -/
def republished : OutboundHandler Unit × OutboundWorld := (sweepOutbox "tx" 200000 true).steps outboundExec 20 unrecorded.2

/-- When the write after a send fails, the row is pending still; the sweep publishes it, and it is sent again. -/
theorem accepted_twice :
    ¬ ∀ c : Crew outboundStore OutboundName OutboundWorld, (outboundFlow tasksAndSweeps).Reach ⟨invoiced, []⟩ c →
      (acceptedIDs c.state).count "m1" ≤ 1 := by
  intro once
  have spawned : (outboundFlow tasksAndSweeps).Reach ⟨invoiced, []⟩ ⟨invoiced, [] ++ (.call ⟨0, "m1"⟩, invoiceTask 0) :: []⟩ :=
    .single (.spawn (.task ⟨0, "m1"⟩ (some accepting) false trivial trivial) List.not_mem_nil)
  have sent := spawned.trans ((outboundFlow tasksAndSweeps).reach_steps 6 [] [] (by decide +kernel))
  have failed := sent.trans ((outboundFlow tasksAndSweeps).reach_fail [] [] (by decide +kernel))
  have ended := failed.trans ((outboundFlow tasksAndSweeps).reach_steps 20 [] [] (by decide +kernel))
  have sweeps := ended.tail (.spawn (.sweep "tx" 200000 true trivial) (by decide))
  have published := sweeps.trans ((outboundFlow tasksAndSweeps).reach_steps 20 [] [(.call ⟨0, "m1"⟩, unrecorded.1)] (by decide +kernel))
  have again := published.tail (.spawn (.task ⟨1, "m1"⟩ (some accepting) false trivial trivial) (by decide))
  have twice := again.trans ((outboundFlow tasksAndSweeps).reach_steps 20 []
    [(.sweep "tx", republished.1), (.call ⟨0, "m1"⟩, unrecorded.1)] (by decide +kernel))
  exact absurd (once _ twice) (by decide +kernel)

end NovoApex.Outbound
