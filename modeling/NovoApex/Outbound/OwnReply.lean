import NovoApex.Outbound.OneReply

/-!
# The reply's own delivery

What the delivery that the vendor's request makes knows at each of its statements, and
what its result tells: without an error the row is sent; with one it is not accepted and
will not be. A delivery beside it may have had the row accepted and recorded before the
request has the lock: then the row is not in the backlog.
-/

namespace NovoApex.Outbound
set_option autoImplicit false
open Lib Program Db Workers

/-- The reply can be loaded, and waits or is sent. -/
def Posted (q : ReplyCase) (seq : Int) (w : OutboundWorld) : Prop :=
  ∃ row ∈ w.messages.rows, row.id = q.id ∧ row.seq = seq ∧ (joined w row).isSome = true ∧ (row.status = .pending ∨ row.status = .sent)

/-- Where only its own delivery has the reply accepted, nobody has yet. -/
def Unaccepted (q : ReplyCase) (w : OutboundWorld) : Prop := q.course = .alone → acceptances q.id w = 0

/-- The reply is not accepted and will not be. -/
def Undelivered (q : ReplyCase) (w : OutboundWorld) : Prop := acceptances q.id w = 0 ∧ (q.course = .alone ∨ Quiet q w)

/-- What the result of the delivery tells. -/
def Outcome (q : ReplyCase) : Except OutboundErr Unit → OutboundWorld → Prop
  | .ok _, w => ∃ row ∈ w.messages.rows, row.id = q.id ∧ row.status = .sent
  | .error _, w => Undelivered q w

/-- Before the reply is sent. -/
structure Opening (q : ReplyCase) (conversation : String) (seq : Int) (w : OutboundWorld) : Prop where
  own : conversation = q.conversation
  posted : Posted q seq w
  unaccepted : Unaccepted q w

/-- After the last send. -/
structure Leaving (q : ReplyCase) (r : Except OutboundErr Unit) (w : OutboundWorld) : Prop where
  unsent : Unsent q.id q.call w
  outcome : Outcome q r w

/-- The rest of the backlog: the reply is listed and still to be sent, or its outcome is known. -/
structure Mine (q : ReplyCase) (on : Option OutboundCall) (ownErr : Option OutboundErr) (ms : List QueuedMessage) (w : OutboundWorld) : Prop where
  mine : on = some q.call
  nodup : (ms.map QueuedMessage.id).Nodup
  waits : q.id ∈ ms.map QueuedMessage.id → ownErr = none ∧ Lists q.id q.call w ∧ acceptances q.id w = 0 ∧
    ∃ row ∈ w.messages.rows, row.id = q.id
  done : q.id ∉ ms.map QueuedMessage.id → Leaving q (deliverResult (.ok ownErr)) w

/-- The first message has been handed to the sender, and the reply was accepted so many times. -/
structure Handed (q : ReplyCase) (n : Nat) (on : Option OutboundCall) (ownErr : Option OutboundErr) (m : QueuedMessage)
    (rest : List QueuedMessage) (w : OutboundWorld) : Prop where
  mine : on = some q.call
  nodup : ((m :: rest).map QueuedMessage.id).Nodup
  own : m.id = q.id → ownErr = none ∧ Lists q.id q.call w ∧ acceptances q.id w = n ∧ ∃ row ∈ w.messages.rows, row.id = q.id
  other : m.id ≠ q.id → Mine q on ownErr rest w

section Knowledge

variable {q : ReplyCase} {conversation : String} {seq : Int} {on : Option OutboundCall} {ownErr : Option OutboundErr} {m : QueuedMessage}
  {rest : List QueuedMessage} {r : Except OutboundErr Unit} {w w' : OutboundWorld}

theorem joined_isSome {row : OutboundRow} : (joined w row).isSome = (row.businessID.bind w.businesses.find?).isSome := by
  unfold joined
  exact Option.isSome_map

theorem Own.placed (rely : Own q w w') (h : ∃ row ∈ w.messages.rows, row.id = q.id) : ∃ row ∈ w'.messages.rows, row.id = q.id := by
  obtain ⟨row, mem, named⟩ := h
  obtain ⟨row', mem', named', -⟩ := rely.rows row mem named
  exact ⟨row', mem', named'⟩

theorem Posted.relies (h : Posted q seq w) (rely : Own q w w') : Posted q seq w' := by
  obtain ⟨row, mem, named, inPlace, joins, status⟩ := h
  obtain ⟨row', mem', named', business, -, seq', status'⟩ := rely.rows row mem named
  refine ⟨row', mem', named', seq'.trans inPlace, ?_, ?_⟩
  · rw [joined_isSome, business, rely.businesses, ← joined_isSome]
    exact joins
  · rcases status' with same | ⟨-, sent⟩
    · exact same ▸ status
    · exact .inr sent

theorem Unaccepted.relies (h : Unaccepted q w) (rely : Own q w w') : Unaccepted q w' :=
  fun course => (rely.alone course).trans (h course)

theorem Undelivered.relies (h : Undelivered q w) (rely : Own q w w') : Undelivered q w' := by
  obtain ⟨refused, alone | quiet⟩ := h
  · exact ⟨(rely.alone alone).trans refused, .inl alone⟩
  · obtain ⟨same, quiet⟩ := rely.quiet quiet
    exact ⟨same.trans refused, .inr quiet⟩

theorem Outcome.relies (h : Outcome q r w) (rely : Own q w w') : Outcome q r w' := by
  cases r with
  | error e => exact Undelivered.relies h rely
  | ok _ =>
    obtain ⟨row, mem, named, isSent⟩ := h
    obtain ⟨row', mem', named', -, -, -, same | ⟨isPending, -⟩⟩ := rely.rows row mem named
    · exact ⟨row', mem', named', same.trans isSent⟩
    · rw [isSent] at isPending
      cases isPending

theorem Opening.relies (h : Opening q conversation seq w) (rely : Own q w w') : Opening q conversation seq w' :=
  ⟨h.own, h.posted.relies rely, h.unaccepted.relies rely⟩

theorem Leaving.relies (h : Leaving q r w) (rely : replyRely q (.call q.call) w w') : Leaving q r w' :=
  ⟨h.unsent.relies rely.1, h.outcome.relies (rely.2 rfl)⟩

theorem Mine.relies (h : Mine q on ownErr rest w) (rely : replyRely q (.call q.call) w w') : Mine q on ownErr rest w' := by
  refine ⟨h.mine, h.nodup, fun mem => ?_, fun absent => (h.done absent).relies rely⟩
  obtain ⟨clean, listed, refused, placed⟩ := h.waits mem
  exact ⟨clean, rely.1.lists.2 listed, (rely.1.accepts listed).trans refused, (rely.2 rfl).placed placed⟩

theorem Handed.relies {n : Nat} (h : Handed q n on ownErr m rest w) (rely : replyRely q (.call q.call) w w') :
    Handed q n on ownErr m rest w' := by
  refine ⟨h.mine, h.nodup, fun own => ?_, fun other => (h.other other).relies rely⟩
  obtain ⟨clean, listed, accepted, placed⟩ := h.own own
  exact ⟨clean, rely.1.lists.2 listed, (rely.1.accepts listed).trans accepted, (rely.2 rfl).placed placed⟩

/-- The own connection stays as it is. -/
theorem Own.backlog (rely : Own q w w') : backlogOf q.call w' = backlogOf q.call w := by
  unfold backlogOf openConnection
  rw [rely.connection]

theorem Opening.session (h : Opening q conversation seq w) (step : SessionStep q.call w w') : Opening q conversation seq w' := by
  obtain ⟨row, mem, named, inPlace, joins, status⟩ := h.posted
  refine ⟨h.own, ⟨row, step.messages ▸ mem, named, inPlace, ?_, status⟩, fun course => (acceptances_congr step.sends).trans (h.unaccepted course)⟩
  rw [joined_isSome, step.businesses, ← joined_isSome]
  exact joins

theorem Outcome.session (h : Outcome q r w) (step : SessionStep q.call w w') : Outcome q r w' := by
  cases r with
  | ok _ =>
    obtain ⟨row, mem, known⟩ := h
    exact ⟨row, step.messages ▸ mem, known⟩
  | error e =>
    refine ⟨(acceptances_congr step.sends).trans h.1, h.2.imp_right fun quiet => ⟨fun d other listed => ?_, ?_⟩⟩
    · exact quiet.1 d other ((lists_congr (step.others d other).1).1 listed)
    · rw [step.messages]
      exact quiet.2

theorem Aside.placed (aside : Aside q w w') (h : ∃ row ∈ w.messages.rows, row.id = q.id) : ∃ row ∈ w'.messages.rows, row.id = q.id := by
  obtain ⟨row, mem, named⟩ := h
  exact ⟨row, (aside.rows row named).2 mem, named⟩

theorem Mine.carried (h : Mine q on ownErr rest w) (aside : Aside q w w') : Mine q on ownErr rest w' := by
  refine ⟨h.mine, h.nodup, fun mem => ?_, fun absent => ?_⟩
  · obtain ⟨clean, listed, refused, placed⟩ := h.waits mem
    exact ⟨clean, (aside.lists _).2 listed, aside.accepts.trans refused, aside.placed placed⟩
  · obtain ⟨unsent, outcome⟩ := h.done absent
    refine ⟨fun listed => aside.accepts.trans (unsent ((aside.lists _).1 listed)), ?_⟩
    cases ownErr with
    | none =>
      obtain ⟨row, mem, named, isSent⟩ := outcome
      exact ⟨row, (aside.rows row named).2 mem, named, isSent⟩
    | some e =>
      refine ⟨aside.accepts.trans outcome.1, outcome.2.imp_right fun quiet => ⟨fun d other listed => ?_, fun row mem named => ?_⟩⟩
      · exact quiet.1 d other ((aside.lists d).1 listed)
      · exact quiet.2 row ((aside.rows row named).1 mem) named

theorem Mine.tail (h : Mine q on ownErr (m :: rest) w) (other : m.id ≠ q.id) : Mine q on ownErr rest w := by
  have nodup := h.nodup
  rw [List.map_cons, List.nodup_cons] at nodup
  refine ⟨h.mine, nodup.2, fun mem => h.waits (List.mem_cons_of_mem _ mem), fun absent => h.done fun mem => ?_⟩
  rcases List.mem_cons.1 mem with same | mem
  · exact other same.symm
  · exact absent mem

/-- The first message has not been handed over. -/
theorem Mine.unhanded (h : Mine q on ownErr (m :: rest) w) : Handed q 0 on ownErr m rest w :=
  ⟨h.mine, h.nodup, fun own => h.waits (by rw [List.map_cons, own]; exact List.mem_cons_self), fun other => h.tail other⟩

theorem Handed.absent {n : Nat} (h : Handed q n on ownErr m rest w) (own : m.id = q.id) : q.id ∉ rest.map QueuedMessage.id := by
  have nodup := h.nodup
  rw [List.map_cons, List.nodup_cons, own] at nodup
  exact nodup.1

/-- The outcome of the reply is known. -/
theorem Handed.settled {n : Nat} {e : Option OutboundErr} {t : OutboundWorld} (h : Handed q n on ownErr m rest w) (own : m.id = q.id)
    (leaving : Leaving q (deliverResult (.ok e)) t) : Mine q on e rest t := by
  have nodup := h.nodup
  rw [List.map_cons, List.nodup_cons] at nodup
  exact ⟨h.mine, nodup.2, fun mem => absurd mem (h.absent own), fun _ => leaving⟩

end Knowledge

/-! ## Statements -/

section Statements

variable {q : ReplyCase} {conversation : String} {seq : Int} {on : Option OutboundCall} {ownErr : Option OutboundErr} {m : QueuedMessage}
  {rest : List QueuedMessage} {w : OutboundWorld}

/-- A statement before the sends: only where the delivery is alone may it fail. -/
theorem safe_leading {op : OutboundStmt} {A : op.Reply → OutboundWorld → Prop} {B : OutboundWorld → Prop} (leads : leadsUp q.call op = true)
    (executed : ∀ t, replyRely q (.call q.call) w t → OneReply q t → outboundProceeds t op →
      KeepsReply q (.call q.call) t (outboundExec op t).2 ∧ (∃ a, (outboundExec op t).1 = .ok a ∧ A a (outboundExec op t).2) ∧
        (q.course = .alone → B (outboundExec op t).2))
    (failed : ∀ t, replyRely q (.call q.call) w t → q.course = .alone → B t) :
    Safe (replyCourse q) (replyProtocol q) (.call q.call) (Replied A B) (call (I := outboundStore) op) w := by
  have alone : (q.course = .steady → leadsUp q.call op = false) → q.course = .alone := by
    intro steady
    cases course : q.course with
    | steady =>
      rw [steady course] at leads
      cases leads
    | alone => rfl
  refine safe_reply (fun t rely inv may _ => ?_) (fun t rely _ _ _ steady => failed t rely (alone fun course => (steady course).1))
    fun _ _ _ other => absurd rfl other
  obtain ⟨keeps, ⟨a, reply, known⟩, unreplied⟩ := executed t rely inv may
  refine ⟨keeps, ?_, fun _ steady => unreplied (alone steady)⟩
  rw [reply]
  exact known

/-- A statement of the delivery on its session after the sends. -/
theorem Leaving.safe_session {op : OutboundStmt} {r : Except OutboundErr Unit} (leaving : Leaving q r w)
    (runs : ∀ t, OneReply q t → Tidy q q.call t (outboundExec op t).2) :
    Safe (replyCourse q) (replyProtocol q) (.call q.call) (fun _ => Leaving q r) (call (I := outboundStore) op) w := by
  refine safe_reply (fun t rely inv _ _ => ?_) (fun t rely _ _ _ _ => leaving.relies rely) fun _ _ _ other => absurd rfl other
  have leaving := leaving.relies rely
  have step := runs t inv
  obtain ⟨keeps, unsent⟩ := step.keepsReply inv leaving.unsent
  have after : Leaving q r (outboundExec op t).2 := ⟨unsent, leaving.outcome.session step.toSessionStep⟩
  exact ⟨keeps, after, fun _ _ => after⟩

theorem unlisted_of_backlog {c : OutboundCall} {id : String} (empty : (backlogOf c w).getD [] = []) : ¬ Lists id c w := by
  unfold Lists
  rw [empty]
  exact List.not_mem_nil

theorem unsent_of_backlog {c : OutboundCall} {id : String} (empty : (backlogOf c w).getD [] = []) : Unsent id c w :=
  fun listed => absurd listed (unlisted_of_backlog empty)

theorem Opening.safe_acquire (opening : Opening q conversation seq w) (unconnected : w.connections.find? q.call = none) :
    Safe (replyCourse q) (replyProtocol q) (.call q.call)
      (Replied (fun _ t => Opening q conversation seq t ∧ backlogOf q.call t = some []) fun t => ∀ e, Outcome q (.error e) t)
      (call (I := outboundStore) (.acquire q.call)) w := by
  refine safe_leading (by simp [leadsUp]) (fun t rely inv _ => ?_) fun t rely alone _ =>
    ⟨(opening.relies (rely.2 rfl)).unaccepted alone, .inl alone⟩
  have opening := opening.relies (rely.2 rfl)
  have fresh : t.connections.find? q.call = none := ((rely.2 rfl).connection).trans unconnected
  have unlisted : Unsent q.id q.call t := by
    refine unsent_of_backlog ?_
    unfold backlogOf openConnection
    rw [fresh]
    rfl
  have keeps := (tidy_acquire (c := q.call) inv).keepsReply inv unlisted
  have step := (tidy_acquire (c := q.call) inv).toSessionStep
  simp only [outboundExec] at keeps step ⊢
  cases inserted : t.connections.insert ⟨q.call, false, []⟩ with
  | none =>
    obtain ⟨x, mem, named⟩ := Table.insert_eq_none.1 inserted
    rw [Table.find?_eq_some.2 ⟨mem, named⟩] at fresh
    cases fresh
  | some connections =>
    rw [inserted] at keeps step
    have opening := opening.session step
    exact ⟨keeps.1, ⟨(), rfl, opening, backlogOf_acquired inserted⟩, fun alone _ => ⟨opening.unaccepted alone, .inl alone⟩⟩

/-- A statement on the own connection, which is open. -/
theorem onConnection_open {α : Type} {ids : List String} {c : OutboundCall} {f : Except OutboundErr α × OutboundWorld}
    (read : backlogOf c w = some ids) : onConnection (some c) w f = f := by
  rcases onConnection_cases (some c) f with ⟨runs, -⟩ | ⟨-, d, same, closed⟩
  · exact runs
  · cases same
    rw [read] at closed
    cases closed

theorem Opening.safe_lock (opening : Opening q conversation seq w) (connected : backlogOf q.call w = some []) :
    Safe (replyCourse q) (replyProtocol q) (.call q.call)
      (Replied (fun _ t => Opening q conversation seq t ∧ backlogOf q.call t = some [] ∧ t.locks q.key = some q.call)
        fun t => ∀ e, Leaving q (.error e) t)
      (call (I := outboundStore) (.lockConversation q.call (lockKey conversation))) w := by
  refine safe_leading (by simp [leadsUp]) (fun t rely inv free => ?_) fun t rely alone _ => ?_
  · have opening := opening.relies (rely.2 rfl)
    have read : backlogOf q.call t = some [] := (rely.2 rfl).backlog.trans connected
    have unsent : Unsent q.id q.call t := unsent_of_backlog (by rw [read]; rfl)
    have tidy := tidy_lock (c := q.call) inv free
    have keeps := tidy.keepsReply inv unsent
    have after := opening.session tidy.toSessionStep
    simp only [outboundExec] at keeps after ⊢
    rw [onConnection_open read] at keeps after ⊢
    refine ⟨keeps.1, ⟨(), rfl, after, read, ?_⟩, fun alone _ => ⟨keeps.2, after.unaccepted alone, .inl alone⟩⟩
    rw [opening.own]
    exact Function.update_self ..
  · have read : backlogOf q.call t = some [] := (rely.2 rfl).backlog.trans connected
    exact ⟨unsent_of_backlog (by rw [read]; rfl), (opening.relies (rely.2 rfl)).unaccepted alone, .inl alone⟩

theorem Opening.safe_loadBacklog (opening : Opening q conversation seq w) (connected : backlogOf q.call w = some [])
    (locked : w.locks q.key = some q.call) :
    Safe (replyCourse q) (replyProtocol q) (.call q.call)
      (Replied (fun backlog => Mine q (some q.call) none backlog) fun t => ∀ e, Leaving q (.error e) t)
      (call (I := outboundStore) (.loadBacklog q.call conversation seq)) w := by
  refine safe_leading (by simp [leadsUp]) (fun t rely inv _ => ?_) fun t rely alone _ => ?_
  · have opening := opening.relies (rely.2 rfl)
    have read : backlogOf q.call t = some [] := (rely.2 rfl).backlog.trans connected
    have held : LockHeld q.call conversation t := by
      intro _ _
      rw [opening.own]
      exact (rely.2 rfl).locks _ locked
    have step := sessionStep_loadBacklog (c := q.call) (w := t) conversation seq
    rcases loadBacklog_reply seq inv (unsent_of_backlog (by rw [read]; rfl)) held with ⟨-, closed⟩ | ⟨reply, reads, keeps, unsent⟩
    · rw [read] at closed
      cases closed
    · have after := opening.session step
      refine ⟨keeps, ⟨_, reply, ⟨rfl, loadBacklog_nodup, fun mem => ?_, fun absent => ?_⟩⟩, fun alone _ =>
        ⟨unsent, after.unaccepted alone, .inl alone⟩⟩
      · have listed : Lists q.id q.call (outboundExec (.loadBacklog q.call conversation seq) t).2 := by
          unfold Lists
          rw [reads]
          exact mem
        obtain ⟨row, mem, named, -⟩ := after.posted
        exact ⟨rfl, listed, unsent listed, row, mem, named⟩
      · obtain ⟨row, mem, named, inPlace, joins, isPending | isSent⟩ := opening.posted
        · obtain ⟨queued, scanned⟩ := Option.isSome_iff_exists.1 joins
          refine absurd (List.mem_map.2 ⟨queued, mem_loadBacklog.2 ⟨row, mem, ?_, isPending, inPlace.le, scanned⟩, ?_⟩) absent
          · rw [opening.own]
            exact (inv.placed row mem named).1
          · exact (joined_eq scanned).1.trans named
        · exact ⟨unsent, row, step.messages ▸ mem, named, isSent⟩
  · have read : backlogOf q.call t = some [] := (rely.2 rfl).backlog.trans connected
    exact ⟨unsent_of_backlog (by rw [read]; rfl), (opening.relies (rely.2 rfl)).unaccepted alone, .inl alone⟩

theorem aside_send {s : Sending} (refused : ¬ (s.accepted = true ∧ s.id = q.id)) : Aside q w { w with sends := w.sends ++ [s] } :=
  ⟨fun _ => Iff.rfl, by rw [acceptances_send, if_neg refused, Nat.add_zero], fun _ _ => Iff.rfl⟩

theorem Handed.carried {n : Nat} {t : OutboundWorld} (h : Handed q n on ownErr m rest w) (aside : Aside q w t) : Handed q n on ownErr m rest t := by
  refine ⟨h.mine, h.nodup, fun own => ?_, fun other => (h.other other).carried aside⟩
  obtain ⟨clean, listed, accepted, placed⟩ := h.own own
  exact ⟨clean, (aside.lists _).2 listed, aside.accepts.trans accepted, aside.placed placed⟩

theorem Mine.safe_send {request : SendRequest} {outcome : SendOutcome} (todo : Mine q on ownErr (m :: rest) w)
    (answers : m.id = q.id → (outcome.accepted = true ↔ ∃ r, outcome.answer = .ok r)) :
    Safe (replyCourse q) (replyProtocol q) (.call q.call) (Replied (fun _ => Handed q 1 on ownErr m rest) (Handed q 0 on ownErr m rest))
      (call (I := outboundStore) (.send m request outcome)) w := by
  refine safe_reply (fun t rely inv _ _ => ?_) (fun _ _ _ may _ _ => may.elim) fun _ _ _ other => absurd rfl other
  have todo := todo.relies rely
  simp only [outboundExec]
  by_cases named : m.id = q.id
  · obtain ⟨clean, listed, refused, placed⟩ := todo.waits (by rw [List.map_cons, named]; exact List.mem_cons_self)
    cases answer : outcome.answer with
    | error e =>
      have aside : ¬ (outcome.accepted = true ∧ m.id = q.id) := by
        rintro ⟨accepted, -⟩
        obtain ⟨r, ok⟩ := (answers named).1 accepted
        rw [answer] at ok
        cases ok
      exact ⟨keepsReply_send inv aside, todo.unhanded.carried (aside_send aside), fun may => may.elim⟩
    | ok response =>
      have accepted : outcome.accepted = true := (answers named).2 ⟨response, answer⟩
      obtain ⟨keeps, one⟩ := keepsReply_accepted (s := ⟨m.id, m.seq, m.conversation, request, outcome.accepted⟩) inv listed
        refused accepted named fun _ => rfl
      exact ⟨keeps, ⟨todo.mine, todo.nodup, fun _ => ⟨clean, listed, one, placed⟩, fun other => absurd named other⟩, fun may => may.elim⟩
  · have aside : ¬ (outcome.accepted = true ∧ m.id = q.id) := fun both => named both.2
    have after : Handed q 0 on ownErr m rest { t with sends := t.sends ++ [⟨m.id, m.seq, m.conversation, request, outcome.accepted⟩] } :=
      todo.unhanded.carried (aside_send aside)
    refine ⟨keepsReply_send inv aside, ?_, fun may => may.elim⟩
    cases outcome.answer with
    | ok response => exact ⟨after.mine, after.nodup, fun own => absurd own named, after.other⟩
    | error e => exact after

theorem Handed.safe_markSent {whatsappMessageID : Option String} {response : MetaResponse} (handed : Handed q 1 on ownErr m rest w) :
    Safe (replyCourse q) (replyProtocol q) (.call q.call) (fun _ => Mine q on ownErr rest)
      (call (I := outboundStore) (.markSent on m.id whatsappMessageID response)) w := by
  have mine := handed.mine
  subst mine
  by_cases named : m.id = q.id
  · refine safe_reply (fun t rely inv _ _ => ?_) (fun t _ _ _ comes _ => ?_) fun _ _ _ other => absurd rfl other
    · have handed := handed.relies rely
      obtain ⟨rfl, listed, one, row, mem, placed⟩ := handed.own named
      simp only [outboundExec]
      rw [named, onConnection_listed listed]
      have after : Leaving q (.ok ()) (recorded (some q.call) q.id (setOutbound q.id (.markSent whatsappMessageID response)
          (OutboundRow.markSent_id whatsappMessageID response) t)) := by
        refine ⟨fun again => absurd again (unlisted_recorded inv), row.markSent whatsappMessageID response, ?_, placed, rfl⟩
        rw [recorded_messages]
        exact mem_setOutbound.2 (.inr ⟨row, mem, placed, rfl⟩)
      exact ⟨keepsReply_markSent inv listed one, handed.settled named after, fun _ _ => handed.settled named after⟩
    · simp only [recordsRow, decide_eq_false_iff_not] at comes
      exact absurd named comes
  · refine safe_reply (fun t rely inv _ _ => ?_) (fun t rely _ _ _ _ => (handed.relies rely).other named) fun _ _ _ other => absurd rfl other
    obtain ⟨keeps, aside⟩ := keepsReply_onConnection (c := q.call) (OutboundRow.markSent whatsappMessageID response)
      (OutboundRow.markSent_id whatsappMessageID response) (.inr rfl) named inv
    have after := ((handed.relies rely).other named).carried aside
    exact ⟨keeps, after, fun _ _ => after⟩

/-- The reply is refused and its failure recorded, or it is not recorded and nobody else has the reply accepted. -/
theorem Handed.safe_markFailed {error : String} (handed : Handed q 0 on ownErr m rest w) (named : m.id = q.id) :
    Safe (replyCourse q) (replyProtocol q) (.call q.call) (fun _ t => ∀ e, Mine q on (some e) rest t)
      (call (I := outboundStore) (.markFailed on m.id error)) w := by
  have mine := handed.mine
  subst mine
  refine safe_reply (fun t rely inv _ _ => ?_) (fun t rely _ _ _ comes => ?_) fun _ _ _ other => absurd rfl other
  · have handed := handed.relies rely
    obtain ⟨-, listed, refused, -⟩ := handed.own named
    obtain ⟨keeps, quiet⟩ := keepsReply_markFailed error inv listed refused
    simp only [outboundExec]
    rw [named, onConnection_listed listed]
    have after : ∀ e, Mine q (some q.call) (some e) rest
        (recorded (some q.call) q.id (setOutbound q.id (.markFailed error) (fun _ => rfl) t)) := fun e =>
      handed.settled named ⟨fun again => absurd again (unlisted_recorded inv), (acceptances_congr recorded_sends).trans refused, .inr quiet⟩
    exact ⟨keeps, after, fun _ _ => after⟩
  · have handed := handed.relies rely
    obtain ⟨-, -, refused, -⟩ := handed.own named
    cases course : q.course with
    | steady =>
      have comes := (comes course).2
      simp only [recordsFailure, decide_eq_false_iff_not] at comes
      exact absurd named comes
    | alone => exact fun e => handed.settled named ⟨fun _ => refused, refused, .inl course⟩

/-- What the delivery of the reply knows where. -/
def ownOutline (q : ReplyCase) {wa : Option Sender} (answers : AnswersFor q.id wa) :
    ResultOutline (replyCourse q) (replyProtocol q) q.call wa q.call.row true (Outcome q) where
  ready conversation seq w := Opening q conversation seq w ∧ w.connections.find? q.call = none
  acquired conversation seq w := Opening q conversation seq w ∧ backlogOf q.call w = some []
  locked conversation seq w := Opening q conversation seq w ∧ backlogOf q.call w = some [] ∧ w.locks q.key = some q.call
  todo := Mine q
  sent := Handed q 1
  failed := Handed q 0
  leaving := Leaving q
  acquire _ _ _ ready := ready.1.safe_acquire ready.2
  lock _ _ _ acquired := acquired.1.safe_lock acquired.2
  load _ _ _ locked := locked.1.safe_loadBacklog locked.2.1 locked.2.2
  unsent _ _ _ _ _ _ todo := todo.unhanded
  send _ _ m _ request _ _ sends todo := by
    obtain ⟨sender, wa', rfl⟩ := sends
    exact todo.safe_send (answers sender wa' m request)
  markSent _ _ _ _ _ _ _ sent := sent.safe_markSent
  markFailed _ _ _ _ _ _ named _ failed := failed.safe_markFailed named
  skip _ _ m _ _ other failed _ := by
    have other : m.id ≠ q.call.row := fun named => other ⟨named, rfl⟩
    rw [if_neg other]
    exact failed.other other
  finish _ _ todo := by
    cases todo.mine
  leave _ _ todo := todo.done List.not_mem_nil
  unlock _ _ _ leaving := leaving.safe_session fun _ inv => tidy_unlock inv
  release _ _ leaving := (leaving.safe_session fun _ _ => tidy_close).mono fun _ _ after => after.outcome
  close _ _ leaving := (leaving.safe_session fun _ _ => tidy_close).mono fun _ _ after => after.outcome

/-- The delivery of the reply is safe, and its result tells what became of the row. -/
theorem Opening.safe_deliver {wa : Option Sender} (opening : Opening q q.conversation seq w) (unconnected : w.connections.find? q.call = none)
    (answers : AnswersFor q.id wa) :
    Safe (replyCourse q) (replyProtocol q) (.call q.call) (Outcome q) (deliver q.call wa q.call.row true) w := by
  have loaded : Safe (replyCourse q) (replyProtocol q) (.call q.call)
      (Replied (fun found t => ∃ m row, found = some m ∧ row ∈ t.messages.rows ∧ row.id = q.id ∧ joined t row = some m ∧
        OneReply q t ∧ (row.status = .pending ∨ row.status = .sent) ∧ Opening q q.conversation m.seq t ∧ t.connections.find? q.call = none)
        fun t => ∀ e, Outcome q (.error e) t)
      (call (I := outboundStore) (.loadMessage q.call.row)) w := by
    refine safe_leading (by simp [leadsUp]) (fun t rely inv _ => ?_) fun t rely alone _ =>
      ⟨(opening.relies (rely.2 rfl)).unaccepted alone, .inl alone⟩
    have opening := opening.relies (rely.2 rfl)
    obtain ⟨row, mem, named, inPlace, joins, status⟩ := opening.posted
    obtain ⟨m, scanned⟩ := Option.isSome_iff_exists.1 joins
    have found : loadMessage q.call.row t = some m := by
      unfold loadMessage
      rw [show t.messages.find? q.call.row = some row from Table.find?_eq_some.2 ⟨mem, named⟩]
      exact scanned
    have posted : Posted q m.seq t := ⟨row, mem, named, (joined_eq scanned).2.1.symm, joins, status⟩
    exact ⟨inv.same, ⟨_, rfl, m, row, found, mem, named, scanned, inv, status, ⟨rfl, posted, opening.unaccepted⟩,
      (rely.2 rfl).connection.trans unconnected⟩, fun alone _ => ⟨opening.unaccepted alone, .inl alone⟩⟩
  refine (ownOutline q answers).safe_deliver rfl (loaded.mono fun r t known => ?_)
  cases r with
  | error e => exact known
  | ok found =>
    obtain ⟨m, row, rfl, mem, named, scanned, inv, status, opening, unconnected⟩ := known
    obtain ⟨-, -, status', conversation⟩ := joined_eq scanned
    have conversing : m.conversation = some q.conversation := conversation.trans (inv.placed row mem named).1
    refine ⟨fun skips => ⟨row, mem, named, ?_⟩, fun _ => ⟨fun alone => ?_, fun conversation' same => ?_⟩⟩
    · rcases status with isPending | isSent
      · rw [skipOutbound, status', isPending] at skips
        cases skips
      · exact isSent
    · rw [conversing] at alone
      cases alone
    · obtain rfl : q.conversation = conversation' := Option.some.inj (conversing.symm.trans same)
      exact ⟨opening, unconnected⟩

end Statements

end NovoApex.Outbound
