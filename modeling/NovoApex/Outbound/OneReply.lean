import NovoApex.Outbound.AtMostOnce

/-!
# One reply among deliveries

What happens to one row, a vendor's reply, while its own delivery and deliveries of
other rows run. A call that lists the row in its backlog holds the conversation's lock;
as long as what the sender answers for the row is what happened to it, and the write
that records a send comes through, the row is pending until it is accepted, and sent
from then on. Its own delivery can tell by its result which it is, on either of two
courses: its statements before the send, and the write of its failure, come through; or
no other delivery has the row accepted.
-/

namespace NovoApex.Outbound
set_option autoImplicit false
open Lib Program Db Workers

/-- The two courses. -/
inductive Course where
  | steady | alone
  deriving DecidableEq

/-- The delivery of a reply: its call, whose row is the reply, the conversation, and the course it takes. -/
structure ReplyCase where
  call : OutboundCall
  conversation : String
  course : Course

namespace ReplyCase

def id (q : ReplyCase) : String := q.call.row

def key (q : ReplyCase) : String := lockKey q.conversation

end ReplyCase

/-- The row is in the backlog that a call has read and not recorded. -/
def Lists (id : String) (c : OutboundCall) (w : OutboundWorld) : Prop := id ∈ (backlogOf c w).getD []

instance (id : String) (c : OutboundCall) (w : OutboundWorld) : Decidable (Lists id c w) := inferInstanceAs (Decidable (_ ∈ _))

/-- How often WhatsApp has accepted a row. -/
def acceptances (id : String) (w : OutboundWorld) : Nat := (acceptedIDs w).count id

/-- The answer for a row tells whether it was accepted. -/
def AnswersFor (id : String) (wa : Option Sender) : Prop :=
  ∀ sender, wa = some sender → ∀ m request, m.id = id →
    ((sender m request).accepted = true ↔ ∃ r, (sender m request).answer = .ok r)

/-- Nothing is accepted for a row. -/
def RefusedBy (id : String) (wa : Option Sender) : Prop :=
  ∀ sender, wa = some sender → ∀ m request, m.id = id → (sender m request).accepted = false

/-- What runs beside the reply: deliveries of other rows, and the server that loses connections. -/
inductive BesideReply (q : ReplyCase) : OutboundName → OutboundHandler Unit → Prop where
  | deliver (c wa finalAttempt) (other : c.row ≠ q.id) (answers : AnswersFor q.id wa) (refused : q.course = .alone → RefusedBy q.id wa) :
      BesideReply q (.call c) (deliver c wa c.row finalAttempt)
  | loseConnection (n c) : BesideReply q (.server n) (call (I := outboundStore) (.loseConnection c))

/-- The write that records the send of a row. -/
def recordsRow (id : String) : OutboundStmt → Bool
  | .markSent _ i _ _ => decide (i = id)
  | _ => false

/-- The statements of a call before its sends. -/
def leadsUp (c : OutboundCall) : OutboundStmt → Bool
  | .loadMessage i => decide (i = c.row)
  | .acquire d => decide (d = c)
  | .lockConversation d _ => decide (d = c)
  | .loadBacklog d _ _ => decide (d = c)
  | _ => false

/-- The write of the failure of a row. -/
def recordsFailure (id : String) : OutboundStmt → Bool
  | .markFailed _ i _ => decide (i = id)
  | _ => false

/-- The connection of the reply is not lost, nor one whose call has the reply to send or to record. -/
def keepsReply (q : ReplyCase) (w : OutboundWorld) : OutboundStmt → Prop
  | .loseConnection c => c ≠ q.call ∧ ¬ Lists q.id c w
  | _ => True

instance (q : ReplyCase) (w : OutboundWorld) : DecidablePred (keepsReply q w)
  | .loseConnection _ => inferInstanceAs (Decidable (_ ∧ _))
  | .loadMessage .. | .acquire .. | .lockConversation .. | .loadBacklog .. | .unlockConversation .. | .release .. | .close ..
  | .send .. | .markSent .. | .markFailed .. | .insertOutbound .. | .begin .. | .lockSweep .. | .stranded .. | .newerSent ..
  | .markFailedStale .. | .commit .. | .rollback .. | .publishOutbound .. | .startTask .. | .finishTask .. => isTrue trivial

/-- A handler stops before a statement, but no other delivery between the send of the reply and its record. -/
def mayStop (q : ReplyCase) : OutboundStmt → Prop
  | .markSent on i _ _ => i = q.id → on = some q.call
  | _ => True

/-- The queue in the runs in which the reply is answered for as it is. -/
def replyCourse (q : ReplyCase) : Roster outboundStore OutboundName OutboundWorld where
  exec := outboundExec
  job := BesideReply q
  allow w op := outboundProceeds w op ∧ keepsReply q w op
  faults _ op := mayFail op ∧ recordsRow q.id op = false ∧
    (q.course = .steady → leadsUp q.call op = false ∧ recordsFailure q.id op = false)
  loses _ op := mayFail op ∧ (q.course = .steady → leadsUp q.call op = false)
  stops _ op := mayStop q op

/-! ## The protocol -/

/-- Where the row stands. -/
inductive RowState (id : String) (status : OutboundStatus) (w : OutboundWorld) : Prop where
  | pending (isPending : status = .pending) (known : acceptances id w = 0 ∨ ∃ c, Lists id c w)
  | sent (isSent : status = .sent) (accepted : acceptances id w = 1)
  | failed (isFailed : status = .failed) (refused : acceptances id w = 0) (unlisted : ∀ c, ¬ Lists id c w)

/-- The row is listed under the lock, accepted at most once, and its status says whether it is. -/
structure OneReply (q : ReplyCase) (w : OutboundWorld) : Prop where
  holder : ∀ c, Lists q.id c w → w.locks q.key = some c
  nodup : ∀ c ids, backlogOf c w = some ids → ids.Nodup
  once : acceptances q.id w ≤ 1
  placed : ∀ row ∈ w.messages.rows, row.id = q.id → row.conversation = some q.conversation ∧ RowState q.id row.status w

/-- What a call relies on: its listing, its locks and its connection stay, and a row it lists is not accepted. -/
structure Beside (id : String) (c : OutboundCall) (w w' : OutboundWorld) : Prop where
  lists : Lists id c w' ↔ Lists id c w
  accepts : Lists id c w → acceptances id w' = acceptances id w
  locks : ∀ k, w.locks k = some c → backlogOf c w' ≠ none → w'.locks k = some c
  closed : backlogOf c w = none → backlogOf c w' = none

/-- Nobody else has the row to send. -/
def Quiet (q : ReplyCase) (w : OutboundWorld) : Prop :=
  (∀ c, c ≠ q.call → ¬ Lists q.id c w) ∧ ∀ row ∈ w.messages.rows, row.id = q.id → row.status ≠ .pending

/-- What the delivery of the reply relies on besides. -/
structure Own (q : ReplyCase) (w w' : OutboundWorld) : Prop where
  businesses : w'.businesses = w.businesses
  connection : w'.connections.find? q.call = w.connections.find? q.call
  locks : ∀ k, w.locks k = some q.call → w'.locks k = some q.call
  rows : ∀ row ∈ w.messages.rows, row.id = q.id → ∃ row' ∈ w'.messages.rows, row'.id = q.id ∧ row'.businessID = row.businessID ∧
    row'.conversation = row.conversation ∧ row'.seq = row.seq ∧ (row'.status = row.status ∨ row.status = .pending ∧ row'.status = .sent)
  absent : (∀ row ∈ w.messages.rows, row.id ≠ q.id) → ∀ row ∈ w'.messages.rows, row.id ≠ q.id
  grows : acceptances q.id w ≤ acceptances q.id w'
  quiet : Quiet q w → acceptances q.id w' = acceptances q.id w ∧ Quiet q w'
  alone : q.course = .alone → acceptances q.id w' = acceptances q.id w

/-- What is left under the name of a delivery of another row. -/
def Unsent (id : String) (c : OutboundCall) (w : OutboundWorld) : Prop := Lists id c w → acceptances id w = 0

section Algebra

variable {q : ReplyCase} {id : String} {c : OutboundCall} {u v w w' : OutboundWorld}

theorem Beside.refl (id : String) (c : OutboundCall) (w : OutboundWorld) : Beside id c w w :=
  ⟨Iff.rfl, fun _ => rfl, fun _ held _ => held, fun closed => closed⟩

theorem Beside.trans (h : Beside id c u v) (h' : Beside id c v w) : Beside id c u w where
  lists := h'.lists.trans h.lists
  accepts listed := (h'.accepts (h.lists.2 listed)).trans (h.accepts listed)
  locks k held isOpen := h'.locks k (h.locks k held fun closed => isOpen (h'.closed closed)) isOpen
  closed closed := h'.closed (h.closed closed)

theorem Own.refl (q : ReplyCase) (w : OutboundWorld) : Own q w w where
  businesses := rfl
  connection := rfl
  locks _ held := held
  rows row mem own := ⟨row, mem, own, rfl, rfl, rfl, .inl rfl⟩
  absent none' := none'
  grows := le_rfl
  quiet known := ⟨rfl, known⟩
  alone _ := rfl

theorem Own.trans (h : Own q u v) (h' : Own q v w) : Own q u w where
  businesses := h'.businesses.trans h.businesses
  connection := h'.connection.trans h.connection
  locks k held := h'.locks k (h.locks k held)
  rows row mem own := by
    obtain ⟨row', mem', own', business, conversation, seq, status⟩ := h.rows row mem own
    obtain ⟨row'', mem'', own'', business', conversation', seq', status'⟩ := h'.rows row' mem' own'
    refine ⟨row'', mem'', own'', business'.trans business, conversation'.trans conversation, seq'.trans seq, ?_⟩
    rcases status with same | ⟨before, after⟩
    · rw [← same]
      exact status'
    · rcases status' with same' | ⟨before', -⟩
      · exact .inr ⟨before, same'.trans after⟩
      · rw [after] at before'
        cases before'
  absent none' := h'.absent (h.absent none')
  grows := h.grows.trans h'.grows
  quiet known := by
    obtain ⟨same, known⟩ := h.quiet known
    obtain ⟨same', known⟩ := h'.quiet known
    exact ⟨same'.trans same, known⟩
  alone course := (h'.alone course).trans (h.alone course)

/-- What each name relies on. -/
def replyRely (q : ReplyCase) : OutboundName → OutboundWorld → OutboundWorld → Prop
  | .call c, w, w' => Beside q.id c w w' ∧ (c = q.call → Own q w w')
  | _, _, _ => True

/-- What a name leaves behind. -/
def replyIdle (q : ReplyCase) : OutboundName → OutboundWorld → Prop
  | .call c, w => c ≠ q.call → Unsent q.id c w
  | _, _ => True

theorem Unsent.relies (h : Unsent id c w) (rely : Beside id c w w') : Unsent id c w' := by
  intro listed
  have before := rely.lists.1 listed
  rw [rely.accepts before, h before]

def replyProtocol (q : ReplyCase) : Protocol OutboundName OutboundWorld where
  inv := OneReply q
  rely := replyRely q
  refl i w := by
    cases i with
    | call c => exact ⟨.refl q.id c w, fun _ => .refl q w⟩
    | sweep tx => trivial
    | writer n => trivial
    | server n => trivial
    | observer => trivial
  trans i u v w h h' := by
    cases i with
    | call c => exact ⟨h.1.trans h'.1, fun own => (h.2 own).trans (h'.2 own)⟩
    | sweep tx => trivial
    | writer n => trivial
    | server n => trivial
    | observer => trivial
  idle := replyIdle q
  steady i w w' rely idle := by
    cases i with
    | call c => exact fun other => (idle other).relies rely.1
    | sweep tx => trivial
    | writer n => trivial
    | server n => trivial
    | observer => trivial

/-- A statement of `i` keeps the protocol. -/
structure KeepsReply (q : ReplyCase) (i : OutboundName) (w w' : OutboundWorld) : Prop where
  inv : OneReply q w'
  beside : ∀ c, i ≠ .call c → Beside q.id c w w'
  own : i ≠ .call q.call → Own q w w'

theorem KeepsReply.rely {i j : OutboundName} (h : KeepsReply q i w w') (other : j ≠ i) : replyRely q j w w' := by
  cases j with
  | call c => exact ⟨h.beside c (Ne.symm other), fun own => h.own (own ▸ Ne.symm other)⟩
  | sweep tx => trivial
  | writer n => trivial
  | server n => trivial
  | observer => trivial

theorem OneReply.same {i : OutboundName} (inv : OneReply q w) : KeepsReply q i w w :=
  ⟨inv, fun c _ => .refl q.id c w, fun _ => .refl q w⟩

end Algebra

/-! ## Statements -/

section Statements

variable {q : ReplyCase} {c : OutboundCall} {w w' : OutboundWorld}

theorem acceptances_congr {id : String} (sends : w'.sends = w.sends) : acceptances id w' = acceptances id w := by
  unfold acceptances
  rw [acceptedIDs_congr sends]

theorem lists_congr {id : String} (backlog : backlogOf c w' = backlogOf c w) : Lists id c w' ↔ Lists id c w := by
  unfold Lists
  rw [backlog]

/-- Only one call lists the reply. -/
theorem OneReply.unique (inv : OneReply q w) {d : OutboundCall} (h : Lists q.id c w) (h' : Lists q.id d w) : c = d :=
  Option.some.inj ((inv.holder c h).symm.trans (inv.holder d h'))

theorem find?_setConnection_ne {j : OutboundCall} {f : Connection → Connection} {keeps : ∀ x, (f x).id = x.id} (other : j ≠ c) :
    (setConnection c f keeps w).connections.find? j = w.connections.find? j := by
  unfold setConnection
  exact Table.find?_update_of_ne _ f keeps other

/-- What a statement on the session of a call leaves alone. -/
structure SessionOf (c : OutboundCall) (w w' : OutboundWorld) : Prop extends SessionStep c w w' where
  connections : ∀ j, j ≠ c → w'.connections.find? j = w.connections.find? j

/-- A call that has not sent the reply may do anything with its session that leaves its listing in order. -/
theorem SessionOf.keepsReply (step : SessionOf c w w') (inv : OneReply q w) (unsent : Unsent q.id c w)
    (holds : Lists q.id c w' → w'.locks q.key = some c) (nodup : ∀ ids, backlogOf c w' = some ids → ids.Nodup)
    (newly : Lists q.id c w' → Lists q.id c w ∨ ∃ row ∈ w.messages.rows, row.id = q.id ∧ row.status = .pending) :
    KeepsReply q (.call c) w w' := by
  have same := @acceptances_congr w w' q.id step.sends
  have others : ∀ {d}, d ≠ c → (Lists q.id d w' ↔ Lists q.id d w) := fun other => lists_congr (step.others _ other).1
  refine ⟨⟨fun d listed => ?_, fun d ids read => ?_, same ▸ inv.once, fun row mem named => ?_⟩, fun d other => ?_, fun other => ?_⟩
  · by_cases own : d = c
    · subst own
      exact holds listed
    · exact ((step.others d own).2 _).2 (inv.holder d ((others own).1 listed))
  · by_cases own : d = c
    · subst own
      exact nodup ids read
    · exact inv.nodup d ids ((step.others d own).1.symm.trans read)
  · rw [step.messages] at mem
    obtain ⟨placed, state⟩ := inv.placed row mem named
    refine ⟨placed, ?_⟩
    cases state with
    | pending isPending known =>
      refine .pending isPending ?_
      rw [same]
      rcases known with none' | ⟨d, listed⟩
      · exact .inl none'
      · by_cases own : d = c
        · subst own
          exact .inl (unsent listed)
        · exact .inr ⟨d, (others own).2 listed⟩
    | sent isSent accepted => exact .sent isSent (same ▸ accepted)
    | failed isFailed refused unlisted =>
      refine .failed isFailed (same ▸ refused) fun d listed => ?_
      by_cases own : d = c
      · subst own
        rcases newly listed with before | ⟨row', mem', named', isPending⟩
        · exact unlisted d before
        · rw [Table.eq_of_key mem' mem (named'.trans named.symm), isFailed] at isPending
          cases isPending
      · exact unlisted d ((others own).1 listed)
  · have other : d ≠ c := fun own => other (own ▸ rfl)
    obtain ⟨backlog, locks⟩ := step.others d other
    exact ⟨others other, fun _ => same, fun k held _ => (locks k).2 held, fun closed => backlog.trans closed⟩
  · have other : q.call ≠ c := fun own => other (own ▸ rfl)
    refine ⟨step.businesses, step.connections _ other, fun k => ((step.others _ other).2 k).2, fun row mem named => ?_, fun none' => ?_,
      same.ge, fun known => ⟨same, fun d apart listed => ?_, ?_⟩, fun _ => same⟩
    · exact ⟨row, step.messages ▸ mem, named, rfl, rfl, rfl, .inl rfl⟩
    · rw [step.messages]
      exact none'
    · by_cases own : d = c
      · subst own
        rcases newly listed with before | ⟨row, mem, named, isPending⟩
        · exact known.1 d apart before
        · exact known.2 row mem named isPending
      · exact known.1 d apart ((others own).1 listed)
    · rw [step.messages]
      exact known.2

/-- The server loses the connection of a delivery that does not have the reply to record. -/
theorem keepsReply_lost {n : Nat} (inv : OneReply q w) (unlisted : ¬ Lists q.id c w) (other : c ≠ q.call) :
    KeepsReply q (.server n) w (closeConnection c w) := by
  have closed : backlogOf c (closeConnection c w) = none := backlogOf_closeConnection
  have gone : ¬ Lists q.id c (closeConnection c w) := by
    unfold Lists
    rw [closed]
    exact List.not_mem_nil
  have step : SessionOf c w (closeConnection c w) := by
    refine ⟨sessionStep_close, fun j apart => ?_⟩
    exact @find?_setConnection_ne c w j (fun x => { x with closed := true, backlog := [] }) (fun _ => rfl) apart
  have keeps := step.keepsReply inv (fun listed => absurd listed unlisted) (fun listed => absurd listed gone)
    (fun ids read => by rw [closed] at read; cases read) fun listed => absurd listed gone
  refine ⟨keeps.inv, fun d _ => ?_, fun _ => keeps.own fun same => other (OutboundName.call.inj same)⟩
  by_cases own : d = c
  · subst own
    exact ⟨⟨fun listed => absurd listed gone, fun listed => absurd listed unlisted⟩, fun listed => absurd listed unlisted,
      fun k _ isOpen => absurd closed isOpen, fun _ => closed⟩
  · exact keeps.beside d fun same => own (OutboundName.call.inj same).symm

theorem acceptances_send {id : String} {s : Sending} : acceptances id { w with sends := w.sends ++ [s] } =
    acceptances id w + if s.accepted = true ∧ s.id = id then 1 else 0 := by
  unfold acceptances
  rw [acceptedIDs_send, List.count_append]
  cases accepted : s.accepted with
  | false => rfl
  | true =>
    simp only [if_true, true_and, List.count_singleton, beq_iff_eq]

/-- A send of another row, or one that is refused. -/
theorem keepsReply_send {i : OutboundName} {s : Sending} (inv : OneReply q w) (aside : ¬ (s.accepted = true ∧ s.id = q.id)) :
    KeepsReply q i w { w with sends := w.sends ++ [s] } := by
  have same : acceptances q.id { w with sends := w.sends ++ [s] } = acceptances q.id w := by
    rw [acceptances_send, if_neg aside, Nat.add_zero]
  refine ⟨⟨inv.holder, inv.nodup, same ▸ inv.once, fun row mem named => ?_⟩, fun d _ => ?_, fun _ => ?_⟩
  · obtain ⟨placed, state⟩ := inv.placed row mem named
    refine ⟨placed, ?_⟩
    cases state with
    | pending isPending known => exact .pending isPending (by rw [same]; exact known)
    | sent isSent accepted => exact .sent isSent (same ▸ accepted)
    | failed isFailed refused unlisted => exact .failed isFailed (same ▸ refused) unlisted
  · exact ⟨Iff.rfl, fun _ => same, fun _ held _ => held, fun closed => closed⟩
  · exact ⟨rfl, rfl, fun _ held => held, fun row mem named => ⟨row, mem, named, rfl, rfl, rfl, .inl rfl⟩, fun none' => none', same.ge,
      fun known => ⟨same, known⟩, fun _ => same⟩

/-- WhatsApp accepts the reply from the call that lists it. -/
theorem keepsReply_accepted {s : Sending} (inv : OneReply q w) (listed : Lists q.id c w) (unsent : acceptances q.id w = 0)
    (accepted : s.accepted = true) (named : s.id = q.id) (course : q.course = .alone → c = q.call) :
    KeepsReply q (.call c) w { w with sends := w.sends ++ [s] } ∧ acceptances q.id { w with sends := w.sends ++ [s] } = 1 := by
  have one : acceptances q.id { w with sends := w.sends ++ [s] } = 1 := by
    rw [acceptances_send, if_pos ⟨accepted, named⟩, unsent]
  refine ⟨⟨⟨inv.holder, inv.nodup, one.le, fun row mem named => ?_⟩, fun d other => ?_, fun other => ?_⟩, one⟩
  · obtain ⟨placed, state⟩ := inv.placed row mem named
    refine ⟨placed, ?_⟩
    cases state with
    | pending isPending known => exact .pending isPending (.inr ⟨c, listed⟩)
    | sent isSent accepted => exact .sent isSent one
    | failed isFailed refused unlisted => exact absurd listed (unlisted c)
  · refine ⟨Iff.rfl, fun also => ?_, fun _ held _ => held, fun closed => closed⟩
    exact absurd (inv.unique listed also) fun same => other (same ▸ rfl)
  · have other : c ≠ q.call := fun same => other (same ▸ rfl)
    refine ⟨rfl, rfl, fun _ held => held, fun row mem named => ⟨row, mem, named, rfl, rfl, rfl, .inl rfl⟩, fun none' => none', ?_,
      fun known => absurd listed (known.1 c other), fun alone => absurd (course alone) other⟩
    rw [one, unsent]
    exact Nat.zero_le 1

section Records

variable {on : Option OutboundCall} {i : String} {f : OutboundRow → OutboundRow} {keeps : ∀ r, (f r).id = r.id}

theorem recorded_connections (mine : on = none ∨ on = some c) {j : OutboundCall} (other : j ≠ c) :
    (recorded on i w).connections.find? j = w.connections.find? j := by
  rcases mine with rfl | rfl
  · rfl
  · exact @find?_setConnection_ne c w j (fun x => { x with backlog := x.backlog.erase i }) (fun _ => rfl) other

theorem nodup_recorded (mine : on = none ∨ on = some c) (inv : OneReply q w) {d : OutboundCall} {ids : List String}
    (read : backlogOf d (recorded on i (setOutbound i f keeps w)) = some ids) : ids.Nodup := by
  have before : backlogOf d (setOutbound i f keeps w) = backlogOf d w := rfl
  by_cases own : on = some d
  · subst own
    rw [backlogOf_recorded, before, Option.map_eq_some_iff] at read
    obtain ⟨ids', read, rfl⟩ := read
    exact (inv.nodup d ids' read).erase i
  · have kept : backlogOf d (recorded on i (setOutbound i f keeps w)) = backlogOf d w := by
      rcases mine with rfl | rfl
      · rfl
      · exact backlogOf_recorded_ne (.inr rfl) fun same => own (same ▸ rfl)
    exact inv.nodup d ids (kept ▸ read)

theorem lists_recorded {id : String} (mine : on = none ∨ on = some c) {d : OutboundCall} (apart : d ≠ c ∨ id ≠ i) :
    Lists id d (recorded on i (setOutbound i f keeps w)) ↔ Lists id d w := by
  by_cases own : on = some d
  · subst own
    have other : id ≠ i := by
      rcases apart with other | other
      · rcases mine with none' | same
        · cases none'
        · exact absurd (Option.some.inj same) other
      · exact other
    unfold Lists
    rw [backlogOf_recorded, show backlogOf d (setOutbound i f keeps w) = backlogOf d w from rfl]
    cases backlogOf d w with
    | none => exact Iff.rfl
    | some ids => exact List.mem_erase_of_ne other
  · apply lists_congr
    rcases mine with rfl | rfl
    · rfl
    · exact backlogOf_recorded_ne (.inr rfl) fun same => own (same ▸ rfl)

theorem closed_recorded (mine : on = none ∨ on = some c) {d : OutboundCall} (other : d ≠ c) :
    backlogOf d (recorded on i (setOutbound i f keeps w)) = backlogOf d w := backlogOf_recorded_ne mine other

/-- Nothing happens to the reply. -/
structure Aside (q : ReplyCase) (w w' : OutboundWorld) : Prop where
  lists : ∀ d, Lists q.id d w' ↔ Lists q.id d w
  accepts : acceptances q.id w' = acceptances q.id w
  rows : ∀ row, row.id = q.id → (row ∈ w'.messages.rows ↔ row ∈ w.messages.rows)

theorem aside_recorded (mine : on = none ∨ on = some c) (apart : i ≠ q.id) : Aside q w (recorded on i (setOutbound i f keeps w)) := by
  refine ⟨fun d => lists_recorded mine (.inr (Ne.symm apart)), acceptances_congr recorded_sends, fun row named => ?_⟩
  rw [recorded_messages, mem_setOutbound]
  constructor
  · rintro (⟨mem, -⟩ | ⟨old, -, own, rfl⟩)
    · exact mem
    · exact absurd ((own.symm.trans (keeps old).symm).trans named) apart
  · exact fun mem => .inl ⟨mem, fun same => apart (same ▸ named)⟩

/-- The outcome of another row is recorded. -/
theorem keepsReply_recordOther (mine : on = none ∨ on = some c) (apart : i ≠ q.id) (inv : OneReply q w) :
    KeepsReply q (.call c) w (recorded on i (setOutbound i f keeps w)) := by
  have aside : Aside q w (recorded on i (setOutbound i f keeps w)) := aside_recorded mine apart
  obtain ⟨lists, same, rows⟩ := aside
  refine ⟨⟨fun d listed => ?_, fun d ids => nodup_recorded mine inv, same ▸ inv.once, fun row mem named => ?_⟩, fun d other => ?_, fun other => ?_⟩
  · rw [recorded_locks]
    exact inv.holder d ((lists d).1 listed)
  · obtain ⟨placed, state⟩ := inv.placed row ((rows row named).1 mem) named
    refine ⟨placed, ?_⟩
    cases state with
    | pending isPending known =>
      refine .pending isPending ?_
      rw [same]
      exact known.imp_right (Exists.imp fun d => (lists d).2)
    | sent isSent accepted => exact .sent isSent (same ▸ accepted)
    | failed isFailed refused unlisted => exact .failed isFailed (same ▸ refused) fun d listed => unlisted d ((lists d).1 listed)
  · refine ⟨lists d, fun _ => same, fun k held _ => ?_, fun closed => ?_⟩
    · rw [recorded_locks]
      exact held
    · rw [closed_recorded mine fun same => other (same ▸ rfl)]
      exact closed
  · have other : q.call ≠ c := fun own => other (own ▸ rfl)
    refine ⟨recorded_businesses, recorded_connections mine other, fun k held => ?_, fun row mem named => ?_, fun none' row mem named => ?_,
      same.ge, fun known => ⟨same, fun d apart' listed => known.1 d apart' ((lists d).1 listed), fun row mem named => ?_⟩, fun _ => same⟩
    · rw [recorded_locks]
      exact held
    · exact ⟨row, (rows row named).2 mem, named, rfl, rfl, rfl, .inl rfl⟩
    · exact none' row ((rows row named).1 mem) named
    · exact known.2 row ((rows row named).1 mem) named

theorem unlisted_recorded (inv : OneReply q w) : ¬ Lists i c (recorded (some c) i (setOutbound i f keeps w)) := by
  unfold Lists
  rw [backlogOf_recorded, show backlogOf c (setOutbound i f keeps w) = backlogOf c w from rfl]
  cases read : backlogOf c w with
  | none => exact List.not_mem_nil
  | some ids => exact (inv.nodup c ids read).not_mem_erase

/-- The send of the reply is recorded by the call that lists it. -/
theorem keepsReply_markSent {whatsappMessageID : Option String} {response : MetaResponse} (inv : OneReply q w) (listed : Lists q.id c w)
    (accepted : acceptances q.id w = 1) : KeepsReply q (.call c) w (recorded (some c) q.id
      (setOutbound q.id (.markSent whatsappMessageID response) (OutboundRow.markSent_id whatsappMessageID response) w)) := by
  have same : acceptances q.id (recorded (some c) q.id (setOutbound q.id (.markSent whatsappMessageID response)
      (OutboundRow.markSent_id whatsappMessageID response) w)) = acceptances q.id w := acceptances_congr recorded_sends
  refine ⟨⟨fun d again => ?_, fun d ids => nodup_recorded (.inr rfl) inv, same ▸ inv.once, fun row mem named => ?_⟩, fun d other => ?_,
    fun other => ?_⟩
  · by_cases own : d = c
    · subst own
      exact absurd again (unlisted_recorded inv)
    · rw [recorded_locks]
      exact inv.holder d ((lists_recorded (.inr rfl) (.inl own)).1 again)
  · rw [recorded_messages] at mem
    rcases mem_setOutbound.1 mem with ⟨-, apart⟩ | ⟨old, before, own, rfl⟩
    · exact absurd named apart
    · exact ⟨(inv.placed old before own).1, .sent rfl (same.trans accepted)⟩
  · have other : d ≠ c := fun own => other (own ▸ rfl)
    refine ⟨lists_recorded (.inr rfl) (.inl other), fun _ => same, fun k held _ => ?_, fun closed => ?_⟩
    · rw [recorded_locks]
      exact held
    · rw [closed_recorded (.inr rfl) other]
      exact closed
  · have other : q.call ≠ c := fun own => other (own ▸ rfl)
    refine ⟨recorded_businesses, recorded_connections (.inr rfl) other, fun k held => ?_, fun row mem named => ?_, fun none' row mem => ?_,
      same.ge, fun known => absurd listed (known.1 c (Ne.symm other)), fun _ => same⟩
    · rw [recorded_locks]
      exact held
    · refine ⟨row.markSent whatsappMessageID response, ?_, named, rfl, rfl, rfl, ?_⟩
      · rw [recorded_messages]
        exact mem_setOutbound.2 (.inr ⟨row, mem, named, rfl⟩)
      · cases (inv.placed row mem named).2 with
        | pending isPending _ => exact .inr ⟨isPending, rfl⟩
        | sent isSent _ => exact .inl isSent.symm
        | failed _ _ unlisted => exact absurd listed (unlisted c)
    · rw [recorded_messages] at mem
      rcases mem_setOutbound.1 mem with ⟨-, apart⟩ | ⟨old, before, own, rfl⟩
      · exact apart
      · exact absurd own (none' old before)

/-- The failure of the reply is recorded by its own delivery: nobody has it to send. -/
theorem keepsReply_markFailed (error : String) (inv : OneReply q w) (listed : Lists q.id q.call w) (refused : acceptances q.id w = 0) :
    KeepsReply q (.call q.call) w (recorded (some q.call) q.id (setOutbound q.id (.markFailed error) (fun _ => rfl) w)) ∧
      Quiet q (recorded (some q.call) q.id (setOutbound q.id (.markFailed error) (fun _ => rfl) w)) := by
  have same : acceptances q.id (recorded (some q.call) q.id (setOutbound q.id (.markFailed error) (fun _ => rfl) w)) = acceptances q.id w :=
    acceptances_congr recorded_sends
  have nobody : ∀ d, ¬ Lists q.id d (recorded (some q.call) q.id (setOutbound q.id (.markFailed error) (fun _ => rfl) w)) := by
    intro d again
    by_cases own : d = q.call
    · subst own
      exact unlisted_recorded inv again
    · exact own (inv.unique ((lists_recorded (.inr rfl) (.inl own)).1 again) listed)
  have written : ∀ row ∈ (recorded (some q.call) q.id (setOutbound q.id (.markFailed error) (fun _ => rfl) w)).messages.rows, row.id = q.id →
      row.status = .failed ∧ row.conversation = some q.conversation := by
    intro row mem named
    rw [recorded_messages] at mem
    rcases mem_setOutbound.1 mem with ⟨-, apart⟩ | ⟨old, before, own, rfl⟩
    · exact absurd named apart
    · exact ⟨rfl, (inv.placed old before own).1⟩
  refine ⟨⟨⟨fun d again => absurd again (nobody d), fun d ids => nodup_recorded (.inr rfl) inv, same ▸ inv.once, fun row mem named => ?_⟩,
    fun d other => ?_, fun other => absurd rfl other⟩, fun d _ => nobody d, fun row mem named isPending => ?_⟩
  · exact ⟨(written row mem named).2, .failed (written row mem named).1 (same.trans refused) nobody⟩
  · have other : d ≠ q.call := fun own => other (own ▸ rfl)
    refine ⟨lists_recorded (.inr rfl) (.inl other), fun _ => same, fun k held _ => ?_, fun closed => ?_⟩
    · rw [recorded_locks]
      exact held
    · exact (closed_recorded (.inr rfl) other).trans closed
  · rw [(written row mem named).1] at isPending
    cases isPending

end Records

end Statements

/-! ## Sessions -/

section Sessions

variable {q : ReplyCase} {c : OutboundCall} {w w' : OutboundWorld}

/-- A statement on the session of a call that lists nothing new for it. -/
structure Tidy (q : ReplyCase) (c : OutboundCall) (w w' : OutboundWorld) : Prop extends SessionOf c w w' where
  lists : Lists q.id c w' → Lists q.id c w ∧ w'.locks q.key = some c
  nodup : ∀ ids, backlogOf c w' = some ids → ids.Nodup

theorem Tidy.keepsReply (step : Tidy q c w w') (inv : OneReply q w) (unsent : Unsent q.id c w) :
    KeepsReply q (.call c) w w' ∧ Unsent q.id c w' := by
  refine ⟨step.toSessionOf.keepsReply inv unsent (fun listed => (step.lists listed).2) step.nodup fun listed => .inl (step.lists listed).1, ?_⟩
  intro listed
  rw [acceptances_congr step.sends, unsent (step.lists listed).1]

theorem tidy_refl (inv : OneReply q w) : Tidy q c w w :=
  ⟨⟨sessionStep_refl, fun _ _ => rfl⟩, fun listed => ⟨listed, inv.holder c listed⟩, inv.nodup c⟩

/-- A session without a backlog. -/
theorem tidy_of_empty (step : SessionOf c w w') (empty : (backlogOf c w').getD [] = []) : Tidy q c w w' := by
  have unlisted : ¬ Lists q.id c w' := by
    unfold Lists
    rw [empty]
    exact List.not_mem_nil
  refine ⟨step, fun listed => absurd listed unlisted, fun ids read => ?_⟩
  rw [read] at empty
  rw [show ids = [] from empty]
  exact List.nodup_nil

theorem tidy_acquire (inv : OneReply q w) : Tidy q c w (outboundExec (.acquire c) w).2 := by
  have step : SessionStep c w (outboundExec (.acquire c) w).2 := sessionStep_acquire
  simp only [outboundExec] at step ⊢
  split
  · rename_i connections inserted
    rw [inserted] at step
    refine tidy_of_empty ⟨step, fun j other => Table.find?_insert_of_ne inserted other⟩ ?_
    rw [backlogOf_acquired inserted]
    rfl
  · exact tidy_refl inv

theorem tidy_lock {key : String} (inv : OneReply q w) (free : w.locks key = none) : Tidy q c w (outboundExec (.lockConversation c key) w).2 := by
  refine ⟨⟨sessionStep_lock free, fun j other => ?_⟩, fun listed => ?_, fun ids read => ?_⟩
  · simp only [outboundExec]
    rcases onConnection_cases (w := w) (some c) ((.ok (), { w with locks := Function.update w.locks key (some c) }) :
      Except OutboundErr Unit × OutboundWorld) with ⟨runs, -⟩ | ⟨runs, -⟩ <;> rw [runs]
  · simp only [outboundExec] at listed ⊢
    rcases onConnection_cases (w := w) (some c) ((.ok (), { w with locks := Function.update w.locks key (some c) }) :
      Except OutboundErr Unit × OutboundWorld) with ⟨runs, -⟩ | ⟨runs, -⟩
    · rw [runs] at listed ⊢
      refine ⟨listed, ?_⟩
      by_cases same : q.key = key
      · exact same ▸ Function.update_self ..
      · exact (Function.update_of_ne same _ _).trans (inv.holder c listed)
    · rw [runs] at listed ⊢
      exact ⟨listed, inv.holder c listed⟩
  · simp only [outboundExec] at read
    rcases onConnection_cases (w := w) (some c) ((.ok (), { w with locks := Function.update w.locks key (some c) }) :
      Except OutboundErr Unit × OutboundWorld) with ⟨runs, -⟩ | ⟨runs, -⟩
    · rw [runs] at read
      exact inv.nodup c ids read
    · rw [runs] at read
      exact inv.nodup c ids read

theorem tidy_unlock {key : String} (inv : OneReply q w) : Tidy q c w (outboundExec (.unlockConversation c key) w).2 := by
  have step : SessionStep c w (outboundExec (.unlockConversation c key) w).2 := sessionStep_unlock
  simp only [outboundExec] at step ⊢
  rcases onConnection_cases (w := w) (some c) ((.ok (), setConnection c (fun x => { x with backlog := [] }) (fun _ => rfl)
      { w with locks := fun k => if k = key ∧ w.locks k = some c then none else w.locks k }) :
    Except OutboundErr Unit × OutboundWorld) with ⟨runs, -⟩ | ⟨runs, -⟩
  · rw [runs] at step ⊢
    refine tidy_of_empty ⟨step, fun j other => ?_⟩ ?_
    · exact @find?_setConnection_ne c { w with locks := fun k => if k = key ∧ w.locks k = some c then none else w.locks k } j
        (fun x => { x with backlog := [] }) (fun _ => rfl) other
    · rw [backlogOf_setConnection (g := fun _ => [])]
      cases backlogOf c { w with locks := fun k => if k = key ∧ w.locks k = some c then none else w.locks k } <;> rfl
  · rw [runs]
    exact tidy_refl inv

theorem tidy_close : Tidy q c w (closeConnection c w) := by
  refine tidy_of_empty ⟨sessionStep_close, fun j apart => ?_⟩ (by rw [backlogOf_closeConnection]; rfl)
  exact @find?_setConnection_ne c w j (fun x => { x with closed := true, backlog := [] }) (fun _ => rfl) apart

theorem LockHeld.beside {id conversation : String} (h : LockHeld c conversation w) (rely : Beside id c w w') : LockHeld c conversation w' := by
  intro ids read
  cases before : backlogOf c w with
  | none =>
    rw [rely.closed before] at read
    cases read
  | some ids' => exact rely.locks _ (h ids' before) (by rw [read]; exact Option.some_ne_none ids)

/-- What a call finds in its conversation: the connection is closed, or it has read a backlog that lists the reply only where
it is still to be sent. -/
theorem loadBacklog_reply {conversation : String} (seq : Int) (inv : OneReply q w) (unsent : Unsent q.id c w)
    (held : LockHeld c conversation w) :
    (outboundExec (.loadBacklog c conversation seq) w = (.error .connClosed, w) ∧ backlogOf c w = none) ∨
      (outboundExec (.loadBacklog c conversation seq) w).1 = .ok (loadBacklog conversation seq w) ∧
        backlogOf c (outboundExec (.loadBacklog c conversation seq) w).2 = some ((loadBacklog conversation seq w).map QueuedMessage.id) ∧
        KeepsReply q (.call c) w (outboundExec (.loadBacklog c conversation seq) w).2 ∧
        Unsent q.id c (outboundExec (.loadBacklog c conversation seq) w).2 := by
  have step : SessionStep c w (outboundExec (.loadBacklog c conversation seq) w).2 := sessionStep_loadBacklog conversation seq
  simp only [outboundExec] at step ⊢
  rcases onConnection_cases (w := w) (some c) ((.ok (loadBacklog conversation seq w), setConnection c (fun x =>
    { x with backlog := (loadBacklog conversation seq w).map QueuedMessage.id }) (fun _ => rfl) w) :
    Except OutboundErr (List QueuedMessage) × OutboundWorld) with ⟨runs, isOpen⟩ | ⟨runs, d, same, closed⟩
  · obtain ⟨ids, read⟩ := isOpen c rfl
    have reads := backlogOf_setConnection (c := c) (w := w) (g := fun _ => (loadBacklog conversation seq w).map QueuedMessage.id)
    rw [read] at reads
    have reads : backlogOf c (setConnection c (fun x => { x with backlog := (loadBacklog conversation seq w).map QueuedMessage.id })
      (fun _ => rfl) w) = some ((loadBacklog conversation seq w).map QueuedMessage.id) := reads
    rw [runs] at step ⊢
    have mine := held ids read
    have found : Lists q.id c (setConnection c (fun x => { x with backlog := (loadBacklog conversation seq w).map QueuedMessage.id })
        (fun _ => rfl) w) → ∃ row ∈ w.messages.rows, row.id = q.id ∧ row.status = .pending ∧ conversation = q.conversation := by
      intro listed
      unfold Lists at listed
      rw [reads] at listed
      obtain ⟨m, mem, named⟩ := List.mem_map.1 listed
      obtain ⟨row, hrow, inConversation, isPending, -, scanned⟩ := mem_loadBacklog.1 mem
      have named' : row.id = q.id := (joined_eq scanned).1.symm.trans named
      exact ⟨row, hrow, named', isPending, Option.some.inj (inConversation.symm.trans (inv.placed row hrow named').1)⟩
    refine .inr ⟨rfl, reads, ?_, fun listed => ?_⟩
    · refine SessionOf.keepsReply ⟨step, fun j other => ?_⟩ inv unsent (fun listed => ?_) (fun ids read => ?_) fun listed => ?_
      · exact @find?_setConnection_ne c w j (fun x => { x with backlog := (loadBacklog conversation seq w).map QueuedMessage.id })
          (fun _ => rfl) other
      · obtain ⟨-, -, -, -, rfl⟩ := found listed
        exact mine
      · rw [reads] at read
        cases read
        exact loadBacklog_nodup
      · obtain ⟨row, mem, named, isPending, -⟩ := found listed
        exact .inr ⟨row, mem, named, isPending⟩
    · obtain ⟨row, mem, named, isPending, rfl⟩ := found listed
      refine (acceptances_congr step.sends).trans ?_
      cases (inv.placed row mem named).2 with
      | pending _ known =>
        rcases known with none' | ⟨d, listed'⟩
        · exact none'
        · have own : d = c := Option.some.inj ((inv.holder d listed').symm.trans mine)
          exact unsent (own ▸ listed')
      | sent isSent _ =>
        rw [isSent] at isPending
        cases isPending
      | failed isFailed _ _ =>
        rw [isFailed] at isPending
        cases isPending
  · cases same
    exact .inl ⟨runs, closed⟩

end Sessions

/-! ## Deliveries of other rows -/

section Others

variable {q : ReplyCase} {c : OutboundCall} {wa : Option Sender} {w : OutboundWorld}

/-- One statement. -/
theorem safe_reply {i : OutboundName} {op : OutboundStmt} {Q : Except OutboundErr op.Reply → OutboundWorld → Prop}
    (executed : ∀ t, replyRely q i w t → OneReply q t → outboundProceeds t op → keepsReply q t op →
      KeepsReply q i t (outboundExec op t).2 ∧ Q (outboundExec op t).1 (outboundExec op t).2 ∧
        (mayFail op → (q.course = .steady → leadsUp q.call op = false) → Q (.error (.db .transient)) (outboundExec op t).2))
    (failed : ∀ t, replyRely q i w t → OneReply q t → mayFail op → recordsRow q.id op = false →
      (q.course = .steady → leadsUp q.call op = false ∧ recordsFailure q.id op = false) → Q (.error (.db .transient)) t)
    (stopped : ∀ t, replyRely q i w t → mayStop q op → replyIdle q i t) :
    Safe (replyCourse q) (replyProtocol q) i Q (call (I := outboundStore) op) w := by
  refine Safe.call (fun t rely inv may => ?_) (fun t rely inv faults => failed t rely inv faults.1 faults.2.1 faults.2.2)
    fun t rely _ stops => stopped t rely stops
  obtain ⟨keeps, replied, unreplied⟩ := executed t rely inv may.1 may.2
  exact ⟨keeps.inv, fun j other => keeps.rely other, replied, fun loses => unreplied loses.1 loses.2⟩

/-- A statement of another delivery on its session. -/
theorem Unsent.safe_session {op : OutboundStmt} (unsent : Unsent q.id c w) 
    (runs : ∀ t, OneReply q t → outboundProceeds t op → Tidy q c t (outboundExec op t).2) :
    Safe (replyCourse q) (replyProtocol q) (.call c) (fun _ => Unsent q.id c) (call (I := outboundStore) op) w := by
  refine safe_reply (fun t rely inv may _ => ?_) (fun t rely _ _ _ _ => unsent.relies rely.1) fun t rely _ _ => unsent.relies rely.1
  obtain ⟨keeps, after⟩ := (runs t inv may).keepsReply inv (unsent.relies rely.1)
  exact ⟨keeps, after, fun _ _ => after⟩

theorem Unsent.safe_lock {conversation : String} (unsent : Unsent q.id c w) :
    Safe (replyCourse q) (replyProtocol q) (.call c)
      (Replied (fun _ t => Unsent q.id c t ∧ LockHeld c conversation t) (Unsent q.id c))
      (call (I := outboundStore) (.lockConversation c (lockKey conversation))) w := by
  refine safe_reply (fun t rely inv may _ => ?_) (fun t rely _ _ _ _ => unsent.relies rely.1) fun t rely _ _ => unsent.relies rely.1
  obtain ⟨keeps, after⟩ := (tidy_lock inv may).keepsReply inv (unsent.relies rely.1)
  refine ⟨keeps, ?_, fun _ _ => after⟩
  rcases lockHeld_lock (c := c) (w := t) conversation with ⟨e, runs⟩ | held
  · rw [runs]
    exact unsent.relies rely.1
  · cases (outboundExec (.lockConversation c (lockKey conversation)) t).1 with
    | ok _ => exact ⟨after, held⟩
    | error e => exact after

/-- The messages another delivery has to send; the reply is among them only as it is listed. -/
structure Remaining (q : ReplyCase) (c : OutboundCall) (on : Option OutboundCall) (ms : List QueuedMessage) (w : OutboundWorld) : Prop where
  mine : on = none ∨ on = some c
  nodup : (ms.map QueuedMessage.id).Nodup
  unsent : Unsent q.id c w
  listed : q.id ∈ ms.map QueuedMessage.id → on = some c ∧ Lists q.id c w

theorem Remaining.relies {on : Option OutboundCall} {ms : List QueuedMessage} {t : OutboundWorld} (h : Remaining q c on ms w) (rely : Beside q.id c w t) :
    Remaining q c on ms t :=
  ⟨h.mine, h.nodup, h.unsent.relies rely, fun mem => ⟨(h.listed mem).1, rely.lists.2 (h.listed mem).2⟩⟩

theorem Remaining.tail {on : Option OutboundCall} {m : QueuedMessage} {rest : List QueuedMessage} (h : Remaining q c on (m :: rest) w) : Remaining q c on rest w := by
  have nodup := h.nodup
  rw [List.map_cons, List.nodup_cons] at nodup
  exact ⟨h.mine, nodup.2, h.unsent, fun mem => h.listed (List.mem_cons_of_mem _ mem)⟩

theorem Remaining.carried {on : Option OutboundCall} {ms : List QueuedMessage} {t : OutboundWorld} (h : Remaining q c on ms w)
    (aside : Aside q w t) : Remaining q c on ms t :=
  ⟨h.mine, h.nodup, fun listed => aside.accepts.trans (h.unsent ((aside.lists c).1 listed)),
    fun mem => ⟨(h.listed mem).1, (aside.lists c).2 (h.listed mem).2⟩⟩

/-- The first message is sent and not recorded. -/
structure Sent (q : ReplyCase) (c : OutboundCall) (on : Option OutboundCall) (m : QueuedMessage) (rest : List QueuedMessage) (w : OutboundWorld) :
    Prop where
  mine : on = none ∨ on = some c
  nodup : ((m :: rest).map QueuedMessage.id).Nodup
  own : m.id = q.id → on = some c ∧ Lists q.id c w ∧ acceptances q.id w = 1
  other : m.id ≠ q.id → Remaining q c on rest w

theorem Sent.relies {on : Option OutboundCall} {m : QueuedMessage} {rest : List QueuedMessage} {t : OutboundWorld} (h : Sent q c on m rest w)
    (rely : Beside q.id c w t) : Sent q c on m rest t := by
  refine ⟨h.mine, h.nodup, fun named => ?_, fun apart => (h.other apart).relies rely⟩
  obtain ⟨mine, listed, accepted⟩ := h.own named
  exact ⟨mine, rely.lists.2 listed, (rely.accepts listed).trans accepted⟩

/-- A statement that records the outcome of another row. -/
theorem keepsReply_onConnection {on : Option OutboundCall} {i : String} (f : OutboundRow → OutboundRow) (keeps : ∀ r, (f r).id = r.id)
    (mine : on = none ∨ on = some c) (apart : i ≠ q.id) (inv : OneReply q w) :
    KeepsReply q (.call c) w (onConnection on w ((.ok (), recorded on i (setOutbound i f keeps w)) : Except OutboundErr Unit × OutboundWorld)).2 ∧
      Aside q w (onConnection on w ((.ok (), recorded on i (setOutbound i f keeps w)) : Except OutboundErr Unit × OutboundWorld)).2 := by
  rcases onConnection_cases on ((.ok (), recorded on i (setOutbound i f keeps w)) : Except OutboundErr Unit × OutboundWorld) with
    ⟨runs, -⟩ | ⟨runs, -⟩
  · rw [runs]
    exact ⟨keepsReply_recordOther mine apart inv, aside_recorded mine apart⟩
  · rw [runs]
    exact ⟨inv.same, fun _ => Iff.rfl, rfl, fun _ _ => Iff.rfl⟩

/-- The outcome of a row is recorded on the connection that lists it. -/
theorem onConnection_listed {i : String} {r : Except OutboundErr Unit × OutboundWorld} (listed : Lists i c w) :
    onConnection (some c) w r = r := by
  rcases onConnection_cases (some c) r with ⟨runs, -⟩ | ⟨-, d, same, closed⟩
  · exact runs
  · cases same
    unfold Lists at listed
    rw [closed] at listed
    cases listed

theorem Unsent.safe_loadBacklog {conversation : String} {seq : Int} (unsent : Unsent q.id c w) (held : LockHeld c conversation w) :
    Safe (replyCourse q) (replyProtocol q) (.call c) (Replied (fun backlog => Remaining q c (some c) backlog) (Unsent q.id c))
      (call (I := outboundStore) (.loadBacklog c conversation seq)) w := by
  refine safe_reply (fun t rely inv _ _ => ?_) (fun t rely _ _ _ _ => unsent.relies rely.1) fun t rely _ _ => unsent.relies rely.1
  rcases loadBacklog_reply seq inv (unsent.relies rely.1) (held.beside rely.1) with ⟨runs, -⟩ | ⟨reply, reads, keeps, after⟩
  · rw [runs]
    exact ⟨inv.same, unsent.relies rely.1, fun _ _ => unsent.relies rely.1⟩
  · refine ⟨keeps, ?_, fun _ _ => after⟩
    rw [reply]
    refine ⟨.inr rfl, loadBacklog_nodup, after, fun mem => ⟨rfl, ?_⟩⟩
    unfold Lists
    rw [reads]
    exact mem

theorem Remaining.safe_send {on : Option OutboundCall} {m : QueuedMessage} {rest : List QueuedMessage} {request : SendRequest}
    {outcome : SendOutcome} (todo : Remaining q c on (m :: rest) w)
    (answers : m.id = q.id → (outcome.accepted = true ↔ ∃ r, outcome.answer = .ok r))
    (refused : q.course = .alone → m.id = q.id → outcome.accepted = false) :
    Safe (replyCourse q) (replyProtocol q) (.call c) (Replied (fun _ => Sent q c on m rest) (Remaining q c on rest))
      (call (I := outboundStore) (.send m request outcome)) w := by
  refine safe_reply (fun t rely inv _ _ => ?_) (fun _ _ _ may _ _ => may.elim) fun t rely _ _ => todo.unsent.relies rely.1
  have todo := todo.relies rely.1
  have nodup : ((m :: rest).map QueuedMessage.id).Nodup := todo.nodup
  have refuses : ∀ {u}, u = { t with sends := t.sends ++ [⟨m.id, m.seq, m.conversation, request, outcome.accepted⟩] } →
      ¬ (outcome.accepted = true ∧ m.id = q.id) → KeepsReply q (.call c) t u ∧ Remaining q c on rest u := by
    rintro _ rfl aside
    refine ⟨keepsReply_send inv aside, todo.tail.mine, todo.tail.nodup, fun listed => ?_, todo.tail.listed⟩
    rw [acceptances_send, if_neg aside, Nat.add_zero]
    exact todo.unsent listed
  simp only [outboundExec]
  by_cases named : m.id = q.id
  · obtain ⟨mine, listed⟩ := todo.listed (by rw [List.map_cons, named]; exact List.mem_cons_self)
    cases answer : outcome.answer with
    | error e =>
      have aside : ¬ (outcome.accepted = true ∧ m.id = q.id) := by
        rintro ⟨accepted, -⟩
        obtain ⟨r, ok⟩ := (answers named).1 accepted
        rw [answer] at ok
        cases ok
      obtain ⟨keeps, after⟩ := refuses rfl aside
      exact ⟨keeps, after, fun may => may.elim⟩
    | ok response =>
      have accepted : outcome.accepted = true := (answers named).2 ⟨response, answer⟩
      have course : q.course = .alone → c = q.call := by
        intro alone
        rw [refused alone named] at accepted
        cases accepted
      obtain ⟨keeps, one⟩ := keepsReply_accepted (s := ⟨m.id, m.seq, m.conversation, request, outcome.accepted⟩) inv listed
        (todo.unsent listed) accepted named course
      exact ⟨keeps, ⟨todo.mine, nodup, fun _ => ⟨mine, listed, one⟩, fun apart => absurd named apart⟩, fun may => may.elim⟩
  · obtain ⟨keeps, after⟩ := refuses rfl fun both => named both.2
    refine ⟨keeps, ?_, fun may => may.elim⟩
    cases outcome.answer with
    | ok response => exact ⟨todo.mine, nodup, fun same => absurd same named, fun _ => after⟩
    | error e => exact after

theorem Sent.safe_markSent {on : Option OutboundCall} {m : QueuedMessage} {rest : List QueuedMessage} {whatsappMessageID : Option String}
    {response : MetaResponse} (sent : Sent q c on m rest w) (other : c ≠ q.call) :
    Safe (replyCourse q) (replyProtocol q) (.call c) (fun _ => Remaining q c on rest)
      (call (I := outboundStore) (.markSent on m.id whatsappMessageID response)) w := by
  by_cases named : m.id = q.id
  · obtain ⟨rfl, -, -⟩ := sent.own named
    refine safe_reply (fun t rely inv _ _ => ?_) (fun t rely _ _ comes _ => ?_) fun t rely stops _ => ?_
    · obtain ⟨-, listed, one⟩ := (sent.relies rely.1).own named
      have nodup := sent.nodup
      rw [List.map_cons, List.nodup_cons] at nodup
      simp only [outboundExec]
      rw [named, onConnection_listed listed]
      have gone : ¬ Lists q.id c (recorded (some c) q.id (setOutbound q.id (.markSent whatsappMessageID response)
          (OutboundRow.markSent_id whatsappMessageID response) t)) := unlisted_recorded inv
      have after : Remaining q c (some c) rest (recorded (some c) q.id (setOutbound q.id (.markSent whatsappMessageID response)
          (OutboundRow.markSent_id whatsappMessageID response) t)) :=
        ⟨.inr rfl, nodup.2, fun listed => absurd listed gone, fun mem => absurd (named ▸ mem) nodup.1⟩
      exact ⟨keepsReply_markSent inv listed one, after, fun _ _ => after⟩
    · simp only [recordsRow, decide_eq_false_iff_not] at comes
      exact absurd named comes
    · exact absurd (Option.some.inj (stops named)) other
  · have todo := sent.other named
    refine safe_reply (fun t rely inv _ _ => ?_) (fun t rely _ _ _ _ => todo.relies rely.1) fun t rely _ _ => (todo.relies rely.1).unsent
    have todo := todo.relies rely.1
    obtain ⟨keeps, aside⟩ := keepsReply_onConnection (OutboundRow.markSent whatsappMessageID response)
      (OutboundRow.markSent_id whatsappMessageID response) todo.mine named inv
    exact ⟨keeps, todo.carried aside, fun _ _ => todo.carried aside⟩

/-- Another delivery records the failure of no row but its own. -/
theorem Remaining.safe_markFailed {on : Option OutboundCall} {m : QueuedMessage} {rest : List QueuedMessage} {error : String}
    (todo : Remaining q c on rest w) (apart : m.id ≠ q.id) :
    Safe (replyCourse q) (replyProtocol q) (.call c) (fun _ => Remaining q c on rest)
      (call (I := outboundStore) (.markFailed on m.id error)) w := by
  refine safe_reply (fun t rely inv _ _ => ?_) (fun t rely _ _ _ _ => todo.relies rely.1) fun t rely _ _ => (todo.relies rely.1).unsent
  have todo := todo.relies rely.1
  obtain ⟨keeps, aside⟩ := keepsReply_onConnection (OutboundRow.markFailed error) (fun _ => rfl) todo.mine apart inv
  exact ⟨keeps, todo.carried aside, fun _ _ => todo.carried aside⟩

/-- What another delivery knows where. -/
def replyOutline (q : ReplyCase) (c : OutboundCall) {wa : Option Sender} (finalAttempt : Bool) (other : c.row ≠ q.id)
    (answers : AnswersFor q.id wa) (refused : q.course = .alone → RefusedBy q.id wa) :
    ResultOutline (replyCourse q) (replyProtocol q) c wa c.row finalAttempt fun _ => Unsent q.id c where
  ready _ _ := Unsent q.id c
  acquired _ _ := Unsent q.id c
  locked conversation _ w := Unsent q.id c w ∧ LockHeld c conversation w
  todo on _ rest := Remaining q c on rest
  sent on _ m rest := Sent q c on m rest
  failed on _ _ rest := Remaining q c on rest
  leaving _ := Unsent q.id c
  acquire _ _ _ ready := (ready.safe_session fun _ inv _ => tidy_acquire inv).mono fun r _ after => by
    cases r with
    | ok _ => exact after
    | error e => exact fun _ => after
  lock _ _ _ acquired := acquired.safe_lock.mono fun r _ after => by
    cases r with
    | ok _ => exact after
    | error e => exact fun _ => after
  load _ _ _ locked := (locked.1.safe_loadBacklog locked.2).mono fun r _ after => by
    cases r with
    | ok _ => exact after
    | error e => exact fun _ => after
  unsent _ _ _ _ _ _ todo := todo.tail
  send _ _ m _ request _ _ sends todo := by
    obtain ⟨sender, wa', rfl⟩ := sends
    exact todo.safe_send (answers sender wa' m request) fun alone => refused alone sender wa' m request
  markSent _ _ _ _ _ _ _ sent := sent.safe_markSent fun own => other (own ▸ rfl)
  markFailed _ _ _ _ _ _ own _ failed := (failed.safe_markFailed (own ▸ other)).mono fun _ _ after _ => after
  skip _ _ _ _ _ _ failed _ := failed
  finish _ _ todo := todo.unsent
  leave _ _ todo := todo.unsent
  unlock _ _ _ leaving := leaving.safe_session fun _ inv _ => tidy_unlock inv
  release _ _ leaving := leaving.safe_session fun _ _ _ => tidy_close
  close _ _ leaving := leaving.safe_session fun _ _ _ => tidy_close

theorem Unsent.safe_deliver {finalAttempt : Bool} (unsent : Unsent q.id c w) (other : c.row ≠ q.id)
    (answers : AnswersFor q.id wa) (refused : q.course = .alone → RefusedBy q.id wa) :
    Safe (replyCourse q) (replyProtocol q) (.call c) (fun _ => Unsent q.id c) (deliver c wa c.row finalAttempt) w := by
  refine (replyOutline q c finalAttempt other answers refused).safe_deliver rfl (safe_reply (fun t rely inv _ _ => ⟨inv.same, ?_, fun _ _ _ => ?_⟩)
    (fun t rely _ _ _ _ => ?_) fun t rely _ _ => unsent.relies rely.1)
  · have unsent := unsent.relies rely.1
    simp only [outboundExec]
    cases found : loadMessage c.row t with
    | none => exact unsent
    | some m =>
      refine ⟨fun _ => unsent, fun _ => ⟨fun _ => ⟨.inl rfl, List.nodup_singleton _, unsent, fun mem => ?_⟩, fun _ _ => unsent⟩⟩
      obtain ⟨row, -, own, scanned⟩ := loadMessage_eq found
      have named : m.id = c.row := (joined_eq scanned).1.trans own
      exact absurd (named.symm.trans (List.mem_singleton.1 mem).symm) other
  · exact unsent.relies rely.1
  · exact fun _ => unsent.relies rely.1

/-- Everything that runs beside the reply is safe. -/
theorem BesideReply.safe {i : OutboundName} {p : OutboundHandler Unit} (job : BesideReply q i p) (idle : replyIdle q i w) :
    Safe (replyCourse q) (replyProtocol q) i (fun _ => replyIdle q i) p w := by
  cases job with
  | deliver c wa finalAttempt other answers refused =>
    have apart : c ≠ q.call := fun same => other (same ▸ rfl)
    have unsent : Unsent q.id c w := idle apart
    exact (unsent.safe_deliver other answers refused).mono fun _ _ after _ => after
  | loseConnection n c =>
    refine safe_reply (fun t _ inv _ keeps => ⟨keepsReply_lost inv keeps.2 keeps.1, trivial, fun _ _ => trivial⟩)
      (fun _ _ _ _ _ _ => trivial) fun _ _ _ => trivial

end Others

end NovoApex.Outbound
