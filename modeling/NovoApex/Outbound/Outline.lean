import NovoApex.Workers.Crons

/-!
# A proof outline of Deliver

The assertions between the statements of `Deliver`, and what each statement has to
establish. An outline of one protocol is a proof that `Deliver` is safe for it
(`ResultOutline.safe_deliver`), whatever the backlog and however its sends go. It
follows the error of the own row through the loop; an `Outline` is one that has no use
for it.
-/

namespace NovoApex.Outbound
set_option autoImplicit false
open Lib Program Db Workers

/-- The assertions of a call: what it knows once its row is loaded, once it has a connection, once it has the lock, with
the error its own row has had so far and the rows `rest` still to deliver, with a row sent or failed but not recorded, and
before it gives the connection back. -/
structure ResultOutline (R : Roster outboundStore OutboundName OutboundWorld) (P : Protocol OutboundName OutboundWorld)
    (c : OutboundCall) (wa : Option Sender) (id : String) (finalAttempt : Bool) (Q : Except OutboundErr Unit → OutboundWorld → Prop) where
  ready : String → Int → OutboundWorld → Prop
  acquired : String → Int → OutboundWorld → Prop
  locked : String → Int → OutboundWorld → Prop
  todo : Option OutboundCall → Option OutboundErr → List QueuedMessage → OutboundWorld → Prop
  sent : Option OutboundCall → Option OutboundErr → QueuedMessage → List QueuedMessage → OutboundWorld → Prop
  failed : Option OutboundCall → Option OutboundErr → QueuedMessage → List QueuedMessage → OutboundWorld → Prop
  leaving : Except OutboundErr Unit → OutboundWorld → Prop
  acquire : ∀ conversation seq w, ready conversation seq w → Safe R P (.call c)
    (Replied (fun _ => acquired conversation seq) fun s => ∀ e, Q (.error e) s) (call (I := outboundStore) (.acquire c)) w
  lock : ∀ conversation seq w, acquired conversation seq w → Safe R P (.call c)
    (Replied (fun _ => locked conversation seq) fun s => ∀ e, leaving (.error e) s)
    (call (I := outboundStore) (.lockConversation c (lockKey conversation))) w
  load : ∀ conversation seq w, locked conversation seq w → Safe R P (.call c)
    (Replied (fun backlog => todo (some c) none backlog) fun s => ∀ e, leaving (.error e) s)
    (call (I := outboundStore) (.loadBacklog c conversation seq)) w
  unsent : ∀ on ownErr m rest w, wa = none ∨ sendRequest m = none → todo on ownErr (m :: rest) w → failed on ownErr m rest w
  send : ∀ on ownErr m rest request outcome w, (∃ sender, wa = some sender ∧ outcome = sender m request) → todo on ownErr (m :: rest) w →
    Safe R P (.call c) (Replied (fun _ => sent on ownErr m rest) (failed on ownErr m rest))
      (call (I := outboundStore) (.send m request outcome)) w
  markSent : ∀ on ownErr m rest whatsappMessageID response w, sent on ownErr m rest w → Safe R P (.call c) (fun _ => todo on ownErr rest)
    (call (I := outboundStore) (.markSent on m.id whatsappMessageID response)) w
  /-- Only the failure of the own row is recorded. -/
  markFailed : ∀ on ownErr m rest error w, m.id = id → finalAttempt = true → failed on ownErr m rest w →
    Safe R P (.call c) (fun _ s => ∀ e, todo on (some e) rest s) (call (I := outboundStore) (.markFailed on m.id error)) w
  skip : ∀ on ownErr m rest w, ¬ (m.id = id ∧ finalAttempt = true) → failed on ownErr m rest w →
    ∀ e, todo on (if m.id = id then some e else ownErr) rest w
  finish : ∀ ownErr w, todo none ownErr [] w → Q (deliverResult (.ok ownErr)) w
  leave : ∀ ownErr w, todo (some c) ownErr [] w → leaving (deliverResult (.ok ownErr)) w
  unlock : ∀ key r w, leaving r w → Safe R P (.call c) (fun _ => leaving r)
    (call (I := outboundStore) (.unlockConversation c key)) w
  release : ∀ r w, leaving r w → Safe R P (.call c) (fun _ => Q r) (call (I := outboundStore) (.release c)) w
  close : ∀ r w, leaving r w → Safe R P (.call c) (fun _ => Q r) (call (I := outboundStore) (.close c)) w

/-- What a call knows of the row it has loaded. -/
def Loaded (Q : Except OutboundErr Unit → OutboundWorld → Prop) (ready : String → Int → OutboundWorld → Prop)
    (todo : Option OutboundCall → List QueuedMessage → OutboundWorld → Prop) :
    Except OutboundErr (Option QueuedMessage) → OutboundWorld → Prop
  | .error _, s => ∀ e, Q (.error e) s
  | .ok none, s => Q (.ok ()) s
  | .ok (some m), s => (skipOutbound m = true → Q (.ok ()) s) ∧ (skipOutbound m = false →
    (m.conversation = none → todo none [m] s) ∧ ∀ conversation, m.conversation = some conversation → ready conversation m.seq s)

namespace ResultOutline

variable {R : Roster outboundStore OutboundName OutboundWorld} {P : Protocol OutboundName OutboundWorld} {c : OutboundCall}
  {wa : Option Sender} {id : String} {finalAttempt : Bool} {Q : Except OutboundErr Unit → OutboundWorld → Prop}
  (o : ResultOutline R P c wa id finalAttempt Q)

include o

theorem safe_sendOutbound {on : Option OutboundCall} {ownErr : Option OutboundErr} {m : QueuedMessage} {rest : List QueuedMessage}
    {w : OutboundWorld} (todo : o.todo on ownErr (m :: rest) w) :
    Safe R P (.call c) (Replied (fun _ => o.sent on ownErr m rest) (o.failed on ownErr m rest)) (sendOutbound wa m) w := by
  unfold sendOutbound
  cases wa with
  | none => exact o.unsent on ownErr m rest w (.inl rfl) todo
  | some sender =>
    cases request : sendRequest m with
    | none => exact o.unsent on ownErr m rest w (.inr request) todo
    | some request' => exact o.send on ownErr m rest request' _ w ⟨sender, rfl, rfl⟩ todo

/-- One row: delivered and recorded, or failed; the rest is still to do. -/
theorem safe_deliverOutbound {on : Option OutboundCall} {ownErr : Option OutboundErr} {m : QueuedMessage} {rest : List QueuedMessage}
    {markFailed : Bool} {w : OutboundWorld} (marks : markFailed = true ↔ m.id = id ∧ finalAttempt = true) (todo : o.todo on ownErr (m :: rest) w) :
    Safe R P (.call c) (fun r s => match r with
      | .ok _ => o.todo on ownErr rest s
      | .error e => o.todo on (if m.id = id then some e else ownErr) rest s) (deliverOutbound on wa m markFailed) w := by
  unfold deliverOutbound
  refine Safe.bind (Safe.attempt ((o.safe_sendOutbound todo).mono fun r s after => ?_))
  cases r with
  | ok response =>
    refine Safe.bind (Safe.attempt ?_)
    exact (o.markSent on ownErr m rest _ _ s after).mono fun _ _ done => done
  | error e =>
    cases markFailed with
    | true =>
      obtain ⟨own, final⟩ := marks.1 rfl
      refine Safe.bind (Safe.bind (Safe.attempt ?_))
      refine (o.markFailed on ownErr m rest _ s own final after).mono fun _ t done => ?_
      show o.todo on (if m.id = id then _ else ownErr) rest t
      rw [if_pos own]
      exact done _
    | false => exact o.skip on ownErr m rest s (fun both => Bool.false_ne_true (marks.2 both)) after _

/-- The loop over the backlog. -/
theorem safe_deliverBacklog (backlog : List QueuedMessage) (ownErr : Option OutboundErr) {w : OutboundWorld}
    (todo : o.todo (some c) ownErr backlog w) :
    Safe R P (.call c) (fun r s => ∃ ownErr, r = .ok ownErr ∧ o.todo (some c) ownErr [] s)
      (deliverBacklog c wa id finalAttempt ownErr backlog) w := by
  induction backlog generalizing ownErr w with
  | nil => exact ⟨ownErr, rfl, todo⟩
  | cons msg rest ih =>
    have marks : (decide (msg.id = id) && finalAttempt) = true ↔ msg.id = id ∧ finalAttempt = true := by
      rw [Bool.and_eq_true, decide_eq_true_eq]
    refine Safe.bind (Safe.attempt ((o.safe_deliverOutbound marks todo).mono fun r s after => ?_))
    cases r with
    | ok _ => exact ih _ after
    | error e =>
      refine ih _ ?_
      simp only [decide_eq_true_eq]
      exact after

theorem safe_flushConversation {conversation : String} {seq : Int} {w : OutboundWorld} (locked : o.locked conversation seq w) :
    Safe R P (.call c) (fun r s => o.leaving (deliverResult r) s) (flushConversation c wa id finalAttempt conversation seq) w := by
  unfold flushConversation
  refine Safe.bind ((o.load conversation seq w locked).mono fun r s after => ?_)
  cases r with
  | error e => exact after _
  | ok backlog =>
    refine (o.safe_deliverBacklog backlog none after).mono fun r t done => ?_
    obtain ⟨ownErr, rfl, done⟩ := done
    exact o.leave ownErr t done

theorem safe_unlockConversation {key : String} {r : Except OutboundErr Unit} {w : OutboundWorld} (leaving : o.leaving r w) :
    Safe R P (.call c) (fun unlocked s => unlocked = .ok () ∧ Q r s) (unlockConversation c key) w := by
  unfold unlockConversation
  refine Safe.bind (Safe.attempt ((o.unlock key r w leaving).mono fun reply s after => ?_))
  cases reply with
  | ok _ =>
    refine Safe.bind (Safe.attempt ?_)
    exact (o.release r s after).mono fun _ _ done => ⟨rfl, done⟩
  | error e =>
    refine Safe.bind (Safe.attempt ?_)
    exact (o.close r s after).mono fun _ _ done => ⟨rfl, done⟩

theorem safe_deliverConversation {conversation : String} {seq : Int} {w : OutboundWorld} (ready : o.ready conversation seq w) :
    Safe R P (.call c) Q (deliverConversation c wa id finalAttempt conversation seq) w := by
  unfold deliverConversation
  refine Safe.bind (Safe.attempt ((o.acquire conversation seq w ready).mono fun acquired s after => ?_))
  cases acquired with
  | error e => exact after _
  | ok _ =>
    refine Safe.bind (Safe.attempt ((o.lock conversation seq s after).mono fun locked t after => ?_))
    cases locked with
    | error e =>
      refine Safe.bind (Safe.bind (Safe.attempt ?_))
      exact (o.release _ t (after _)).mono fun _ _ done => done
    | ok _ =>
      refine Safe.bind (Safe.attempt ((o.safe_flushConversation after).mono fun flushed u leaving => ?_))
      refine Safe.bind ((o.safe_unlockConversation leaving).mono fun unlocked v done => ?_)
      obtain ⟨rfl, done⟩ := done
      exact done

omit o in
/-- The row that is loaded is the one asked for. -/
theorem safe_named {L : Except OutboundErr (Option QueuedMessage) → OutboundWorld → Prop} {w : OutboundWorld} (runs : R.exec = outboundExec)
    (loaded : Safe R P (.call c) L (call (I := outboundStore) (.loadMessage id)) w) :
    Safe R P (.call c) (fun r s => L r s ∧ ∀ m, r = .ok (some m) → m.id = id) (call (I := outboundStore) (.loadMessage id)) w := by
  intro t rely inv
  obtain ⟨executed, failed, stopped⟩ := loaded t rely inv
  refine ⟨fun may => ?_, fun faults => ⟨failed faults, fun m reads => by cases reads⟩, stopped⟩
  obtain ⟨inv', others, replied, unreplied⟩ := executed may
  refine ⟨inv', others, ⟨replied, fun m reads => ?_⟩, fun loses => ⟨unreplied loses, fun m reads => by cases reads⟩⟩
  rw [runs] at reads
  obtain ⟨row, -, named, scanned⟩ := loadMessage_eq (Except.ok.inj reads)
  exact (joined_eq scanned).1.trans named

/-- The call is safe, once it is known what it knows of its row. -/
theorem safe_deliver {w : OutboundWorld} (runs : R.exec = outboundExec)
    (loaded : Safe R P (.call c) (Loaded Q o.ready fun on => o.todo on none) (call (I := outboundStore) (.loadMessage id)) w) :
    Safe R P (.call c) Q (deliver c wa id finalAttempt) w := by
  unfold deliver
  refine Safe.bind (Safe.attempt ((safe_named runs loaded).mono fun r s after => ?_))
  match r, after with
  | .error e, after => exact after.1 _
  | .ok none, after => exact after.1
  | .ok (some m), ⟨after, named⟩ =>
    simp only
    cases skips : skipOutbound m with
    | true => exact after.1 skips
    | false =>
      obtain ⟨alone, conversing⟩ := after.2 skips
      simp only [Bool.false_eq_true, if_false]
      cases conversation : m.conversation with
      | none =>
        have own : m.id = id := named m rfl
        have marks : finalAttempt = true ↔ m.id = id ∧ finalAttempt = true := ⟨fun final => ⟨own, final⟩, fun both => both.2⟩
        refine (o.safe_deliverOutbound marks (alone conversation)).mono fun r t done => ?_
        cases r with
        | ok _ => exact o.finish none t done
        | error e =>
          have done : o.todo none (if m.id = id then some e else none) [] t := done
          rw [if_pos own] at done
          exact o.finish (some e) t done
      | some conversation' => exact o.safe_deliverConversation (conversing _ conversation)

end ResultOutline

/-- The same without the error of the own row. -/
structure Outline (R : Roster outboundStore OutboundName OutboundWorld) (P : Protocol OutboundName OutboundWorld)
    (c : OutboundCall) (wa : Option Sender) (Q : Except OutboundErr Unit → OutboundWorld → Prop) where
  ready : String → Int → OutboundWorld → Prop
  acquired : String → Int → OutboundWorld → Prop
  locked : String → Int → OutboundWorld → Prop
  todo : Option OutboundCall → List QueuedMessage → OutboundWorld → Prop
  sent : Option OutboundCall → QueuedMessage → List QueuedMessage → OutboundWorld → Prop
  failed : Option OutboundCall → QueuedMessage → List QueuedMessage → OutboundWorld → Prop
  leaving : Except OutboundErr Unit → OutboundWorld → Prop
  acquire : ∀ conversation seq w, ready conversation seq w → Safe R P (.call c)
    (Replied (fun _ => acquired conversation seq) fun s => ∀ e, Q (.error e) s) (call (I := outboundStore) (.acquire c)) w
  lock : ∀ conversation seq w, acquired conversation seq w → Safe R P (.call c)
    (Replied (fun _ => locked conversation seq) fun s => ∀ e, leaving (.error e) s)
    (call (I := outboundStore) (.lockConversation c (lockKey conversation))) w
  load : ∀ conversation seq w, locked conversation seq w → Safe R P (.call c)
    (Replied (fun backlog => todo (some c) backlog) fun s => ∀ e, leaving (.error e) s)
    (call (I := outboundStore) (.loadBacklog c conversation seq)) w
  unsent : ∀ on m rest w, wa = none ∨ sendRequest m = none → todo on (m :: rest) w → failed on m rest w
  send : ∀ on m rest request outcome w, (∃ sender, wa = some sender ∧ outcome = sender m request) → todo on (m :: rest) w →
    Safe R P (.call c) (Replied (fun _ => sent on m rest) (failed on m rest))
      (call (I := outboundStore) (.send m request outcome)) w
  markSent : ∀ on m rest whatsappMessageID response w, sent on m rest w → Safe R P (.call c) (fun _ => todo on rest)
    (call (I := outboundStore) (.markSent on m.id whatsappMessageID response)) w
  markFailed : ∀ on m rest error w, failed on m rest w → Safe R P (.call c) (fun _ => todo on rest)
    (call (I := outboundStore) (.markFailed on m.id error)) w
  skip : ∀ on m rest w, failed on m rest w → todo on rest w
  finish : ∀ w r, todo none [] w → Q r w
  leave : ∀ w r, todo (some c) [] w → leaving r w
  unlock : ∀ key r w, leaving r w → Safe R P (.call c) (fun _ => leaving r)
    (call (I := outboundStore) (.unlockConversation c key)) w
  release : ∀ r w, leaving r w → Safe R P (.call c) (fun _ => Q r) (call (I := outboundStore) (.release c)) w
  close : ∀ r w, leaving r w → Safe R P (.call c) (fun _ => Q r) (call (I := outboundStore) (.close c)) w

namespace Outline

variable {R : Roster outboundStore OutboundName OutboundWorld} {P : Protocol OutboundName OutboundWorld} {c : OutboundCall}
  {wa : Option Sender} {Q : Except OutboundErr Unit → OutboundWorld → Prop} (o : Outline R P c wa Q)

/-- An outline that does not ask how the own row went. -/
def results (id : String) (finalAttempt : Bool) : ResultOutline R P c wa id finalAttempt Q where
  ready := o.ready
  acquired := o.acquired
  locked := o.locked
  todo on _ := o.todo on
  sent on _ := o.sent on
  failed on _ := o.failed on
  leaving := o.leaving
  acquire := o.acquire
  lock := o.lock
  load := o.load
  unsent on _ := o.unsent on
  send on _ := o.send on
  markSent on _ := o.markSent on
  markFailed on _ m rest error w _ _ failed := (o.markFailed on m rest error w failed).mono fun _ _ done _ => done
  skip on _ m rest w _ failed _ := o.skip on m rest w failed
  finish _ w todo := o.finish w _ todo
  leave _ w todo := o.leave w _ todo
  unlock := o.unlock
  release := o.release
  close := o.close

theorem safe_deliver {id : String} {finalAttempt : Bool} {w : OutboundWorld} (runs : R.exec = outboundExec)
    (loaded : Safe R P (.call c) (Loaded Q o.ready o.todo) (call (I := outboundStore) (.loadMessage id)) w) :
    Safe R P (.call c) Q (deliver c wa id finalAttempt) w := (o.results id finalAttempt).safe_deliver runs loaded

end Outline

end NovoApex.Outbound
