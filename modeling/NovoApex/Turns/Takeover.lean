import NovoApex.Orders.OneOrder
import NovoApex.Workers.Orchestrator

/-!
# Takeovers

A vendor who takes a conversation over pauses its automation: the takeover sets the flag
that every turn reads. A turn reads it once, at its beginning, and the LLM may take
seconds; a turn that has found the flag clear speaks whatever happens meanwhile. A turn
that finds it set still looks at the media first, and apologises when it cannot process it.

So a conversation is quiet while it is taken over in the runs in which no takeover
commits during a turn that is going to speak, and no turn escalates a conversation that
is taken over already.
-/

namespace NovoApex.Turns
set_option autoImplicit false
open Lib Program Db Workers

/-- Nothing was put out by a turn while its conversation was taken over. -/
def QuietWhileTakenOver (w : TurnWorld) : Prop := ∀ e ∈ w.emitted, e.takenOver = false

instance (w : TurnWorld) : Decidable (QuietWhileTakenOver w) := inferInstanceAs (Decidable (∀ e ∈ w.emitted, _))

/-- A takeover waits for the turns that are going to speak, and no turn escalates what is taken over. -/
def keepsPause (w : TurnWorld) : TurnName × TurnStmt → Prop
  | (_, .sql (.takeoverConversation c _)) => ∀ p ∈ w.speaking, p.2 ≠ c
  | (_, .setEscalated c _) => c ∉ w.takenOver
  | _ => True

/-! ## The flag -/

/-- Every conversation is still there, and one that was escalated still is. -/
def FlagsKept (db db' : Database) : Prop :=
  ∀ r ∈ db.conversations.rows, ∃ r' ∈ db'.conversations.rows, r'.id = r.id ∧
    (r.isEscalatedToHuman = true → r'.isEscalatedToHuman = true)

theorem FlagsKept.of_same {db db' : Database} (same : db'.conversations = db.conversations) : FlagsKept db db' :=
  fun r mem => ⟨r, same ▸ mem, rfl, id⟩

theorem FlagsKept.of_update {db db' : Database} {sel : Conversation → Bool} {f : Conversation → Conversation}
    (keeps : ∀ c, (f c).id = c.id) (same : db'.conversations = db.conversations.update sel f keeps)
    (flag : ∀ c, sel c = true → c.isEscalatedToHuman = true → (f c).isEscalatedToHuman = true) : FlagsKept db db' := by
  intro r mem
  refine ⟨Table.rewrite sel f r, ?_, ?_, ?_⟩
  · rw [same]
    exact Table.mem_update.2 ⟨r, mem, rfl⟩
  · cases hs : sel r with
    | false => rw [Table.rewrite_of_neg hs]
    | true => rw [Table.rewrite_of_pos hs, keeps]
  · intro escalated
    cases hs : sel r with
    | false => rwa [Table.rewrite_of_neg hs]
    | true =>
      rw [Table.rewrite_of_pos hs]
      exact flag r hs escalated

theorem FlagsKept.of_cas {db db' : Database} {conversationID : String} {srcs : List ConversationState} {dst : ConversationState}
    (same : db'.conversations = (Domain.compareAndSet conversationID srcs dst db).2.conversations) : FlagsKept db db' :=
  of_update (f := fun c => { c with state := dst }) (fun _ => rfl) same fun _ _ escalated => escalated

theorem transition_flags (conversationID : String) (src dst : ConversationState) (db : Database) :
    FlagsKept db (Domain.transition conversationID src dst db).2 := by
  rcases Domain.transition_cases conversationID src dst db with rejected | ⟨-, moved⟩
  · rw [rejected]
    exact .of_same rfl
  · rw [moved]
    exact .of_cas rfl

/-- The order transaction claims its conversation and writes no other column of it. -/
theorem checkoutTx_conversations {d : CheckoutTx} {db db' : Database} (h : checkoutTx d db = .ok ((), db')) :
    db'.conversations = (Domain.compareAndSet d.conversationID orderableStates .invoicing db).2.conversations := by
  unfold checkoutTx at h
  simp only [Tx.bind_eq_ok] at h
  obtain ⟨_, claimed, claims, _, ordered, orders, _, converted, converts, _, listed, lists, _, taken, takes, b, last, emits, done⟩ := h
  obtain ⟨-, rfl⟩ := claimConversation_eq_ok.1 claims
  obtain ⟨_, _, -, -, -, -, rfl⟩ := insertOrder_eq_ok.1 orders
  obtain ⟨_, converts', -⟩ := convertOrderIntent_spec d _
  obtain rfl : _ = converted := (Prod.mk.inj (Except.ok.inj (converts'.symm.trans converts))).2
  obtain ⟨_, -, -, rfl⟩ := insertOrderItems_eq_ok.1 lists
  obtain ⟨-, -, rfl⟩ := decrementStock_eq_ok.1 takes
  obtain rfl : last = db' := (Prod.mk.inj (Except.ok.inj done)).2
  rcases Events.insert_cases (Events.orderCreatedEvent d.created) _ with ⟨_, -, -, eq⟩ | ⟨-, eq⟩
  · obtain rfl : _ = last := (Prod.mk.inj (Except.ok.inj (eq.symm.trans emits))).2
    rfl
  · obtain rfl : _ = last := (Prod.mk.inj (Except.ok.inj (eq.symm.trans emits))).2
    rfl

/-- A cancellation moves the conversation of its order, or nothing. -/
theorem cancelOrder_flags (orderID reason : String) (now : Nat) (db : Database) :
    FlagsKept db (exec (.cancelOrder orderID reason now) db).2 := by
  show FlagsKept db (beginFunc (cancelOrderTx orderID reason now) db).2
  by_cases none : db.orders.affected (cancellable orderID) = 0
  · have skip : cancelOrderTx orderID reason now db = .ok ((), db) := by simp only [cancelOrderTx, if_pos none]
    rw [beginFunc_ok skip]
    exact .of_same rfl
  · obtain ⟨o, ho, sel⟩ := Table.affected_ne_zero.1 none
    simp only [cancellable, Bool.and_eq_true, decide_eq_true_eq] at sel
    obtain ⟨rfl, isOpen⟩ := sel
    have body := cancelOrderTx_open reason now ho isOpen
    have moved : FlagsKept db (cancelConversation o.conversationID
        { db with orders := setStatus (cancellable o.id) .cancelled now db.orders }) := by
      cases o.conversationID with
      | none => exact .of_same rfl
      | some c => exact transition_flags c _ _ { db with orders := setStatus (cancellable o.id) .cancelled now db.orders }
    rcases Events.insert_cases (Events.orderCancelledEvent ⟨o.id, reason⟩) _ with ⟨_, -, -, eq⟩ | ⟨-, eq⟩
    · rw [eq] at body
      rw [beginFunc_ok body]
      exact moved
    · rw [eq] at body
      rw [beginFunc_ok body]
      exact moved

/-- A direct write that escalates, or that leaves the conversation alone. -/
theorem setConversation_flags (sel : Conversation → Bool) (state : ConversationState) (db : Database) :
    FlagsKept db (setConversation sel state true db).2 :=
  .of_update (f := fun c => { c with state := state, isEscalatedToHuman := true }) (fun _ => rfl) rfl fun _ _ _ => rfl

/-- Only a release clears the flag. -/
theorem exec_flags (op : Stmt) (db : Database) (kept : ∀ c b, op ≠ .releaseConversation c b) : FlagsKept db (exec op db).2 := by
  cases op with
  | checkoutTx d =>
    show FlagsKept db (beginFunc (Workers.checkoutTx d) db).2
    rcases beginFunc_cases (Workers.checkoutTx d) db with ⟨_, db', ok, eq⟩ | ⟨e, -, eq⟩
    · rw [eq]
      exact .of_cas (checkoutTx_conversations ok)
    · rw [eq]
      exact .of_same rfl
  | transition c src dst => exact transition_flags c src dst db
  | cancelOrder o reason now => exact cancelOrder_flags o reason now db
  | restock o now =>
    cases exec_effect (.restock o now) db with
    | same h => exact .of_same h.conversations
    | restocked h => exact .of_same h.conversations
  | insertPayment p =>
    obtain ⟨payments, eq⟩ := insertPayment_frame p db
    rw [eq]
    exact .of_same rfl
  | insertOutbound m =>
    show FlagsKept db (Workers.insertOutbound m db).2
    unfold Workers.insertOutbound
    split <;> exact .of_same rfl
  | insertScheduledFollowUp f =>
    show FlagsKept db (Db.insertScheduledFollowUp f db).2
    unfold Db.insertScheduledFollowUp
    split
    · exact .of_same rfl
    · split
      · exact .of_same rfl
      · split <;> exact .of_same rfl
  | escalateConversationByID c => exact setConversation_flags _ _ db
  | takeoverConversation c b => exact setConversation_flags _ _ db
  | releaseConversation c b => exact (kept c b rfl).elim
  | _ => exact .of_same rfl

/-! ## The invariant -/

/-- Nobody who goes on to speak does so in a conversation that is taken over, and those are flagged. -/
structure Quiet (w : TurnWorld) : Prop where
  emitted : QuietWhileTakenOver w
  speaking : ∀ p ∈ w.speaking, p.2 ∉ w.takenOver
  flagged : ∀ c ∈ w.takenOver, ∃ r ∈ w.db.conversations.rows, r.id = c ∧ r.isEscalatedToHuman = true

theorem Quiet.flags {w : TurnWorld} (h : Quiet w) {db : Database} (kept : FlagsKept w.db db) :
    ∀ c ∈ w.takenOver, ∃ r ∈ db.conversations.rows, r.id = c ∧ r.isEscalatedToHuman = true := by
  intro c taken
  obtain ⟨r, mem, same, escalated⟩ := h.flagged c taken
  obtain ⟨r', mem', same', escalated'⟩ := kept r mem
  exact ⟨r', mem', same'.trans same, escalated' escalated⟩

theorem Quiet.frame {w w' : TurnWorld} (h : Quiet w) (taken : w'.takenOver = w.takenOver) (speaking : w'.speaking = w.speaking)
    (emitted : w'.emitted = w.emitted) (flags : FlagsKept w.db w'.db) : Quiet w' := by
  refine ⟨?_, ?_, ?_⟩
  · intro e mem
    rw [emitted] at mem
    exact h.emitted e mem
  · rw [taken, speaking]
    exact h.speaking
  · rw [taken]
    exact h.flags flags

/-- The statements by which a turn puts something out, and the conversation they do it in. -/
inductive Emits : TurnName → TurnStmt → String → Prop where
  | message {i m} : Emits i (.insertOutboundRow m) m.conversationID
  | checkoutJob {i job} : Emits i (.enqueueCheckout job) job.conversationID
  | transition {n c src dst} : Emits (.turn n) (.sql (.transition c src dst)) c

theorem Quiet.emit {w : TurnWorld} (h : Quiet w) (i : TurnName) {c : String} (output : Output) (free : c ∉ w.takenOver) :
    Quiet (emit i c output w) := by
  refine ⟨?_, h.speaking, h.flagged⟩
  intro e mem
  rcases List.mem_cons.1 mem with rfl | mem
  · exact decide_eq_false free
  · exact h.emitted e mem

/-- A conversation that no one goes on to speak in is taken over. -/
theorem Quiet.takeover {w : TurnWorld} (h : Quiet w) {c b : String} (silent : ∀ p ∈ w.speaking, p.2 ≠ c) (i : TurnName) :
    Quiet (execSql i (.takeoverConversation c b) w).2 := by
  have kept : FlagsKept w.db (takeoverConversation c b w.db).2 := setConversation_flags _ _ w.db
  rw [execSql_takeover]
  split
  · exact h.frame rfl rfl rfl kept
  · rename_i some_
    refine ⟨h.emitted, ?_, ?_⟩
    · intro p mem taken
      rcases List.mem_cons.1 taken with same | taken
      · exact silent p mem same
      · exact h.speaking p mem taken
    · intro k taken
      rcases List.mem_cons.1 taken with rfl | taken
      · obtain ⟨r, mem, sel⟩ := Table.affected_ne_zero.1 some_
        refine ⟨{ r with state := .escalated, isEscalatedToHuman := true }, ?_, ?_, rfl⟩
        · exact List.mem_map.2 ⟨r, mem, Table.rewrite_of_pos sel⟩
        · simp only [Bool.and_eq_true, decide_eq_true_eq] at sel
          exact sel.1
      · exact h.flags kept k taken

/-- A release clears the flag of the one conversation it releases. -/
theorem Quiet.release {w : TurnWorld} (h : Quiet w) (c b : String) (i : TurnName) :
    Quiet (execSql i (.releaseConversation c b) w).2 := by
  -- the rows of other conversations, and all rows when nothing is released, stay as they are
  have others : ∀ k, (k = c → (releaseConversation c b w.db).1 = 0) → k ∈ w.takenOver →
      ∃ r ∈ (releaseConversation c b w.db).2.conversations.rows, r.id = k ∧ r.isEscalatedToHuman = true := by
    intro k away taken
    obtain ⟨r, mem, same, escalated⟩ := h.flagged k taken
    refine ⟨r, ?_, same, escalated⟩
    have unselected : (decide (r.id = c) && decide (r.businessID = b)) = false := by
      by_contra selected
      rw [Bool.not_eq_false] at selected
      have matched := selected
      rw [Bool.and_eq_true, decide_eq_true_eq] at matched
      exact Table.affected_ne_zero.2 ⟨r, mem, selected⟩ (away (same.symm.trans matched.1))
    exact Table.mem_rewrite_of_neg mem unselected
  rw [execSql_release]
  split
  · rename_i nothing
    exact ⟨h.emitted, h.speaking, fun k taken => others k (fun _ => nothing) taken⟩
  · refine ⟨h.emitted, fun p mem taken => h.speaking p mem (List.mem_of_mem_filter taken), fun k taken => ?_⟩
    obtain ⟨taken, away⟩ := List.mem_filter.1 taken
    exact others k (fun same => (of_decide_eq_true away same).elim) taken

/-- A statement of the orders pipeline. -/
theorem Quiet.sql {w : TurnWorld} (h : Quiet w) (i : TurnName) (op : Stmt) (may : keepsPause w (i, .sql op))
    (free : ∀ c, Emits i (.sql op) c → c ∉ w.takenOver) : Quiet (execSql i op w).2 := by
  have plain : (∀ c b, op ≠ .releaseConversation c b) → Quiet { w with db := (exec op w.db).2 } :=
    fun kept => h.frame rfl rfl rfl (exec_flags op w.db kept)
  cases op with
  | takeoverConversation c b => exact h.takeover may i
  | releaseConversation c b => exact h.release c b i
  | transition c src dst =>
    have moved := plain fun _ _ => (nomatch ·)
    rcases execSql_transition i w c src dst with eq | ⟨⟨n, rfl⟩, eq⟩
    · rw [eq]
      exact moved
    · rw [eq]
      exact moved.emit _ _ (free c .transition)
  | checkoutTx d =>
    rcases execSql_checkoutTx i w d with eq | ⟨db', ok, eq⟩
    · rw [eq]
      exact h
    · rw [eq]
      exact h.frame rfl rfl rfl (.of_cas (checkoutTx_conversations ok))
  | _ => exact plain fun _ _ => (nomatch ·)

/-- The conversation that an upsert finds or creates is not taken over, unless it is flagged. -/
theorem Quiet.upsert {w : TurnWorld} (h : Quiet w) (i : TurnName) (id businessID customerPhone : String) :
    Quiet (upsertConversation i id businessID customerPhone w).2 := by
  have heard : ∀ (r : ConversationRead) (w' : TurnWorld), Quiet w' → (r.escalated = false → r.id ∉ w'.takenOver) →
      Quiet (hears i r w') := by
    intro r w' quiet free
    unfold hears
    split
    · exact quiet
    · rename_i clear
      rw [Bool.not_eq_true] at clear
      refine ⟨quiet.emitted, ?_, quiet.flagged⟩
      intro p mem
      rcases List.mem_cons.1 mem with rfl | mem
      · exact free clear
      · exact quiet.speaking p mem
  unfold upsertConversation
  split
  · rename_i c found
    refine heard _ w h fun clear taken => ?_
    obtain ⟨r, mem, same, escalated⟩ := h.flagged _ taken
    obtain rfl := Table.eq_of_key mem (List.mem_of_find?_eq_some found) same
    exact absurd (clear.symm.trans escalated) (by decide)
  · split
    · rename_i conversations inserted
      obtain ⟨fresh, rows⟩ := Table.insert_eq_some.1 inserted
      have kept : FlagsKept w.db { w.db with conversations := conversations } := by
        intro r mem
        refine ⟨r, ?_, rfl, fun escalated => escalated⟩
        rw [rows]
        exact List.mem_append_left _ mem
      have quiet : Quiet { w with db := { w.db with conversations := conversations } } := h.frame rfl rfl rfl kept
      refine heard ⟨id, .lead, false⟩ _ quiet fun _ taken => ?_
      obtain ⟨r, mem, same, -⟩ := h.flagged id taken
      exact fresh r mem same
    · exact h

/-- The step lemma: a statement keeps the conversations quiet, if what it puts out is not in one that is taken over. -/
theorem Quiet.step {w : TurnWorld} (h : Quiet w) (i : TurnName) (op : TurnStmt) (may : keepsPause w (i, op))
    (free : ∀ c, Emits i op c → c ∉ w.takenOver) : Quiet (turnExec (i, op) w).2 := by
  have plain : ∀ {w' : TurnWorld}, w'.takenOver = w.takenOver → w'.speaking = w.speaking → w'.emitted = w.emitted →
      w'.db.conversations = w.db.conversations → Quiet w' :=
    fun taken speaking emitted same => h.frame taken speaking emitted (.of_same same)
  cases op with
  | receive m =>
    unfold turnExec
    simp only
    split <;> exact plain rfl rfl rfl rfl
  | upsertCustomer id businessID phone =>
    show Quiet (upsertCustomer id businessID phone w).2
    unfold upsertCustomer
    split
    · exact h
    · split
      · exact plain rfl rfl rfl rfl
      · exact h
  | upsertConversation id businessID customerPhone => exact h.upsert i id businessID customerPhone
  | setEscalated c reason =>
    have escalates : FlagsKept w.db (setEscalated c w.db) :=
      .of_update (f := fun c => { c with isEscalatedToHuman := true }) (fun _ => rfl) rfl fun _ _ _ => rfl
    refine ⟨h.emitted, ?_, h.flags escalates⟩
    intro p mem
    rcases List.mem_cons.1 mem with rfl | mem
    · exact may
    · exact h.speaking p mem
  | insertOutboundRow m =>
    unfold turnExec
    simp only
    split
    · rename_i w' inserted
      obtain ⟨outbound, rfl⟩ := insertTurnMessage_ok inserted
      exact (plain rfl rfl rfl rfl : Quiet { w with outbound := outbound }).emit i _ (free _ .message)
    · exact h
  | stageOrderIntent id businessID customerID conversationID ttl =>
    unfold turnExec
    simp only
    split
    · rename_i staged db' ok
      obtain ⟨intents, rfl, -⟩ := stageOrderIntent_ok ok
      exact plain rfl rfl rfl rfl
    · exact h
  | enqueueCheckout job =>
    exact (plain rfl rfl rfl rfl : Quiet { w with checkoutJobs := w.checkoutJobs ++ [job] }).emit i _ (free _ .checkoutJob)
  | sql op => exact h.sql i op may free
  | finish => exact ⟨h.emitted, fun p mem => h.speaking p (List.mem_of_mem_filter mem), h.flagged⟩
  | _ => exact plain rfl rfl rfl rfl

/-! ## Who speaks -/

/-- Whoever goes on to speak does so until his own end. -/
theorem speaking_kept {w : TurnWorld} {i j : TurnName} {op : TurnStmt} {c : String} (goes : j ≠ i ∨ op ≠ .finish)
    (speaks : (j, c) ∈ w.speaking) : (j, c) ∈ (turnExec (i, op) w).2.speaking := by
  cases op with
  | receive m =>
    unfold turnExec
    simp only
    split <;> exact speaks
  | upsertCustomer id businessID phone =>
    show (j, c) ∈ (upsertCustomer id businessID phone w).2.speaking
    unfold upsertCustomer
    split
    · exact speaks
    · split <;> exact speaks
  | upsertConversation id businessID customerPhone =>
    have heard : ∀ (r : ConversationRead) (w' : TurnWorld), w'.speaking = w.speaking → (j, c) ∈ (hears i r w').speaking := by
      intro r w' same
      unfold hears
      split
      · exact same ▸ speaks
      · exact List.mem_cons_of_mem _ (same ▸ speaks)
    show (j, c) ∈ (upsertConversation i id businessID customerPhone w).2.speaking
    unfold upsertConversation
    split
    · exact heard _ _ rfl
    · split
      · exact heard _ _ rfl
      · exact speaks
  | setEscalated conversationID reason => exact List.mem_cons_of_mem _ speaks
  | insertOutboundRow m =>
    unfold turnExec
    simp only
    split
    · rename_i w' inserted
      obtain ⟨outbound, rfl⟩ := insertTurnMessage_ok inserted
      exact speaks
    · exact speaks
  | stageOrderIntent id businessID customerID conversationID ttl =>
    unfold turnExec
    simp only
    split <;> exact speaks
  | sql op =>
    show (j, c) ∈ (execSql i op w).2.speaking
    cases op with
    | takeoverConversation k b =>
      rw [execSql_takeover]
      split <;> exact speaks
    | releaseConversation k b =>
      rw [execSql_release]
      split <;> exact speaks
    | transition k src dst =>
      rcases execSql_transition i w k src dst with eq | ⟨-, eq⟩ <;> rw [eq] <;> exact speaks
    | checkoutTx d =>
      rcases execSql_checkoutTx i w d with eq | ⟨db', -, eq⟩ <;> rw [eq] <;> exact speaks
    | _ => exact speaks
  | finish =>
    rcases goes with other | going
    · exact List.mem_filter.2 ⟨speaks, decide_eq_true other⟩
    · exact (going rfl).elim
  | _ => exact speaks

/-- The flow in which the pause is kept, and what everybody relies on: to be still among those who go on to speak. -/
def pausedFlow : Roster (turnStore.signed TurnName) TurnName TurnWorld := turnFlow keepsPause

def pauseProtocol : Protocol TurnName TurnWorld where
  inv := Quiet
  rely i w w' := ∀ c, (i, c) ∈ w.speaking → (i, c) ∈ w'.speaking
  refl _ _ _ speaks := speaks
  trans _ _ _ _ first second c speaks := second c (first c speaks)

/-- Nothing is put out by the statement, except in `c`. -/
def Addresses (i : TurnName) (c : Option String) (op : TurnStmt) : Prop := op ≠ .finish ∧ ∀ c', Emits i op c' → some c' = c

section Safety

variable {α : Type} {i : TurnName} {w : TurnWorld}

theorem Quiet.others {w : TurnWorld} {i : TurnName} {op : TurnStmt} :
    ∀ j, j ≠ i → pauseProtocol.rely j w (turnExec (i, op) w).2 :=
  fun _ other _ speaks => speaking_kept (.inl other) speaks

/-- A handler that puts nothing out. -/
theorem safe_silent {p : TurnHandler α} (uses : p.Uses fun op => ∀ c, ¬ Emits i op c) :
    Safe pausedFlow pauseProtocol i (fun _ _ => True) (p.signed i) w := by
  have signed : (p.signed i).Uses fun op : TurnName × TurnStmt => op.1 = i ∧ ∀ c, ¬ Emits i op.2 c := Uses.signed (uses.mono fun op silent => ⟨rfl, silent⟩)
  refine Safe.of_uses signed (fun op t silent inv may => ?_) fun _ => trivial
  obtain ⟨j, op⟩ := op
  obtain ⟨rfl, silent⟩ := silent
  exact ⟨Quiet.step inv j op may fun c emits => (silent c emits).elim, Quiet.others⟩

/-- A turn that goes on to speak, and speaks in its conversation only. -/
theorem safe_speaking {p : TurnHandler α} {c : String} (uses : p.Uses (Addresses i (some c))) (speaks : (i, c) ∈ w.speaking) :
    Safe pausedFlow pauseProtocol i (fun _ t => (i, c) ∈ t.speaking) (p.signed i) w := by
  have signed : (p.signed i).Uses fun op : TurnName × TurnStmt => op.1 = i ∧ Addresses i (some c) op.2 :=
    Uses.signed (uses.mono fun op addresses => ⟨rfl, addresses⟩)
  refine Safe.of_uses_known signed (fun _ _ rely known => rely c known) speaks (fun op t addresses known inv may => ?_)
    fun _ _ => trivial
  obtain ⟨j, op⟩ := op
  obtain ⟨rfl, going, here⟩ := addresses
  refine ⟨Quiet.step inv j op may fun c' emits => ?_, Quiet.others, speaking_kept (.inr going) known⟩
  obtain rfl := Option.some.inj (here c' emits)
  exact inv.speaking _ known

/-- What comes after statements that put nothing out. -/
theorem safe_silent_bind {β : Type} {p : TurnHandler α} {f : α → TurnHandler β} {Q : Except TurnErr β → TurnWorld → Prop}
    (uses : p.Uses fun op => ∀ c, ¬ Emits i op c) (error : ∀ e t, Q (.error e) t)
    (rest : ∀ a t, Safe pausedFlow pauseProtocol i Q ((f a).signed i) t) :
    Safe pausedFlow pauseProtocol i Q ((p >>= f).signed i) w := by
  rw [bind_eq, signed_bind]
  refine Safe.bind ((safe_silent uses).mono fun r t _ => ?_)
  cases r with
  | ok a => exact rest a t
  | error e => exact error e t

end Safety

/-! ## The turn -/

section Turn

variable {n : Nat} {w : TurnWorld}

theorem Reads.silent {i : TurnName} {op : TurnStmt} (h : Reads op) (c : String) : ¬ Emits i op c := by
  intro emits
  cases emits <;> exact h

theorem Acts.addresses {i : TurnName} {oc : OrchContext} {op : TurnStmt} (h : Acts oc op) :
    Addresses i (some oc.conversationID) op := by
  refine ⟨?_, fun c emits => ?_⟩
  · rintro rfl
    cases h with
    | speaks speaks =>
      cases speaks with
      | reads reads => exact reads
  · cases h with
    | orders own =>
      cases emits
      exact congrArg some own
    | speaks speaks =>
      cases speaks with
      | reads reads => exact (reads.silent c emits).elim
      | message own =>
        cases emits
        exact congrArg some own
      | transition =>
        cases emits
        rfl
      | escalates => cases emits
      | active => cases emits
      | stages => cases emits

/-- A turn that finds the conversation not escalated goes on to speak in it. -/
theorem upsertConversation_hears {i : TurnName} {id businessID customerPhone : String} {r : ConversationRead}
    (h : (upsertConversation i id businessID customerPhone w).1 = .ok r) (clear : r.escalated = false) :
    (i, r.id) ∈ (upsertConversation i id businessID customerPhone w).2.speaking := by
  have heard : ∀ w' : TurnWorld, (i, r.id) ∈ (hears i r w').speaking := by
    intro w'
    unfold hears
    rw [clear]
    exact List.mem_cons_self
  unfold upsertConversation at h ⊢
  split at h
  · obtain rfl := Except.ok.inj h
    exact heard _
  · split at h
    · obtain rfl := Except.ok.inj h
      exact heard _
    · cases h

/-- What a turn knows once it has resolved its conversation. -/
def Resolved (n : Nat) (resolved : Option OrchContext) (t : TurnWorld) : Prop :=
  ∀ oc, resolved = some oc → oc.escalated = false → (.turn n, oc.conversationID) ∈ t.speaking

/-- A statement that puts nothing out, and what its reply says. -/
theorem safe_wrapped {i : TurnName} {op : TurnStmt} {text : String} {A : op.Reply → TurnWorld → Prop} (silent : ∀ c, ¬ Emits i op c)
    (reply : ∀ t, pauseProtocol.rely i w t → ∀ a, (turnExec (i, op) t).1 = .ok a → A a (turnExec (i, op) t).2) :
    Safe pausedFlow pauseProtocol i (Replied A fun _ => True) ((wrapped text op).signed i) w := by
  intro t rely inv
  refine ⟨fun may => ⟨?_, ?_, ?_, fun _ => trivial⟩, fun _ => trivial, fun _ => trivial⟩
  · exact Quiet.step inv i op may fun c emits => (silent c emits).elim
  · exact Quiet.others
  · show Replied A (fun _ => True) ((turnExec (i, op) t).1.mapError _) _
    cases answer : (turnExec (i, op) t).1 with
    | ok a => exact reply t rely a answer
    | error e => trivial

theorem safe_resolve (x : TurnInput) (job : OrchestratorJob) :
    Safe pausedFlow pauseProtocol (.turn n) (Replied (Resolved n) fun _ => True)
      ((orchResolveConversationContext x job).signed (.turn n)) w := by
  refine safe_silent_bind (uses_wrapped fun c emits => nomatch emits) (fun _ _ => trivial) fun business t => ?_
  cases business with
  | none => exact fun oc absurd => nomatch absurd
  | some business =>
    obtain ⟨businessID, currency⟩ := business
    refine safe_silent_bind (uses_wrapped fun c emits => nomatch emits) (fun _ _ => trivial) fun customerID t => ?_
    have captures : (onlyIf x.organic (orchCaptureAcquisitionChannel x)).Uses fun op => ∀ c, ¬ Emits (.turn n) op c :=
      uses_onlyIf (Uses.bind (uses_wrapped fun c emits => nomatch emits) fun _ =>
        uses_onlyIf (uses_wrapped fun c emits => nomatch emits))
    refine safe_silent_bind captures (fun _ _ => trivial) fun _ t => ?_
    refine safe_silent_bind (uses_wrapped fun c emits => nomatch emits) (fun _ _ => trivial) fun _ t => ?_
    refine safe_silent_bind (uses_wrapped fun c emits => nomatch emits) (fun _ _ => trivial) fun _ t => ?_
    rw [bind_eq, signed_bind]
    have upserts : Safe pausedFlow pauseProtocol (.turn n)
        (Replied (fun r t => r.escalated = false → (.turn n, r.id) ∈ t.speaking) fun _ => True)
        ((wrapped "orchestrator: upsert conversation" (.upsertConversation x.conversationID businessID job.senderPhone)).signed
          (.turn n)) t :=
      safe_wrapped (fun c emits => nomatch emits) fun t _ r answer clear => upsertConversation_hears answer clear
    refine Safe.bind (upserts.mono fun r t known => ?_)
    cases r with
    | error e => trivial
    | ok c =>
      simp only
      rw [bind_eq, signed_bind]
      have backfills : Safe pausedFlow pauseProtocol (.turn n)
          (Replied (fun _ t => c.escalated = false → (.turn n, c.id) ∈ t.speaking) fun _ => True)
          ((wrapped "orchestrator: backfill inbound links"
            (.backfill job.recipientPhone job.senderPhone businessID c.id)).signed (.turn n)) t :=
        safe_wrapped (fun c emits => nomatch emits) fun t rely _ _ clear => rely _ (known clear)
      refine Safe.bind (backfills.mono fun r t known => ?_)
      cases r with
      | error e => trivial
      | ok _ =>
        intro oc same clear
        obtain rfl := Option.some.inj same
        exact known clear

/-- A turn may escalate what is not taken over, and apologise. -/
theorem safe_escalateBranch (x : TurnInput) (conversationID reason notice : String) :
    Safe pausedFlow pauseProtocol (.turn n) (fun _ _ => True) ((escalateBranch x conversationID reason notice).signed (.turn n)) w := by
  have escalates : Safe pausedFlow pauseProtocol (.turn n)
      (Replied (fun _ t => (.turn n, conversationID) ∈ t.speaking) fun _ => True)
      ((orchSetEscalated conversationID reason).signed (.turn n)) w :=
    safe_wrapped (fun c emits => nomatch emits) fun t _ _ _ => List.mem_cons_self
  unfold escalateBranch orchEscalate
  rw [bind_eq, bind_eq, bind_assoc, signed_bind]
  refine Safe.bind (escalates.mono fun r t known => ?_)
  cases r with
  | error e => trivial
  | ok _ =>
    simp only
    refine (safe_speaking (c := conversationID) ?_ known).mono fun _ _ _ => trivial
    refine Uses.bind (Uses.bind (uses_wrapped ⟨(nomatch ·), fun c emits => nomatch emits⟩) fun _ => ?_) fun _ => trivial
    refine uses_enqueueOutbound (fun op reads => ⟨?_, fun c emits => (reads.silent c emits).elim⟩) fun status => ⟨(nomatch ·), ?_⟩
    · rintro rfl
      exact reads
    · intro c emits
      cases emits
      rfl

/-- A turn that finds the conversation escalated only looks at the media. -/
theorem safe_media (x : TurnInput) (conversationID : String) (latest : Option InboundMessage) :
    Safe pausedFlow pauseProtocol (.turn n) (fun _ _ => True)
      ((orchProcessMediaPayload x conversationID latest).signed (.turn n)) w := by
  unfold orchProcessMediaPayload
  split
  · trivial
  · simp only
    split
    · trivial
    · split
      · exact safe_escalateBranch x _ _ _
      · split
        · exact safe_escalateBranch x _ _ _
        · split
          · trivial
          · split
            · exact safe_escalateBranch x _ _ _
            · unfold transcribeAudio
              split
              · exact safe_escalateBranch x _ _ _
              · split
                · trivial
                · exact safe_silent_bind (uses_wrapped fun c emits => nomatch emits) (fun _ _ => trivial) fun _ _ => trivial

theorem safe_converse (x : TurnInput) (oc : OrchContext)
    (known : oc.escalated = false → (.turn n, oc.conversationID) ∈ w.speaking) :
    Safe pausedFlow pauseProtocol (.turn n) (fun _ _ => True) ((converse x oc).signed (.turn n)) w := by
  cases escalated : oc.escalated with
  | false => exact (safe_speaking (converse_uses.mono fun _ => Acts.addresses) (known escalated)).mono fun _ _ _ => trivial
  | true =>
    refine safe_silent_bind (uses_wrapped fun c emits => nomatch emits) (fun _ _ => trivial) fun latest t => ?_
    rw [bind_eq, signed_bind]
    refine Safe.bind ((safe_media x oc.conversationID latest).mono fun text t _ => ?_)
    cases text with
    | error e => trivial
    | ok text =>
      cases text with
      | none => trivial
      | some textContent =>
        -- the guard looks at the flag only here
        simp only [orchEnforceSafetyGuardrails, escalated, if_true]
        trivial

theorem safe_turn (x : TurnInput) (job : OrchestratorJob) :
    Safe pausedFlow pauseProtocol (.turn n) (fun _ _ => True) ((turn x job).signed (.turn n)) w := by
  have handles : Safe pausedFlow pauseProtocol (.turn n) (fun _ _ => True)
      ((handleDebouncedConversation x job).signed (.turn n)) w := by
    unfold handleDebouncedConversation
    rw [bind_eq, signed_bind]
    refine Safe.bind ((safe_resolve x job).mono fun resolved t known => ?_)
    cases resolved with
    | error e => trivial
    | ok resolved =>
      cases resolved with
      | none => trivial
      | some oc => exact safe_converse x oc (known oc rfl)
  have finishes : ∀ t, Safe pausedFlow pauseProtocol (.turn n) (fun _ _ => True)
      ((call (I := turnStore) .finish).signed (.turn n)) t := fun t => safe_silent (uses_call.2 fun c emits => nomatch emits)
  unfold turn ignore
  rw [bind_eq, bind_eq, signed_bind, signed_bind, signed_attempt]
  refine Safe.bind (Safe.bind (Safe.attempt (handles.mono fun r t _ => ?_)))
  exact finishes t

end Turn

/-! ## Runs -/

/-- Whatever runs under a name keeps the pause. -/
theorem safe_job {i : TurnName} {p : Program (turnStore.signed TurnName) Unit} {w : TurnWorld} (job : TurnJob i p) :
    Safe pausedFlow pauseProtocol i (fun _ _ => True) p w := by
  -- a statement of the orders pipeline is an output only in the hands of a turn
  have sql : ∀ {j : TurnName} {q : Handler Unit}, (∀ n, j ≠ .turn n) →
      (embed sqlStatements q).Uses fun op => ∀ c, ¬ Emits j op c := by
    intro j q other
    refine Uses.embed (Uses.of_forall (fun op c emits => ?_) q)
    cases emits
    exact other _ rfl
  cases job with
  | turn n x job => exact safe_turn x job
  | recover n => exact safe_silent (uses_call.2 fun c emits => nomatch emits)
  | checkout n k d generated =>
    exact safe_silent (Uses.bind (uses_call.2 fun c emits => nomatch emits) fun job => sql fun _ => (nomatch ·))
  | takeover n businessID id => exact safe_silent (sql fun _ => (nomatch ·))
  | release n businessID id => exact safe_silent (sql fun _ => (nomatch ·))
  | beside n q uses => exact safe_silent (sql fun _ => (nomatch ·))
  | outside n op outside =>
    refine safe_silent (uses_logged fun c emits => ?_)
    cases emits <;> exact outside

/-- Nothing has been put out or taken over yet. -/
def Unspoken (w : TurnWorld) : Prop := w.emitted = [] ∧ w.takenOver = [] ∧ w.speaking = []

instance (w : TurnWorld) : Decidable (Unspoken w) := inferInstanceAs (Decidable (_ ∧ _))

theorem Unspoken.quiet {w : TurnWorld} (h : Unspoken w) : Quiet w := by
  obtain ⟨emitted, taken, speaking⟩ := h
  refine ⟨?_, ?_, ?_⟩
  · intro e mem
    rw [emitted] at mem
    cases mem
  · intro p mem
    rw [speaking] at mem
    cases mem
  · intro c mem
    rw [taken] at mem
    cases mem

/-- In every run of turns, takeovers, releases, checkouts and whatever else goes on in which no takeover commits while a turn
goes on to speak in the conversation, and no turn escalates a conversation that is taken over, nothing is put out by a turn
between a takeover of its conversation and the next release. -/
theorem quiet_while_taken_over {w : TurnWorld} {c : Crew (turnStore.signed TurnName) TurnName TurnWorld} (start : Unspoken w)
    (run : (turnFlow keepsPause).Reach ⟨w, []⟩ c) : QuietWhileTakenOver c.state := by
  have kept : Quiet c.state := Protocol.invariant (R := pausedFlow) (P := pauseProtocol)
    (fun _ _ _ job _ _ => safe_job job) run start.quiet fun _ => trivial
  exact kept.emitted

instance (w : TurnWorld) (op : TurnName × TurnStmt) : Decidable (keepsPause w op) := by
  unfold keepsPause
  split <;> infer_instance

instance (w : TurnWorld) (op : TurnName × TurnStmt) : Decidable ((turnFlow keepsPause).allow w op) :=
  inferInstanceAs (Decidable (keepsPause w op))

instance (w : TurnWorld) (op : TurnName × TurnStmt) : Decidable ((turnFlow unhindered).allow w op) := isTrue trivial

instance (allow : TurnWorld → TurnName × TurnStmt → Prop) (w : TurnWorld) (op : TurnName × TurnStmt) :
    Decidable ((turnFlow allow).faults w op) := isTrue trivial

/-! ## A customer writes -/

/-- A message of the customer. -/
def message (id : String) (messageType : Option String) (text : String) (timestamp : Nat) : InboundMessage :=
  ⟨id, some ("wamid-" ++ id), "+233200000001", "number", some "biz", some "conv", messageType, none, some text, timestamp⟩

/-- The shop, with a number and the messages of its customer. -/
def shopWith (inbound : Table InboundMessage.id) : TurnWorld where
  clock := 10
  db := Orders.shop
  numbers := ⟨[⟨"number", "biz"⟩], by decide⟩
  inbound := inbound
  outbound := Table.empty
  primaryImage _ := none
  checkoutJobs := []
  takenOver := []
  speaking := []
  emitted := []
  placements := []

/-- The customer asks for a piece. -/
def asked : TurnWorld := shopWith ⟨[message "1" (some "text") "One piece, please" 5], by decide⟩

/-- The answer of the LLM to a customer who confirms one piece. -/
def confirmed : LlmResponse where
  replyText := "Your order is on its way to you."
  internalConfidence := 9 / 10
  intent := .checkoutRequest
  customerRequestedImages := false
  sendProductImageIDs := []
  orderConfirmed := true
  detectedItems := [⟨"0a1b2c3d", 1⟩]
  fulfillmentChoice := none
  pickupLocationID := none

/-- What a turn draws that gets this answer. -/
def input (n : String) : TurnInput where
  customerID := "customer-" ++ n
  conversationID := "conversation-" ++ n
  outboundID k := "out-" ++ n ++ "-" ++ toString k
  intentID := "intent-" ++ n
  organic := false
  referral := false
  returning := false
  media := false
  download := .error "not found"
  transcript := .error "not found"
  response := .ok confirmed

def debounced : OrchestratorJob := ⟨"number", "+233200000001"⟩

/-- A turn under its name. -/
def turnOf (n : Nat) (x : TurnInput) : Program (turnStore.signed TurnName) Unit := (turn x debounced).signed (.turn n)

/-- The vendor takes the conversation over. -/
def takeoverOf (n : Nat) : Program (turnStore.signed TurnName) Unit :=
  (embed sqlStatements (ignore (Handlers.conversationTakeover "biz" "conv"))).signed (.vendor n)

/-- A turn, then a takeover, then another turn. -/
def answered : TurnWorld := ((turnOf 1 (input "1")).run turnExec asked).2

def takenAfter : TurnWorld := ((takeoverOf 1).run turnExec answered).2

def pausedAfter : TurnWorld := ((turnOf 2 (input "2")).run turnExec takenAfter).2

theorem asked_unspoken : Unspoken asked := ⟨rfl, rfl, rfl⟩

theorem quiet_while_taken_over_in_turn : ∃ c : Crew (turnStore.signed TurnName) TurnName TurnWorld,
    c.state.emitted.length = 3 ∧ c.state.takenOver = ["conv"] ∧ QuietWhileTakenOver c.state := by
  have first : (turnFlow keepsPause).Reach ⟨asked, []⟩ ⟨answered, []⟩ :=
    (turnFlow keepsPause).reach_job (i := .turn 1) (p := turnOf 1 (input "1")) (.turn 1 (input "1") debounced) (by decide +kernel)
  have taken : (turnFlow keepsPause).Reach ⟨answered, []⟩ ⟨takenAfter, []⟩ :=
    (turnFlow keepsPause).reach_job (i := .vendor 1) (p := takeoverOf 1) (.takeover 1 "biz" "conv") (by decide +kernel)
  have second : (turnFlow keepsPause).Reach ⟨takenAfter, []⟩ ⟨pausedAfter, []⟩ :=
    (turnFlow keepsPause).reach_job (i := .turn 2) (p := turnOf 2 (input "2")) (.turn 2 (input "2") debounced) (by decide +kernel)
  have quiet := quiet_while_taken_over asked_unspoken (first.trans (taken.trans second))
  exact ⟨⟨pausedAfter, []⟩, by decide +kernel, by decide +kernel, quiet⟩

/-! ## A takeover during a turn -/

/-- The turn has read the flag, and the LLM is thinking. -/
def thinking : Program (turnStore.signed TurnName) Unit × TurnWorld := (turnOf 1 (input "1")).steps turnExec 11 asked

/-- Meanwhile the vendor takes over. -/
def takenDuring : TurnWorld := ((takeoverOf 1).run turnExec thinking.2).2

/-- The customer sends a photo; the media service is not there. -/
def photographed : TurnWorld := shopWith ⟨[message "1" (some "image") "Do you have this?" 5], by decide⟩

def takenBefore : TurnWorld := ((takeoverOf 1).run turnExec photographed).2

def apologised : TurnWorld := ((turnOf 1 (input "1")).run turnExec takenBefore).2

/-- A turn that has read the flag answers and confirms an order after the takeover, and a turn that reads it later apologises
for the photo it cannot look at. -/
theorem spoken_while_taken_over :
    (∃ c : Crew (turnStore.signed TurnName) TurnName TurnWorld, (turnFlow unhindered).Reach ⟨asked, []⟩ c ∧
      ¬ QuietWhileTakenOver c.state) ∧
    ∃ c : Crew (turnStore.signed TurnName) TurnName TurnWorld, (turnFlow unhindered).Reach ⟨photographed, []⟩ c ∧
      ¬ QuietWhileTakenOver c.state := by
  have started : (turnFlow unhindered).Step ⟨asked, []⟩ ⟨asked, [(.turn 1, turnOf 1 (input "1"))]⟩ :=
    .spawn (.turn 1 (input "1") debounced) List.not_mem_nil
  have thinks : (turnFlow unhindered).Reach ⟨asked, [(.turn 1, turnOf 1 (input "1"))]⟩ ⟨thinking.2, [(.turn 1, thinking.1)]⟩ :=
    (turnFlow unhindered).reach_steps 11 [] [] (by decide +kernel)
  have comes : (turnFlow unhindered).Step ⟨thinking.2, [(.turn 1, thinking.1)]⟩
      ⟨thinking.2, [(.vendor 1, takeoverOf 1), (.turn 1, thinking.1)]⟩ := .spawn (.takeover 1 "biz" "conv") (by decide)
  have takes := (turnFlow unhindered).reach_end (p := takeoverOf 1) (i := .vendor 1) [] [(.turn 1, thinking.1)] (s := thinking.2)
    (by decide +kernel)
  have speaks := (turnFlow unhindered).reach_end (p := thinking.1) (i := .turn 1)
    [(.vendor 1, .ret ((takeoverOf 1).run turnExec thinking.2).1)] [] (s := takenDuring) (by decide +kernel)
  have taken : (turnFlow unhindered).Reach ⟨photographed, []⟩ ⟨takenBefore, []⟩ :=
    (turnFlow unhindered).reach_job (i := .vendor 1) (p := takeoverOf 1) (.takeover 1 "biz" "conv") (by decide +kernel)
  have apologises : (turnFlow unhindered).Reach ⟨takenBefore, []⟩ ⟨apologised, []⟩ :=
    (turnFlow unhindered).reach_job (i := .turn 1) (p := turnOf 1 (input "1")) (.turn 1 (input "1") debounced) (by decide +kernel)
  refine ⟨⟨_, ((((Relation.ReflTransGen.single started).trans thinks).tail comes).trans takes).trans speaks, ?_⟩,
    ⟨_, taken.trans apologises, ?_⟩⟩
  · decide +kernel
  · decide +kernel

end NovoApex.Turns
