import NovoApex.Lib.Crew
import NovoApex.Orders.OneOrder

/-!
# The writers of a conversation's state

Checkouts, payment events, the expiry sweep and turns all move the state column
through `Transition`, `TransitionTx` or `TransitionToTx`, each with the sources it
believes in. The store of `pipeline` is run here together with the calls it makes,
so that a change of a row can be held against the call that made it: the states a
conversation goes through are those of its successful calls, one link a call.
-/

namespace NovoApex.Conversations
set_option autoImplicit false
open Lib Workers Domain Program

/-- A call of `Transition`, `TransitionTx` or `TransitionToTx`: its arguments, what it returned, and the tables it found and
left. A call within a transaction finds and leaves the transaction's own; they count once committed. -/
structure TransitionCall where
  conversationID : String
  srcs : List ConversationState
  dst : ConversationState
  returned : Bool
  before : Database
  after : Database
  committed : Bool

/-- A call of `Transition` or `TransitionTx`. -/
def transitionCall (conversationID : String) (src dst : ConversationState) (committed : Bool) (db : Database) : TransitionCall where
  conversationID := conversationID
  srcs := [src]
  dst := dst
  returned := (transition conversationID src dst db).1
  before := db
  after := (transition conversationID src dst db).2
  committed := committed

/-- A call of `TransitionToTx`. -/
def transitionToCall (conversationID : String) (srcs : List ConversationState) (dst : ConversationState) (committed : Bool)
    (db : Database) : TransitionCall where
  conversationID := conversationID
  srcs := srcs
  dst := dst
  returned := (transitionToTx conversationID srcs dst db).1
  before := db
  after := (transitionToTx conversationID srcs dst db).2
  committed := committed

/-- The body of a transaction comes through. -/
def commits {α : Type} (body : Tx α) (db : Database) : Bool :=
  match body db with
  | .ok _ => true
  | .error _ => false

/-- The calls a statement of the store makes: the transition itself, the claim that opens the order transaction, and the one
within `cancelOrder`, behind its update of the order. -/
def callsOf : Stmt → Database → List TransitionCall
  | .transition c src dst, db => [transitionCall c src dst true db]
  | .checkoutTx d, db => [transitionToCall d.conversationID orderableStates .invoicing (commits (Workers.checkoutTx d) db) db]
  | .cancelOrder orderID reason now, db =>
    if db.orders.affected (cancellable orderID) = 0 then []
    else
      let db₁ := { db with orders := setStatus (cancellable orderID) .cancelled now db.orders }
      match Workers.conversationOfOrder orderID db₁ with
      | .ok (some c) => [transitionCall c .invoicing .cancelled (commits (cancelOrderTx orderID reason now) db) db₁]
      | _ => []
  | _, _ => []

/-- The tables and the calls made so far. -/
structure Logged where
  db : Database
  calls : List TransitionCall

/-- Execute a statement and log its calls. -/
def loggedExec : store.Exec Logged := fun op s => ((exec op s.db).1, ⟨(exec op s.db).2, s.calls ++ callsOf op s.db⟩)

/-- The worker-side jobs. -/
def workerJob : Job → Bool
  | .checkout .. | .payment .. | .expiry .. | .restock .. | .turn .. => true
  | _ => false

/-- Any number of worker-side jobs. A turn carries the state it read, however long ago. -/
def conversationWorkers : Roster store (Option Nat) Logged where
  exec := loggedExec
  job i p := i ≠ none ∧ ∃ j, workerJob j = true ∧ p = j.program
  allow := fun _ _ => True

/-! ## What a call does -/

/-- A call that returned true moved its conversation, and no other, from one of its sources along an edge of the table; one that
returned false changed nothing. -/
structure TransitionCall.Right (call : TransitionCall) : Prop where
  moved : call.returned = true → (∃ src ∈ call.srcs, call.dst ∈ validTransitions src ∧
      call.before.stateOf call.conversationID = some src) ∧
    ∀ k, call.after.stateOf k = if k = call.conversationID then some call.dst else call.before.stateOf k
  kept : call.returned = false → call.after = call.before

/-- The call changed the committed state of `k`. -/
def TransitionCall.moves (k : String) (call : TransitionCall) : Bool :=
  decide (call.conversationID = k) && call.returned && call.committed

/-- The calls link up from the first state to the second: each found what the one before it left. -/
def Linked (k : String) : Option ConversationState → List TransitionCall → Option ConversationState → Prop
  | s, [], t => t = s
  | s, call :: rest, t => call.before.stateOf k = s ∧ Linked k (call.after.stateOf k) rest t

theorem Linked.append {k : String} {calls calls' : List TransitionCall} {s t u : Option ConversationState}
    (first : Linked k s calls t) (second : Linked k t calls' u) : Linked k s (calls ++ calls') u := by
  induction calls generalizing s with
  | nil =>
    obtain rfl : t = s := first
    exact second
  | cons call rest ih => exact ⟨first.1, ih first.2⟩

variable {conversationID : String} {srcs : List ConversationState} {src dst : ConversationState} {db : Database}

/-- An update that matches no row changes no table. -/
theorem compareAndSet_false (rejected : (compareAndSet conversationID srcs dst db).1 = false) :
    (compareAndSet conversationID srcs dst db).2 = db := by
  have none : ∀ c ∈ db.conversations.rows, (decide (c.id = conversationID) && decide (c.state ∈ srcs)) = false := by
    refine Table.affected_eq_zero.1 ?_
    have single := Table.affected_le_one (t := db.conversations) (k := conversationID)
      (p := fun c => decide (c.id = conversationID) && decide (c.state ∈ srcs)) (by simp +contextual)
    have other : ¬ db.conversations.affected (fun c => decide (c.id = conversationID) && decide (c.state ∈ srcs)) = 1 := by
      simpa [compareAndSet] using rejected
    omega
  unfold compareAndSet
  simp only
  rw [Table.update_none none]

/-- An update that matches moves its conversation, and no other, from the source it holds. -/
theorem compareAndSet_true (legal : ∀ src ∈ srcs, validateTransition src dst = true)
    (moved : (compareAndSet conversationID srcs dst db).1 = true) :
    (∃ src ∈ srcs, dst ∈ validTransitions src ∧ db.stateOf conversationID = some src) ∧
      ∀ k, (compareAndSet conversationID srcs dst db).2.stateOf k = if k = conversationID then some dst else db.stateOf k := by
  constructor
  · obtain ⟨src, mem, here⟩ := compareAndSet_fst.1 moved
    exact ⟨src, mem, of_decide_eq_true (legal src mem), here⟩
  · intro k
    rw [stateOf_compareAndSet]
    simp only [moved, and_true]

theorem transitionCall_right (committed : Bool) : (transitionCall conversationID src dst committed db).Right := by
  unfold transitionCall
  rcases transition_cases conversationID src dst db with same | ⟨legal, same⟩
  · rw [same]
    exact ⟨fun returned => (by cases returned), fun _ => rfl⟩
  · rw [same]
    have single : ∀ s ∈ [src], validateTransition s dst = true := fun s mem => by rwa [List.mem_singleton.1 mem]
    exact ⟨compareAndSet_true single, compareAndSet_false⟩

theorem transitionToCall_right (committed : Bool) : (transitionToCall conversationID srcs dst committed db).Right := by
  unfold transitionToCall transitionToTx
  split
  · exact ⟨fun returned => (by cases returned), fun _ => rfl⟩
  · split
    · rename_i legal
      exact ⟨compareAndSet_true (List.all_eq_true.1 legal), compareAndSet_false⟩
    · exact ⟨fun returned => (by cases returned), fun _ => rfl⟩

/-! ## What a statement does -/

/-- The second log continues the first: by calls that are right, and whose moves link the states of every conversation. -/
structure Continues (s t : Logged) : Prop where
  calls : ∃ new, t.calls = s.calls ++ new ∧ (∀ call ∈ new, call.Right) ∧
    ∀ k, Linked k (s.db.stateOf k) (new.filter (TransitionCall.moves k)) (t.db.stateOf k)

theorem Continues.refl (s : Logged) : Continues s s :=
  ⟨[], (List.append_nil _).symm, fun _ mem => (by cases mem), fun _ => rfl⟩

theorem Continues.trans {s t u : Logged} (first : Continues s t) (second : Continues t u) : Continues s u := by
  obtain ⟨new, grown, right, linked⟩ := first.calls
  obtain ⟨new', grown', right', linked'⟩ := second.calls
  refine ⟨new ++ new', by rw [grown', grown, List.append_assoc], fun call mem => ?_, fun k => ?_⟩
  · rcases List.mem_append.1 mem with mem | mem
    · exact right call mem
    · exact right' call mem
  · rw [List.filter_append]
    exact (linked k).append (linked' k)

/-- A statement that makes no call and leaves the states alone. -/
theorem continues_quiet {s : Logged} {op : Stmt} (silent : callsOf op s.db = [])
    (same : ∀ k, (exec op s.db).2.stateOf k = s.db.stateOf k) : Continues s (loggedExec op s).2 := by
  refine ⟨[], ?_, fun _ mem => (by cases mem), same⟩
  simp only [loggedExec, silent]

/-- A statement that makes one call: the states it leaves are those of the call if that moved and was committed. -/
theorem continues_call {s : Logged} {op : Stmt} {call : TransitionCall} (made : callsOf op s.db = [call]) (right : call.Right)
    (found : ∀ k, call.before.stateOf k = s.db.stateOf k)
    (left : ∀ k, (exec op s.db).2.stateOf k = if call.moves k = true then call.after.stateOf k else s.db.stateOf k) :
    Continues s (loggedExec op s).2 := by
  refine ⟨[call], by simp only [loggedExec, made], ?_, fun k => ?_⟩
  · intro c mem
    obtain rfl := List.mem_singleton.1 mem
    exact right
  · show Linked k _ _ ((exec op s.db).2.stateOf k)
    rw [left k]
    by_cases moves : call.moves k = true
    · rw [List.filter_cons_of_pos moves, if_pos moves]
      exact ⟨found k, rfl⟩
    · rw [List.filter_cons_of_neg moves, if_neg moves]
      rfl

/-- What a right call leaves of the states, if it is committed. -/
theorem TransitionCall.Right.left {call : TransitionCall} (right : call.Right) (committed : call.committed = true) (k : String) :
    call.after.stateOf k = if call.moves k = true then call.after.stateOf k else call.before.stateOf k := by
  split
  · rfl
  · rename_i stays
    simp only [TransitionCall.moves, committed, Bool.and_true, Bool.and_eq_true, decide_eq_true_eq, not_and,
      Bool.not_eq_true] at stays
    cases returned : call.returned with
    | false => rw [right.kept returned]
    | true =>
      rw [(right.moved returned).2 k, if_neg]
      intro same
      rw [stays same.symm] at returned
      cases returned

theorem continues_transition (c : String) (src dst : ConversationState) (s : Logged) :
    Continues s (loggedExec (.transition c src dst) s).2 := by
  have right : (transitionCall c src dst true s.db).Right := transitionCall_right true
  exact continues_call rfl right (fun _ => rfl) (right.left rfl)

theorem commits_iff {α : Type} {body : Tx α} {db : Database} : commits body db = true ↔ ∃ a t, body db = .ok (a, t) := by
  unfold commits
  cases body db with
  | ok p => exact ⟨fun _ => ⟨p.1, p.2, rfl⟩, fun _ => rfl⟩
  | error e => simp

theorem continues_checkoutTx (d : CheckoutTx) (s : Logged) : Continues s (loggedExec (.checkoutTx d) s).2 := by
  have right : (transitionToCall d.conversationID orderableStates .invoicing (commits (Workers.checkoutTx d) s.db) s.db).Right :=
    transitionToCall_right _
  refine continues_call rfl right (fun _ => rfl) fun k => ?_
  show (beginFunc (Workers.checkoutTx d) s.db).2.stateOf k = _
  rcases beginFunc_cases (Workers.checkoutTx d) s.db with ⟨_, t, ok, eq⟩ | ⟨e, failed, eq⟩
  · obtain ⟨accepts, placed⟩ := checkoutTx_ok ok
    have committed : commits (Workers.checkoutTx d) s.db = true := commits_iff.2 ⟨_, _, ok⟩
    have returned : (transitionToTx d.conversationID orderableStates .invoicing s.db).1 = true :=
      compareAndSet_fst.2 accepts.orderable
    rw [eq, placed.claimed k]
    simp only [TransitionCall.moves, transitionToCall, committed, returned, Bool.and_true, decide_eq_true_eq]
    by_cases here : k = d.conversationID
    · rw [if_pos here, if_pos here.symm]
      exact (((right.moved returned).2 k).trans (if_pos here)).symm
    · rw [if_neg here, if_neg (Ne.symm here)]
  · have aborted : commits (Workers.checkoutTx d) s.db = false := by
      unfold commits
      rw [failed]
    rw [eq, if_neg]
    simp only [TransitionCall.moves, transitionToCall, aborted, Bool.and_false, Bool.false_eq_true, not_false_iff]

/-- The call within `cancelOrder` finds the states the transaction began with, and the transaction leaves what it left. -/
theorem continues_cancelOrder (orderID reason : String) (now : Nat) (s : Logged) :
    Continues s (loggedExec (.cancelOrder orderID reason now) s).2 := by
  by_cases none : s.db.orders.affected (cancellable orderID) = 0
  · have skip : cancelOrderTx orderID reason now s.db = .ok ((), s.db) := by simp only [cancelOrderTx, if_pos none]
    refine continues_quiet (by simp only [callsOf, if_pos none]) fun k => ?_
    show (beginFunc (cancelOrderTx orderID reason now) s.db).2.stateOf k = _
    rw [beginFunc_ok skip]
  · obtain ⟨o, ho, sel⟩ := Table.affected_ne_zero.1 none
    simp only [cancellable, Bool.and_eq_true, decide_eq_true_eq] at sel
    obtain ⟨rfl, isOpen⟩ := sel
    have found : Workers.conversationOfOrder o.id { s.db with orders := setStatus (cancellable o.id) .cancelled now s.db.orders } =
        .ok o.conversationID := conversationOfOrder_cancelled ho isOpen now
    obtain ⟨t, ran, conversations⟩ := cancelOrderTx_states reason now ho isOpen
    have left : ∀ k, (exec (.cancelOrder o.id reason now) s.db).2.stateOf k =
        (cancelConversation o.conversationID
          { s.db with orders := setStatus (cancellable o.id) .cancelled now s.db.orders }).stateOf k := by
      intro k
      show (beginFunc (cancelOrderTx o.id reason now) s.db).2.stateOf k = _
      rw [beginFunc_ok ran]
      unfold Database.stateOf
      rw [conversations]
    have committed : commits (cancelOrderTx o.id reason now) s.db = true := commits_iff.2 ⟨_, _, ran⟩
    cases conv : o.conversationID with
    | none =>
      refine continues_quiet (by simp only [callsOf, if_neg none, found, conv]) fun k => ?_
      rw [left k, conv]
      rfl
    | some c =>
      have right : (transitionCall c .invoicing .cancelled true
          { s.db with orders := setStatus (cancellable o.id) .cancelled now s.db.orders }).Right := transitionCall_right true
      refine continues_call (by simp only [callsOf, if_neg none, found, conv, committed]) right (fun _ => rfl) fun k => ?_
      rw [left k, conv]
      exact right.left rfl k

/-! ## Runs -/

/-- The statements worker-side jobs issue: all but a vendor's writes. -/
def workerStmt : Stmt → Bool
  | .escalateConversationByID .. | .takeoverConversation .. | .releaseConversation .. => false
  | _ => true

theorem continues_exec {op : Stmt} (worker : workerStmt op = true) (s : Logged) : Continues s (loggedExec op s).2 := by
  have other : ∀ {op : Stmt}, callsOf op s.db = [] → (∀ k, (exec op s.db).2.stateOf k = s.db.stateOf k) →
      Continues s (loggedExec op s).2 := fun silent same => continues_quiet silent same
  have effect := exec_effect op s.db
  cases op with
  | transition c src dst => exact continues_transition c src dst s
  | checkoutTx d => exact continues_checkoutTx d s
  | cancelOrder o reason now => exact continues_cancelOrder o reason now s
  | escalateConversationByID c => cases worker
  | takeoverConversation c b => cases worker
  | releaseConversation c b => cases worker
  | restock o now =>
    refine other rfl fun k => ?_
    generalize (exec (.restock o now) s.db).2 = t at effect
    cases effect with
    | same h => exact h.stateOf k
    | restocked h =>
      unfold Database.stateOf
      rw [h.conversations]
  | markOrderPaid o now => exact other rfl fun k => rfl
  | updateOrderFulfillment st o b now => exact other rfl fun k => rfl
  | _ => exact other rfl (effect.of_quiet trivial).stateOf

/-- A worker-side job issues no vendor's write. -/
theorem workerJob_uses {j : Job} (worker : workerJob j = true) : j.program.Uses fun op => workerStmt op = true := by
  refine j.program_uses.mono fun op issues => ?_
  cases issues with
  | quiet quiet =>
    cases op with
    | escalateConversationByID c => exact False.elim quiet
    | takeoverConversation c b => exact False.elim quiet
    | releaseConversation c b => exact False.elim quiet
    | _ => rfl
  | escalate => cases worker
  | takeover => cases worker
  | release => cases worker
  | _ => rfl

/-- The log is all a writer relies on the others for. -/
def transitionProtocol : Protocol (Option Nat) Logged where
  inv := fun _ => True
  rely := fun _ => Continues
  refl := fun _ => Continues.refl
  trans := fun _ _ _ _ => Continues.trans

theorem callsOf_length (op : Stmt) (db : Database) : (callsOf op db).length ≤ 1 := by
  unfold callsOf
  split
  · exact le_rfl
  · exact le_rfl
  · split
    · exact Nat.zero_le 1
    · simp only
      split
      · exact le_rfl
      · exact Nat.zero_le 1
  · exact Nat.zero_le 1

/-- Nothing leads out of ESCALATED: no move of a conversation begins there. -/
theorem Linked.escalated {k : String} {calls : List TransitionCall} {t : Option ConversationState}
    (right : ∀ call ∈ calls, call.Right) (linked : Linked k (some .escalated) (calls.filter (TransitionCall.moves k)) t) :
    t = some .escalated := by
  cases moves : calls.filter (TransitionCall.moves k) with
  | nil =>
    rw [moves] at linked
    exact linked
  | cons call rest =>
    rw [moves] at linked
    have mem : call ∈ calls.filter (TransitionCall.moves k) := by
      rw [moves]
      exact List.mem_cons_self
    obtain ⟨made, moved⟩ := List.mem_filter.1 mem
    simp only [TransitionCall.moves, Bool.and_eq_true, decide_eq_true_eq] at moved
    obtain ⟨⟨here, returned⟩, -⟩ := moved
    obtain ⟨src, -, edge, found⟩ := ((right call made).moved returned).1
    rw [here, linked.1] at found
    obtain rfl : .escalated = src := Option.some.inj found
    cases edge

/-- In every run of the worker-side writers, the calls made between two crews are right, and the states every conversation goes
through are those of its committed moves: each found what the one before it left, so each true call is one change along an
edge, and there is no other. A step makes one call at most, and ESCALATED is never left. -/
theorem transitions_linked {db : Database} {a b : Crew store (Option Nat) Logged}
    (reach : conversationWorkers.Reach ⟨⟨db, []⟩, []⟩ a) (later : conversationWorkers.Reach a b) :
    ∃ new, b.state.calls = a.state.calls ++ new ∧ (∀ call ∈ new, call.Right) ∧
      (∀ k, Linked k (a.state.db.stateOf k) (new.filter (TransitionCall.moves k)) (b.state.db.stateOf k)) ∧
      (conversationWorkers.Step a b → new.length ≤ 1) ∧
      ∀ k, a.state.db.stateOf k = some .escalated → b.state.db.stateOf k = some .escalated := by
  have safe : ∀ i p s, conversationWorkers.job i p → transitionProtocol.inv s → transitionProtocol.idle i s →
      Safe conversationWorkers transitionProtocol i (fun _ => transitionProtocol.idle i) p s := by
    rintro i p s ⟨-, j, worker, rfl⟩ - -
    refine Safe.of_uses (workerJob_uses worker) (fun op t may _ _ => ?_) fun _ => trivial
    exact ⟨trivial, fun _ _ => continues_exec may t⟩
  have outside : ∀ p, ¬ conversationWorkers.job none p := fun p may => may.1 rfl
  have continues : Continues a.state b.state := Protocol.observed (P := transitionProtocol) Protocol.promise_idle safe reach later
    trivial (fun _ => trivial) outside
  obtain ⟨new, grown, right, linked⟩ := continues.calls
  refine ⟨new, grown, right, linked, fun step => ?_, fun k escalated => ?_⟩
  · rcases step.effect with same | ⟨op, -, eq⟩
    · rw [same] at grown
      rw [List.append_right_eq_self.1 grown.symm]
      exact Nat.zero_le 1
    · have made : b.state.calls = a.state.calls ++ callsOf op a.state.db := by rw [eq]; rfl
      rw [List.append_cancel_left (grown.symm.trans made)]
      exact callsOf_length op a.state.db
  · have from_ := linked k
    rw [escalated] at from_
    exact Linked.escalated right from_

/-! ## A stale turn -/

/-- The log after the jobs ran one after the other. -/
def runLogged : List Job → Logged → Logged
  | [], s => s
  | j :: js, s => runLogged js (j.program.run loggedExec s).2

theorem reach_logged {js : List Job} (worker : ∀ j ∈ js, workerJob j = true) (s : Logged) :
    conversationWorkers.Reach ⟨s, []⟩ ⟨runLogged js s, []⟩ := by
  have follows : ∀ (p : Handler Unit) (t : Logged), conversationWorkers.Follows p t := by
    intro p
    induction p with
    | ret r => exact fun _ => trivial
    | stmt op next ih => exact fun t => ⟨trivial, ih _ _⟩
  induction js generalizing s with
  | nil => exact .refl
  | cons j js ih =>
    have may : conversationWorkers.job (some 0) j.program := ⟨Option.some_ne_none 0, j, worker j List.mem_cons_self, rfl⟩
    exact (Roster.reach_job may (follows _ s)).trans (ih (fun j mem => worker j (List.mem_cons_of_mem _ mem)) _)

/-- An order is placed, a turn that still believes the customer is browsing moves nothing, and the order is paid. -/
def staleTurn : List Job :=
  [Orders.orderOne "order-1" "m1", .turn "conv" .browsing .checkoutRequest, Orders.charge "charge.success" "order-1" "p1"]

theorem transitions_linked_stale :
    (runLogged staleTurn ⟨Orders.shop, []⟩).calls.map TransitionCall.returned = [true, false, true] ∧
      Linked "conv" (some .browsing) ((runLogged staleTurn ⟨Orders.shop, []⟩).calls.filter (TransitionCall.moves "conv"))
        (some .paid) := by
  have worker : ∀ j ∈ staleTurn, workerJob j = true := by decide
  obtain ⟨new, grown, -, linked, -⟩ := transitions_linked .refl (reach_logged worker ⟨Orders.shop, []⟩)
  have begins : Orders.shop.stateOf "conv" = some .browsing := by decide
  have ends : (runLogged staleTurn ⟨Orders.shop, []⟩).db.stateOf "conv" = some .paid := by decide +kernel
  have from_ := linked "conv"
  simp only at from_ grown
  rw [begins, ends] at from_
  rw [List.nil_append] at grown
  rw [← grown] at from_
  exact ⟨by decide +kernel, from_⟩

end NovoApex.Conversations
