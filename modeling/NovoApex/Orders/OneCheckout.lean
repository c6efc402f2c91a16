import NovoApex.Orders.OneOrder

/-!
# Orders per conversation

Checkouts and turns alone never take a conversation out of INVOICING, so they
commit one order however they interleave. A vendor's release writes LEAD over any
state: with it the guarantee holds as long as the conversation released has no
open order. Independently of all that, the idempotency key keeps a confirming
message from ordering twice.
-/

namespace NovoApex.Orders
set_option autoImplicit false
open Lib Workers

/-- The number of orders a conversation has. -/
def ordersOf (db : Database) (c : String) : Nat := db.orders.rows.countP fun o => decide (o.conversationID = some c)

/-- A checkout adds an order to its own conversation only. -/
theorem ordersOf_placed {db db' : Database} {d : CheckoutTx} (placed : Placed d db db') (c : String) :
    ordersOf db' c = ordersOf db c + if crmText d.conversationID = some c then 1 else 0 := by
  obtain ⟨total, -, rows⟩ := placed.order
  unfold ordersOf
  rw [rows, List.countP_append, List.countP_singleton]
  by_cases here : crmText d.conversationID = some c <;> simp [CheckoutTx.order, here]

theorem crmText_eq_some {s c : String} (h : crmText s = some c) : s = c := by
  unfold crmText at h
  split at h
  · cases h
  · exact Option.some.inj h

/-! ## The conversation after its order -/

/-- The conversation is in a state no checkout can claim and no turn can leave. -/
def Closed (db : Database) (c : String) : Prop := db.stateOf c = some .invoicing ∨ db.stateOf c = some .escalated

/-- The invariant: from `n` orders on, the conversation got no order, or it got one that is still open and
is closed to further ones. -/
def OrderedOnce (n : Nat) (c : String) (db : Database) : Prop :=
  ordersOf db c = n ∨ ordersOf db c = n + 1 ∧ HasOpenOrder db c ∧ Closed db c

theorem OrderedOnce.le {n : Nat} {c : String} {db : Database} (h : OrderedOnce n c db) : ordersOf db c ≤ n + 1 := by
  rcases h with h | ⟨h, -⟩ <;> omega

/-- Writes that keep the orders, and the conversation closed. -/
theorem OrderedOnce.same {n : Nat} {c : String} {db db' : Database} (h : OrderedOnce n c db)
    (orders : db'.orders = db.orders)
    (stays : HasOpenOrder db c → Closed db c → Closed db' c) : OrderedOnce n c db' := by
  unfold OrderedOnce ordersOf HasOpenOrder at *
  rw [orders]
  rcases h with h | ⟨h, isOpen, closed⟩
  · exact .inl h
  · exact .inr ⟨h, isOpen, stays isOpen closed⟩

theorem Closed.of_stateOf {db db' : Database} {c : String} (h : db'.stateOf c = db.stateOf c) (closed : Closed db c) :
    Closed db' c := by
  unfold Closed
  rw [h]
  exact closed

theorem OrderedOnce.placed {n : Nat} {c : String} {db db' : Database} (h : OrderedOnce n c db) {d : CheckoutTx}
    (accepts : Accepts d db) (placed : Placed d db db') : OrderedOnce n c db' := by
  have count := ordersOf_placed placed c
  have state := placed.claimed c
  obtain ⟨total, -, rows⟩ := placed.order
  by_cases here : crmText d.conversationID = some c
  · obtain rfl := crmText_eq_some here
    rw [if_pos here] at count
    rw [if_pos rfl] at state
    rcases h with h | ⟨-, -, closed⟩
    · refine .inr ⟨by omega, ⟨d.order total, ?_, rfl, here⟩, .inl state⟩
      rw [rows]
      simp
    · -- a closed conversation is not orderable
      obtain ⟨s, hs, at_⟩ := accepts.orderable
      rcases closed with closed | closed <;> rw [closed] at at_ <;> obtain rfl := Option.some.inj at_ <;>
        exact absurd hs (by decide)
  · rw [if_neg here, Nat.add_zero] at count
    rcases h with h | ⟨h, ⟨o, ho, isOpen, conv⟩, closed⟩
    · exact .inl (by omega)
    · refine .inr ⟨by omega, ⟨o, ?_, isOpen, conv⟩, ?_⟩
      · rw [rows]
        exact List.mem_append_left _ ho
      · by_cases same : c = d.conversationID
        · exact .inl (state.trans (if_pos same))
        · exact closed.of_stateOf (state.trans (if_neg same))

/-- A turn never moves a conversation that is closed to orders. -/
theorem turn_from_closed {intent : Intent} {current dst : ConversationState} (h : turnTarget intent current = some dst)
    (legal : Domain.validateTransition current dst = true) : current ≠ .invoicing ∧ current ≠ .escalated := by
  refine ⟨turnTarget_invoicing h, ?_⟩
  rintro rfl
  cases legal

/-- An escalation keeps every closed conversation closed. -/
theorem escalation_closed {db db' : Database} {k c : String}
    (written : StateWritten k .escalated db db') (closed : Closed db c) : Closed db' c := by
  rcases written.states c with same | ⟨-, escalated⟩
  · exact closed.of_stateOf same
  · exact .inr escalated

/-! ## Checkouts, turns and the vendor -/

/-- Checkouts, turns, takeover, release and order escalation. -/
def conversationJobs : Job → Bool
  | .checkout .. | .turn .. | .takeover .. | .release .. | .escalate .. => true
  | _ => false

/-- A release hands back a conversation without open orders. -/
def ReleasesIdle (db : Database) : Stmt → Prop
  | .releaseConversation c _ => ¬ HasOpenOrder db c
  | _ => True

instance (db : Database) : DecidablePred (ReleasesIdle db) := fun op => by
  unfold ReleasesIdle
  split <;> infer_instance

theorem OrderedOnce.step {n : Nat} {c : String} {db db' : Database} {j : Job} {op : Stmt}
    (hj : conversationJobs j = true) (issues : Issues j op) (may : ReleasesIdle db op) (h : OrderedOnce n c db)
    (effect : Effect db op db') : OrderedOnce n c db' := by
  cases effect with
  | same same => exact h.same same.orders fun _ => Closed.of_stateOf (same.stateOf c)
  | placed accepts placed => exact h.placed accepts placed
  | moved orders domainEvents states =>
    cases issues with
    | quiet quiet => exact quiet.elim
    | settle => cases hj
    | turn target =>
      refine h.same orders fun _ closed => closed.of_stateOf ?_
      rw [states, if_neg]
      rintro ⟨rfl, legal, at_⟩
      obtain ⟨notInvoicing, notEscalated⟩ := turn_from_closed target legal
      rcases closed with closed | closed <;> rw [closed] at at_
      · exact notInvoicing (Option.some.inj at_).symm
      · exact notEscalated (Option.some.inj at_).symm
  | escalated written => exact h.same written.orders fun _ => escalation_closed written
  | taken written => exact h.same written.orders fun _ => escalation_closed written
  | released written =>
    refine h.same written.orders fun isOpen closed => ?_
    rcases written.states c with same | ⟨rfl, -⟩
    · exact closed.of_stateOf same
    · exact (may isOpen).elim
  | paid | cancelled | restocked | fulfilled =>
    cases issues <;> first | cases hj | exact False.elim ‹_›

/-- In every run of checkouts, turns and vendor actions whose releases find no open order, a conversation gets
at most one order. -/
theorem one_order_unless_released {db : Database} {pool : Pool store Database} (c : String)
    (run : (pipeline conversationJobs ReleasesIdle).Reach ⟨db, []⟩ pool) :
    ordersOf pool.state c ≤ ordersOf db c + 1 := by
  have keeps : (pipeline conversationJobs ReleasesIdle).Keeps (OrderedOnce (ordersOf db c) c) (MayIssue conversationJobs) :=
    pipeline_keeps fun hj _ issues may inv effect => inv.step hj issues may effect
  exact (keeps.invariant run (.inl rfl)).le

/-- The vendor takes the conversation over to answer a question and hands it back. -/
def takeoverAndRelease : List Job :=
  [orderOne "order-1" "m1", .takeover "biz" "conv", .release "biz" "conv", orderOne "order-2" "m2"]

/-- After the release the conversation is orderable again although its order is still open. -/
theorem second_order_after_release : ∃ pool, (pipeline conversationJobs unrestricted).Reach ⟨shop, []⟩ pool ∧
    ¬ ordersOf pool.state "conv" ≤ ordersOf shop "conv" + 1 := by
  refine ⟨⟨runJobs takeoverAndRelease shop, []⟩, reach_jobs (by decide +kernel), ?_⟩
  decide +kernel

/-- A release before the order is harmless. -/
def releaseThenOrder : List Job :=
  [.takeover "biz" "conv", .release "biz" "conv", orderOne "order-1" "m1", orderOne "order-2" "m2"]

theorem one_order_after_idle_release : ordersOf (runJobs releaseThenOrder shop) "conv" = 1 ∧
    ordersOf (runJobs releaseThenOrder shop) "conv" ≤ ordersOf shop "conv" + 1 :=
  ⟨by decide +kernel, one_order_unless_released "conv"
    (reach_jobs (by decide +kernel : Runnable conversationJobs ReleasesIdle releaseThenOrder shop))⟩

/-! ## Checkouts and turns alone -/

/-- Checkouts and turns. -/
def checkoutsAndTurns : Job → Bool
  | .checkout .. | .turn .. => true
  | _ => false

theorem OrderedOnce.step_of_checkouts {n : Nat} {c : String} {db db' : Database} {j : Job} {op : Stmt}
    (hj : checkoutsAndTurns j = true) (issues : Issues j op) (h : OrderedOnce n c db) (effect : Effect db op db') :
    OrderedOnce n c db' := by
  have known : conversationJobs j = true := by
    cases j with
    | checkout | turn => rfl
    | _ => cases hj
  have noRelease : ReleasesIdle db op := by
    cases issues with
    | release => cases hj
    | quiet quiet =>
      unfold ReleasesIdle
      split
      · exact quiet.elim
      · exact trivial
    | _ => exact trivial
  exact h.step known issues noRelease effect

/-! ## Idempotency keys -/

/-- At most one order carries a given non-empty source message id. -/
def KeysUnique (db : Database) : Prop :=
  ∀ message, message ≠ "" → ∀ o ∈ db.orders.rows, ∀ o' ∈ db.orders.rows,
    o.idempotencyKey = some message → o'.idempotencyKey = some message → o = o'

theorem KeysUnique.placed {db db' : Database} (h : KeysUnique db) {d : CheckoutTx} (accepts : Accepts d db)
    (placed : Placed d db db') : KeysUnique db' := by
  obtain ⟨total, -, rows⟩ := placed.order
  -- the new key was free
  have free : ∀ o ∈ db.orders.rows, ∀ message, o.idempotencyKey = some message →
      (d.order total).idempotencyKey ≠ some message := by
    intro o ho message key key'
    have taken : idempotencyKeyTaken db (crmText d.sourceMessageID) = true := by
      have keyed : crmText d.sourceMessageID = some message := key'
      rw [keyed]
      simp only [idempotencyKeyTaken, Option.isSome_some, Bool.true_and, List.any_eq_true, beq_iff_eq]
      exact ⟨o, ho, key⟩
    rw [accepts.freshKey] at taken
    cases taken
  intro message nonempty o ho o' ho' key key'
  rw [rows] at ho ho'
  rcases List.mem_append.1 ho with ho | ho
  · rcases List.mem_append.1 ho' with ho' | ho'
    · exact h message nonempty o ho o' ho' key key'
    · obtain rfl := List.mem_singleton.1 ho'
      exact (free o ho message key key').elim
  · obtain rfl := List.mem_singleton.1 ho
    rcases List.mem_append.1 ho' with ho' | ho'
    · exact (free o' ho' message key' key).elim
    · exact (List.mem_singleton.1 ho').symm

theorem KeysUnique.step {db db' : Database} {op : Stmt} (h : KeysUnique db) (effect : Effect db op db') :
    KeysUnique db' := by
  rcases effect.orders_cases with ⟨d, -, accepts, placed⟩ | ⟨f, fixed, rows⟩
  · exact h.placed accepts placed
  · intro message nonempty o ho o' ho' key key'
    rw [rows] at ho ho'
    obtain ⟨r, hr, rfl⟩ := List.mem_map.1 ho
    obtain ⟨r', hr', rfl⟩ := List.mem_map.1 ho'
    rw [Order.fixed_idempotencyKey (fixed r)] at key
    rw [Order.fixed_idempotencyKey (fixed r')] at key'
    rw [h message nonempty r hr r' hr' key key']

/-- Any run of checkouts and turns commits at most one order per conversation, and any run at all keeps the
source message ids of the orders distinct. -/
theorem checkout_commits_once :
    (∀ (db : Database) (pool : Pool store Database) (c : String),
      (pipeline checkoutsAndTurns unrestricted).Reach ⟨db, []⟩ pool → ordersOf pool.state c ≤ ordersOf db c + 1) ∧
    ∀ (db : Database) (pool : Pool store Database), KeysUnique db →
      (pipeline (fun _ => true) unrestricted).Reach ⟨db, []⟩ pool → KeysUnique pool.state := by
  refine ⟨fun db pool c run => ?_, fun db pool unique run => ?_⟩
  · have keeps : (pipeline checkoutsAndTurns unrestricted).Keeps (OrderedOnce (ordersOf db c) c)
        (MayIssue checkoutsAndTurns) :=
      pipeline_keeps fun hj _ issues _ inv effect => inv.step_of_checkouts hj issues effect
    exact (keeps.invariant run (.inl rfl)).le
  · have keeps : (pipeline (fun _ => true) unrestricted).Keeps KeysUnique (MayIssue fun _ => true) :=
      pipeline_keeps fun _ _ _ _ inv effect => inv.step effect
    exact keeps.invariant run unique

/-- A duplicated job, a second message and a stale turn. -/
def repeatedCheckouts : List Job :=
  [orderOne "order-1" "m1", orderOne "order-2" "m1", .turn "conv" .browsing .checkoutRequest, orderOne "order-3" "m2"]

theorem checkout_commits_once_repeated : ordersOf (runJobs repeatedCheckouts shop) "conv" = 1 ∧
    ordersOf (runJobs repeatedCheckouts shop) "conv" ≤ ordersOf shop "conv" + 1 ∧
    KeysUnique (runJobs repeatedCheckouts shop) := by
  refine ⟨by decide +kernel, ?_, ?_⟩
  · exact checkout_commits_once.1 shop _ "conv"
      (reach_jobs (by decide +kernel : Runnable checkoutsAndTurns unrestricted repeatedCheckouts shop))
  · refine checkout_commits_once.2 shop _ (fun _ _ o ho => nomatch ho)
      (reach_jobs (by decide +kernel : Runnable (fun _ => true) unrestricted repeatedCheckouts shop))

end NovoApex.Orders
