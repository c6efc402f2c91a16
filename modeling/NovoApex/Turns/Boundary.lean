import NovoApex.Lib.Guarded
import NovoApex.Turns.History

/-!
# The order boundary of the history

The history starts after the latest settled order, by its `updated_at`. A payment writes
that column, but so does every later fulfillment update, which moves the start of the
history with it: `ordersFulfillment_keeps_history_iff`.
-/

namespace NovoApex.Turns.History
set_option autoImplicit false
open Lib Program Handlers

theorem Ties.steady_stable : Ties.stable.Steady := ⟨Sorting.steady_stable, Sorting.steady_stable, Sorting.steady_stable⟩

section TwoBoundaries

variable {ties : Ties} {A B : List Order} {records : Records} {conversationID : String} {now : Int}

/-- No message that could be shown after one boundary is before the other. -/
def KeepsShown (A B : List Order) (records : Records) (conversationID : String) (now : Int) : Prop :=
  ∀ x ∈ eligible A records conversationID now, ¬ InWindow B records conversationID now x.time →
    shows sessionGap (eligible A records conversationID now) x = false

theorem InWindow.later {t u : Int} (within : InWindow A records conversationID now t) (le : t ≤ u) :
    InWindow A records conversationID now u := by
  obtain ⟨recent, settled⟩ := within
  refine ⟨by omega, fun o here counts => ?_⟩
  have := settled o here counts
  omega

/-- One of two boundaries is not later than the other. -/
theorem nested_or (A B : List Order) (records : Records) (conversationID : String) (now : Int) :
    (∀ t, InWindow B records conversationID now t → InWindow A records conversationID now t) ∨
      ∀ t, InWindow A records conversationID now t → InWindow B records conversationID now t := by
  rcases Int.le_total (since A records conversationID now) (since B records conversationID now) with le | le
  · refine .inl fun t within => ?_
    rw [← since_lt] at within ⊢
    omega
  · refine .inr fun t within => ?_
    rw [← since_lt] at within ⊢
    omega

theorem window_of_eligible {x : Item} (mem : x ∈ eligible A records conversationID now) :
    InWindow A records conversationID now x.time := by
  rw [eligible_eq] at mem
  rcases List.mem_append.1 mem with inbound | outbound
  · obtain ⟨m, row, rfl⟩ := List.mem_map.1 inbound
    have tests := (List.mem_filter.1 row).2
    rw [Bool.and_eq_true, decide_eq_true_eq, decide_eq_true_eq] at tests
    exact tests.2
  · obtain ⟨m, row, rfl⟩ := List.mem_map.1 outbound
    have tests := (List.mem_filter.1 row).2
    rw [Bool.and_eq_true, Bool.and_eq_true, decide_eq_true_eq, decide_eq_true_eq] at tests
    exact tests.1.2

/-- Only the window depends on the orders. -/
theorem fetch_congr (same : ∀ t, InWindow A records conversationID now t ↔ InWindow B records conversationID now t) :
    orchFetchConversationHistory ties A records conversationID now = orchFetchConversationHistory ties B records conversationID now := by
  rw [orchFetchConversationHistory_eq, orchFetchConversationHistory_eq]
  unfold fetched inboundRows outboundRows
  simp only [same]

variable (nested : ∀ t, InWindow B records conversationID now t → InWindow A records conversationID now t)

include nested

theorem inboundRows_later : inboundRows B records conversationID now =
    (inboundRows A records conversationID now).filter fun m => decide (InWindow B records conversationID now m.timestamp) := by
  unfold inboundRows
  rw [List.filter_filter]
  apply List.filter_congr
  intro m _
  rw [Bool.eq_iff_iff]
  simp only [Bool.and_eq_true, decide_eq_true_eq]
  constructor
  · rintro ⟨mine, within⟩
    exact ⟨within, mine, nested _ within⟩
  · rintro ⟨within, mine, -⟩
    exact ⟨mine, within⟩

theorem outboundRows_later : outboundRows B records conversationID now =
    (outboundRows A records conversationID now).filter fun m => decide (InWindow B records conversationID now m.createdAt) := by
  unfold outboundRows
  rw [List.filter_filter]
  apply List.filter_congr
  intro m _
  rw [Bool.eq_iff_iff]
  simp only [Bool.and_eq_true, decide_eq_true_eq]
  constructor
  · rintro ⟨⟨mine, within⟩, talk⟩
    exact ⟨within, ⟨mine, nested _ within⟩, talk⟩
  · rintro ⟨within, ⟨mine, -⟩, talk⟩
    exact ⟨⟨mine, within⟩, talk⟩

/-- A later boundary fetches what is after it. -/
theorem fetched_later (steady : ties.Steady) : fetched ties B records conversationID now =
    (fetched ties A records conversationID now).filter fun x => decide (InWindow B records conversationID now x.time) := by
  unfold fetched
  rw [steady.history, inboundRows_later nested, outboundRows_later nested, ← steady.inbound, ← steady.outbound,
    take_filter, take_filter, List.filter_append, List.filter_map, List.filter_map]
  · rfl
  · refine (ties.outbound.sorted _).imp fun le within => ?_
    rw [decide_eq_true_eq] at within ⊢
    exact within.later le
  · refine (ties.inbound.sorted _).imp fun le within => ?_
    rw [decide_eq_true_eq] at within ⊢
    exact within.later le

theorem history_later (steady : ties.Steady) : orchFetchConversationHistory ties B records conversationID now =
    messagesOf ((afterLastGap (fun a b => sessionGap a.time b.time) (newest 10 (fetched ties A records conversationID now))).filter
      fun x => decide (InWindow B records conversationID now x.time)) := by
  have upward : (fetched ties A records conversationID now).Pairwise fun a b =>
      decide (InWindow B records conversationID now a.time) = true → decide (InWindow B records conversationID now b.time) = true := by
    refine (ties.history.sorted _).imp fun le within => ?_
    rw [decide_eq_true_eq] at within ⊢
    exact within.later le
  rw [orchFetchConversationHistory_eq, fetched_later nested steady, newest_filter upward, afterLastGap_kept]
  exact upward.sublist (newest_suffix _ _).sublist

omit nested in
/-- Leaving items out does not change the messages exactly when they are blank. -/
theorem messagesOf_filter_iff {p : Item → Bool} {s : List Item} :
    messagesOf (s.filter p) = messagesOf s ↔ ∀ x ∈ s, isBlank x.content = false → p x = true := by
  unfold messagesOf
  constructor
  · intro same
    have lengths := congrArg List.length same
    rw [List.length_map, List.length_map, List.filter_comm, ← @List.countP_eq_length_filter _ p, List.countP_eq_length] at lengths
    intro x here notBlank
    exact lengths x (List.mem_filter.2 ⟨here, by rw [notBlank]; rfl⟩)
  · intro blank
    rw [List.filter_filter]
    congr 1
    apply List.filter_congr
    intro x here
    cases notBlank : isBlank x.content with
    | true => rfl
    | false => rw [blank x here notBlank]; rfl

omit nested in
/-- An item is shown if it is in the last stretch of the newest ten and not blank. -/
theorem mem_session_iff {x : Item} :
    x ∈ afterLastGap (fun a b => sessionGap a.time b.time) (newest 10 (fetched ties A records conversationID now)) ∧
        isBlank x.content = false ↔
      x ∈ newest 10 (fetched ties A records conversationID now) ∧ shows sessionGap (eligible A records conversationID now) x = true := by
  obtain ⟨all, perm, sorted, same⟩ := @newest_fetched ties A records conversationID now
  rw [← same, afterLastGap_filter sessionGap_self (newest_sorted sorted), times_of_newest perm sorted, List.mem_filter]
  unfold shows
  rw [Bool.and_eq_true, Bool.not_eq_true']
  constructor
  · rintro ⟨⟨recent, stays⟩, notBlank⟩
    exact ⟨recent, notBlank, stays⟩
  · rintro ⟨recent, notBlank, stays⟩
    exact ⟨⟨recent, stays⟩, notBlank⟩

/-- A later boundary changes the history exactly when it hides a message. -/
theorem history_unchanged_iff :
    (∀ ties : Ties, ties.Steady → orchFetchConversationHistory ties B records conversationID now =
      orchFetchConversationHistory ties A records conversationID now) ↔ KeepsShown A B records conversationID now := by
  constructor
  · intro same x here hidden
    by_contra shown
    rw [Bool.not_eq_false] at shown
    obtain ⟨-, onLine, -⟩ := (shows_iff sessionGap_self).1 shown
    obtain ⟨ties, steady, recent⟩ := favor_fetched here onLine
    have unchanged := same ties steady
    rw [history_later nested steady, orchFetchConversationHistory_eq, messagesOf_filter_iff] at unchanged
    obtain ⟨stays, notBlank⟩ := mem_session_iff.2 ⟨recent, shown⟩
    exact hidden (of_decide_eq_true (unchanged x stays notBlank))
  · intro keeps ties steady
    rw [history_later nested steady, orchFetchConversationHistory_eq, messagesOf_filter_iff]
    intro x stays notBlank
    obtain ⟨recent, shown⟩ := mem_session_iff.1 ⟨stays, notBlank⟩
    rw [decide_eq_true_eq]
    by_contra hidden
    rw [keeps x (mem_eligible recent) hidden] at shown
    cases shown

end TwoBoundaries

/-! ## Fulfillment updates -/

/-- The orders, one of them dated anew. -/
def dated (id : String) (time : Nat) (orders : List Order) : List Order :=
  orders.map fun o => if o.id = id then { o with updatedAt := time } else o

section Fulfillment

variable {db : Database} {o : Order} {status : OrderStatus} {followUpID : String} {time : Nat} {records : Records}
  {conversationID : String} {now : Int}

/-- The orders after the update. -/
def fulfilled (o : Order) (status : OrderStatus) (time : Nat) (db : Database) : Table Order.id :=
  (Db.updateOrderFulfillment status o.id o.businessID time db).2.orders

theorem window_fulfilled (here : o ∈ db.orders.rows) (settled : isSettled o.status = true) (stays : isSettled status = true) (t : Int) :
    InWindow (fulfilled o status time db).rows records conversationID now t ↔
      InWindow (dated o.id time db.orders.rows) records conversationID now t := by
  unfold InWindow
  apply and_congr_right
  intro _
  show (∀ r ∈ (db.orders.rows.map _), _) ↔ _
  unfold dated
  rw [List.forall_mem_map, List.forall_mem_map]
  refine forall₂_congr fun r mem => ?_
  by_cases same : r.id = o.id
  · have : r = o := Table.eq_of_key mem here same
    subst this
    rw [Table.rewrite_of_pos (by simp), if_pos rfl]
    unfold settledFor
    rw [settled, stays]
  · rw [Table.rewrite_of_neg (by simp [same]), if_neg same]

theorem insertScheduledFollowUp_orders (f : ScheduledFollowUp) (db : Database) : (Db.insertScheduledFollowUp f db).2.orders = db.orders := by
  unfold Db.insertScheduledFollowUp
  split
  · rfl
  · split
    · rfl
    · split
      · rfl
      · rfl

/-- What a fulfillment update leaves of the orders: it writes the order, or one of its statements fails before. -/
theorem ordersFulfillment_guarded {F : Prop} (here : o ∈ db.orders.rows) :
    Guarded exec F (fun _ => True) (fun _ s => F ∧ s.orders = db.orders ∨ s.orders = fulfilled o status time db)
      (ordersFulfillment o.businessID o.id status followUpID time) db := by
  have found : Db.getOrderByIDAndBusiness o.id o.businessID db = some o := by
    unfold Db.getOrderByIDAndBusiness
    rw [Table.find?_eq_some.2 ⟨here, rfl⟩, Option.filter_some, if_pos (decide_eq_true rfl)]
  have answers : exec (.getOrderByIDAndBusiness o.id o.businessID) db = (.ok (some o), db) := by
    show query (Db.getOrderByIDAndBusiness o.id o.businessID db) db = _
    rw [found]
    rfl
  apply guarded_query answers trivial fun faulty => .inl ⟨faulty, rfl⟩
  refine ⟨trivial, ?_, fun faulty => .inl ⟨faulty, rfl⟩⟩
  show Guarded exec F _ _ (ite _ _ _) _
  split
  · refine ⟨trivial, ?_, fun _ => .inr rfl⟩
    have finish : ∀ (answer : Except Err Unit) (s : Database), s.orders = fulfilled o status time db →
        Guarded exec F (fun _ => True) (fun _ s => F ∧ s.orders = db.orders ∨ s.orders = fulfilled o status time db)
          (Program.bind (ret answer) fun _ => pure (⟨200, ""⟩ : Response)) s := by
      intro answer s written
      cases answer with
      | ok _ => exact .inr written
      | error _ => exact .inr written
    exact finish _ _ (insertScheduledFollowUp_orders _ _)
  · exact .inr rfl

/-- A vendor's update of a settled order leaves the history alone, whatever the messages and however its statements fail,
exactly when no message that could be shown is between the boundaries before and after. -/
theorem ordersFulfillment_keeps_history_iff (db : Database) (o : Order) (status : OrderStatus) (followUpID : String) (time : Nat)
    (records : Records) (conversationID : String) (now : Int) (here : o ∈ db.orders.rows) (settled : isSettled o.status = true)
    (stays : isSettled status = true) :
    (∀ ties : Ties, ties.Steady → ∀ result db',
      (ordersFulfillment o.businessID o.id status followUpID time).Ends exec db result db' →
        orchFetchConversationHistory ties db'.orders.rows records conversationID now =
          orchFetchConversationHistory ties db.orders.rows records conversationID now) ↔
      KeepsShown db.orders.rows (dated o.id time db.orders.rows) records conversationID now ∧
        KeepsShown (dated o.id time db.orders.rows) db.orders.rows records conversationID now := by
  have window := fun t => @window_fulfilled db o status time records conversationID now here settled stays t
  have update : (∀ ties : Ties, ties.Steady → ∀ result db',
      (ordersFulfillment o.businessID o.id status followUpID time).Ends exec db result db' →
        orchFetchConversationHistory ties db'.orders.rows records conversationID now =
          orchFetchConversationHistory ties db.orders.rows records conversationID now) ↔
      ∀ ties : Ties, ties.Steady → orchFetchConversationHistory ties (dated o.id time db.orders.rows) records conversationID now =
        orchFetchConversationHistory ties db.orders.rows records conversationID now := by
    constructor
    · intro same ties steady
      rw [← same ties steady _ _ (ends_run exec _ db)]
      rcases (@ordersFulfillment_guarded db o status followUpID time False here).run with undone | written
      · exact absurd undone.1 id
      · rw [written]
        exact fetch_congr fun t => (window t).symm
    · intro same ties steady result db' ends
      rcases (@ordersFulfillment_guarded db o status followUpID time True here).ends trivial ends with ⟨-, kept⟩ | written
      · rw [kept]
      · rw [written, fetch_congr window, same ties steady]
  have vacuous : ∀ {A B : List Order}, (∀ t, InWindow A records conversationID now t → InWindow B records conversationID now t) →
      KeepsShown A B records conversationID now := by
    intro A B nested x mem hidden
    exact absurd (nested _ (window_of_eligible mem)) hidden
  rw [update]
  rcases nested_or db.orders.rows (dated o.id time db.orders.rows) records conversationID now with nested | nested
  · rw [history_unchanged_iff nested]
    exact ⟨fun keeps => ⟨keeps, vacuous nested⟩, fun both => both.1⟩
  · have turned := history_unchanged_iff nested
    constructor
    · exact fun same => ⟨vacuous nested, turned.1 fun ties steady => (same ties steady).symm⟩
    · exact fun both ties steady => (turned.2 both.2 ties steady).symm

end Fulfillment

/-! ## A late message -/

instance (A B : List Order) (records : Records) (conversationID : String) (now : Int) : Decidable (KeepsShown A B records conversationID now) :=
  inferInstanceAs (Decidable (∀ _ ∈ _, _))

def paidOrder : Order where
  id := "ord1"
  businessID := "biz1"
  customerID := "cus1"
  conversationID := some "conv1"
  status := .paid
  totalAmount := ⟨900, by decide⟩
  currency := "GHS"
  createdAt := 1789980000000
  updatedAt := 1789990000000
  idempotencyKey := none
  fulfillmentType := .delivery
  locationID := none
  stockRestoredAt := none

/-- A shop of one paid order. -/
def paidShop : Database where
  businesses := Table.empty
  businessLocations := Table.empty
  customers := Table.empty
  customerProfiles := Table.empty
  conversations := Table.empty
  products := Table.empty
  orders := ⟨[paidOrder], by decide⟩
  orderItems := Table.empty
  orderIntents := Table.empty
  payments := Table.empty
  scheduledFollowUps := Table.empty
  domainEvents := Table.empty
  outboundMessages := Table.empty

/-- What the customer wrote after paying. -/
def afterPaying : Records where
  customerOf _ := some "cus1"
  inbound := [⟨some "conv1", some "Please deliver to the back gate", 1789996400000⟩]
  outbound := []

/-- An update before the message leaves it. -/
theorem early_update_keeps_history :
    orchFetchConversationHistory Ties.stable paidShop.orders.rows afterPaying "conv1" 1790000000000000 ≠ [] ∧
      ∀ ties : Ties, ties.Steady → ∀ result db',
        (ordersFulfillment "biz1" "ord1" .shipped "fu1" 1789993000000).Ends exec paidShop result db' →
          orchFetchConversationHistory ties db'.orders.rows afterPaying "conv1" 1790000000000000 =
            orchFetchConversationHistory ties paidShop.orders.rows afterPaying "conv1" 1790000000000000 := by
  refine ⟨by decide +kernel, ?_⟩
  apply (ordersFulfillment_keeps_history_iff paidShop paidOrder .shipped "fu1" 1789993000000 afterPaying "conv1" 1790000000000000
    (by decide) rfl rfl).2
  exact ⟨by decide +kernel, by decide +kernel⟩

/-- An update after the message takes it out of the history. -/
theorem shipping_hides_message : ¬ ∀ ties : Ties, ties.Steady → ∀ result db',
    (ordersFulfillment "biz1" "ord1" .shipped "fu1" 1789998000000).Ends exec paidShop result db' →
      orchFetchConversationHistory ties db'.orders.rows afterPaying "conv1" 1790000000000000 =
        orchFetchConversationHistory ties paidShop.orders.rows afterPaying "conv1" 1790000000000000 := by
  intro same
  have kept := same Ties.stable Ties.steady_stable _ _ (ends_run exec _ paidShop)
  revert kept
  decide +kernel

end NovoApex.Turns.History
