import NovoApex.FollowUps.Reminders

/-!
# The three follow-ups of an order

`HandleFollowUpSchedule` looks for follow-ups of the order, inserts two rows and then a
third, in statements of their own. The order ends with one row of each kind as long as
no two deliveries overlap between the look and the pair, the pair's reply arrives, the
third row is inserted, and nobody else schedules a follow-up for the order before. A
delivery that has inserted the pair owes the third row; when none does, the order has
all three rows or none.
-/

namespace NovoApex.FollowUps
set_option autoImplicit false
open Lib Program Db Workers

/-- The three kinds. -/
def scheduledKinds : List String := ["abandoned-cart", "unpaid-invoice-first", finalReminder]

/-- Order and kind of each follow-up. -/
def entries (w : FollowUpWorld) : List (String × String) := w.followUps.rows.map fun f => (f.orderID, f.jobType)

/-- The scheduled kinds of an order's follow-ups. -/
def scheduleOf (o : String) (w : FollowUpWorld) : List String :=
  ((entries w).filter fun e => decide (e.1 = o) && decide (e.2 ∈ scheduledKinds)).map Prod.snd

/-- The order has a follow-up. -/
def Begun (o : String) (w : FollowUpWorld) : Prop := ∃ e ∈ entries w, e.1 = o

instance (o : String) (w : FollowUpWorld) : Decidable (Begun o w) := inferInstanceAs (Decidable (∃ e ∈ entries w, e.1 = o))

/-- The pair is for an order without follow-ups, generated ids are new, and a delivery is confirmed of an order with follow-ups. -/
def keepsSchedule (w : FollowUpWorld) : FollowUpStmt → Prop
  | .insertPair _ first _ => ¬ Begun first.orderID w
  | .insertThird _ row => row.id ∉ w.followUps.rows.map ScheduledFollowUp.id
  | .insertDeliveryConfirmation row => Begun row.orderID w
  | _ => True

instance (w : FollowUpWorld) : DecidablePred (keepsSchedule w) := fun op => by
  unfold keepsSchedule
  split <;> infer_instance

/-- The insert of the pair. -/
def pairsUp : FollowUpStmt → Bool
  | .insertPair .. => true
  | _ => false

/-- The insert of the third row. -/
def completes : FollowUpStmt → Bool
  | .insertThird .. => true
  | _ => false

/-- The runs in which deliveries of an order do not overlap and none is left halfway. -/
def wholeFlow : Roster followUpStore FollowUpName FollowUpWorld where
  exec := followUpExec
  job := FollowUpJob
  allow w op := followUpProceeds w op ∧ keepsSchedule w op
  faults _ op := completes op = false
  loses _ op := pairsUp op = false
  stops _ op := completes op = false

instance (w : FollowUpWorld) (op : FollowUpStmt) : Decidable (wholeFlow.allow w op) :=
  inferInstanceAs (Decidable (followUpProceeds w op ∧ keepsSchedule w op))

/-! ## The protocol -/

/-- No delivery of the order owes a row. -/
def Settled (o : String) (w : FollowUpWorld) : Prop := ∀ d ∈ w.halfway, d.orderID ≠ o

/-- The order has no follow-up, its pair, or all three rows. -/
inductive Scheduling (o : String) (w : FollowUpWorld) : Prop where
  | unscheduled (unbegun : ¬ Begun o w) (settled : Settled o w) (unnoted : o ∉ w.scheduled)
  | half (d : ScheduleDelivery) (pair : scheduleOf o w = ["abandoned-cart", "unpaid-invoice-first"]) (own : d.orderID = o)
      (owes : d ∈ w.halfway) (alone : ∀ d' ∈ w.halfway, d'.orderID = o → d' = d)
  | whole (all : scheduleOf o w = scheduledKinds) (settled : Settled o w)

/-- What only grows: the follow-ups of an order, and what they refer to. -/
structure Grows (w w' : FollowUpWorld) : Prop where
  begun : ∀ o, Begun o w → Begun o w'
  orders : ∀ id, (w.orders.find? id).isSome = true → (w'.orders.find? id).isSome = true
  businesses : w'.businesses = w.businesses

theorem Grows.refl (w : FollowUpWorld) : Grows w w := ⟨fun _ h => h, fun _ h => h, rfl⟩

theorem Grows.trans {u v w : FollowUpWorld} (h : Grows u v) (h' : Grows v w) : Grows u w :=
  ⟨fun o begun => h'.begun o (h.begun o begun), fun id known => h'.orders id (h.orders id known), h'.businesses.trans h.businesses⟩

/-- Nobody else settles what a delivery owes. -/
structure ScheduleRely (i : FollowUpName) (w w' : FollowUpWorld) : Prop where
  grows : Grows w w'
  owes : ∀ d, i = .delivery d → (d ∈ w'.halfway ↔ d ∈ w.halfway)

/-- A delivery that is gone owes nothing. -/
def scheduleIdle (i : FollowUpName) (w : FollowUpWorld) : Prop := ∀ d, i = .delivery d → d ∉ w.halfway

/-- The protocol of the deliveries of an order. -/
def scheduleProtocol (o : String) : Protocol FollowUpName FollowUpWorld where
  inv := Scheduling o
  rely := ScheduleRely
  refl i w := ⟨.refl w, fun _ _ => Iff.rfl⟩
  trans i u v w h h' := ⟨h.grows.trans h'.grows, fun d own => (h'.owes d own).trans (h.owes d own)⟩
  idle := scheduleIdle
  steady i w w' rely idle d own := by
    rw [rely.owes d own]
    exact idle d own

/-! ## Statements -/

section Statements

variable {o : String} {i : FollowUpName} {w w' : FollowUpWorld}

/-- What the protocol reads is the same. -/
structure SameSchedule (w w' : FollowUpWorld) : Prop where
  entries : entries w' = entries w
  halfway : w'.halfway = w.halfway
  scheduled : w'.scheduled = w.scheduled
  orders : ∀ id, (w.orders.find? id).isSome = true → (w'.orders.find? id).isSome = true
  businesses : w'.businesses = w.businesses

theorem SameSchedule.refl (w : FollowUpWorld) : SameSchedule w w := ⟨rfl, rfl, rfl, fun _ h => h, rfl⟩

theorem SameSchedule.scheduling (same : SameSchedule w w') (inv : Scheduling o w) : Scheduling o w' := by
  have begun : Begun o w' ↔ Begun o w := by
    unfold Begun
    rw [same.entries]
  have schedule : scheduleOf o w' = scheduleOf o w := by
    unfold scheduleOf
    rw [same.entries]
  have settled : Settled o w → Settled o w' := by
    unfold Settled
    rw [same.halfway]
    exact id
  cases inv with
  | unscheduled unbegun unowed unnoted => exact .unscheduled (fun h => unbegun (begun.1 h)) (settled unowed) (same.scheduled ▸ unnoted)
  | half d pair own owes alone => exact .half d (schedule.trans pair) own (same.halfway ▸ owes) (same.halfway ▸ alone)
  | whole all unowed => exact .whole (schedule.trans all) (settled unowed)

theorem SameSchedule.rely (same : SameSchedule w w') : ScheduleRely i w w' := by
  refine ⟨⟨fun o begun => ?_, same.orders, same.businesses⟩, fun d _ => by rw [same.halfway]⟩
  unfold Begun at *
  rwa [same.entries]

theorem known_setStatus {sel : Order → Bool} {status : OrderStatus} {now : Nat} {orders : Table Order.id} {id : String}
    (known : (orders.find? id).isSome = true) : ((NovoApex.setStatus sel status now orders).find? id).isSome = true := by
  unfold NovoApex.setStatus
  rw [Table.find?_update, Option.isSome_map]
  exact known

/-- An update that keeps order and kind. -/
theorem entries_update {p : ScheduledFollowUp → Bool} {f : ScheduledFollowUp → ScheduledFollowUp} {rows : List ScheduledFollowUp}
    (keeps : ∀ r, ((f r).orderID, (f r).jobType) = (r.orderID, r.jobType)) :
    (rows.map (Table.rewrite p f)).map (fun f => (f.orderID, f.jobType)) = rows.map fun f => (f.orderID, f.jobType) := by
  rw [List.map_map]
  refine List.map_congr_left fun r _ => ?_
  simp only [Function.comp, Table.rewrite]
  split
  · exact keeps r
  · rfl

/-- The statements that schedule. -/
def Schedules : FollowUpStmt → Prop
  | .insertPair .. | .insertThird .. | .insertDeliveryConfirmation .. | .scheduled .. => True
  | _ => False

/-- Every other statement leaves the schedule alone. -/
theorem sameSchedule_exec {op : FollowUpStmt} (other : ¬ Schedules op) : SameSchedule w (followUpExec op w).2 := by
  have same := SameSchedule.refl w
  cases op with
  | now | lookupOrder | lookupConversation | publishOutbound | existsFollowUp | expiredOrders => exact same
  | tick | recordLatePayment | rollback | enqueue | setName => exact ⟨rfl, rfl, rfl, fun _ known => known, rfl⟩
  | setStatus => exact ⟨rfl, rfl, rfl, fun _ known => known_setStatus known, rfl⟩
  | insertOutboundRow run payload row =>
    simp only [followUpExec]
    cases inserted : insertOutboundRow row w with
    | error e => exact same
    | ok mid =>
      obtain ⟨messages, rfl⟩ := insertOutboundRow_ok inserted
      exact ⟨rfl, rfl, rfl, fun _ known => known, rfl⟩
  | startTask run =>
    simp only [followUpExec]
    split
    · exact ⟨rfl, rfl, rfl, fun _ known => known, rfl⟩
    · exact same
  | finishTask run success =>
    simp only [followUpExec, finishTask]
    split
    · exact ⟨rfl, rfl, rfl, fun _ known => known, rfl⟩
    · exact same
  | begin tx =>
    simp only [followUpExec]
    split
    · exact ⟨rfl, rfl, rfl, fun _ known => known, rfl⟩
    · exact same
  | lockScanner tx =>
    simp only [followUpExec, withinTx]
    split
    · exact ⟨rfl, rfl, rfl, fun _ known => known, rfl⟩
    · exact same
  | due tx now =>
    simp only [followUpExec, withinTx]
    split <;> exact same
  | claim tx id now =>
    simp only [followUpExec, withinTx]
    split
    · split
      · exact ⟨rfl, rfl, rfl, fun _ known => known, rfl⟩
      · exact same
    · exact same
  | commit tx =>
    simp only [followUpExec, withinTx]
    split
    · rename_i t isOpen
      refine ⟨entries_update fun r => ?_, rfl, rfl, fun _ known => known, rfl⟩
      unfold ScheduledFollowUp.execute
      split <;> rfl
    · exact same
  | cancelFollowUps orderID now => exact ⟨entries_update fun _ => rfl, rfl, rfl, fun _ known => known, rfl⟩
  | cancelOrder orderID reason =>
    simp only [followUpExec, cancelOrder]
    split
    · exact ⟨rfl, rfl, rfl, fun _ known => known_setStatus known, rfl⟩
    · exact same
  | insertOrder order =>
    simp only [followUpExec]
    split
    · exact same
    · split
      · exact same
      · split
        · rename_i orders inserted
          refine ⟨rfl, rfl, rfl, fun id known => ?_, rfl⟩
          obtain ⟨x, found⟩ := Option.isSome_iff_exists.1 known
          obtain ⟨mem, named⟩ := Table.find?_eq_some.1 found
          have mem' : x ∈ orders.rows := by
            rw [(Table.insert_eq_some.1 inserted).2]
            exact List.mem_append_left _ mem
          exact Option.isSome_of_eq_some (Table.find?_eq_some.2 ⟨mem', named⟩)
        · exact same
  | insertPair | insertThird | insertDeliveryConfirmation | scheduled => exact (other trivial).elim

/-- A new row. -/
theorem entries_insert {row : ScheduledFollowUp} (h : insertFollowUp row w = .ok w') :
    entries w' = entries w ++ [(row.orderID, row.jobType)] := by
  obtain ⟨followUps, inserted, -, -, rfl⟩ := insertFollowUp_ok h
  unfold entries
  rw [(Table.insert_eq_some.1 inserted).2, List.map_append]
  rfl

theorem scheduleOf_append {e : String × String} (appended : entries w' = entries w ++ [e]) :
    scheduleOf o w' = scheduleOf o w ++ if e.1 = o ∧ e.2 ∈ scheduledKinds then [e.2] else [] := by
  unfold scheduleOf
  rw [appended, List.filter_append, List.map_append]
  congr 1
  by_cases own : e.1 = o <;> by_cases kind : e.2 ∈ scheduledKinds <;> simp [own, kind]

theorem begun_append {o : String} {e : String × String} (appended : entries w' = entries w ++ [e]) :
    Begun o w' ↔ Begun o w ∨ e.1 = o := by
  unfold Begun
  rw [appended]
  constructor
  · rintro ⟨x, mem, own⟩
    rcases List.mem_append.1 mem with mem | mem
    · exact .inl ⟨x, mem, own⟩
    · rw [List.mem_singleton.1 mem] at own
      exact .inr own
  · rintro (⟨x, mem, own⟩ | own)
    · exact ⟨x, List.mem_append_left _ mem, own⟩
    · exact ⟨e, List.mem_append_right _ (List.mem_singleton_self e), own⟩

theorem scheduleOf_of_unbegun (unbegun : ¬ Begun o w) : scheduleOf o w = [] := by
  unfold scheduleOf
  rw [List.filter_eq_nil_iff.2, List.map_nil]
  intro e mem holds
  rw [Bool.and_eq_true, decide_eq_true_eq] at holds
  exact unbegun ⟨e, mem, holds.1⟩

theorem begun_of_scheduleOf (h : scheduleOf o w ≠ []) : Begun o w := by
  by_contra unbegun
  exact h (scheduleOf_of_unbegun unbegun)

/-- What an insert leaves of the rest of the world. -/
theorem grows_insert {row : ScheduledFollowUp} (h : insertFollowUp row w = .ok w') : Grows w w' := by
  have appended := entries_insert h
  obtain ⟨followUps, -, -, -, rfl⟩ := insertFollowUp_ok h
  exact ⟨fun o begun => (begun_append appended).2 (.inl begun), fun _ known => known, rfl⟩

/-- A statement of `i` keeps the protocol. -/
structure KeepsSchedule (o : String) (i : FollowUpName) (w w' : FollowUpWorld) : Prop where
  inv : Scheduling o w'
  others : ∀ j, j ≠ i → ScheduleRely j w w'

theorem SameSchedule.keeps (same : SameSchedule w w') (inv : Scheduling o w) : KeepsSchedule o i w w' :=
  ⟨same.scheduling inv, fun _ _ => same.rely⟩

/-- A row of another order. -/
theorem scheduleOf_other {e : String × String} (appended : entries w' = entries w ++ [e]) (other : e.1 ≠ o) :
    scheduleOf o w' = scheduleOf o w ∧ (Begun o w' ↔ Begun o w) := by
  rw [scheduleOf_append appended, if_neg fun h => other h.1, List.append_nil, begun_append appended]
  exact ⟨rfl, or_iff_left other⟩

/-- The pair of another order, or of this one when it had none. -/
theorem keepsSchedule_pair {d : ScheduleDelivery} {first second : ScheduledFollowUp} {mid last : FollowUpWorld} (inv : Scheduling o w)
    (inserted : insertFollowUp first w = .ok mid) (inserted' : insertFollowUp second mid = .ok last) (new : ¬ Begun d.orderID w)
    (own : first.orderID = d.orderID) (own' : second.orderID = d.orderID) (kind : first.jobType = "abandoned-cart")
    (kind' : second.jobType = "unpaid-invoice-first") :
    KeepsSchedule o (.delivery d) w { last with halfway := d :: last.halfway } := by
  have appended := entries_insert inserted
  have appended' := entries_insert inserted'
  have grows := (grows_insert inserted).trans (grows_insert inserted')
  have halfway : last.halfway = w.halfway := by
    obtain ⟨_, -, -, -, rfl⟩ := insertFollowUp_ok inserted
    obtain ⟨_, -, -, -, rfl⟩ := insertFollowUp_ok inserted'
    rfl
  have noted : last.scheduled = w.scheduled := by
    obtain ⟨_, -, -, -, rfl⟩ := insertFollowUp_ok inserted
    obtain ⟨_, -, -, -, rfl⟩ := insertFollowUp_ok inserted'
    rfl
  refine ⟨?_, fun j apart => ⟨⟨grows.begun, grows.orders, grows.businesses⟩, fun d' named => ?_⟩⟩
  · by_cases mine : d.orderID = o
    · subst mine
      have pair : scheduleOf d.orderID last = ["abandoned-cart", "unpaid-invoice-first"] := by
        rw [scheduleOf_append appended', scheduleOf_append appended, scheduleOf_of_unbegun new, own, own', kind, kind']
        simp [scheduledKinds]
      have settled : Settled d.orderID w := by
        cases inv with
        | unscheduled _ settled _ => exact settled
        | half _ pair => exact (new (begun_of_scheduleOf (by rw [pair]; exact List.cons_ne_nil _ _))).elim
        | whole all => exact (new (begun_of_scheduleOf (by rw [all]; exact List.cons_ne_nil _ _))).elim
      refine .half d pair rfl List.mem_cons_self fun d' mem same => ?_
      rcases List.mem_cons.1 mem with rfl | mem
      · rfl
      · exact (settled d' (halfway ▸ mem) same).elim
    · obtain ⟨schedule, begun⟩ := scheduleOf_other appended (own ▸ mine)
      obtain ⟨schedule', begun'⟩ := scheduleOf_other appended' (own' ▸ mine)
      have settled : Settled o w → Settled o { last with halfway := d :: last.halfway } := by
        intro settled d' mem
        rcases List.mem_cons.1 mem with rfl | mem
        · exact mine
        · exact settled d' (halfway ▸ mem)
      cases inv with
      | unscheduled unbegun unowed unnoted =>
        exact .unscheduled (fun h => unbegun (begun.1 (begun'.1 h))) (settled unowed) (noted ▸ unnoted)
      | half x pair ownX owes alone =>
        refine .half x (schedule'.trans (schedule.trans pair)) ownX (List.mem_cons_of_mem _ (halfway ▸ owes)) fun d' mem same => ?_
        rcases List.mem_cons.1 mem with rfl | mem
        · exact (mine same).elim
        · exact alone d' (halfway ▸ mem) same
      | whole all unowed => exact .whole (schedule'.trans (schedule.trans all)) (settled unowed)
  · have other : d' ≠ d := fun same => apart (named.trans (same ▸ rfl))
    show d' ∈ d :: last.halfway ↔ _
    rw [List.mem_cons, halfway]
    exact or_iff_right other

/-- The third row of a delivery that owes it. -/
theorem keepsSchedule_third {d : ScheduleDelivery} {row : ScheduledFollowUp} {last : FollowUpWorld} (inv : Scheduling o w)
    (inserted : insertFollowUp row w = .ok last) (owes : d ∈ w.halfway) (own : row.orderID = d.orderID) (kind : row.jobType = finalReminder) :
    KeepsSchedule o (.delivery d) w { last with halfway := last.halfway.filter fun x => decide (x ≠ d) } := by
  have appended := entries_insert inserted
  have grows := grows_insert inserted
  have halfway : last.halfway = w.halfway := by
    obtain ⟨_, -, -, -, rfl⟩ := insertFollowUp_ok inserted
    rfl
  have noted : last.scheduled = w.scheduled := by
    obtain ⟨_, -, -, -, rfl⟩ := insertFollowUp_ok inserted
    rfl
  have left : ∀ d', d' ∈ (last.halfway.filter fun x => decide (x ≠ d)) ↔ d' ∈ w.halfway ∧ d' ≠ d := by
    intro d'
    rw [List.mem_filter, decide_eq_true_eq, halfway]
  refine ⟨?_, fun j apart => ⟨⟨grows.begun, grows.orders, grows.businesses⟩, fun d' named => ?_⟩⟩
  · by_cases mine : d.orderID = o
    · subst mine
      cases inv with
      | unscheduled _ settled _ => exact (settled d owes rfl).elim
      | whole _ settled => exact (settled d owes rfl).elim
      | half x pair ownX owesX alone =>
        have all : scheduleOf d.orderID last = scheduledKinds := by
          rw [scheduleOf_append appended, pair, own, kind]
          simp [scheduledKinds]
        refine .whole all fun d' mem same => ?_
        obtain ⟨mem, other⟩ := (left d').1 mem
        exact other ((alone d' mem same).trans (alone d owes rfl).symm)
    · obtain ⟨schedule, begun⟩ := scheduleOf_other appended (own ▸ mine)
      cases inv with
      | unscheduled unbegun unowed unnoted =>
        exact .unscheduled (fun h => unbegun (begun.1 h)) (fun d' mem => unowed d' ((left d').1 mem).1) (noted ▸ unnoted)
      | half x pair ownX owesX alone =>
        refine .half x (schedule.trans pair) ownX ((left x).2 ⟨owesX, fun same => mine (same ▸ ownX)⟩) fun d' mem => ?_
        exact alone d' ((left d').1 mem).1
      | whole all unowed => exact .whole (schedule.trans all) fun d' mem => unowed d' ((left d').1 mem).1
  · have other : d' ≠ d := fun same => apart (named.trans (same ▸ rfl))
    exact (left d').trans (and_iff_left other)

/-- A delivery that is confirmed, of an order that has its follow-ups. -/
theorem keepsSchedule_confirmation {row : ScheduledFollowUp} {last : FollowUpWorld} (inv : Scheduling o w)
    (inserted : insertFollowUp row w = .ok last) (begun : Begun row.orderID w) (kind : row.jobType = "delivery-confirmation") :
    KeepsSchedule o i w last := by
  have appended := entries_insert inserted
  have grows := grows_insert inserted
  have schedule : scheduleOf o last = scheduleOf o w := by
    rw [scheduleOf_append appended, kind, if_neg fun h => absurd h.2 (by simp [scheduledKinds, finalReminder]), List.append_nil]
  have after : Begun o last ↔ Begun o w := by
    rw [begun_append appended]
    exact or_iff_left_of_imp fun same => same ▸ begun
  obtain ⟨_, -, -, -, rfl⟩ := insertFollowUp_ok inserted
  refine ⟨?_, fun j _ => ⟨⟨grows.begun, grows.orders, grows.businesses⟩, fun _ _ => Iff.rfl⟩⟩
  cases inv with
  | unscheduled unbegun unowed unnoted => exact .unscheduled (fun h => unbegun (after.1 h)) unowed unnoted
  | half x pair ownX owes alone => exact .half x (schedule.trans pair) ownX owes alone
  | whole all unowed => exact .whole (schedule.trans all) unowed

/-- A delivery returned nil, of an order that has follow-ups. -/
theorem keepsSchedule_noted {d : ScheduleDelivery} (inv : Scheduling o w) (begun : Begun d.orderID w) :
    KeepsSchedule o i w { w with scheduled := d.orderID :: w.scheduled } := by
  refine ⟨?_, fun j _ => ⟨⟨fun _ h => h, fun _ h => h, rfl⟩, fun _ _ => Iff.rfl⟩⟩
  cases inv with
  | unscheduled unbegun unowed unnoted =>
    refine .unscheduled unbegun unowed fun mem => ?_
    rcases List.mem_cons.1 mem with same | mem
    · exact unbegun (same ▸ begun)
    · exact unnoted mem
  | half x pair ownX owes alone => exact .half x pair ownX owes alone
  | whole all unowed => exact .whole all unowed

end Statements

/-! ## Handlers -/

section Handlers

variable {o : String} {i : FollowUpName} {d : ScheduleDelivery} {w : FollowUpWorld}

/-- A statement that schedules nothing. -/
theorem safe_unscheduling (op : FollowUpStmt) (other : ¬ Schedules op) {Q : FollowUpWorld → Prop} (start : Q w)
    (stable : ∀ s t, ScheduleRely i s t → Q s → Q t) (kept : ∀ t, SameSchedule t (followUpExec op t).2 → Q t → Q (followUpExec op t).2)
    (idle : ∀ t, Q t → scheduleIdle i t) :
    Safe wholeFlow (scheduleProtocol o) i (fun _ => Q) (call (I := followUpStore) op) w := by
  refine Safe.call (fun t rely inv may => ?_) (fun t rely _ _ => stable w t rely start) fun t rely _ _ => idle t (stable w t rely start)
  have same : SameSchedule t (followUpExec op t).2 := sameSchedule_exec other
  have after := kept t same (stable w t rely start)
  exact ⟨same.scheduling inv, fun _ _ => same.rely, after, fun _ => after⟩

/-- The delivery owes nothing. -/
def Free (d : ScheduleDelivery) (w : FollowUpWorld) : Prop := d ∉ w.halfway

theorem Free.relies {t : FollowUpWorld} (h : Free d w) (rely : ScheduleRely (.delivery d) w t) : Free d t := by
  unfold Free
  rw [rely.owes d rfl]
  exact h

theorem Free.idle (h : Free d w) : scheduleIdle (.delivery d) w := by
  intro d' same
  cases same
  exact h

/-- What a delivery promises: it owes nothing, and when it succeeds the order has follow-ups. -/
def Delivered (d : ScheduleDelivery) (r : Except FollowUpErr Unit) (w : FollowUpWorld) : Prop :=
  Free d w ∧ (r = .ok () → Begun d.orderID w)

theorem Free.failed {e : FollowUpErr} (h : Free d w) : Delivered d (.error e) w := ⟨h, fun absurd => nomatch absurd⟩

theorem safe_existsFollowUp {orderID : String} (own : orderID = d.orderID) (h : Free d w) : Safe wholeFlow (scheduleProtocol o) (.delivery d)
    (fun found t => Free d t ∧ (found = .ok true → Begun d.orderID t)) (call (I := followUpStore) (.existsFollowUp orderID)) w := by
  subst own
  refine Safe.call (fun t rely inv may => ?_) (fun t rely _ _ => ⟨h.relies rely, fun absurd => nomatch absurd⟩)
    fun t rely _ _ => (h.relies rely).idle
  refine ⟨inv, fun j _ => (scheduleProtocol o).refl j t, ⟨h.relies rely, fun found => ?_⟩, fun _ => ⟨h.relies rely, fun absurd => nomatch absurd⟩⟩
  obtain ⟨f, mem, named⟩ := List.any_eq_true.1 (Except.ok.inj found)
  exact ⟨(f.orderID, f.jobType), List.mem_map_of_mem mem, of_decide_eq_true named⟩

/-- The pair: afterwards the delivery owes the third row, and what the rows refer to is there. -/
theorem safe_insertPair {evt : OrderCreated} {id id' : String} {cart first : Nat} (own : evt.orderID = d.orderID) (h : Free d w) :
    Safe wholeFlow (scheduleProtocol o) (.delivery d)
      (Replied (fun _ t => d ∈ t.halfway ∧ (t.orders.find? evt.orderID).isSome = true ∧ (t.businesses.find? evt.businessID).isSome = true)
        (Free d)) (call (I := followUpStore) (.insertPair d (followUpRow evt id "abandoned-cart" cart)
          (followUpRow evt id' "unpaid-invoice-first" first))) w := by
  refine Safe.call (fun t rely inv may => ?_) (fun t rely _ _ => h.relies rely) fun t rely _ _ => (h.relies rely).idle
  have new : ¬ Begun d.orderID t := own ▸ may.2
  rcases insertPair_cases d (followUpRow evt id "abandoned-cart" cart) (followUpRow evt id' "unpaid-invoice-first" first) t with
    ⟨e, failed⟩ | ⟨mid, last, inserted, inserted', executed⟩
  · simp only [wholeFlow, failed]
    exact ⟨inv, fun j _ => (scheduleProtocol o).refl j t, h.relies rely, fun _ => h.relies rely⟩
  · have keeps := keepsSchedule_pair inv inserted inserted' new own own rfl rfl
    have order : (last.orders.find? evt.orderID).isSome = true := by
      obtain ⟨_, -, order, -, rfl⟩ := insertFollowUp_ok inserted
      obtain ⟨_, -, -, -, rfl⟩ := insertFollowUp_ok inserted'
      exact order
    have business : (last.businesses.find? evt.businessID).isSome = true := by
      obtain ⟨_, -, -, business, rfl⟩ := insertFollowUp_ok inserted
      obtain ⟨_, -, -, -, rfl⟩ := insertFollowUp_ok inserted'
      exact business
    simp only [wholeFlow, executed]
    exact ⟨keeps.inv, keeps.others, ⟨List.mem_cons_self, order, business⟩, fun lost => absurd (show true = false from lost) Bool.noConfusion⟩

/-- The third row: it neither fails nor is left out, so the delivery owes nothing afterwards. -/
theorem safe_insertThird {evt : OrderCreated} {id : String} {second : Nat} (own : evt.orderID = d.orderID) (owes : d ∈ w.halfway)
    (order : (w.orders.find? evt.orderID).isSome = true) (business : (w.businesses.find? evt.businessID).isSome = true) :
    Safe wholeFlow (scheduleProtocol o) (.delivery d) (Delivered d)
      (call (I := followUpStore) (.insertThird d (followUpRow evt id finalReminder second))) w := by
  refine Safe.call (fun t rely inv may => ?_) (fun _ _ _ faults => nomatch faults) fun _ _ _ stops => nomatch stops
  have owes' : d ∈ t.halfway := (rely.owes d rfl).2 owes
  have business' : (t.businesses.find? evt.businessID).isSome = true := rely.grows.businesses ▸ business
  obtain ⟨last, inserted⟩ := @insertFollowUp_new (followUpRow evt id finalReminder second) t (rely.grows.orders _ order) business' may.2
  have keeps := keepsSchedule_third inv inserted owes' own rfl
  have begun : Begun d.orderID last := (begun_append (entries_insert inserted)).2 (.inr own)
  have free : Free d { last with halfway := last.halfway.filter fun x => decide (x ≠ d) } := by
    intro mem
    rw [List.mem_filter, decide_eq_true_eq] at mem
    exact mem.2 rfl
  simp only [wholeFlow, followUpExec, inserted]
  exact ⟨keeps.inv, keeps.others, ⟨free, fun _ => begun⟩, fun _ => free.failed⟩

theorem safe_handleFollowUpSchedule {evt : OrderCreated} {ids : FollowUpIDs} (own : evt.orderID = d.orderID) (h : Free d w) :
    Safe wholeFlow (scheduleProtocol o) (.delivery d) (Delivered d) (handleFollowUpSchedule d evt ids) w := by
  unfold handleFollowUpSchedule
  refine Safe.bind ((safe_existsFollowUp own h).mono fun found t known => ?_)
  obtain ⟨free, begun⟩ := known
  cases found with
  | error e => exact free.failed
  | ok found =>
    cases found with
    | true => exact ⟨free, fun _ => begun rfl⟩
    | false =>
      have clock : Safe wholeFlow (scheduleProtocol o) (.delivery d) (fun _ => Free d) (call (I := followUpStore) .now) t :=
        safe_unscheduling .now id free (fun _ _ rely free => free.relies rely) (fun _ _ free => free) fun _ free => free.idle
      refine Safe.bind (clock.mono fun now t free => ?_)
      cases now with
      | error e => exact free.failed
      | ok now =>
        refine Safe.bind ((Safe.mapErr_replied (safe_insertPair own free)).mono fun inserted t known => ?_)
        cases inserted with
        | error e => exact Free.failed known
        | ok _ =>
          obtain ⟨owes, order, business⟩ := known
          refine Safe.mapErr ((safe_insertThird own owes order business).mono fun r t h => ?_)
          cases r with
          | ok _ => exact h
          | error e => exact h.1.failed

theorem safe_deliverSchedule {evt : OrderCreated} {ids : FollowUpIDs} (own : evt.orderID = d.orderID) (h : Free d w) :
    Safe wholeFlow (scheduleProtocol o) (.delivery d) (fun _ => scheduleIdle (.delivery d)) (deliverSchedule d evt ids) w := by
  unfold deliverSchedule
  refine Safe.bind ((safe_handleFollowUpSchedule own h).mono fun handled t delivered => ?_)
  cases handled with
  | error e => exact delivered.1.idle
  | ok _ =>
    have begun := delivered.2 rfl
    refine Safe.call (fun t' rely inv may => ?_) (fun t' rely _ _ => (delivered.1.relies rely).idle) fun t' rely _ _ => (delivered.1.relies rely).idle
    have keeps : KeepsSchedule o (.delivery d) t' { t' with scheduled := d.orderID :: t'.scheduled } :=
      keepsSchedule_noted inv (rely.grows.begun _ begun)
    exact ⟨keeps.inv, keeps.others, (delivered.1.relies rely).idle, fun _ => (delivered.1.relies rely).idle⟩

/-- What everybody but a delivery may issue. -/
def Elsewhere : FollowUpStmt → Prop
  | .insertPair .. | .insertThird .. | .scheduled .. => False
  | .insertDeliveryConfirmation row => row.jobType = "delivery-confirmation"
  | _ => True

theorem safe_elsewhere {p : FollowUpHandler Unit} (uses : p.Uses Elsewhere) (outside : ∀ d, i ≠ .delivery d) :
    Safe wholeFlow (scheduleProtocol o) i (fun _ => scheduleIdle i) p w := by
  have idle : ∀ t, scheduleIdle i t := fun t d same => (outside d same).elim
  refine (Safe.of_uses uses (fun op t elsewhere inv may => ?_) idle).mono fun _ t _ => idle t
  have keeps : KeepsSchedule o i t (followUpExec op t).2 := by
    by_cases schedules : Schedules op
    · cases op with
      | insertDeliveryConfirmation row =>
        simp only [followUpExec]
        cases inserted : insertFollowUp row t with
        | error e => exact (SameSchedule.refl t).keeps inv
        | ok last => exact keepsSchedule_confirmation inv inserted may.2 elsewhere
      | insertPair | insertThird | scheduled => exact elsewhere.elim
      | _ => exact schedules.elim
    · exact (sameSchedule_exec schedules).keeps inv
  exact ⟨keeps.inv, keeps.others⟩

theorem uses_sendReminder {r : FollowUpRun} {publisher : Bool} {outboundID customerPhone text : String} {fp : FollowUpPayload} :
    (sendReminder r publisher outboundID fp customerPhone text).Uses Elsewhere := by
  unfold sendReminder
  refine (Uses.mapErr (uses_call.2 trivial)).bind fun conversation => ?_
  cases conversation with
  | none => trivial
  | some conversationID =>
    refine (Uses.mapErr (uses_call.2 trivial)).bind fun _ => ?_
    split
    · exact Uses.mapErr (uses_call.2 trivial)
    · trivial

theorem uses_followUpTask {r : FollowUpRun} {publisher : Bool} {outboundID : String} :
    (followUpTask r publisher outboundID).Uses Elsewhere := by
  have handles : ∀ fp, (handleFollowUp r publisher outboundID fp).Uses Elsewhere := by
    intro fp
    unfold handleFollowUp
    refine (Uses.mapErr (uses_call.2 trivial)).bind fun found => ?_
    cases found with
    | none => trivial
    | some order =>
      simp only
      split
      · trivial
      · split
        · exact (Uses.ignore (Uses.attempt (uses_call.2 trivial))).bind fun _ => uses_sendReminder
        · exact uses_sendReminder
  refine (uses_call.2 trivial).bind fun fp => ?_
  exact (Uses.attempt (handles fp)).bind fun handled => uses_call.2 trivial

theorem uses_claimDue {tx : String} {publisher : Bool} {now : Nat} (rows : List ScheduledFollowUp) :
    (claimDue tx publisher now rows).Uses Elsewhere := by
  induction rows with
  | nil => trivial
  | cons d rest ih =>
    refine (Uses.mapErr (uses_call.2 trivial)).bind fun claimed => ?_
    split
    · exact (Uses.ignore (Uses.attempt (uses_call.2 trivial))).bind fun _ => ih
    · exact ih

theorem uses_sweepFollowUps {tx : String} {publisher : Bool} : (sweepFollowUps tx publisher).Uses Elsewhere := by
  refine (uses_call.2 trivial).bind fun now => (Uses.mapErr (uses_call.2 trivial)).bind fun _ => ?_
  have body : (sweepDue tx publisher now).Uses Elsewhere := by
    refine (Uses.mapErr (uses_call.2 trivial)).bind fun _ => (Uses.mapErr (uses_call.2 trivial)).bind fun rows => ?_
    exact (uses_claimDue rows).bind fun _ => Uses.mapErr (uses_call.2 trivial)
  refine (Uses.attempt body).bind fun swept => ?_
  cases swept with
  | ok _ => trivial
  | error e => exact (Uses.ignore (Uses.attempt (uses_call.2 trivial))).bind fun _ => trivial

theorem elsewhere_of_outside {op : FollowUpStmt} (outside : Outside op) : Elsewhere op := by
  cases op with
  | insertDeliveryConfirmation row => exact outside
  | _ => trivial

theorem safe_wholeJob {p : FollowUpHandler Unit} (may : FollowUpJob i p) (idle : scheduleIdle i w) :
    Safe wholeFlow (scheduleProtocol o) i (fun _ => scheduleIdle i) p w := by
  cases may with
  | task r publisher outboundID => exact safe_elsewhere uses_followUpTask fun _ absurd => nomatch absurd
  | limited r => exact safe_elsewhere ((uses_call.2 trivial).bind fun _ => uses_call.2 trivial) fun _ absurd => nomatch absurd
  | recover r => exact safe_elsewhere (uses_call.2 trivial) fun _ absurd => nomatch absurd
  | sweep tx publisher => exact safe_elsewhere uses_sweepFollowUps fun _ absurd => nomatch absurd
  | schedule d evt ids own => exact safe_deliverSchedule own (idle d rfl)
  | expiry n =>
    have uses : sweepExpiredOrders.Uses Elsewhere := by
      refine (uses_call.2 trivial).bind fun now => (uses_call.2 trivial).bind fun orderIDs => ?_
      induction orderIDs with
      | nil => trivial
      | cons orderID rest ih => exact Uses.bind (Uses.ignore (Uses.attempt (uses_call.2 trivial))) fun _ => ih
    exact safe_elsewhere uses fun _ absurd => nomatch absurd
  | other n op outside =>
    exact safe_elsewhere (Uses.ignore (Uses.attempt (uses_call.2 (elsewhere_of_outside outside)))) fun _ absurd => nomatch absurd

end Handlers

/-! ## Every run -/

/-- The order has no follow-up yet. -/
structure Unscheduled (o : String) (w : FollowUpWorld) : Prop where
  none : ∀ f ∈ w.followUps.rows, f.orderID ≠ o
  halfway : w.halfway = []
  scheduled : w.scheduled = []

/-- One row of each kind. -/
theorem countP_of_schedule {o kind : String} {w : FollowUpWorld} (all : scheduleOf o w = scheduledKinds) (mem : kind ∈ scheduledKinds) :
    (w.followUps.rows.countP fun f => decide (f.orderID = o) && decide (f.jobType = kind)) = 1 := by
  have counted : (w.followUps.rows.countP fun f => decide (f.orderID = o) && decide (f.jobType = kind)) = (scheduleOf o w).count kind := by
    unfold scheduleOf entries
    rw [List.count, List.countP_map, List.countP_filter, List.countP_map]
    refine List.countP_congr fun f _ => ?_
    simp only [Function.comp, Bool.and_eq_true, decide_eq_true_eq, beq_iff_eq]
    constructor
    · rintro ⟨own, rfl⟩
      exact ⟨rfl, own, mem⟩
    · rintro ⟨rfl, own, -⟩
      exact ⟨own, rfl⟩
  rw [counted, all]
  revert mem
  unfold scheduledKinds finalReminder
  intro mem
  simp only [List.mem_cons, List.not_mem_nil, or_false] at mem
  rcases mem with rfl | rfl | rfl <;> decide

/-- Where deliveries do not overlap and none is left halfway, an order one of whose deliveries returned nil has one follow-up
of each kind, once no delivery of it is in flight. -/
theorem scheduled_each_once {o : String} {w : FollowUpWorld} {c : Crew followUpStore FollowUpName FollowUpWorld} (start : Unscheduled o w)
    (reach : wholeFlow.Reach ⟨w, []⟩ c) (quiet : ∀ thread ∈ c.threads, ∀ d, thread.1 = .delivery d → d.orderID ≠ o)
    (delivered : o ∈ c.state.scheduled) :
    ∀ kind ∈ scheduledKinds, (c.state.followUps.rows.countP fun f => decide (f.orderID = o) && decide (f.jobType = kind)) = 1 := by
  have first : Scheduling o w := by
    refine .unscheduled ?_ (fun d mem => ?_) ?_
    · rintro ⟨e, mem, own⟩
      obtain ⟨f, listed, rfl⟩ := List.mem_map.1 mem
      exact start.none f listed own
    · rw [start.halfway] at mem
      cases mem
    · rw [start.scheduled]
      exact List.not_mem_nil
  have idle : ∀ i, scheduleIdle i w := by
    intro i d _
    rw [start.halfway]
    exact List.not_mem_nil
  have holds := Protocol.holds (P := scheduleProtocol o) Protocol.promise_idle (fun i p s may _ idle => safe_wholeJob may idle) reach first idle
  have settled : ∀ d, d.orderID = o → d ∉ c.state.halfway := by
    intro d own
    refine holds.idle (.delivery d) (fun mem => ?_) d rfl
    obtain ⟨thread, listed, named⟩ := List.mem_map.1 mem
    exact quiet thread listed d named own
  intro kind mem
  have inv : Scheduling o c.state := holds.inv
  cases inv with
  | unscheduled _ _ unnoted => exact (unnoted delivered).elim
  | half d _ own owes _ => exact (settled d own owes).elim
  | whole all _ => exact countP_of_schedule all mem

/-- The event of the order. -/
def orderPlaced : OrderCreated := ⟨"o1", "biz", "ama", "conv", 10, "GHS"⟩

/-- An order without follow-ups. -/
def placed : FollowUpWorld := storeOf (some "Ama") Table.empty

/-- A delivery and a redelivery of the event. -/
def delivery (attempt : Nat) (cart first second : String) : FollowUpHandler Unit :=
  deliverSchedule ⟨attempt, "o1"⟩ orderPlaced ⟨cart, first, second⟩

/-- The delivery has run. -/
def followed : FollowUpWorld := ((delivery 0 "a" "b" "c").run followUpExec placed).2

/-- A delivery and a redelivery, one after the other: there is one final reminder. -/
theorem scheduled_each_once_redelivered :
    (((delivery 1 "d" "e" "f").run followUpExec followed).2.followUps.rows.countP fun f =>
      decide (f.orderID = "o1") && decide (f.jobType = finalReminder)) = 1 := by
  have first : wholeFlow.Reach ⟨placed, []⟩ ⟨followed, []⟩ :=
    wholeFlow.reach_job (i := .delivery ⟨0, "o1"⟩) (.schedule ⟨0, "o1"⟩ orderPlaced ⟨"a", "b", "c"⟩ rfl) (by decide +kernel)
  have second := wholeFlow.reach_job (i := .delivery ⟨1, "o1"⟩) (.schedule ⟨1, "o1"⟩ orderPlaced ⟨"d", "e", "f"⟩ rfl)
    (by decide +kernel : wholeFlow.Follows (delivery 1 "d" "e" "f") followed)
  exact scheduled_each_once ⟨fun f mem => absurd mem List.not_mem_nil, rfl, rfl⟩ (first.trans second)
    (fun thread mem => absurd mem List.not_mem_nil) (by decide +kernel) finalReminder (by decide)

/-- The first delivery stops after the pair. -/
def halfScheduled : FollowUpWorld := ((delivery 0 "a" "b" "c").steps followUpExec 3 placed).2

/-- A redelivery after that finds follow-ups and succeeds: the order never gets its final reminder. -/
theorem scheduled_without_final_reminder : ¬ ∀ c : Crew followUpStore FollowUpName FollowUpWorld, followUpFlow.Reach ⟨placed, []⟩ c →
    c.threads = [] → "o1" ∈ c.state.scheduled →
      ∀ kind ∈ scheduledKinds, (c.state.followUps.rows.countP fun f => decide (f.orderID = "o1") && decide (f.jobType = kind)) = 1 := by
  intro whole
  have started : followUpFlow.Reach ⟨placed, []⟩ ⟨placed, [] ++ (.delivery ⟨0, "o1"⟩, delivery 0 "a" "b" "c") :: []⟩ :=
    .single (.spawn (.schedule ⟨0, "o1"⟩ orderPlaced ⟨"a", "b", "c"⟩ rfl) List.not_mem_nil)
  have paired := started.trans (followUpFlow.reach_steps 3 [] [] (by decide +kernel))
  have stopped : followUpFlow.Reach ⟨placed, []⟩ ⟨halfScheduled, [] ++ []⟩ := paired.tail (.drop trivial)
  have again := followUpFlow.reach_job (i := .delivery ⟨1, "o1"⟩) (.schedule ⟨1, "o1"⟩ orderPlaced ⟨"d", "e", "f"⟩ rfl)
    (by decide +kernel : followUpFlow.Follows (delivery 1 "d" "e" "f") halfScheduled)
  have missing := whole _ (stopped.trans again) rfl (by decide +kernel) finalReminder (by decide)
  exact absurd missing (by decide +kernel)

end NovoApex.FollowUps
