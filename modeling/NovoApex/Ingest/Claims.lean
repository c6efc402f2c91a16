import NovoApex.Handlers.WebhooksWhatsapp
import NovoApex.Lib.Crew

/-!
# Claims and jobs

The claim of an idempotency key lives in the database, its job in the queue, and a
delivery may stop between the two. The publish stands inside the open transaction, so a
claim is committed by somebody who knows that the queue has the job: a delivery whose
publish came through, or a worker that has taken the job from the queue. The other way
round a job may be there without its claim, and a redelivery then finds it in the queue.

The queue tells a redelivery no more than that the id is in use. When the reply to a
publish is lost and the job then uses up its retries, the id belongs to an archived task:
the redelivery claims the key, and nothing will process the message.
-/

namespace NovoApex.Ingest
set_option autoImplicit false
open Lib Program Workers Handlers

/-- The queue took the key's job in. -/
def Accepted (key : String) (w : IngestWorld) : Prop := ∃ job, (key, job) ∈ w.tasks.accepted

/-- What `ww_handle` publishes: the payload is the message, an object. -/
def IsMessage (job : WebhookJob) : Prop := ∃ message, job.payload = .object message

/-- What may start: a delivery of a message, an attempt at a task, and the end of a transaction by the server. -/
inductive IngestJob : IngestName → Program (ingestStore.signed IngestName) Unit → Prop where
  | delivery (n : Nat) (job : WebhookJob) (message : IsMessage job) :
      IngestJob (.delivery n job.idempotencyKey) ((ignore (wwIngestMessage job)).signed (.delivery n job.idempotencyKey))
  | worker (n : Nat) (taskID : String) (a : WebhookAttempt) : IngestJob (.worker n) ((workWebhook taskID a).signed (.worker n))
  | server (who : IngestName) : IngestJob .server (call (I := ingestStore.signed IngestName) (.server, .abort who))

/-- The runs of ingest and worker. An insert of a key waits for the open transaction that has inserted it. -/
def ingestFlow : Roster (ingestStore.signed IngestName) IngestName IngestWorld where
  exec := ingestExec
  job := IngestJob
  allow
    | w, (i, .claim key) => unlocked key i w
    | w, (i, .persistInbound key _) => key ≠ "" → unlocked key i w
    | _, _ => True

/-- Claims are of keys whose jobs the queue took in, and the tasks in the queue are of that kind. -/
structure IngestInv (w : IngestWorld) : Prop where
  claims : ∀ key ∈ w.claims.rows, Accepted key w
  claimed : ∀ key i, w.claimedBy key = some i → key ∈ w.claims.rows
  live : ∀ id job retried, w.tasks.slot id = .live job retried → job.idempotencyKey = id ∧ IsMessage job
  used : ∀ id, w.tasks.slot id ≠ .free → Accepted id w

/-- What a party relies on: the history of the queue grows, and nobody opens transactions or makes claims in its name. -/
structure IngestRely (i : IngestName) (w w' : IngestWorld) : Prop where
  accepted : ∀ key, Accepted key w → Accepted key w'
  open_ : ∀ key, w'.open_ i = some key → w.open_ i = some key
  claimedBy : ∀ key, w'.claimedBy key = some i → w.claimedBy key = some i

def ingestProtocol : Protocol IngestName IngestWorld where
  inv := IngestInv
  rely := IngestRely
  refl _ _ := ⟨fun _ => id, fun _ => id, fun _ => id⟩
  trans _ _ _ _ first second :=
    ⟨fun key h => second.accepted key (first.accepted key h), fun key h => first.open_ key (second.open_ key h),
      fun key h => first.claimedBy key (second.claimedBy key h)⟩

/-! ## One statement -/

section Statements

variable {i : IngestName} {w : IngestWorld}

theorem mem_record {key key' : String} {claims : Table (id : String → String)} :
    key' ∈ (record key claims).rows ↔ key' ∈ claims.rows ∨ key' = key := by
  unfold record
  cases inserted : claims.insert key with
  | some claims' =>
    rw [Option.getD_some, (Table.insert_eq_some.1 inserted).2, List.mem_append, List.mem_singleton]
  | none =>
    obtain ⟨r, mem, same⟩ := Table.insert_eq_none.1 inserted
    rw [Option.getD_none]
    constructor
    · exact .inl
    · rintro (h | rfl)
      · exact h
      · have here : r = key' := same
        exact here ▸ mem

theorem accepted_enqueue (job : WebhookJob) {key : String} (h : Accepted key w) :
    Accepted key { w with tasks := w.tasks.enqueue job.idempotencyKey job } := by
  obtain ⟨job', mem⟩ := h
  refine ⟨job', ?_⟩
  rcases w.tasks.enqueue_cases job.idempotencyKey job with ⟨-, taken⟩ | ⟨-, dropped⟩
  · show _ ∈ (w.tasks.enqueue job.idempotencyKey job).accepted
    rw [taken]
    exact List.mem_append_left _ mem
  · show _ ∈ (w.tasks.enqueue job.idempotencyKey job).accepted
    rw [dropped]
    exact mem

/-- After a publish the queue has the job, taken in now or before. -/
theorem accepted_of_enqueue (inv : IngestInv w) (job : WebhookJob) :
    Accepted job.idempotencyKey { w with tasks := w.tasks.enqueue job.idempotencyKey job } := by
  rcases w.tasks.enqueue_cases job.idempotencyKey job with ⟨-, taken⟩ | ⟨used, -⟩
  · refine ⟨job, ?_⟩
    show _ ∈ (w.tasks.enqueue job.idempotencyKey job).accepted
    rw [taken]
    exact List.mem_append_right _ (List.mem_singleton_self _)
  · exact accepted_enqueue job (inv.used _ used)

theorem IngestInv.enqueue (inv : IngestInv w) {job : WebhookJob} (message : IsMessage job) :
    IngestInv { w with tasks := w.tasks.enqueue job.idempotencyKey job } := by
  have grows : ∀ key, Accepted key w → Accepted key { w with tasks := w.tasks.enqueue job.idempotencyKey job } :=
    fun key => accepted_enqueue job
  refine ⟨fun key mem => grows key (inv.claims key mem), inv.claimed, fun id job' retried live => ?_, fun id used => ?_⟩
  · by_cases same : id = job.idempotencyKey
    · subst same
      rcases w.tasks.enqueue_cases job.idempotencyKey job with ⟨free, -⟩ | ⟨-, dropped⟩
      · have now := w.tasks.enqueue_slot_of_free job free
        have same : Slot.live job 0 = Slot.live job' retried := now.symm.trans live
        cases same
        exact ⟨rfl, message⟩
      · have live : (w.tasks.enqueue job.idempotencyKey job).slot job.idempotencyKey = .live job' retried := live
        rw [dropped] at live
        exact inv.live _ _ _ live
    · exact inv.live id job' retried ((w.tasks.enqueue_slot_of_ne job same).symm.trans live)
  · by_cases same : id = job.idempotencyKey
    · subst same
      exact accepted_of_enqueue inv job
    · have used : (w.tasks.enqueue job.idempotencyKey job).slot id ≠ .free := used
      rw [w.tasks.enqueue_slot_of_ne job same] at used
      exact grows id (inv.used id used)

/-- A task that ends or fails leaves the others alone. -/
theorem IngestInv.slot (inv : IngestInv w) {id : String} {slot : Slot WebhookJob} (used : Accepted id w)
    (own : ∀ job retried, slot = .live job retried → job.idempotencyKey = id ∧ IsMessage job) :
    IngestInv { w with tasks := { w.tasks with slot := Function.update w.tasks.slot id slot } } := by
  refine ⟨inv.claims, inv.claimed, fun id' job retried live => ?_, fun id' used' => ?_⟩
  · by_cases same : id' = id
    · subst same
      exact own job retried ((Function.update_self id' slot w.tasks.slot).symm.trans live)
    · exact inv.live id' job retried ((Function.update_of_ne same _ _).symm.trans live)
  · by_cases same : id' = id
    · exact same ▸ used
    · have used' : Function.update w.tasks.slot id slot id' ≠ .free := used'
      rw [Function.update_of_ne same] at used'
      exact inv.used id' used'

/-- Whoever writes a claim knows that its job was taken in, and the jobs published are messages. -/
def Knows (i : IngestName) (w : IngestWorld) : IngestStmt → Prop
  | .enqueue job => IsMessage job
  | .commit => ∀ key, w.open_ i = some key → Accepted key w
  | .persistInbound key _ => key ≠ "" → Accepted key w
  | _ => True

theorem rely_open {j : IngestName} {value : Option String} (other : j ≠ i) :
    IngestRely j w { w with open_ := Function.update w.open_ i value } := by
  refine ⟨fun _ => id, fun key h => ?_, fun _ => id⟩
  rw [← h]
  exact (Function.update_of_ne other _ _).symm

theorem rely_closed {j who : IngestName} : IngestRely j w { w with open_ := Function.update w.open_ who none } := by
  refine ⟨fun _ => id, fun key h => ?_, fun _ => id⟩
  by_cases same : j = who
  · subst same
    have h : Function.update w.open_ j none j = some key := h
    rw [Function.update_self] at h
    cases h
  · rw [← h]
    exact (Function.update_of_ne same _ _).symm

/-- One statement keeps the invariant and what the others rely on. -/
theorem ingest_step (inv : IngestInv w) {op : IngestStmt} (knows : Knows i w op) :
    IngestInv (ingestExec (i, op) w).2 ∧ ∀ j, j ≠ i → IngestRely j w (ingestExec (i, op) w).2 := by
  have same : IngestInv w ∧ ∀ j, j ≠ i → IngestRely j w w := ⟨inv, fun j _ => ingestProtocol.refl j w⟩
  cases op with
  | seen key => exact same
  | claim key =>
    simp only [ingestExec]
    split
    · exact ⟨⟨inv.claims, inv.claimed, inv.live, inv.used⟩, fun j other => rely_open other⟩
    · exact ⟨⟨inv.claims, inv.claimed, inv.live, inv.used⟩, fun j other => rely_open other⟩
  | enqueue job => exact ⟨inv.enqueue knows, fun j _ => ⟨fun key => accepted_enqueue job, fun _ => id, fun _ => id⟩⟩
  | commit =>
    cases opened : w.open_ i with
    | none =>
      simp only [ingestExec, opened]
      exact same
    | some key =>
      simp only [ingestExec, opened]
      refine ⟨⟨fun key' mem => ?_, fun key' j claimed => ?_, inv.live, inv.used⟩, fun j other => ⟨fun _ => id, fun key' h => ?_, fun key' h => ?_⟩⟩
      · rcases mem_record.1 mem with mem | rfl
        · exact inv.claims key' mem
        · exact knows key' opened
      · by_cases own : key' = key
        · exact mem_record.2 (.inr own)
        · exact mem_record.2 (.inl (inv.claimed key' j ((Function.update_of_ne own _ _).symm.trans claimed)))
      · rw [← h]
        exact (Function.update_of_ne other _ _).symm
      · by_cases own : key' = key
        · subst own
          have h : Function.update w.claimedBy key' (some i) key' = some j := h
          rw [Function.update_self] at h
          exact absurd (Option.some.inj h).symm other
        · rw [← h]
          exact (Function.update_of_ne own _ _).symm
  | rollback => exact ⟨⟨inv.claims, inv.claimed, inv.live, inv.used⟩, fun j _ => rely_closed⟩
  | abort who => exact ⟨⟨inv.claims, inv.claimed, inv.live, inv.used⟩, fun j _ => rely_closed⟩
  | dequeue taskID =>
    cases slot : w.tasks.slot taskID <;> simp only [ingestExec, slot] <;> exact same
  | persistInbound key row =>
    have claims : ∀ key' ∈ (if key = "" then w.claims else record key w.claims).rows, Accepted key' w := by
      intro key' mem
      by_cases none : key = ""
      · rw [if_pos none] at mem
        exact inv.claims key' mem
      · rw [if_neg none] at mem
        rcases mem_record.1 mem with mem | rfl
        · exact inv.claims key' mem
        · exact knows none
    have claimed : ∀ key' j, w.claimedBy key' = some j → key' ∈ (if key = "" then w.claims else record key w.claims).rows := by
      intro key' j h
      split
      · exact inv.claimed key' j h
      · exact mem_record.2 (.inl (inv.claimed key' j h))
    simp only [ingestExec, persistInbound]
    split
    · exact ⟨⟨claims, claimed, inv.live, inv.used⟩, fun j _ => ⟨fun _ => id, fun _ => id, fun _ => id⟩⟩
    · exact ⟨⟨claims, claimed, inv.live, inv.used⟩, fun j _ => ⟨fun _ => id, fun _ => id, fun _ => id⟩⟩
  | publishDebounce job => exact same
  | finish taskID error =>
    cases slot : w.tasks.slot taskID with
    | live job retried =>
      have used : Accepted taskID w := inv.used taskID (by rw [slot]; exact fun h => by cases h)
      have relies : ∀ j, j ≠ i → ∀ slots, IngestRely j w { w with tasks := { w.tasks with slot := slots } } :=
        fun j _ slots => ⟨fun _ => id, fun _ => id, fun _ => id⟩
      cases error with
      | none =>
        simp only [ingestExec, slot]
        exact ⟨inv.slot used fun _ _ h => (by cases h), fun j other => relies j other _⟩
      | some skip =>
        simp only [ingestExec, slot]
        refine ⟨inv.slot used fun job' retried' h => ?_, fun j other => relies j other _⟩
        by_cases more : retried < (if skip then 0 else webhookMaxRetry)
        · rw [if_pos more] at h
          cases h
          exact inv.live taskID job retried slot
        · rw [if_neg more] at h
          cases h
    | free => cases error <;> simp only [ingestExec, slot] <;> exact same
    | archived => cases error <;> simp only [ingestExec, slot] <;> exact same

end Statements

/-! ## Safe parties -/

section Safety

variable {i : IngestName} {w : IngestWorld} {α : Type}

/-- What a delivery knows within its transaction: it is over its own key, and the key is not claimed in its name. -/
structure Opened (i : IngestName) (key : String) (w : IngestWorld) : Prop where
  own : ∀ key', w.open_ i = some key' → key' = key
  unclaimed : w.claimedBy key ≠ some i

theorem Opened.steady {key : String} {w' : IngestWorld} (h : Opened i key w) (rely : IngestRely i w w') : Opened i key w' :=
  ⟨fun key' own => h.own key' (rely.open_ key' own), fun claimed => h.unclaimed (rely.claimedBy key claimed)⟩

abbrev SafeIngest (i : IngestName) (Q : Except IngestErr α → IngestWorld → Prop) (p : Program (ingestStore.signed IngestName) α)
    (w : IngestWorld) : Prop := Safe ingestFlow ingestProtocol i Q p w

/-- What a reply tells, or the error in its place. -/
def Tells {β : Type} (A : β → IngestWorld → Prop) (B : IngestErr → IngestWorld → Prop) : Except IngestErr β × IngestWorld → Prop
  | (.ok a, w) => A a w
  | (.error e, w) => B e w

/-- One statement, and what the party knows after it. -/
theorem safe_ingest (i : IngestName) (op : IngestStmt) (K : IngestWorld → Prop) (A : op.Reply → IngestWorld → Prop)
    (B : IngestErr → IngestWorld → Prop) (known : K w) (steady : ∀ t, K w → IngestRely i w t → K t)
    (knows : ∀ t, K t → Knows i t op)
    (answers : ∀ t, K t → IngestInv t → Tells A B (ingestExec (i, op) t) ∧ B (.db .transient) (ingestExec (i, op) t).2)
    (fails : ∀ t, K t → B (.db .transient) t) :
    SafeIngest i (fun r t => Tells A B (r, t)) (call (I := ingestStore.signed IngestName) (i, op)) w := by
  apply Safe.call_eq
  · intro t rely inv _
    have here := steady t known rely
    obtain ⟨inv', others⟩ := ingest_step inv (knows t here)
    obtain ⟨told, lost⟩ := answers t here inv
    exact ⟨(ingestExec (i, op) t).1, (ingestExec (i, op) t).2, rfl, inv', others, told, fun _ => lost⟩
  · intro t rely _ _
    exact fails t (steady t known rely)
  · intro t _ _ _
    trivial

/-- A statement after which nothing need be known. -/
theorem safe_plain (i : IngestName) (op : IngestStmt) (knows : ∀ t, Knows i t op) :
    SafeIngest i (fun _ _ => True) (call (I := ingestStore.signed IngestName) (i, op)) w := by
  refine (safe_ingest i op (fun _ => True) (fun _ _ => True) (fun _ _ => True) trivial (fun _ _ _ => trivial) (fun t _ => knows t)
    (fun t _ _ => ⟨?_, trivial⟩) fun _ _ => trivial).mono fun _ _ _ => trivial
  rcases ingestExec (i, op) t with ⟨r, t'⟩
  cases r <;> trivial

/-- The party has made no claim of the key, if its publish failed. -/
def Unclaimed (i : IngestName) (key : String) (r : Except IngestErr α) (w : IngestWorld) : Prop :=
  ∀ e, r = .error (.publish e) → w.claimedBy key ≠ some i

/-- An error of the database is none of the publish. -/
def Elsewise (e : IngestErr) : Prop := ∀ e', e ≠ .publish e'

theorem Elsewise.unclaimed {key : String} {e : IngestErr} (h : Elsewise e) : Unclaimed (α := α) i key (.error e) w := by
  intro e' same
  exact absurd (Except.error.inj same) (h e')

theorem elsewise_transient : Elsewise (.db .transient) := fun _ same => by cases same

/-- The claim of a delivery. -/
theorem safe_claim (i : IngestName) (key : String) :
    SafeIngest i (fun r t => Tells (fun claimed t => claimed = true → Opened i key t) (fun e _ => Elsewise e) (r, t))
      (call (I := ingestStore.signed IngestName) (i, .claim key)) w := by
  refine safe_ingest i (.claim key) (fun _ => True) _ (fun e _ => Elsewise e) trivial (fun _ _ _ => trivial) (fun _ _ => trivial)
    (fun t _ inv => ⟨?_, elsewise_transient⟩) fun _ _ => elsewise_transient
  by_cases seen : key ∈ t.claims.rows
  · simp only [ingestExec, if_pos seen]
    exact fun absurd_ => by cases absurd_
  · simp only [ingestExec, if_neg seen]
    intro _
    refine ⟨fun key' own => ?_, fun claimed => seen (inv.claimed key i claimed)⟩
    have own : Function.update t.open_ i (some key) i = some key' := own
    rw [Function.update_self] at own
    exact (Option.some.inj own).symm

/-- The publish within the transaction. -/
theorem safe_publish (i : IngestName) {job : WebhookJob} (message : IsMessage job) (opened : Opened i job.idempotencyKey w) :
    SafeIngest i (fun r t => Tells (fun _ t => Opened i job.idempotencyKey t ∧ Accepted job.idempotencyKey t)
      (fun _ t => Opened i job.idempotencyKey t) (r, t)) (call (I := ingestStore.signed IngestName) (i, .enqueue job)) w := by
  refine safe_ingest i (.enqueue job) (Opened i job.idempotencyKey) _ _ opened (fun t h rely => h.steady rely) (fun _ _ => message)
    (fun t h inv => ?_) fun _ h => h
  exact ⟨⟨⟨h.own, h.unclaimed⟩, accepted_of_enqueue inv job⟩, ⟨h.own, h.unclaimed⟩⟩

/-- The commit of a transaction whose job was taken in. -/
theorem safe_commit (i : IngestName) {key : String} (opened : Opened i key w) (accepted : Accepted key w) :
    SafeIngest i (fun r t => Tells (fun _ _ => True) (fun e _ => Elsewise e) (r, t))
      (call (I := ingestStore.signed IngestName) (i, .commit)) w := by
  refine safe_ingest i .commit (fun t => Opened i key t ∧ Accepted key t) (fun _ _ => True) (fun e _ => Elsewise e) ⟨opened, accepted⟩
    (fun t h rely => ⟨h.1.steady rely, rely.accepted key h.2⟩) (fun t h => ?_) (fun t _ _ => ⟨?_, elsewise_transient⟩)
    fun _ _ => elsewise_transient
  · intro key' own
    rw [h.1.own key' own]
    exact h.2
  · cases opened : t.open_ i with
    | none =>
      simp only [ingestExec, opened]
      exact fun _ same => by cases same
    | some key' =>
      simp only [ingestExec, opened]
      trivial

/-- The rollback makes no claim. -/
theorem safe_rollback (i : IngestName) {key : String} (opened : Opened i key w) :
    SafeIngest i (fun _ t => t.claimedBy key ≠ some i) (call (I := ingestStore.signed IngestName) (i, .rollback)) w := by
  refine (safe_ingest i .rollback (Opened i key) (fun _ t => t.claimedBy key ≠ some i) (fun _ t => t.claimedBy key ≠ some i)
    opened (fun t h rely => h.steady rely) (fun _ _ => trivial) (fun t h _ => ⟨h.unclaimed, h.unclaimed⟩)
    fun _ h => h.unclaimed).mono fun r t h => ?_
  cases r <;> exact h

end Safety

/-! ## Deliveries and redeliveries -/

/-- What a delivery does. -/
def deliver (n : Nat) (job : WebhookJob) : Program (ingestStore.signed IngestName) Unit :=
  (ignore (wwIngestMessage job)).signed (.delivery n job.idempotencyKey)

/-- What a delivery leaves that claims its key. -/
def delivered (i : IngestName) (job : WebhookJob) (w : IngestWorld) : IngestWorld where
  claims := record job.idempotencyKey w.claims
  open_ := Function.update (Function.update w.open_ i (some job.idempotencyKey)) i none
  inbound := w.inbound
  tasks := w.tasks.enqueue job.idempotencyKey job
  claimedBy := Function.update w.claimedBy job.idempotencyKey (some i)

/-- What an attempt leaves that comes through. -/
def worked (job : WebhookJob) (row : InboundMessage) (w : IngestWorld) : IngestWorld :=
  { (persistInbound job.idempotencyKey row w).2 with tasks := w.tasks.complete job.idempotencyKey }

end NovoApex.Ingest
