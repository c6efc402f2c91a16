import NovoApex.Db.Outbound
import NovoApex.Workers.Checkout

/-!
# The store of the orchestrator

The statements of a debounced turn (`orchestrator.go`, `orchestrator_context.go`,
`order_intents.sql`) next to those of the orders pipeline, which the checkout jobs and
the vendor's requests issue on the same tables. Every statement carries the name of who
issues it.

Some of the state is history that no statement reads: the conversations taken over, the
turns that go on to speak, what turns have put out, and the intents as they stood before
each order.
-/

namespace NovoApex.Db
set_option autoImplicit false
open Lib Workers

/-- A row of `inbound_messages`, with the type and the media id of its payload. -/
structure InboundMessage where
  id : String
  whatsappMessageID : Option String
  senderPhone : String
  recipientPhone : String
  businessID : Option String
  conversationID : Option String
  messageType : Option String
  mediaID : Option String
  textContent : Option String
  timestamp : Nat
  deriving DecidableEq

/-- `businesses.whatsapp_phone_number_id`. -/
structure BusinessNumber where
  whatsappPhoneNumberID : String
  businessID : String
  deriving DecidableEq

/-- `outboundRow`: what a turn inserts into `outbound_messages`. -/
structure TurnMessage where
  id : String
  businessID : String
  conversationID : String
  messageType : String
  textContent : String
  imageURL : Option String
  productID : Option String
  status : OutboundStatus
  deriving DecidableEq

/-- What the upsert of a conversation returns. -/
structure ConversationRead where
  id : String
  state : ConversationState
  escalated : Bool
  deriving DecidableEq

/-- Who acts on a conversation. -/
inductive TurnName where
  | turn (n : Nat)
  | checkout (n : Nat)
  | vendor (n : Nat)
  | other (n : Nat)
  /-- Somebody who only looks. -/
  | bystander
  deriving DecidableEq, Repr

/-- What a turn puts out. -/
inductive Output where
  | text | image | transition | checkoutJob
  deriving DecidableEq, Repr

/-- An output of a turn, and whether the conversation was taken over at that time. -/
structure Emission where
  by_ : TurnName
  conversationID : String
  output : Output
  takenOver : Bool
  deriving DecidableEq, Repr

/-- An order that was placed, with the intents as they stood right before its transaction. -/
structure IntentPlacement where
  orderID : String
  conversationID : Option String
  before : List OrderIntent
  deriving DecidableEq

/-- The errors of a turn. -/
inductive TurnErr where
  | db (e : Err)
  /-- The LLM or one of its services failed. -/
  | service (message : String)
  /-- `fmt.Errorf("context: %w", cause)`. -/
  | context (text : String) (cause : TurnErr)
  deriving DecidableEq, Repr

/-- The tables and queues a turn works on. `outbound_messages` is in two parts, by who inserts: `outbound` has the rows of the
turns and `db.outboundMessages` those of the orders pipeline. -/
structure TurnWorld where
  clock : Nat
  db : Database
  numbers : Table BusinessNumber.whatsappPhoneNumberID
  inbound : Table InboundMessage.id
  outbound : Table OutboundRow.id
  /-- `product_images`: the url of the first image of a product. -/
  primaryImage : String → Option String
  /-- The checkout jobs that were enqueued. -/
  checkoutJobs : List CheckoutJob
  takenOver : List String
  speaking : List (TurnName × String)
  emitted : List Emission
  placements : List IntentPlacement

/-- An outbound message, by whom it is for. -/
structure Addressed where
  businessID : Option String
  conversationID : Option String
  recipientPhone : String

/-- The rows of `outbound_messages`. -/
def TurnWorld.messages (w : TurnWorld) : List Addressed :=
  (w.outbound.rows.map fun r => ⟨r.businessID, r.conversation, r.recipient⟩) ++
    w.db.outboundMessages.rows.map fun m => ⟨some m.businessID, m.conversationID, m.recipientPhone⟩

/-- Statements on columns that only feed the prompt, the customer's profile or a notification: they answer or fail. -/
inductive Aside where
  | referral | acquisitionChannel | ensureProfile | readProfile | latestPaidOrder | inboundHistory | outboundHistory
  | alreadyShown | favoriteProduct | push | crmSignal
  deriving DecidableEq, Repr

inductive TurnStmt where
  | now
  | tick (later : Nat)
  /-- The webhook worker persists a message. -/
  | receive (m : InboundMessage)
  | lookupBusiness (recipientPhone : String)
  | upsertCustomer (id businessID phone : String)
  | upsertConversation (id businessID customerPhone : String)
  | backfill (recipientPhone senderPhone businessID conversationID : String)
  | latestMessage (conversationID : String)
  | persistTranscript (whatsappMessageID textContent : String)
  | setEscalated (conversationID reason : String)
  | businessOf (conversationID : String)
  | latestInbound (conversationID : String)
  | insertOutboundRow (row : TurnMessage)
  | publishOutbound (id : String)
  | productForImage (businessID shortID : String)
  | primaryImage (productID : String)
  | getActiveOrderIntent (conversationID : String)
  | stageOrderIntent (id businessID customerID conversationID : String) (ttl : Nat)
  | enqueueCheckout (job : CheckoutJob)
  /-- Asynq hands out a checkout job, once or again. -/
  | takeCheckout (n : Nat)
  | aside (what : Aside)
  | sql (op : Stmt)
  /-- The turn has ended. -/
  | finish

/-- What a statement answers. -/
@[reducible] def TurnStmt.Reply : TurnStmt → Type
  | now => Nat
  | lookupBusiness .. => Option (String × String)
  | upsertCustomer .. => String
  | upsertConversation .. => ConversationRead
  | latestMessage .. => Option InboundMessage
  | businessOf .. => String
  | latestInbound .. => Option Nat
  | productForImage .. => Product
  | primaryImage .. => Option String
  | getActiveOrderIntent .. => String
  | stageOrderIntent .. => String
  | takeCheckout .. => CheckoutJob
  | sql op => op.Reply
  | _ => Unit

/-- The interface of the orchestrator. -/
abbrev turnStore : Interface := ⟨TurnStmt, TurnStmt.Reply, TurnErr, .db .transient⟩

/-- The database's error in an error of the orchestrator. -/
def TurnErr.cause : TurnErr → Err
  | .db e => e
  | .service _ => .transient
  | .context _ e => e.cause

/-- The statements of the orders pipeline. -/
def sqlStatements : store.Embedding turnStore where
  op := .sql
  reply _ r := r.mapError TurnErr.cause
  err := .db

/-! ## Reading -/

/-- The business of a number, with its currency or the default one. -/
def lookupBusiness (recipientPhone : String) (w : TurnWorld) : Option (String × String) :=
  (w.numbers.find? recipientPhone).bind fun n =>
    (w.db.businesses.find? n.businessID).map fun b => (b.id, if b.currency = "" then "GHS" else b.currency)

/-- The later of two messages. -/
def later (best : Option InboundMessage) (m : InboundMessage) : Option InboundMessage :=
  match best with
  | some b => if b.timestamp < m.timestamp then some m else some b
  | none => some m

/-- `ORDER BY "timestamp" DESC LIMIT 1`. -/
def latestMessage (conversationID : String) (w : TurnWorld) : Option InboundMessage :=
  (w.inbound.rows.filter fun m => decide (m.conversationID = some conversationID)).foldl later none

/-- `max("timestamp")`. -/
def latestInbound (conversationID : String) (w : TurnWorld) : Option Nat := (latestMessage conversationID w).map InboundMessage.timestamp

/-- The product of a short id, the first in the order of the ids. -/
def productForImage (businessID shortID : String) (w : TurnWorld) : Option Product :=
  ((w.db.products.rows.filter fun p => decide (p.businessID = businessID) && likeShortID p.id shortID).insertionSort
    fun a b => a.id ≤ b.id).head?

/-- `GetActiveOrderIntent`. -/
def getActiveOrderIntent (conversationID : String) (w : TurnWorld) : Option OrderIntent :=
  w.db.orderIntents.rows.find? fun i =>
    decide (i.conversationID = conversationID) && decide (i.status = .awaitingConfirmation) && decide (w.clock < i.expiresAt)

/-! ## Writing -/

/-- A row or the error of the constraint it breaks. -/
def orError {α : Type} (e : Err) : Option α → Except TurnErr α
  | some a => .ok a
  | none => .error (.db e)

/-- `INSERT INTO customers … ON CONFLICT (business_id, phone) DO UPDATE … RETURNING id`. -/
def upsertCustomer (id businessID phone : String) (w : TurnWorld) : Except TurnErr String × TurnWorld :=
  match w.db.customers.rows.find? fun c => decide (c.businessID = businessID) && decide (c.phone = phone) with
  | some c => (.ok c.id, w)
  | none =>
    match w.db.customers.insert ⟨id, businessID, phone⟩ with
    | some customers => (.ok id, { w with db := { w.db with customers := customers } })
    | none => (.error (.db (.uniqueViolation "customers_pkey")), w)

/-- The conversation of a business with a phone, as the upsert finds it. -/
def conversationOf (businessID customerPhone : String) (db : Database) : Option Conversation :=
  db.conversations.rows.find? fun c => decide (c.businessID = businessID) && decide (c.customerPhone = customerPhone)

/-- A turn that finds the conversation not escalated goes on to speak. -/
def hears (i : TurnName) (r : ConversationRead) (w : TurnWorld) : TurnWorld :=
  if r.escalated then w else { w with speaking := (i, r.id) :: w.speaking }

/-- `INSERT INTO conversations … ON CONFLICT (business_id, customer_phone) DO UPDATE … RETURNING id, state, is_escalated_to_human`. -/
def upsertConversation (i : TurnName) (id businessID customerPhone : String) (w : TurnWorld) :
    Except TurnErr ConversationRead × TurnWorld :=
  match conversationOf businessID customerPhone w.db with
  | some c => (.ok ⟨c.id, c.state, c.isEscalatedToHuman⟩, hears i ⟨c.id, c.state, c.isEscalatedToHuman⟩ w)
  | none =>
    match w.db.conversations.insert ⟨id, businessID, customerPhone, .lead, false⟩ with
    | some conversations =>
      (.ok ⟨id, .lead, false⟩, hears i ⟨id, .lead, false⟩ { w with db := { w.db with conversations := conversations } })
    | none => (.error (.db (.uniqueViolation "conversations_pkey")), w)

/-- `orchSetEscalated`. -/
def setEscalated (conversationID : String) (db : Database) : Database :=
  { db with
    conversations := db.conversations.update (fun c => decide (c.id = conversationID))
      (fun c => { c with isEscalatedToHuman := true }) fun _ => rfl }

/-- The row of `outbound_messages`: the recipient is the conversation's. -/
def TurnMessage.row (m : TurnMessage) (recipient : String) (w : TurnWorld) : OutboundRow where
  id := m.id
  seq := w.outbound.rows.length
  messageType := m.messageType
  recipient := recipient
  status := m.status
  textContent := some m.textContent
  imageURL := m.imageURL
  templateName := none
  businessID := some m.businessID
  conversation := some m.conversationID
  createdAt := w.clock
  whatsappMessageID := none
  metaResponse := none

/-- `orchInsertOutboundRow`, with the constraints of the table. -/
def insertTurnMessage (m : TurnMessage) (w : TurnWorld) : Except TurnErr TurnWorld :=
  if (w.db.businesses.find? m.businessID).isNone then .error (.db (.foreignKeyViolation "outbound_messages_business_id_fkey"))
  else
    match w.db.conversations.find? m.conversationID with
    | none => .error (.db (.foreignKeyViolation "outbound_messages_conversation_id_fkey"))
    | some c => (orError (.uniqueViolation "outbound_messages_pkey") (w.outbound.insert (m.row c.customerPhone w))).map
        fun outbound => { w with outbound := outbound }

/-- The intent that waits for a confirmation; `order_intents_active_conversation_key` admits one. -/
def awaitingIntent (conversationID : String) (db : Database) : Option OrderIntent :=
  db.orderIntents.rows.find? fun i => decide (i.conversationID = conversationID) && decide (i.status = .awaitingConfirmation)

/-- `StageOrderIntent`. -/
def stageOrderIntent (id businessID customerID conversationID : String) (expiresAt : Nat) (db : Database) :
    Except TurnErr (String × Database) :=
  if (db.businesses.find? businessID).isNone then .error (.db (.foreignKeyViolation "order_intents_business_id_fkey"))
  else if (db.customers.find? customerID).isNone then .error (.db (.foreignKeyViolation "order_intents_customer_id_fkey"))
  else if (db.conversations.find? conversationID).isNone then .error (.db (.foreignKeyViolation "order_intents_conversation_id_fkey"))
  else
    match awaitingIntent conversationID db with
    | some i => .ok (i.id, { db with
        orderIntents := db.orderIntents.update (fun j => decide (j.id = i.id)) (fun j => { j with expiresAt := expiresAt }) fun _ => rfl })
    | none => (orError (.uniqueViolation "order_intents_pkey")
        (db.orderIntents.insert ⟨id, conversationID, .awaitingConfirmation, none, expiresAt⟩)).map
        fun intents => (id, { db with orderIntents := intents })

/-- What an insert of an outbound row does. -/
theorem insertTurnMessage_ok {m : TurnMessage} {w w' : TurnWorld} (h : insertTurnMessage m w = .ok w') :
    ∃ outbound, w' = { w with outbound := outbound } := by
  unfold insertTurnMessage at h
  split at h
  · cases h
  · split at h
    · cases h
    · rename_i c _
      cases inserted : w.outbound.insert (m.row c.customerPhone w) with
      | none =>
        rw [inserted] at h
        cases h
      | some outbound =>
        rw [inserted] at h
        exact ⟨outbound, (Except.ok.inj h).symm⟩

/-- Staging renews the intent that waits, or inserts a new one. -/
theorem stageOrderIntent_ok {id businessID customerID conversationID staged : String} {expiresAt : Nat} {db db' : Database}
    (h : stageOrderIntent id businessID customerID conversationID expiresAt db = .ok (staged, db')) :
    ∃ intents, db' = { db with orderIntents := intents } ∧
      ((∃ i ∈ db.orderIntents.rows, staged = i.id ∧ i.conversationID = conversationID ∧ i.status = .awaitingConfirmation ∧
          intents = db.orderIntents.update (fun j => decide (j.id = i.id)) (fun j => { j with expiresAt := expiresAt }) fun _ => rfl) ∨
        staged = id ∧ db.orderIntents.insert ⟨id, conversationID, .awaitingConfirmation, none, expiresAt⟩ = some intents) := by
  unfold stageOrderIntent at h
  split at h
  · cases h
  · split at h
    · cases h
    · split at h
      · cases h
      · split at h
        · rename_i i found
          obtain ⟨rfl, rfl⟩ := Prod.mk.inj (Except.ok.inj h)
          have waiting := List.find?_some found
          simp only [Bool.and_eq_true, decide_eq_true_eq] at waiting
          exact ⟨_, rfl, .inl ⟨i, List.mem_of_find?_eq_some found, rfl, waiting.1, waiting.2, rfl⟩⟩
        · cases inserted : db.orderIntents.insert ⟨id, conversationID, .awaitingConfirmation, none, expiresAt⟩ with
          | none =>
            rw [inserted] at h
            cases h
          | some intents =>
            rw [inserted] at h
            obtain ⟨rfl, rfl⟩ := Prod.mk.inj (Except.ok.inj h)
            exact ⟨intents, rfl, .inr ⟨rfl, rfl⟩⟩

/-! ## History -/

/-- A turn puts something out. -/
def emit (i : TurnName) (conversationID : String) (output : Output) (w : TurnWorld) : TurnWorld :=
  { w with emitted := ⟨i, conversationID, output, decide (conversationID ∈ w.takenOver)⟩ :: w.emitted }

/-- The output a message is. -/
def TurnMessage.output (m : TurnMessage) : Output := if m.messageType = "image" then .image else .text

/-- What a statement of the orders pipeline leaves in the history. -/
def noteSql (i : TurnName) : (op : Stmt) → Except Err op.Reply → Database → TurnWorld → TurnWorld
  | .takeoverConversation c _, .ok affected, _, w => if affected = 0 then w else { w with takenOver := c :: w.takenOver }
  | .releaseConversation c _, .ok affected, _, w =>
    if affected = 0 then w else { w with takenOver := w.takenOver.filter fun k => decide (k ≠ c) }
  | .transition c _ _, .ok true, _, w =>
    match i with
    | .turn _ => emit i c .transition w
    | _ => w
  | .checkoutTx d, .ok _, before, w =>
    { w with placements := ⟨d.orderID, crmText d.conversationID, before.orderIntents.rows⟩ :: w.placements }
  | _, _, _, w => w

/-- Execute a statement of the orders pipeline. -/
def execSql (i : TurnName) (op : Stmt) (w : TurnWorld) : Except TurnErr op.Reply × TurnWorld :=
  let r := exec op w.db
  (r.1.mapError .db, noteSql i op r.1 w.db { w with db := r.2 })

section ExecSql

variable (i : TurnName) (w : TurnWorld)

theorem execSql_takeover (c b : String) : (execSql i (.takeoverConversation c b) w).2 =
    if (takeoverConversation c b w.db).1 = 0 then { w with db := (takeoverConversation c b w.db).2 }
    else { w with db := (takeoverConversation c b w.db).2, takenOver := c :: w.takenOver } := rfl

theorem execSql_release (c b : String) : (execSql i (.releaseConversation c b) w).2 =
    if (releaseConversation c b w.db).1 = 0 then { w with db := (releaseConversation c b w.db).2 }
    else { w with db := (releaseConversation c b w.db).2, takenOver := w.takenOver.filter fun k => decide (k ≠ c) } := rfl

/-- Only the transition of a turn is noted. -/
theorem execSql_transition (c : String) (src dst : ConversationState) :
    (execSql i (.transition c src dst) w).2 = { w with db := (Domain.transition c src dst w.db).2 } ∨
      (∃ n, i = .turn n) ∧
        (execSql i (.transition c src dst) w).2 = emit i c .transition { w with db := (Domain.transition c src dst w.db).2 } := by
  show noteSql i (.transition c src dst) (.ok (Domain.transition c src dst w.db).1) w.db _ = _ ∨
    _ ∧ noteSql i (.transition c src dst) (.ok (Domain.transition c src dst w.db).1) w.db _ = _
  cases (Domain.transition c src dst w.db).1 with
  | false => exact .inl rfl
  | true =>
    cases i with
    | turn n => exact .inr ⟨⟨n, rfl⟩, rfl⟩
    | _ => exact .inl rfl

/-- An order transaction commits, and the intents before it are noted, or it changes nothing. -/
theorem execSql_checkoutTx (d : CheckoutTx) :
    (execSql i (.checkoutTx d) w).2 = w ∨
      ∃ db', checkoutTx d w.db = .ok ((), db') ∧ (execSql i (.checkoutTx d) w).2 =
        { w with db := db', placements := ⟨d.orderID, crmText d.conversationID, w.db.orderIntents.rows⟩ :: w.placements } := by
  show noteSql i (.checkoutTx d) (beginFunc (Workers.checkoutTx d) w.db).1 w.db { w with db := (beginFunc (Workers.checkoutTx d) w.db).2 } = _ ∨
    ∃ db', _ ∧ noteSql i (.checkoutTx d) (beginFunc (Workers.checkoutTx d) w.db).1 w.db
      { w with db := (beginFunc (Workers.checkoutTx d) w.db).2 } = _
  rcases beginFunc_cases (Workers.checkoutTx d) w.db with ⟨⟨⟩, db', ok, eq⟩ | ⟨e, -, eq⟩
  · rw [eq]
    exact .inr ⟨db', ok, rfl⟩
  · rw [eq]
    exact .inl rfl

end ExecSql

/-- Execute one statement. -/
def turnExec : (turnStore.signed TurnName).Exec TurnWorld
  | (_, .now), w => (.ok w.clock, w)
  | (_, .tick later), w => (.ok (), { w with clock := w.clock + later })
  | (_, .receive m), w =>
    match w.inbound.insert m with
    | some inbound => (.ok (), { w with inbound := inbound })
    | none => (.error (.db (.uniqueViolation "inbound_messages_pkey")), w)
  | (_, .lookupBusiness recipientPhone), w => (.ok (lookupBusiness recipientPhone w), w)
  | (_, .upsertCustomer id businessID phone), w => upsertCustomer id businessID phone w
  | (i, .upsertConversation id businessID customerPhone), w => upsertConversation i id businessID customerPhone w
  | (_, .backfill recipientPhone senderPhone businessID conversationID), w =>
    (.ok (), { w with
      inbound := w.inbound.update
        (fun m => decide (m.recipientPhone = recipientPhone) && decide (m.senderPhone = senderPhone) && m.businessID.isNone)
        (fun m => { m with businessID := some businessID, conversationID := some conversationID }) fun _ => rfl })
  | (_, .latestMessage conversationID), w => (.ok (latestMessage conversationID w), w)
  | (_, .persistTranscript whatsappMessageID textContent), w =>
    (.ok (), { w with
      inbound := w.inbound.update (fun m => decide (m.whatsappMessageID = some whatsappMessageID) && m.textContent.isNone)
        (fun m => { m with textContent := some textContent }) fun _ => rfl })
  | (i, .setEscalated conversationID _), w =>
    (.ok (), { w with db := setEscalated conversationID w.db, speaking := (i, conversationID) :: w.speaking })
  | (_, .businessOf conversationID), w =>
    (orError .noRows ((w.db.conversations.find? conversationID).map Conversation.businessID), w)
  | (_, .latestInbound conversationID), w => (.ok (latestInbound conversationID w), w)
  | (i, .insertOutboundRow m), w =>
    match insertTurnMessage m w with
    | .ok w' => (.ok (), emit i m.conversationID m.output w')
    | .error e => (.error e, w)
  | (_, .publishOutbound _), w => (.ok (), w)
  | (_, .productForImage businessID shortID), w => (orError .noRows (productForImage businessID shortID w), w)
  | (_, .primaryImage productID), w => (.ok (w.primaryImage productID), w)
  | (_, .getActiveOrderIntent conversationID), w =>
    (orError .noRows ((getActiveOrderIntent conversationID w).map OrderIntent.id), w)
  | (_, .stageOrderIntent id businessID customerID conversationID ttl), w =>
    match stageOrderIntent id businessID customerID conversationID (w.clock + ttl) w.db with
    | .ok (staged, db) => (.ok staged, { w with db := db })
    | .error e => (.error e, w)
  | (i, .enqueueCheckout job), w =>
    (.ok (), emit i job.conversationID .checkoutJob { w with checkoutJobs := w.checkoutJobs ++ [job] })
  | (_, .takeCheckout n), w => (orError .noRows w.checkoutJobs[n]?, w)
  | (_, .aside _), w => (.ok (), w)
  | (i, .sql op), w => execSql i op w
  | (i, .finish), w => (.ok (), { w with speaking := w.speaking.filter fun p => decide (p.1 ≠ i) })

end NovoApex.Db
