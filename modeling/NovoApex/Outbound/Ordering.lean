import NovoApex.Outbound.AtMostOnce

/-!
# The order of a conversation

When rows are committed in `seq` order and neither sends nor status writes fail, the
messages of a conversation reach the sender in strictly increasing `seq` order, and a
call of `Deliver` that returns nil has its row sent exactly once. Every pending row is
ahead of everything that was sent; whoever holds the conversation's lock has, as its
backlog, all pending rows up to its own, and sends the first of them.
-/

namespace NovoApex.Outbound
set_option autoImplicit false
open Lib Program Db Workers

/-- No send fails. -/
def Succeeds (wa : Option Sender) : Prop := ∃ sender, wa = some sender ∧ ∀ m request, ∃ r, (sender m request).answer = .ok r

/-- The row has something to send. -/
def Sendable (row : OutboundRow) : Prop := ∀ phoneNumberID, (sendRequest (row.scan phoneNumberID)).isSome = true

/-- What a row is sent as does not hang on the phone number. -/
instance : DecidablePred Sendable := fun row => decidable_of_iff ((sendRequest (row.scan "")).isSome = true) <| by
  have same : ∀ phoneNumberID, (sendRequest (row.scan phoneNumberID)).isSome = (sendRequest (row.scan "")).isSome := by
    intro phoneNumberID
    unfold sendRequest OutboundRow.scan
    split_ifs <;> rfl
  constructor
  · exact fun sendable phoneNumberID => (same phoneNumberID).trans sendable
  · exact fun sendable => sendable ""

/-- The rows of a conversation are committed in `seq` order. -/
def inSeqOrder (w : OutboundWorld) : OutboundStmt → Prop
  | .insertOutbound row => Sendable row ∧
    ∀ r ∈ w.messages.rows, row.conversation ≠ none → r.conversation = row.conversation → r.seq < row.seq
  | _ => True

/-- The runs of calls of `Deliver` in which no send and no status write fails. -/
def orderedFlow : Roster outboundStore OutboundName OutboundWorld where
  exec := outboundExec
  job := OutboundJob ⟨False, True, False, Succeeds⟩
  allow w op := outboundProceeds w op ∧ keepsConnection w op ∧ inSeqOrder w op
  faults _ op := mayFail op ∧ recordsSend op = false
  loses _ op := mayFail op
  stops _ op := recordsSend op = false

instance (w : OutboundWorld) : DecidablePred (inSeqOrder w) := fun op => by
  unfold inSeqOrder
  split <;> infer_instance

instance (w : OutboundWorld) (op : OutboundStmt) : Decidable (orderedFlow.allow w op) :=
  inferInstanceAs (Decidable (outboundProceeds w op ∧ keepsConnection w op ∧ inSeqOrder w op))

/-- What was handed to the sender for a conversation. -/
def sendsIn (conversation : String) (w : OutboundWorld) : List Sending :=
  w.sends.filter fun s => decide (s.conversation = some conversation)

/-- A row of a conversation that was sent once, and recorded. -/
def SentOnce (id : String) (w : OutboundWorld) : Prop :=
  ∃ row ∈ w.messages.rows, row.id = id ∧ row.conversation ≠ none ∧ row.status = .sent ∧ (sendsOf id w).length = 1

/-- A row of a conversation that waits to be sent. -/
def Waiting (w : OutboundWorld) (row : OutboundRow) : Prop :=
  row ∈ w.messages.rows ∧ row.conversation ≠ none ∧ (joined w row).isSome = true ∧ row.status = .pending

/-- A row that waits to be sent, or was sent once. -/
def Tracked (id : String) (w : OutboundWorld) : Prop := SentOnce id w ∨ ∃ row, Waiting w row ∧ row.id = id

/-! ## The protocol -/

/-- What is pending is ahead of what was sent. -/
structure Ordered (w : OutboundWorld) : Prop where
  sendable : ∀ row ∈ w.messages.rows, Sendable row
  distinct : ∀ r ∈ w.messages.rows, ∀ r' ∈ w.messages.rows, r.conversation ≠ none → r.conversation = r'.conversation →
    r.seq = r'.seq → r = r'
  increasing : ∀ conversation, (sendsIn conversation w).Pairwise fun s s' => s.seq < s'.seq
  known : ∀ s ∈ w.sends, ∃ row ∈ w.messages.rows, row.id = s.id ∧ row.seq = s.seq ∧ row.conversation = s.conversation ∧
    (row.status = .pending → ∀ conversation, row.conversation = some conversation →
      ∃ c ids, w.locks (lockKey conversation) = some c ∧ backlogOf c w = some ids ∧ s.id ∈ ids)
  ahead : ∀ s ∈ w.sends, ∀ row, Waiting w row → row.conversation = s.conversation → s.seq ≤ row.seq

/-- Nothing happens to a conversation, except that rows are added behind the others. -/
structure Frozen (conversation : String) (w w' : OutboundWorld) : Prop where
  sends : sendsIn conversation w' = sendsIn conversation w
  rows : ∀ row ∈ w.messages.rows, row.conversation = some conversation → row ∈ w'.messages.rows ∧ sendsOf row.id w' = sendsOf row.id w
  added : ∀ row' ∈ w'.messages.rows, row'.conversation = some conversation → row' ∈ w.messages.rows ∨
    ∀ row ∈ w.messages.rows, row.conversation = some conversation → row.seq < row'.seq

/-- What a call relies on. -/
structure InPeace (c : OutboundCall) (w w' : OutboundWorld) : Prop where
  session : Session c w w'
  businesses : w'.businesses = w.businesses
  kept : ∀ row ∈ w.messages.rows, ∃ row' ∈ w'.messages.rows, row'.id = row.id ∧ row'.seq = row.seq ∧ row'.conversation = row.conversation
  frozen : ∀ conversation, w'.locks (lockKey conversation) = some c → Frozen conversation w w'
  once : ∀ id, SentOnce id w → SentOnce id w'
  tracked : ∀ id, Tracked id w → Tracked id w'

/-- What was sent of the conversations the call has locked is recorded, apart from the rows in `except`. -/
def RecordedBut (except : List String) (c : OutboundCall) (w : OutboundWorld) : Prop :=
  ∀ conversation, w.locks (lockKey conversation) = some c → ∀ s ∈ sendsIn conversation w, s.id ∉ except →
    ∃ row ∈ w.messages.rows, row.id = s.id ∧ row.conversation = some conversation ∧ row.status ≠ .pending

section Protocol

variable {c : OutboundCall} {u v w w' : OutboundWorld}

theorem joined_congr (businesses : w'.businesses = w.businesses) (row : OutboundRow) : joined w' row = joined w row := by
  unfold joined
  rw [businesses]

theorem Frozen.refl (conversation : String) (w : OutboundWorld) : Frozen conversation w w :=
  ⟨rfl, fun _ mem _ => ⟨mem, rfl⟩, fun _ mem _ => .inl mem⟩

theorem Frozen.trans {conversation : String} (h : Frozen conversation u v) (h' : Frozen conversation v w) : Frozen conversation u w := by
  refine ⟨h'.sends.trans h.sends, fun row mem inConversation => ?_, fun row mem inConversation => ?_⟩
  · obtain ⟨mem', sends⟩ := h.rows row mem inConversation
    obtain ⟨mem'', sends'⟩ := h'.rows row mem' inConversation
    exact ⟨mem'', sends'.trans sends⟩
  · rcases h'.added row mem inConversation with mem' | behind
    · exact h.added row mem' inConversation
    · exact .inr fun r hr inConversation' => behind r (h.rows r hr inConversation').1 inConversation'

theorem InPeace.refl (c : OutboundCall) (w : OutboundWorld) : InPeace c w w :=
  ⟨.refl c w, rfl, fun row mem => ⟨row, mem, rfl, rfl, rfl⟩, fun k _ => .refl k w, fun _ h => h, fun _ h => h⟩

theorem InPeace.trans (h : InPeace c u v) (h' : InPeace c v w) : InPeace c u w := by
  refine ⟨h.session.trans h'.session, h'.businesses.trans h.businesses, fun row mem => ?_, fun k held => ?_,
    fun id once => h'.once id (h.once id once), fun id tracked => h'.tracked id (h.tracked id tracked)⟩
  · obtain ⟨row', mem', id', seq', conversation'⟩ := h.kept row mem
    obtain ⟨row'', mem'', id'', seq'', conversation''⟩ := h'.kept row' mem'
    exact ⟨row'', mem'', id''.trans id', seq''.trans seq', conversation''.trans conversation'⟩
  · exact (h.frozen k (h'.session.before held)).trans (h'.frozen k held)

theorem RecordedBut.relies {except : List String} (h : RecordedBut except c w) (rely : InPeace c w w') : RecordedBut except c w' := by
  intro conversation held s mem apart
  have frozen := rely.frozen conversation held
  rw [frozen.sends] at mem
  obtain ⟨row, hrow, named, inConversation, recorded⟩ := h conversation (rely.session.before held) s mem apart
  exact ⟨row, (frozen.rows row hrow inConversation).1, named, inConversation, recorded⟩

/-- What each name relies on. -/
def orderRely : OutboundName → OutboundWorld → OutboundWorld → Prop
  | .call c, w, w' => InPeace c w w'
  | .observer, w, w' => ∀ id, Tracked id w → Tracked id w'
  | _, _, _ => True

/-- A call that is gone has nothing to record. -/
def orderIdle : OutboundName → OutboundWorld → Prop
  | .call c, w => RecordedBut [] c w
  | _, _ => True

/-- The protocol of the calls of `Deliver`. -/
def orderProtocol : Protocol OutboundName OutboundWorld where
  inv := Ordered
  rely := orderRely
  refl i w := by
    cases i with
    | call c => exact .refl c w
    | observer => exact fun _ h => h
    | sweep tx => trivial
    | writer n => trivial
    | server n => trivial
  trans i u v w h h' := by
    cases i with
    | call c => exact InPeace.trans h h'
    | observer => exact fun id tracked => h' id (h id tracked)
    | sweep tx => trivial
    | writer n => trivial
    | server n => trivial
  idle := orderIdle
  steady i w w' rely idle := by
    cases i with
    | call c => exact RecordedBut.relies idle rely
    | observer => trivial
    | sweep tx => trivial
    | writer n => trivial
    | server n => trivial

/-- A statement of `i` keeps the protocol. -/
structure KeepsOrder (i : OutboundName) (w w' : OutboundWorld) : Prop where
  inv : Ordered w'
  inPeace : ∀ c, i ≠ .call c → InPeace c w w'
  once : ∀ id, SentOnce id w → SentOnce id w'
  tracked : ∀ id, Tracked id w → Tracked id w'

theorem KeepsOrder.rely {i j : OutboundName} (h : KeepsOrder i w w') (other : j ≠ i) : orderRely j w w' := by
  cases j with
  | call c => exact h.inPeace c (Ne.symm other)
  | observer => exact h.tracked
  | sweep tx => trivial
  | writer n => trivial
  | server n => trivial

/-! ## Statements -/

theorem tracked_congr (messages : w'.messages = w.messages) (businesses : w'.businesses = w.businesses) (sends : w'.sends = w.sends)
    {id : String} : (SentOnce id w → SentOnce id w') ∧ (Tracked id w → Tracked id w') := by
  have once : SentOnce id w → SentOnce id w' := by
    unfold SentOnce sendsOf
    rw [messages, sends]
    exact fun h => h
  refine ⟨once, fun tracked => tracked.imp once ?_⟩
  rintro ⟨row, ⟨mem, conversing, scanned, pending⟩, named⟩
  exact ⟨row, ⟨messages ▸ mem, conversing, (joined_congr businesses row).symm ▸ scanned, pending⟩, named⟩

/-- A statement that leaves rows and sends alone. -/
theorem inPeace_of_eq (session : Session c w w') (messages : w'.messages = w.messages) (businesses : w'.businesses = w.businesses)
    (sends : w'.sends = w.sends) : InPeace c w w' := by
  refine ⟨session, businesses, fun row mem => ⟨row, messages ▸ mem, rfl, rfl, rfl⟩, fun k _ => ⟨?_, fun row mem _ => ⟨messages ▸ mem, ?_⟩, ?_⟩,
    fun id => (tracked_congr messages businesses sends).1, fun id => (tracked_congr messages businesses sends).2⟩
  · unfold sendsIn
    rw [sends]
  · unfold sendsOf
    rw [sends]
  · exact fun row mem _ => .inl (messages ▸ mem)

/-- The invariant, but for what was sent and is pending still. -/
theorem Ordered.congr (inv : Ordered w) (messages : w'.messages = w.messages) (businesses : w'.businesses = w.businesses)
    (sends : w'.sends = w.sends)
    (open' : ∀ s ∈ w.sends, ∀ row ∈ w.messages.rows, row.id = s.id → row.status = .pending → ∀ conversation, row.conversation = some conversation →
      (∃ c ids, w.locks (lockKey conversation) = some c ∧ backlogOf c w = some ids ∧ s.id ∈ ids) →
      ∃ c ids, w'.locks (lockKey conversation) = some c ∧ backlogOf c w' = some ids ∧ s.id ∈ ids) : Ordered w' := by
  refine ⟨messages ▸ inv.sendable, messages ▸ inv.distinct, fun k => ?_, fun s mem => ?_, fun s mem row waiting same => ?_⟩
  · unfold sendsIn
    rw [sends]
    exact inv.increasing k
  · rw [sends] at mem
    obtain ⟨row, hrow, named, seq, conversation, held⟩ := inv.known s mem
    exact ⟨row, messages ▸ hrow, named, seq, conversation,
      fun pending k inConversation => open' s mem row hrow named pending k inConversation (held pending k inConversation)⟩
  · obtain ⟨hrow, conversing, scanned, pending⟩ := waiting
    exact inv.ahead s (sends ▸ mem) row ⟨messages ▸ hrow, conversing, joined_congr businesses row ▸ scanned, pending⟩ same

theorem Ordered.same {i : OutboundName} (inv : Ordered w) : KeepsOrder i w w := ⟨inv, fun c _ => .refl c w, fun _ h => h, fun _ h => h⟩

/-- A conversation that nobody has locked is recorded. -/
theorem Ordered.recorded_of_free (inv : Ordered w) {conversation : String} (free : w.locks (lockKey conversation) = none) {s : Sending}
    (mem : s ∈ sendsIn conversation w) :
    ∃ row ∈ w.messages.rows, row.id = s.id ∧ row.conversation = some conversation ∧ row.status ≠ .pending := by
  unfold sendsIn at mem
  obtain ⟨mem, inConversation⟩ := List.mem_filter.1 mem
  have inConversation := of_decide_eq_true inConversation
  obtain ⟨row, hrow, named, -, conversation', held⟩ := inv.known s mem
  refine ⟨row, hrow, named, conversation'.trans inConversation, fun pending => ?_⟩
  obtain ⟨c, ids, locked, -⟩ := held pending conversation (conversation'.trans inConversation)
  rw [free] at locked
  cases locked

/-- A call that has recorded everything may do anything with its session. -/
theorem SessionStep.keepsOrder (h : SessionStep c w w') (inv : Ordered w) (recorded : RecordedBut [] c w) :
    KeepsOrder (.call c) w w' ∧ RecordedBut [] c w' := by
  refine ⟨⟨?_, fun j other => ?_, fun id => (tracked_congr h.messages h.businesses h.sends).1,
    fun id => (tracked_congr h.messages h.businesses h.sends).2⟩, fun k held s mem _ => ?_⟩
  · refine inv.congr h.messages h.businesses h.sends fun s mem row hrow named pending k inConversation held => ?_
    obtain ⟨j, ids, locked, read, listed⟩ := held
    by_cases own : j = c
    · subst own
      obtain ⟨row', hrow', named', -, conversation', -⟩ := inv.known s mem
      obtain rfl := Table.eq_of_key hrow' hrow (named'.trans named.symm)
      have mem' : s ∈ sendsIn k w := List.mem_filter.2 ⟨mem, decide_eq_true (conversation'.symm.trans inConversation)⟩
      obtain ⟨row'', hrow'', named'', -, done⟩ := recorded k locked s mem' List.not_mem_nil
      obtain rfl := Table.eq_of_key hrow'' hrow (named''.trans named.symm)
      exact (done pending).elim
    · obtain ⟨backlog, locks⟩ := h.others j own
      exact ⟨j, ids, (locks _).2 locked, backlog.trans read, listed⟩
  · exact inPeace_of_eq (h.session fun same => other (same ▸ rfl)) h.messages h.businesses h.sends
  · have mem : s ∈ sendsIn k w := by
      unfold sendsIn at *
      rwa [h.sends] at mem
    rw [h.messages]
    rcases h.own _ held with before | free
    · exact recorded k before s mem List.not_mem_nil
    · exact inv.recorded_of_free free mem

/-- The server loses a connection whose backlog is recorded. -/
theorem keepsOrder_lost {n : Nat} (inv : Ordered w) (empty : backlogOf c w = some []) : KeepsOrder (.server n) w (closeConnection c w) := by
  refine ⟨inv.congr rfl rfl rfl fun s _ row _ _ _ k _ held => ?_, fun j _ => inPeace_of_eq (session_lost empty) rfl rfl rfl,
    fun id => (tracked_congr rfl rfl rfl).1, fun id => (tracked_congr rfl rfl rfl).2⟩
  obtain ⟨j, ids, locked, read, listed⟩ := held
  have holds := (session_lost (c := c) (j := j) empty).holds read listed
  exact ⟨j, ids, (holds.2 _).2 locked, holds.1, listed⟩

/-- A statement on tasks or sweeps. -/
theorem keepsOrder_aside {i : OutboundName} (inv : Ordered w) (messages : w'.messages = w.messages) (businesses : w'.businesses = w.businesses)
    (sends : w'.sends = w.sends) (locks : w'.locks = w.locks) (connections : w'.connections = w.connections) : KeepsOrder i w w' := by
  have backlogs : ∀ j, backlogOf j w' = backlogOf j w := by
    intro j
    unfold backlogOf openConnection
    rw [connections]
  refine ⟨inv.congr messages businesses sends fun s _ row _ _ _ k _ held => ?_,
    fun j _ => inPeace_of_eq (.inl ⟨backlogs j, fun k => by rw [locks]⟩) messages businesses sends,
    fun id => (tracked_congr messages businesses sends).1, fun id => (tracked_congr messages businesses sends).2⟩
  obtain ⟨j, ids, locked, read, listed⟩ := held
  exact ⟨j, ids, locks ▸ locked, (backlogs j).trans read, listed⟩

/-- A row is committed behind the others of its conversation. -/
theorem keepsOrder_insert {n : Nat} {row : OutboundRow} (inv : Ordered w) (h : insertOutbound row w = .ok w')
    (order : inSeqOrder w (.insertOutbound row)) : KeepsOrder (.writer n) w w' := by
  obtain ⟨messages, inserted, rfl⟩ := insertOutbound_ok h
  obtain ⟨fresh, rows⟩ := Table.insert_eq_some.1 inserted
  obtain ⟨sendable, behind⟩ := order
  have kept : ∀ r ∈ w.messages.rows, r ∈ messages.rows := by
    intro r mem
    rw [rows]
    exact List.mem_append_left _ mem
  have old : ∀ r ∈ messages.rows, r ∈ w.messages.rows ∨ r = row := by
    intro r mem
    rwa [rows, List.mem_append, List.mem_singleton] at mem
  have once : ∀ id, SentOnce id w → SentOnce id { w with messages := messages } := by
    rintro id ⟨r, mem, facts⟩
    exact ⟨r, kept r mem, facts⟩
  have tracked : ∀ id, Tracked id w → Tracked id { w with messages := messages } := by
    intro id known
    refine known.imp (once id) ?_
    rintro ⟨r, ⟨mem, waiting⟩, named⟩
    exact ⟨r, ⟨kept r mem, waiting⟩, named⟩
  refine ⟨⟨fun r mem => ?_, fun r hr r' hr' conversing same seq => ?_, inv.increasing, fun s mem => ?_, fun s mem r waiting same => ?_⟩,
    fun c _ => ⟨.inl ⟨rfl, fun _ => Iff.rfl⟩, rfl, fun r mem => ⟨r, kept r mem, rfl, rfl, rfl⟩, fun k _ => ⟨rfl, fun r mem _ => ⟨kept r mem, rfl⟩,
      fun r mem inConversation => ?_⟩, once, tracked⟩, once, tracked⟩
  · rcases old r mem with mem | rfl
    · exact inv.sendable r mem
    · exact sendable
  · rcases old r hr with hr | rfl
    · rcases old r' hr' with hr' | rfl
      · exact inv.distinct r hr r' hr' conversing same seq
      · have less := behind r hr (same ▸ conversing) same
        omega
    · rcases old r' hr' with hr' | rfl
      · have less := behind r' hr' conversing same.symm
        omega
      · rfl
  · obtain ⟨r, mem, facts⟩ := inv.known s mem
    exact ⟨r, kept r mem, facts⟩
  · obtain ⟨hr, conversing, scanned, pending⟩ := waiting
    rcases old r hr with hr | rfl
    · exact inv.ahead s mem r ⟨hr, conversing, scanned, pending⟩ same
    · obtain ⟨r', hr', -, seq, conversation', -⟩ := inv.known s mem
      have less := behind r' hr' conversing (conversation'.trans same.symm)
      omega
  · rcases old r mem with mem | rfl
    · exact .inl mem
    · refine .inr fun r' hr' inConversation' => behind r' hr' ?_ (inConversation'.trans inConversation.symm)
      rw [inConversation]
      exact Option.some_ne_none _

end Protocol

/-! ## A backlog in turn -/

/-- The call has the conversation's lock, and `ms` are all the rows up to `bound` that wait to be sent, in order; what was
sent is recorded, apart from the rows in `except`. -/
structure InTurn (except : List String) (c : OutboundCall) (conversation : String) (bound : Int) (ms : List QueuedMessage)
    (w : OutboundWorld) : Prop where
  recorded : RecordedBut except c w
  sorted : ms.Pairwise fun m m' => m.seq < m'.seq
  bounded : ∀ m ∈ ms, m.seq ≤ bound
  session : ∀ m ∈ ms, w.locks (lockKey conversation) = some c ∧ ∃ ids, backlogOf c w = some ids ∧ m.id ∈ ids
  rows : ∀ m ∈ ms, ∃ row ∈ w.messages.rows, joined w row = some m ∧ row.conversation = some conversation ∧ row.status = .pending
  unsent : ∀ m ∈ ms, m.id ∉ except → sendsOf m.id w = []
  complete : w.locks (lockKey conversation) = some c → ∀ row, Waiting w row → row.conversation = some conversation → row.seq ≤ bound →
    ∃ m ∈ ms, m.id = row.id
  anchor : ∃ row ∈ w.messages.rows, row.conversation = some conversation ∧ row.seq = bound

section Turns

variable {except : List String} {c : OutboundCall} {conversation : String} {bound : Int} {m : QueuedMessage}
  {ms rest : List QueuedMessage} {w w' : OutboundWorld}

theorem InTurn.relies (h : InTurn except c conversation bound ms w) (rely : InPeace c w w') :
    InTurn except c conversation bound ms w' := by
  have held : ∀ m ∈ ms, w'.locks (lockKey conversation) = some c ∧ ∃ ids, backlogOf c w' = some ids ∧ m.id ∈ ids := by
    intro m mem
    obtain ⟨locked, ids, read, listed⟩ := h.session m mem
    have holds := rely.session.holds read listed
    exact ⟨(holds.2 _).2 locked, ids, holds.1, listed⟩
  obtain ⟨anchor, anchored, anchorConversation, anchorSeq⟩ := h.anchor
  refine ⟨h.recorded.relies rely, h.sorted, h.bounded, held, fun m mem => ?_, fun m mem apart => ?_, fun locked row waiting inConversation le => ?_, ?_⟩
  · obtain ⟨row, hrow, scanned, inConversation, pending⟩ := h.rows m mem
    have frozen := rely.frozen conversation (held m mem).1
    exact ⟨row, (frozen.rows row hrow inConversation).1, (joined_congr rely.businesses row).trans scanned, inConversation, pending⟩
  · obtain ⟨row, hrow, scanned, inConversation, -⟩ := h.rows m mem
    have frozen := rely.frozen conversation (held m mem).1
    rw [(joined_eq scanned).1, (frozen.rows row hrow inConversation).2, ← (joined_eq scanned).1]
    exact h.unsent m mem apart
  · -- a row that was added is behind the anchor
    obtain ⟨mem, conversing, scanned, pending⟩ := waiting
    rcases (rely.frozen conversation locked).added row mem inConversation with before | behind
    · exact h.complete (rely.session.before locked) row ⟨before, conversing, joined_congr rely.businesses row ▸ scanned, pending⟩
        inConversation le
    · have less := behind anchor anchored anchorConversation
      omega
  · obtain ⟨row, mem, -, seq, conversation'⟩ := rely.kept anchor anchored
    exact ⟨row, mem, conversation'.trans anchorConversation, seq.trans anchorSeq⟩

/-- Everything that was sent of the conversation is before the first message of the backlog. -/
theorem InTurn.before (h : InTurn [] c conversation bound (m :: rest) w) (inv : Ordered w) {s : Sending} (mem : s ∈ sendsIn conversation w) :
    s.seq < m.seq := by
  obtain ⟨row, hrow, scanned, inConversation, pending⟩ := h.rows m List.mem_cons_self
  obtain ⟨locked, -⟩ := h.session m List.mem_cons_self
  obtain ⟨sent, same⟩ := List.mem_filter.1 mem
  have same := of_decide_eq_true same
  have conversing : row.conversation ≠ none := by
    rw [inConversation]
    exact Option.some_ne_none _
  have le := inv.ahead s sent row ⟨hrow, conversing, by rw [scanned]; rfl, pending⟩ (inConversation.trans same.symm)
  obtain ⟨done, hdone, named, doneConversation, notPending⟩ := h.recorded conversation locked s mem List.not_mem_nil
  obtain ⟨known, hknown, knownNamed, seq, -, -⟩ := inv.known s sent
  obtain rfl := Table.eq_of_key hknown hdone (knownNamed.trans named.symm)
  rw [(joined_eq scanned).2.1]
  refine lt_of_le_of_ne le fun equal => notPending ?_
  -- two rows of one conversation have different numbers
  rw [inv.distinct row hrow known hdone conversing (inConversation.trans doneConversation.symm) (equal.symm.trans seq.symm)] at pending
  exact pending

/-- Every row that waits is not before the first message of the backlog. -/
theorem InTurn.first (h : InTurn except c conversation bound (m :: rest) w) {row : OutboundRow} (waiting : Waiting w row)
    (inConversation : row.conversation = some conversation) : m.seq ≤ row.seq := by
  by_cases le : row.seq ≤ bound
  · obtain ⟨m', mem', named⟩ := h.complete (h.session m List.mem_cons_self).1 row waiting inConversation le
    obtain ⟨row', hrow', scanned, -, -⟩ := h.rows m' mem'
    obtain rfl := Table.eq_of_key hrow' waiting.1 ((joined_eq scanned).1.symm.trans named)
    rw [← (joined_eq scanned).2.1]
    rcases List.mem_cons.1 mem' with rfl | mem'
    · exact le_refl _
    · exact le_of_lt ((List.pairwise_cons.1 h.sorted).1 m' mem')
  · have bounded := h.bounded m List.mem_cons_self
    omega

theorem sendsIn_append {k : String} {s : Sending} :
    sendsIn k { w with sends := w.sends ++ [s] } = sendsIn k w ++ if s.conversation = some k then [s] else [] := by
  unfold sendsIn
  rw [List.filter_append]
  by_cases same : s.conversation = some k <;> simp [same]

theorem sendsOf_append {id : String} {s : Sending} :
    sendsOf id { w with sends := w.sends ++ [s] } = sendsOf id w ++ if s.id = id then [s] else [] := by
  unfold sendsOf
  rw [List.filter_append]
  by_cases same : s.id = id <;> simp [same]

/-- A row is handed to the sender: behind everything that was sent of its conversation, and before what waits. -/
theorem keepsOrder_send {row : OutboundRow} {s : Sending} (inv : Ordered w) (hrow : row ∈ w.messages.rows) (named : row.id = s.id)
    (seq : row.seq = s.seq) (same : row.conversation = s.conversation) (unsent : row.conversation ≠ none → row.status ≠ .sent)
    (held : ∀ k, s.conversation = some k → w.locks (lockKey k) = some c ∧ ∃ ids, backlogOf c w = some ids ∧ s.id ∈ ids)
    (last : ∀ k, s.conversation = some k → ∀ s' ∈ sendsIn k w, s'.seq < s.seq)
    (first : ∀ row', Waiting w row' → row'.conversation = s.conversation → s.seq ≤ row'.seq) :
    KeepsOrder (.call c) w { w with sends := w.sends ++ [s] } := by
  have once : ∀ id, SentOnce id w → SentOnce id { w with sends := w.sends ++ [s] } := by
    rintro id ⟨r, hr, rfl, conversing, sent, one⟩
    refine ⟨r, hr, rfl, conversing, sent, ?_⟩
    have apart : s.id ≠ r.id := by
      intro own
      obtain rfl := Table.eq_of_key hrow hr (named.trans own)
      exact unsent conversing sent
    rw [sendsOf_append, if_neg apart, List.append_nil]
    exact one
  have tracked : ∀ id, Tracked id w → Tracked id { w with sends := w.sends ++ [s] } := fun id known => known.imp (once id) fun h => h
  refine ⟨⟨inv.sendable, inv.distinct, fun k => ?_, fun s' mem => ?_, fun s' mem r waiting inSame => ?_⟩, fun j other => ?_, once, tracked⟩
  · rw [sendsIn_append]
    split
    · rename_i own
      refine List.pairwise_append.2 ⟨inv.increasing k, List.pairwise_singleton _ _, fun s' mem s'' mem'' => ?_⟩
      rw [List.mem_singleton.1 mem'']
      exact last k own s' mem
    · rw [List.append_nil]
      exact inv.increasing k
  · rcases List.mem_append.1 mem with mem | mem
    · exact inv.known s' mem
    · obtain rfl := List.mem_singleton.1 mem
      exact ⟨row, hrow, named, seq, same, fun _ k inConversation => ⟨c, (held k (same.symm.trans inConversation)).2.imp
        fun ids listed => ⟨(held k (same.symm.trans inConversation)).1, listed⟩⟩⟩
  · rcases List.mem_append.1 mem with mem | mem
    · exact inv.ahead s' mem r waiting inSame
    · obtain rfl := List.mem_singleton.1 mem
      exact first r waiting inSame
  · have other : j ≠ c := fun same => other (same ▸ rfl)
    refine ⟨.inl ⟨rfl, fun _ => Iff.rfl⟩, rfl, fun r mem => ⟨r, mem, rfl, rfl, rfl⟩, fun k locked => ?_, once, tracked⟩
    have apart : s.conversation ≠ some k := by
      intro own
      have mine := (held k own).1
      exact other (Option.some.inj (locked.symm.trans mine))
    refine ⟨?_, fun r hr inConversation => ⟨hr, ?_⟩, fun r hr _ => .inl hr⟩
    · rw [sendsIn_append, if_neg apart, List.append_nil]
    · rw [sendsOf_append, if_neg, List.append_nil]
      intro own
      obtain rfl := Table.eq_of_key hrow hr (named.trans own)
      exact apart (same.symm.trans inConversation)

/-- The first message of the backlog is sent. -/
theorem InTurn.send {s : Sending} (h : InTurn [] c conversation bound (m :: rest) w) (inv : Ordered w) (named : s.id = m.id)
    (seq : s.seq = m.seq) (same : s.conversation = m.conversation) :
    KeepsOrder (.call c) w { w with sends := w.sends ++ [s] } ∧
      InTurn [m.id] c conversation bound (m :: rest) { w with sends := w.sends ++ [s] } ∧
      (sendsOf m.id { w with sends := w.sends ++ [s] }).length = 1 := by
  obtain ⟨row, hrow, scanned, inConversation, pending⟩ := h.rows m List.mem_cons_self
  obtain ⟨rowNamed, rowSeq, -, rowConversation⟩ := joined_eq scanned
  have conversation' : s.conversation = some conversation := same.trans (rowConversation.trans inConversation)
  have only : ∀ k, s.conversation = some k → k = conversation := fun k own => Option.some.inj (own.symm.trans conversation')
  refine ⟨keepsOrder_send inv hrow (rowNamed.symm.trans named.symm) (rowSeq.symm.trans seq.symm) (rowConversation.symm.trans same.symm)
    (fun _ sent => ?_) (fun k own => ?_) (fun k own s' mem => ?_) fun row' waiting inSame => ?_,
    ⟨fun k locked s' mem apart => ?_, h.sorted, h.bounded, h.session, h.rows, fun m' mem apart => ?_, h.complete, h.anchor⟩, ?_⟩
  · rw [pending] at sent
    cases sent
  · rw [only k own, named]
    exact h.session m List.mem_cons_self
  · rw [seq]
    exact h.before inv (only k own ▸ mem)
  · rw [seq]
    exact h.first waiting (inSame.trans conversation')
  · rw [sendsIn_append] at mem
    rcases List.mem_append.1 mem with mem | mem
    · exact h.recorded k locked s' mem List.not_mem_nil
    · split at mem
      · rw [List.mem_singleton.1 mem, named] at apart
        exact (apart (List.mem_singleton_self _)).elim
      · cases mem
  · have other : s.id ≠ m'.id := fun own => apart (List.mem_singleton.2 (own.symm.trans named))
    rw [sendsOf_append, if_neg other, List.append_nil]
    exact h.unsent m' mem List.not_mem_nil
  · rw [sendsOf_append, if_pos named, h.unsent m List.mem_cons_self List.not_mem_nil]
    rfl

/-- The state in which the send of a row is recorded. -/
def markedSent (on : Option OutboundCall) (id : String) (whatsappMessageID : Option String) (response : MetaResponse) (w : OutboundWorld) :
    OutboundWorld :=
  recorded on id (setOutbound id (.markSent whatsappMessageID response) (OutboundRow.markSent_id whatsappMessageID response) w)

section Marks

variable {on : Option OutboundCall} {id : String} {whatsappMessageID : Option String} {response : MetaResponse}

theorem mem_markedSent {r : OutboundRow} : r ∈ (markedSent on id whatsappMessageID response w).messages.rows ↔
    (r ∈ w.messages.rows ∧ r.id ≠ id) ∨ ∃ old ∈ w.messages.rows, old.id = id ∧ r = old.markSent whatsappMessageID response := by
  unfold markedSent
  rw [recorded_messages]
  exact mem_setOutbound

theorem sendsOf_markedSent {x : String} : sendsOf x (markedSent on id whatsappMessageID response w) = sendsOf x w := by
  unfold sendsOf markedSent
  rw [recorded_sends]
  rfl

theorem sendsIn_markedSent {k : String} : sendsIn k (markedSent on id whatsappMessageID response w) = sendsIn k w := by
  unfold sendsIn markedSent
  rw [recorded_sends]
  rfl

theorem locks_markedSent : (markedSent on id whatsappMessageID response w).locks = w.locks := recorded_locks

theorem businesses_markedSent : (markedSent on id whatsappMessageID response w).businesses = w.businesses := recorded_businesses

/-- The backlog of the call that records loses the row, the others keep theirs. -/
theorem backlogOf_markedSent {j : OutboundCall} {ids : List String} {x : String} (mine : on = none ∨ on = some c)
    (read : backlogOf j w = some ids) (listed : x ∈ ids) (other : x ≠ id) :
    ∃ ids', backlogOf j (markedSent on id whatsappMessageID response w) = some ids' ∧ x ∈ ids' := by
  by_cases own : j = c
  · subst own
    rcases mine with rfl | rfl
    · exact ⟨ids, read, listed⟩
    · refine ⟨ids.erase id, ?_, (List.mem_erase_of_ne other).2 listed⟩
      unfold markedSent
      rw [backlogOf_recorded]
      exact congrArg (Option.map _) read
  · exact ⟨ids, (backlogOf_recorded_ne mine own).trans read, listed⟩

/-- A row that waits after the write waited before, and is another one. -/
theorem waiting_markedSent {r : OutboundRow} (h : Waiting (markedSent on id whatsappMessageID response w) r) : Waiting w r ∧ r.id ≠ id := by
  obtain ⟨mem, conversing, scanned, pending⟩ := h
  rcases mem_markedSent.1 mem with ⟨mem, other⟩ | ⟨old, -, -, rfl⟩
  · exact ⟨⟨mem, conversing, joined_congr businesses_markedSent r ▸ scanned, pending⟩, other⟩
  · cases pending

/-- The send of a row is recorded, by the call that has its conversation locked. -/
theorem keepsOrder_mark {row : OutboundRow} (inv : Ordered w) (hrow : row ∈ w.messages.rows) (named : row.id = id)
    (mine : on = none ∨ on = some c) (held : ∀ k, row.conversation = some k → w.locks (lockKey k) = some c)
    (sent : row.conversation ≠ none → row.status = .pending ∧ (sendsOf id w).length = 1) :
    KeepsOrder (.call c) w (markedSent on id whatsappMessageID response w) := by
  have own : ∀ r ∈ w.messages.rows, r.id = id → r = row := fun r hr same => Table.eq_of_key hr hrow (same.trans named.symm)
  have once : ∀ x, SentOnce x w → SentOnce x (markedSent on id whatsappMessageID response w) := by
    rintro x ⟨r, hr, rfl, conversing, done, one⟩
    refine ⟨r, mem_markedSent.2 (.inl ⟨hr, fun same => ?_⟩), rfl, conversing, done, (congrArg List.length sendsOf_markedSent).trans one⟩
    obtain rfl := own r hr same
    rw [(sent conversing).1] at done
    cases done
  have tracked : ∀ x, Tracked x w → Tracked x (markedSent on id whatsappMessageID response w) := by
    rintro x (done | ⟨r, ⟨hr, conversing, scanned, pending⟩, rfl⟩)
    · exact .inl (once x done)
    · by_cases same : r.id = id
      · obtain rfl := own r hr same
        refine .inl ⟨_, mem_markedSent.2 (.inr ⟨r, hr, same, rfl⟩), rfl, conversing, rfl, ?_⟩
        rw [sendsOf_markedSent, same]
        exact (sent conversing).2
      · exact .inr ⟨r, ⟨mem_markedSent.2 (.inl ⟨hr, same⟩), conversing, (joined_congr businesses_markedSent r).symm ▸ scanned, pending⟩, rfl⟩
  refine ⟨⟨fun r mem => ?_, fun r hr r' hr' conversing same seq => ?_, fun k => ?_, fun s mem => ?_, fun s mem r waiting same => ?_⟩,
    fun j other => ?_, once, tracked⟩
  · rcases mem_markedSent.1 mem with ⟨mem, -⟩ | ⟨old, hold, -, rfl⟩
    · exact inv.sendable r mem
    · exact inv.sendable old hold
  · rcases mem_markedSent.1 hr with ⟨hr, other⟩ | ⟨old, hold, oldNamed, rfl⟩
    · rcases mem_markedSent.1 hr' with ⟨hr', -⟩ | ⟨old, hold, oldNamed, rfl⟩
      · exact inv.distinct r hr r' hr' conversing same seq
      · obtain rfl := inv.distinct r hr old hold conversing same seq
        exact (other oldNamed).elim
    · rcases mem_markedSent.1 hr' with ⟨hr', other⟩ | ⟨old', hold', oldNamed', rfl⟩
      · obtain rfl := inv.distinct old hold r' hr' conversing same seq
        exact (other oldNamed).elim
      · rw [own old hold oldNamed, own old' hold' oldNamed']
  · rw [sendsIn_markedSent]
    exact inv.increasing k
  · have mem : s ∈ w.sends := by
      unfold markedSent at mem
      rwa [recorded_sends] at mem
    obtain ⟨r, hr, sNamed, seq, conversation', open'⟩ := inv.known s mem
    by_cases same : r.id = id
    · exact ⟨_, mem_markedSent.2 (.inr ⟨r, hr, same, rfl⟩), sNamed, seq, conversation', fun absurd => nomatch absurd⟩
    · refine ⟨r, mem_markedSent.2 (.inl ⟨hr, same⟩), sNamed, seq, conversation', fun pending k inConversation => ?_⟩
      obtain ⟨j, ids, locked, read, listed⟩ := open' pending k inConversation
      obtain ⟨ids', read', listed'⟩ := backlogOf_markedSent mine read listed (sNamed ▸ same)
      exact ⟨j, ids', (congrFun locks_markedSent _).trans locked, read', listed'⟩
  · have mem : s ∈ w.sends := by
      unfold markedSent at mem
      rwa [recorded_sends] at mem
    exact inv.ahead s mem r (waiting_markedSent waiting).1 same
  · have other : j ≠ c := fun same => other (same ▸ rfl)
    refine ⟨.inl ⟨backlogOf_recorded_ne mine other, fun k => by rw [locks_markedSent]⟩, businesses_markedSent, fun r hr => ?_, fun k locked => ?_,
      once, tracked⟩
    · by_cases same : r.id = id
      · exact ⟨_, mem_markedSent.2 (.inr ⟨r, hr, same, rfl⟩), rfl, rfl, rfl⟩
      · exact ⟨r, mem_markedSent.2 (.inl ⟨hr, same⟩), rfl, rfl, rfl⟩
    · rw [locks_markedSent] at locked
      have apart : row.conversation ≠ some k := by
        intro inConversation
        exact other (Option.some.inj (locked.symm.trans (held k inConversation)))
      refine ⟨sendsIn_markedSent, fun r hr inConversation => ⟨mem_markedSent.2 (.inl ⟨hr, fun same => ?_⟩), sendsOf_markedSent⟩,
        fun r hr inConversation => ?_⟩
      · obtain rfl := own r hr same
        exact apart inConversation
      · rcases mem_markedSent.1 hr with ⟨hr, -⟩ | ⟨old, hold, same, rfl⟩
        · exact .inl hr
        · obtain rfl := own old hold same
          exact (apart inConversation).elim

/-- The row was the last to record. -/
theorem RecordedBut.mark (h : RecordedBut [id] c w) (inv : Ordered w) : RecordedBut [] c (markedSent on id whatsappMessageID response w) := by
  intro k locked s mem _
  rw [locks_markedSent] at locked
  rw [sendsIn_markedSent] at mem
  obtain ⟨sent, same⟩ := List.mem_filter.1 mem
  by_cases own : s.id = id
  · obtain ⟨row, hrow, named, -, conversation', -⟩ := inv.known s sent
    exact ⟨_, mem_markedSent.2 (.inr ⟨row, hrow, named.trans own, rfl⟩), named, conversation'.trans (of_decide_eq_true same), nofun⟩
  · obtain ⟨row, hrow, named, inConversation, done⟩ := h k locked s mem fun listed => own (List.mem_singleton.1 listed)
    exact ⟨row, mem_markedSent.2 (.inl ⟨hrow, named ▸ own⟩), named, inConversation, done⟩

/-- The first message of the backlog is recorded. -/
theorem InTurn.mark (h : InTurn [m.id] c conversation bound (m :: rest) w) (inv : Ordered w) (one : (sendsOf m.id w).length = 1) :
    KeepsOrder (.call c) w (markedSent (some c) m.id whatsappMessageID response w) ∧
      InTurn [] c conversation bound rest (markedSent (some c) m.id whatsappMessageID response w) ∧
      SentOnce m.id (markedSent (some c) m.id whatsappMessageID response w) := by
  obtain ⟨row, hrow, scanned, inConversation, pending⟩ := h.rows m List.mem_cons_self
  obtain ⟨named, seq, -, -⟩ := joined_eq scanned
  have held : ∀ k, row.conversation = some k → w.locks (lockKey k) = some c := by
    intro k same
    obtain rfl : conversation = k := Option.some.inj (inConversation.symm.trans same)
    exact (h.session m List.mem_cons_self).1
  obtain ⟨later, sorted⟩ := List.pairwise_cons.1 h.sorted
  -- the other messages are other rows
  have apart : ∀ m' ∈ rest, m'.id ≠ m.id := by
    intro m' mem' same
    obtain ⟨row', hrow', scanned', -, -⟩ := h.rows m' (List.mem_cons_of_mem _ mem')
    obtain ⟨named', seq', -, -⟩ := joined_eq scanned'
    obtain rfl := Table.eq_of_key hrow' hrow (named'.symm.trans (same.trans named))
    have less := later m' mem'
    omega
  have conversing : row.conversation ≠ none := by
    rw [inConversation]
    exact Option.some_ne_none _
  refine ⟨keepsOrder_mark inv hrow named.symm (.inr rfl) held fun _ => ⟨pending, one⟩,
    ⟨h.recorded.mark inv, sorted, fun m' mem' => h.bounded m' (List.mem_cons_of_mem _ mem'), fun m' mem' => ?_, fun m' mem' => ?_,
      fun m' mem' _ => ?_, fun locked row' waiting inConversation' le => ?_, ?_⟩, ?_⟩
  · obtain ⟨locked, ids, read, listed⟩ := h.session m' (List.mem_cons_of_mem _ mem')
    exact ⟨(congrFun locks_markedSent _).trans locked, backlogOf_markedSent (.inr rfl) read listed (apart m' mem')⟩
  · obtain ⟨row', hrow', scanned', inConversation', pending'⟩ := h.rows m' (List.mem_cons_of_mem _ mem')
    refine ⟨row', mem_markedSent.2 (.inl ⟨hrow', ?_⟩), (joined_congr businesses_markedSent row').trans scanned', inConversation', pending'⟩
    rw [← (joined_eq scanned').1]
    exact apart m' mem'
  · rw [sendsOf_markedSent]
    exact h.unsent m' (List.mem_cons_of_mem _ mem') fun listed => apart m' mem' (List.mem_singleton.1 listed)
  · obtain ⟨waiting, other⟩ := waiting_markedSent waiting
    rw [locks_markedSent] at locked
    obtain ⟨m', mem', same⟩ := h.complete locked row' waiting inConversation' le
    rcases List.mem_cons.1 mem' with rfl | mem'
    · exact (other same.symm).elim
    · exact ⟨m', mem', same⟩
  · obtain ⟨anchor, hanchor, anchorConversation, anchorSeq⟩ := h.anchor
    by_cases same : anchor.id = m.id
    · exact ⟨_, mem_markedSent.2 (.inr ⟨anchor, hanchor, same, rfl⟩), anchorConversation, anchorSeq⟩
    · exact ⟨anchor, mem_markedSent.2 (.inl ⟨hanchor, same⟩), anchorConversation, anchorSeq⟩
  · exact ⟨_, mem_markedSent.2 (.inr ⟨row, hrow, named.symm, rfl⟩), named.symm, conversing, rfl, (congrArg List.length sendsOf_markedSent).trans one⟩

end Marks

end Turns

/-! ## Calls -/

section Calls

variable {i : OutboundName} {c : OutboundCall} {w : OutboundWorld}

/-- One statement. -/
theorem safe_order {op : OutboundStmt} {Q : Except OutboundErr op.Reply → OutboundWorld → Prop}
    (executed : ∀ t, orderRely i w t → Ordered t → outboundProceeds t op → keepsConnection t op → inSeqOrder t op →
      KeepsOrder i t (outboundExec op t).2 ∧ Q (outboundExec op t).1 (outboundExec op t).2 ∧
        (mayFail op → Q (.error (.db .transient)) (outboundExec op t).2))
    (failed : ∀ t, orderRely i w t → mayFail op → recordsSend op = false → Q (.error (.db .transient)) t)
    (stopped : ∀ t, orderRely i w t → recordsSend op = false → orderIdle i t) :
    Safe orderedFlow orderProtocol i Q (call (I := outboundStore) op) w := by
  refine Safe.call (fun t rely inv may => ?_) (fun t rely _ faults => failed t rely faults.1 faults.2) fun t rely _ stops => stopped t rely stops
  obtain ⟨proceeds, keeps, order⟩ := may
  obtain ⟨kept, replied, unreplied⟩ := executed t rely inv proceeds keeps order
  exact ⟨kept.inv, fun j other => kept.rely other, replied, unreplied⟩

/-- What a call knows that has everything recorded: `K` lasts while it is not at a statement of its backlog. -/
theorem RecordedBut.safe_session {op : OutboundStmt} {K : OutboundWorld → Prop} (recorded : RecordedBut [] c w) (known : K w)
    (lasts : ∀ s t, InPeace c s t → K s → K t) (kept : ∀ s t, SessionStep c s t → K s → K t)
    (runs : ∀ t, outboundProceeds t op → SessionStep c t (outboundExec op t).2) :
    Safe orderedFlow orderProtocol (.call c) (fun _ t => RecordedBut [] c t ∧ K t) (call (I := outboundStore) op) w := by
  refine safe_order (fun t rely inv may _ _ => ?_) (fun t rely _ _ => ⟨recorded.relies rely, lasts w t rely known⟩)
    fun t rely _ => recorded.relies rely
  obtain ⟨keeps, after⟩ := (runs t may).keepsOrder inv (recorded.relies rely)
  have knows := kept t _ (runs t may) (lasts w t rely known)
  exact ⟨keeps, ⟨after, knows⟩, fun _ => ⟨after, knows⟩⟩

/-- The call's row, of which `tracked` says that it was pending when the call began. -/
structure OwnRow (tracked : Prop) (c : OutboundCall) (conversation : String) (seq : Int) (w : OutboundWorld) : Prop where
  row : ∃ row ∈ w.messages.rows, row.id = c.row ∧ row.seq = seq ∧ row.conversation = some conversation
  waits : tracked → Tracked c.row w

/-- What a call owes its row when it is through. -/
def Delivered (tracked : Prop) (c : OutboundCall) (r : Except OutboundErr Unit) (w : OutboundWorld) : Prop :=
  tracked → r = .ok () → SentOnce c.row w

/-- The call's row was sent or is one of `ms`. -/
def Due (tracked : Prop) (c : OutboundCall) (ms : List QueuedMessage) (w : OutboundWorld) : Prop :=
  tracked → SentOnce c.row w ∨ ∃ m ∈ ms, m.id = c.row

variable {tracked : Prop} {conversation : String} {seq : Int} {t : OutboundWorld} {ms rest : List QueuedMessage} {m : QueuedMessage}

theorem OwnRow.relies (h : OwnRow tracked c conversation seq w) (rely : InPeace c w t) : OwnRow tracked c conversation seq t := by
  obtain ⟨⟨row, mem, named, rowSeq, inConversation⟩, waits⟩ := h
  obtain ⟨row', mem', named', seq', conversation'⟩ := rely.kept row mem
  exact ⟨⟨row', mem', named'.trans named, seq'.trans rowSeq, conversation'.trans inConversation⟩, fun yes => rely.tracked _ (waits yes)⟩

theorem OwnRow.session (h : OwnRow tracked c conversation seq w) (step : SessionStep c w t) : OwnRow tracked c conversation seq t :=
  ⟨step.messages ▸ h.row, fun yes => (tracked_congr step.messages step.businesses step.sends).2 (h.waits yes)⟩

theorem Delivered.relies {r : Except OutboundErr Unit} (h : Delivered tracked c r w) (rely : InPeace c w t) : Delivered tracked c r t :=
  fun yes returned => rely.once _ (h yes returned)

theorem Delivered.session {r : Except OutboundErr Unit} (h : Delivered tracked c r w) (step : SessionStep c w t) : Delivered tracked c r t :=
  fun yes returned => (tracked_congr step.messages step.businesses step.sends).1 (h yes returned)

theorem delivered_error {e : OutboundErr} : Delivered tracked c (.error e) w := fun _ returned => nomatch returned

theorem Due.relies (h : Due tracked c ms w) (rely : InPeace c w t) : Due tracked c ms t := fun yes => (h yes).imp_left (rely.once _)

/-- A backlog the call has read: its rows can be sent, and the call's own is among them unless it was sent. -/
structure Flushing (tracked : Prop) (c : OutboundCall) (except : List String) (ms : List QueuedMessage) (w : OutboundWorld) : Prop where
  turn : ∃ conversation bound, InTurn except c conversation bound ms w
  sendable : ∀ m ∈ ms, (sendRequest m).isSome = true
  due : Due tracked c ms w

theorem Flushing.relies {except : List String} (h : Flushing tracked c except ms w) (rely : InPeace c w t) : Flushing tracked c except ms t := by
  obtain ⟨conversation, bound, turn⟩ := h.turn
  exact ⟨⟨conversation, bound, turn.relies rely⟩, h.sendable, h.due.relies rely⟩

/-- A row without a conversation, which is not the one that is tracked. -/
structure Alone (tracked : Prop) (c : OutboundCall) (ms : List QueuedMessage) (w : OutboundWorld) : Prop where
  recorded : RecordedBut [] c w
  untracked : ¬ tracked
  rows : ∀ m ∈ ms, m.conversation = none ∧ ∃ row ∈ w.messages.rows, row.id = m.id ∧ row.seq = m.seq ∧ row.conversation = none
  sendable : ∀ m ∈ ms, (sendRequest m).isSome = true

theorem Alone.relies (h : Alone tracked c ms w) (rely : InPeace c w t) : Alone tracked c ms t := by
  refine ⟨h.recorded.relies rely, h.untracked, fun m mem => ?_, h.sendable⟩
  obtain ⟨alone, row, hrow, named, rowSeq, rowAlone⟩ := h.rows m mem
  obtain ⟨row', hrow', named', seq', conversation'⟩ := rely.kept row hrow
  exact ⟨alone, row', hrow', named'.trans named, seq'.trans rowSeq, conversation'.trans rowAlone⟩

/-- A backlog is in strict order. -/
theorem loadBacklog_sorted (inv : Ordered w) : (loadBacklog conversation seq w).Pairwise fun m m' => m.seq < m'.seq := by
  have sorted : (loadBacklog conversation seq w).Pairwise fun m m' => m.seq ≤ m'.seq := List.pairwise_insertionSort _ _
  have apart : (loadBacklog conversation seq w).Pairwise fun m m' => m.id ≠ m'.id := List.pairwise_map.1 loadBacklog_nodup
  refine (sorted.and apart).imp_of_mem fun {m m'} mem mem' both => lt_of_le_of_ne both.1 fun equal => both.2 ?_
  obtain ⟨row, hrow, inConversation, -, -, scanned⟩ := mem_loadBacklog.1 mem
  obtain ⟨row', hrow', inConversation', -, -, scanned'⟩ := mem_loadBacklog.1 mem'
  obtain ⟨named, rowSeq, -⟩ := joined_eq scanned
  obtain ⟨named', rowSeq', -⟩ := joined_eq scanned'
  have conversing : row.conversation ≠ none := by
    rw [inConversation]
    exact Option.some_ne_none _
  obtain rfl := inv.distinct row hrow row' hrow' conversing (inConversation.trans inConversation'.symm)
    (rowSeq.symm.trans (equal.trans rowSeq'))
  exact named.trans named'.symm

/-- What a row is scanned to can be sent. -/
theorem Ordered.sendable_of_joined (inv : Ordered w) {row : OutboundRow} (mem : row ∈ w.messages.rows) (scanned : joined w row = some m) :
    (sendRequest m).isSome = true := by
  unfold joined at scanned
  obtain ⟨b, -, rfl⟩ := Option.map_eq_some_iff.1 scanned
  exact inv.sendable row mem b.whatsappPhoneNumberID

/-- The backlog as it is read under the lock. -/
theorem flushing_loadBacklog {ids : List String} (inv : Ordered w) (recorded : RecordedBut [] c w) (own : OwnRow tracked c conversation seq w)
    (read : backlogOf c w = some ids) (locked : w.locks (lockKey conversation) = some c) :
    Flushing tracked c [] (loadBacklog conversation seq w) (setConnection c (fun x =>
      { x with backlog := (loadBacklog conversation seq w).map QueuedMessage.id }) (fun _ => rfl) w) := by
  obtain ⟨row, hrow, named, rowSeq, inConversation⟩ := own.row
  have reads := backlogOf_setConnection (c := c) (w := w) (g := fun _ => (loadBacklog conversation seq w).map QueuedMessage.id)
  rw [read] at reads
  have listed : ∀ row', Waiting w row' → row'.conversation = some conversation → row'.seq ≤ seq →
      ∃ m ∈ loadBacklog conversation seq w, m.id = row'.id := by
    intro row' waiting inConversation' le
    obtain ⟨hrow', -, scanned, pending⟩ := waiting
    obtain ⟨m, scanned⟩ := Option.isSome_iff_exists.1 scanned
    exact ⟨m, mem_loadBacklog.2 ⟨row', hrow', inConversation', pending, le, scanned⟩, (joined_eq scanned).1⟩
  refine ⟨⟨conversation, seq, recorded, loadBacklog_sorted inv, fun m mem => ?_, fun m mem => ⟨locked, _, reads, List.mem_map_of_mem mem⟩,
    fun m mem => ?_, fun m mem _ => ?_, fun _ => listed, row, hrow, inConversation, rowSeq⟩, fun m mem => ?_, fun yes => ?_⟩
  · obtain ⟨row', -, -, -, le, scanned⟩ := mem_loadBacklog.1 mem
    rw [(joined_eq scanned).2.1]
    exact le
  · obtain ⟨row', hrow', inConversation', pending, -, scanned⟩ := mem_loadBacklog.1 mem
    exact ⟨row', hrow', scanned, inConversation', pending⟩
  · -- what was sent of the conversation is recorded, and the row is pending
    obtain ⟨row', hrow', inConversation', pending, -, scanned⟩ := mem_loadBacklog.1 mem
    refine List.filter_eq_nil_iff.2 fun s sent same => ?_
    have same := of_decide_eq_true same
    obtain ⟨known, hknown, knownNamed, -, knownConversation, -⟩ := inv.known s sent
    obtain rfl := Table.eq_of_key hknown hrow' (knownNamed.trans (same.trans (joined_eq scanned).1))
    have mem : s ∈ sendsIn conversation w := List.mem_filter.2 ⟨sent, decide_eq_true (knownConversation.symm.trans inConversation')⟩
    obtain ⟨done, hdone, doneNamed, -, notPending⟩ := recorded conversation locked s mem List.not_mem_nil
    obtain rfl := Table.eq_of_key hdone hknown (doneNamed.trans knownNamed.symm)
    exact notPending pending
  · obtain ⟨row', hrow', -, -, -, scanned⟩ := mem_loadBacklog.1 mem
    exact inv.sendable_of_joined hrow' scanned
  · rcases own.waits yes with once | ⟨row', waiting, named'⟩
    · exact .inl once
    · obtain rfl := Table.eq_of_key waiting.1 hrow (named'.trans named.symm)
      obtain ⟨m, mem, same⟩ := listed row' waiting inConversation (le_of_eq rowSeq)
      exact .inr ⟨m, mem, same.trans named⟩

/-! ### The statements of a call -/

theorem OwnRow.safe_lock (own : OwnRow tracked c conversation seq w) (recorded : RecordedBut [] c w) :
    Safe orderedFlow orderProtocol (.call c)
      (Replied (fun _ t => RecordedBut [] c t ∧ OwnRow tracked c conversation seq t ∧ LockHeld c conversation t) (RecordedBut [] c))
      (call (I := outboundStore) (.lockConversation c (lockKey conversation))) w := by
  refine safe_order (fun t rely inv may _ _ => ?_) (fun t rely _ _ => recorded.relies rely) fun t rely _ => recorded.relies rely
  have step := sessionStep_lock (c := c) may
  obtain ⟨keeps, after⟩ := step.keepsOrder inv (recorded.relies rely)
  refine ⟨keeps, ?_, fun _ => after⟩
  rcases lockHeld_lock (c := c) (w := t) conversation with ⟨e, runs⟩ | held
  · rw [runs]
    exact recorded.relies rely
  · cases (outboundExec (.lockConversation c (lockKey conversation)) t).1 with
    | ok _ => exact ⟨after, (own.relies rely).session step, held⟩
    | error e => exact after

theorem OwnRow.safe_loadBacklog (own : OwnRow tracked c conversation seq w) (recorded : RecordedBut [] c w)
    (locked : LockHeld c conversation w) :
    Safe orderedFlow orderProtocol (.call c) (Replied (fun backlog => Flushing tracked c [] backlog) (RecordedBut [] c))
      (call (I := outboundStore) (.loadBacklog c conversation seq)) w := by
  refine safe_order (fun t rely inv _ _ _ => ?_) (fun t rely _ _ => recorded.relies rely) fun t rely _ => recorded.relies rely
  obtain ⟨keeps, after⟩ := (sessionStep_loadBacklog conversation seq).keepsOrder inv (recorded.relies rely)
  refine ⟨keeps, ?_, fun _ => after⟩
  simp only [outboundExec] at after ⊢
  rcases onConnection_cases (w := t) (some c) ((.ok (loadBacklog conversation seq t), setConnection c (fun x =>
    { x with backlog := (loadBacklog conversation seq t).map QueuedMessage.id }) (fun _ => rfl) t) :
    Except OutboundErr (List QueuedMessage) × OutboundWorld) with ⟨runs, isOpen⟩ | ⟨runs, -⟩
  · obtain ⟨ids, read⟩ := isOpen c rfl
    rw [runs]
    exact flushing_loadBacklog inv (recorded.relies rely) (own.relies rely) read (locked.relies rely.session ids read)
  · rw [runs]
    exact recorded.relies rely

/-- The first row of the backlog is sent: it is the one to record. -/
theorem Flushing.safe_send {request : SendRequest} {outcome : SendOutcome} {response : MetaResponse}
    (h : Flushing tracked c [] (m :: rest) w) (answer : outcome.answer = .ok response) :
    Safe orderedFlow orderProtocol (.call c)
      (Replied (fun _ t => Flushing tracked c [m.id] (m :: rest) t ∧ (sendsOf m.id t).length = 1) fun _ => False)
      (call (I := outboundStore) (.send m request outcome)) w := by
  refine safe_order (fun t rely inv _ _ _ => ?_) (fun _ _ may _ => may.elim) fun t rely _ => ?_
  · obtain ⟨⟨conversation, bound, turn⟩, sendable, due⟩ := h.relies rely
    simp only [outboundExec]
    obtain ⟨keeps, turn', once⟩ := turn.send (s := ⟨m.id, m.seq, m.conversation, request, outcome.accepted⟩) inv rfl rfl rfl
    rw [answer]
    exact ⟨keeps, ⟨⟨⟨conversation, bound, turn'⟩, sendable, fun yes => (due yes).imp_left (keeps.once _)⟩, once⟩, fun may => may.elim⟩
  · obtain ⟨conversation, bound, turn⟩ := (h.relies rely).turn
    exact turn.recorded

/-- The write after the send comes through. -/
theorem Flushing.safe_markSent {whatsappMessageID : Option String} {response : MetaResponse}
    (h : Flushing tracked c [m.id] (m :: rest) w) (one : (sendsOf m.id w).length = 1) :
    Safe orderedFlow orderProtocol (.call c) (fun _ => Flushing tracked c [] rest)
      (call (I := outboundStore) (.markSent (some c) m.id whatsappMessageID response)) w := by
  refine safe_order (fun t rely inv _ _ _ => ?_) (fun _ _ _ records => nomatch records) fun _ _ records => nomatch records
  -- nobody else sends rows of the conversation
  have one : (sendsOf m.id t).length = 1 := by
    obtain ⟨conversation, bound, turn⟩ := h.turn
    obtain ⟨row, hrow, scanned, inConversation, -⟩ := turn.rows m List.mem_cons_self
    have frozen := rely.frozen conversation ((turn.relies rely).session m List.mem_cons_self).1
    rw [(joined_eq scanned).1, (frozen.rows row hrow inConversation).2, ← (joined_eq scanned).1]
    exact one
  obtain ⟨⟨conversation, bound, turn⟩, sendable, due⟩ := h.relies rely
  obtain ⟨-, ids, read, -⟩ := turn.session m List.mem_cons_self
  have runs : outboundExec (.markSent (some c) m.id whatsappMessageID response) t =
      (.ok (), markedSent (some c) m.id whatsappMessageID response t) := by
    rcases onConnection_cases (w := t) (some c) ((.ok (), markedSent (some c) m.id whatsappMessageID response t) :
      Except OutboundErr Unit × OutboundWorld) with ⟨runs, -⟩ | ⟨-, j, same, closed⟩
    · exact runs
    · cases same
      rw [read] at closed
      cases closed
  have marked : KeepsOrder (.call c) t (markedSent (some c) m.id whatsappMessageID response t) ∧
      InTurn [] c conversation bound rest (markedSent (some c) m.id whatsappMessageID response t) ∧
      SentOnce m.id (markedSent (some c) m.id whatsappMessageID response t) := turn.mark inv one
  obtain ⟨keeps, turn', once⟩ := marked
  have after : Flushing tracked c [] rest (markedSent (some c) m.id whatsappMessageID response t) := by
    refine ⟨⟨conversation, bound, turn'⟩, fun m' mem => sendable m' (List.mem_cons_of_mem _ mem), fun yes => ?_⟩
    rcases due yes with done | ⟨m', mem, named⟩
    · exact .inl (keeps.once _ done)
    · rcases List.mem_cons.1 mem with rfl | mem
      · exact .inl (named ▸ once)
      · exact .inr ⟨m', mem, named⟩
  rw [runs]
  exact ⟨keeps, after, fun _ => after⟩

/-- A row without a conversation is sent. -/
theorem Alone.safe_send {request : SendRequest} {outcome : SendOutcome} {response : MetaResponse} (h : Alone tracked c (m :: rest) w)
    (answer : outcome.answer = .ok response) :
    Safe orderedFlow orderProtocol (.call c) (Replied (fun _ => Alone tracked c (m :: rest)) fun _ => False)
      (call (I := outboundStore) (.send m request outcome)) w := by
  refine safe_order (fun t rely inv _ _ _ => ?_) (fun _ _ may _ => may.elim) fun t rely _ => (h.relies rely).recorded
  obtain ⟨recorded, untracked, rows, sendable⟩ := h.relies rely
  obtain ⟨alone, row, hrow, named, rowSeq, rowAlone⟩ := rows m List.mem_cons_self
  have apart : ∀ k, m.conversation ≠ some k := by
    intro k same
    rw [alone] at same
    cases same
  simp only [outboundExec]
  rw [answer]
  have keeps : KeepsOrder (.call c) t { t with sends := t.sends ++ [⟨m.id, m.seq, m.conversation, request, outcome.accepted⟩] } := by
    refine keepsOrder_send inv hrow named rowSeq (rowAlone.trans alone.symm) (fun conversing => (conversing rowAlone).elim)
      (fun k same => (apart k same).elim) (fun k same => (apart k same).elim) fun row' waiting same => ?_
    exact (waiting.2.1 (same.trans alone)).elim
  refine ⟨keeps, ⟨fun k locked s mem => ?_, untracked, rows, sendable⟩, fun may => may.elim⟩
  rw [sendsIn_append, if_neg (apart k), List.append_nil] at mem
  exact recorded k locked s mem

/-- The send of a row without a conversation is recorded. -/
theorem Alone.safe_markSent {whatsappMessageID : Option String} {response : MetaResponse} (h : Alone tracked c (m :: rest) w) :
    Safe orderedFlow orderProtocol (.call c) (fun _ => Alone tracked c rest)
      (call (I := outboundStore) (.markSent none m.id whatsappMessageID response)) w := by
  refine safe_order (fun t rely inv _ _ _ => ?_) (fun _ _ _ records => nomatch records) fun _ _ records => nomatch records
  obtain ⟨recorded, untracked, rows, sendable⟩ := h.relies rely
  obtain ⟨-, row, hrow, named, -, rowAlone⟩ := rows m List.mem_cons_self
  have keeps : KeepsOrder (.call c) t (markedSent none m.id whatsappMessageID response t) :=
    keepsOrder_mark inv hrow named (.inl rfl) (fun k same => nomatch rowAlone.symm.trans same) fun conversing => (conversing rowAlone).elim
  have after : RecordedBut [] c (markedSent none m.id whatsappMessageID response t) :=
    RecordedBut.mark (fun k locked s mem _ => recorded k locked s mem List.not_mem_nil) inv
  have done : Alone tracked c rest (markedSent none m.id whatsappMessageID response t) := by
    refine ⟨after, untracked, fun m' mem => ?_, fun m' mem => sendable m' (List.mem_cons_of_mem _ mem)⟩
    obtain ⟨alone, row', hrow', facts⟩ := rows m' (List.mem_cons_of_mem _ mem)
    by_cases same : row'.id = m.id
    · exact ⟨alone, _, mem_markedSent.2 (.inr ⟨row', hrow', same, rfl⟩), facts⟩
    · exact ⟨alone, row', mem_markedSent.2 (.inl ⟨hrow', same⟩), facts⟩
  exact ⟨keeps, done, fun _ => done⟩

/-- What a call knows where. -/
def orderOutline (tracked : Prop) (c : OutboundCall) {wa : Option Sender} (succeeds : Succeeds wa) :
    Outline orderedFlow orderProtocol c wa fun r w => RecordedBut [] c w ∧ Delivered tracked c r w where
  ready conversation seq w := RecordedBut [] c w ∧ OwnRow tracked c conversation seq w
  acquired conversation seq w := RecordedBut [] c w ∧ OwnRow tracked c conversation seq w
  locked conversation seq w := RecordedBut [] c w ∧ OwnRow tracked c conversation seq w ∧ LockHeld c conversation w
  todo on rest w := (on = some c ∧ Flushing tracked c [] rest w) ∨ (on = none ∧ Alone tracked c rest w)
  sent on m rest w := (on = some c ∧ Flushing tracked c [m.id] (m :: rest) w ∧ (sendsOf m.id w).length = 1) ∨
    (on = none ∧ Alone tracked c (m :: rest) w)
  failed _ _ _ _ := False
  leaving r w := RecordedBut [] c w ∧ Delivered tracked c r w
  acquire conversation seq _ ready := by
    refine (ready.1.safe_session ready.2 (fun _ _ rely own => own.relies rely) (fun _ _ step own => own.session step)
      fun _ _ => sessionStep_acquire).mono fun r t after => ?_
    cases r with
    | ok _ => exact after
    | error e => exact fun _ => ⟨after.1, delivered_error⟩
  lock conversation seq _ acquired := by
    refine (acquired.2.safe_lock acquired.1).mono fun r t after => ?_
    cases r with
    | ok _ => exact after
    | error e => exact fun _ => ⟨after, delivered_error⟩
  load conversation seq _ locked := by
    obtain ⟨recorded, own, held⟩ := locked
    refine (own.safe_loadBacklog recorded held).mono fun r t after => ?_
    cases r with
    | ok backlog => exact .inl ⟨rfl, after⟩
    | error e => exact fun _ => ⟨after, delivered_error⟩
  unsent on m rest w fails todo := by
    obtain ⟨sender, configured, -⟩ := succeeds
    have sendable : (sendRequest m).isSome = true := by
      rcases todo with ⟨-, flushing⟩ | ⟨-, alone⟩
      · exact flushing.sendable m List.mem_cons_self
      · exact alone.sendable m List.mem_cons_self
    rcases fails with missing | missing
    · rw [configured] at missing
      cases missing
    · rw [missing] at sendable
      cases sendable
  send on m rest request outcome w sends todo := by
    obtain ⟨sender, configured, answers⟩ := succeeds
    obtain ⟨sender', configured', rfl⟩ := sends
    obtain rfl : sender = sender' := Option.some.inj (configured.symm.trans configured')
    obtain ⟨response, answer⟩ := answers m request
    rcases todo with ⟨rfl, flushing⟩ | ⟨rfl, alone⟩
    · refine (flushing.safe_send answer).mono fun r t after => ?_
      cases r with
      | ok _ => exact .inl ⟨rfl, after⟩
      | error e => exact after
    · refine (alone.safe_send answer).mono fun r t after => ?_
      cases r with
      | ok _ => exact .inr ⟨rfl, after⟩
      | error e => exact after
  markSent on m rest whatsappMessageID response w sent := by
    rcases sent with ⟨rfl, flushing, one⟩ | ⟨rfl, alone⟩
    · exact (flushing.safe_markSent one).mono fun _ _ after => .inl ⟨rfl, after⟩
    · exact alone.safe_markSent.mono fun _ _ after => .inr ⟨rfl, after⟩
  markFailed _ _ _ _ _ failed := failed.elim
  skip _ _ _ _ failed := failed.elim
  finish w r todo := by
    rcases todo with ⟨absurd, -⟩ | ⟨-, alone⟩
    · cases absurd
    · exact ⟨alone.recorded, fun yes => (alone.untracked yes).elim⟩
  leave w r todo := by
    rcases todo with ⟨-, flushing⟩ | ⟨absurd, -⟩
    · obtain ⟨conversation, bound, turn⟩ := flushing.turn
      refine ⟨turn.recorded, fun yes _ => (flushing.due yes).resolve_right ?_⟩
      rintro ⟨m, mem, -⟩
      cases mem
    · cases absurd
  unlock _ _ _ leaving := leaving.1.safe_session leaving.2 (fun _ _ rely known => known.relies rely) (fun _ _ step known => known.session step)
    fun _ _ => sessionStep_unlock
  release _ _ leaving := leaving.1.safe_session leaving.2 (fun _ _ rely known => known.relies rely) (fun _ _ step known => known.session step)
    fun _ _ => sessionStep_close
  close _ _ leaving := leaving.1.safe_session leaving.2 (fun _ _ rely known => known.relies rely) (fun _ _ step known => known.session step)
    fun _ _ => sessionStep_close

/-- The call is safe, and its row is sent once if it waited when the call began. -/
theorem RecordedBut.safe_deliver {wa : Option Sender} {finalAttempt : Bool} (recorded : RecordedBut [] c w) (waits : tracked → Tracked c.row w)
    (succeeds : Succeeds wa) :
    Safe orderedFlow orderProtocol (.call c) (fun r w => RecordedBut [] c w ∧ Delivered tracked c r w) (deliver c wa c.row finalAttempt) w := by
  refine (orderOutline tracked c succeeds).safe_deliver rfl (safe_order (fun t rely inv _ _ _ => ⟨inv.same, ?_, fun _ _ => ?_⟩)
    (fun t rely _ _ _ => ⟨recorded.relies rely, delivered_error⟩) fun t rely _ => recorded.relies rely)
  · have recorded := recorded.relies rely
    have waits : tracked → Tracked c.row t := fun yes => rely.tracked _ (waits yes)
    simp only [outboundExec]
    cases found : loadMessage c.row t with
    | none =>
      refine ⟨recorded, fun yes _ => (waits yes).resolve_right ?_⟩
      rintro ⟨row, ⟨mem, -, scanned, -⟩, named⟩
      have reads : t.messages.find? c.row = some row := Table.find?_eq_some.2 ⟨mem, named⟩
      rw [loadMessage, reads, Option.bind_some] at found
      rw [found] at scanned
      cases scanned
    | some m =>
      obtain ⟨row, hrow, named, scanned⟩ := loadMessage_eq found
      obtain ⟨rowNamed, rowSeq, status, rowConversation⟩ := joined_eq scanned
      refine ⟨fun skips => ⟨recorded, fun yes _ => (waits yes).resolve_right ?_⟩, fun _ => ⟨fun alone => .inr ⟨rfl, recorded, fun yes => ?_,
        fun m' mem => ?_, fun m' mem => ?_⟩, fun conversation same => ⟨recorded, ⟨row, hrow, named, rowSeq.symm, rowConversation.symm.trans same⟩, waits⟩⟩⟩
      · rintro ⟨row', ⟨hrow', -, -, pending⟩, named'⟩
        obtain rfl := Table.eq_of_key hrow' hrow (named'.trans named.symm)
        unfold skipOutbound at skips
        rw [status, pending] at skips
        cases skips
      · have conversing : row.conversation ≠ none := by
          rcases waits yes with ⟨row', hrow', named', conversing, -⟩ | ⟨row', ⟨hrow', conversing, -⟩, named'⟩
          · obtain rfl := Table.eq_of_key hrow' hrow (named'.trans named.symm)
            exact conversing
          · obtain rfl := Table.eq_of_key hrow' hrow (named'.trans named.symm)
            exact conversing
        exact conversing (rowConversation.symm.trans alone)
      · obtain rfl := List.mem_singleton.1 mem
        exact ⟨alone, row, hrow, rowNamed.symm, rowSeq.symm, rowConversation.symm.trans alone⟩
      · obtain rfl := List.mem_singleton.1 mem
        exact inv.sendable_of_joined hrow scanned
  · exact ⟨recorded.relies rely, delivered_error⟩

end Calls

/-! ## Runs -/

/-- What the handlers promise, with the call `target` whose row waited at the start. -/
def orderPromise (target : Option OutboundCall) : OutboundName → Except OutboundErr Unit → OutboundWorld → Prop
  | .call c, r, w => RecordedBut [] c w ∧ Delivered (target = some c) c r w
  | _, _, _ => True

theorem orderPromise_lasts (target : Option OutboundCall) : orderProtocol.Promise (I := outboundStore) (orderPromise target) where
  lasting i r s t rely known := by
    cases i with
    | call c => exact ⟨RecordedBut.relies known.1 rely, known.2.relies rely⟩
    | observer => trivial
    | sweep tx => trivial
    | writer n => trivial
    | server n => trivial
  leaves i r s known := by
    cases i with
    | call c => exact known.1
    | observer => trivial
    | sweep tx => trivial
    | writer n => trivial
    | server n => trivial

/-- A statement of somebody who records nothing. -/
theorem safe_bystander {i : OutboundName} {op : OutboundStmt} {w : OutboundWorld} (idle : ∀ t, orderIdle i t)
    (executed : ∀ t, Ordered t → keepsConnection t op → inSeqOrder t op → KeepsOrder i t (outboundExec op t).2) :
    Safe orderedFlow orderProtocol i (fun _ _ => True) (call (I := outboundStore) op) w :=
  safe_order (fun t _ inv _ keeps order => ⟨executed t inv keeps order, trivial, fun _ => trivial⟩) (fun _ _ _ _ => trivial)
    fun t _ _ => idle t

/-- Every job keeps its promise wherever it starts. -/
theorem safe_orderedJob {target : Option OutboundCall} {i : OutboundName} {p : OutboundHandler Unit} {w : OutboundWorld}
    (may : orderedFlow.job i p) (idle : orderIdle i w) (waits : ∀ c, target = some c → Tracked c.row w) :
    Safe orderedFlow orderProtocol i (orderPromise target i) p w := by
  cases may with
  | task c wa finalAttempt may _ => exact may.elim
  | deliver c wa finalAttempt _ succeeds => exact RecordedBut.safe_deliver idle (waits c) succeeds
  | disconnect c =>
    refine Safe.bind (Safe.bind (Safe.attempt ((RecordedBut.safe_session (K := fun _ => True) idle trivial (fun _ _ _ _ => trivial)
      (fun _ _ _ _ => trivial) fun _ _ => sessionStep_close).mono fun _ t after => ?_)))
    exact ⟨after.1, delivered_error⟩
  | recover c =>
    refine Safe.bind (Safe.bind (Safe.attempt (safe_order (fun t rely inv _ _ _ => ?_) (fun t rely _ _ => ⟨RecordedBut.relies idle rely, delivered_error⟩)
      fun t rely _ => RecordedBut.relies idle rely)))
    have recorded := RecordedBut.relies idle rely
    exact ⟨keepsOrder_aside inv rfl rfl rfl rfl rfl, ⟨recorded, delivered_error⟩, fun _ => ⟨recorded, delivered_error⟩⟩
  | sweep tx now publisher may => exact may.elim
  | insert n row =>
    refine safe_bystander (fun _ => trivial) fun t inv _ order => ?_
    simp only [outboundExec]
    split
    · rename_i w' inserted
      exact keepsOrder_insert inv inserted order
    · exact inv.same
  | rollback n tx => exact safe_bystander (fun _ => trivial) fun t inv _ _ => keepsOrder_aside inv rfl rfl rfl rfl rfl
  | loseConnection n c => exact safe_bystander (fun _ => trivial) fun t inv empty _ => keepsOrder_lost inv empty

/-- As long as no send and no status write fails and rows are committed in order, what is sent of a conversation is sent in
strictly increasing order, and a call that returns nil for a row that waited when it began has that row sent exactly once. -/
theorem sends_in_order {w : OutboundWorld} {a b : Crew outboundStore OutboundName OutboundWorld} (unsent : w.sends = [])
    (sendable : ∀ row ∈ w.messages.rows, Sendable row)
    (distinct : ∀ r ∈ w.messages.rows, ∀ r' ∈ w.messages.rows, r.conversation ≠ none → r.conversation = r'.conversation → r.seq = r'.seq → r = r')
    (reach : orderedFlow.Reach ⟨w, []⟩ a) (later : orderedFlow.Reach a b) :
    (∀ conversation, (sendsIn conversation b.state).Pairwise fun s s' => s.seq < s'.seq) ∧
      ∀ c row, Waiting a.state row → row.id = c.row → .call c ∉ a.threads.map Prod.fst → (.call c, .ret (.ok ())) ∈ b.threads →
        (sendsOf c.row b.state).length = 1 := by
  have nothing : ∀ k, sendsIn k w = [] := by
    intro k
    unfold sendsIn
    rw [unsent]
    rfl
  have start : Ordered w := by
    refine ⟨sendable, distinct, fun k => ?_, fun s mem => ?_, fun s mem => ?_⟩
    · rw [nothing k]
      exact List.Pairwise.nil
    · rw [unsent] at mem
      cases mem
    · rw [unsent] at mem
      cases mem
  have idle : ∀ i, orderIdle i w := by
    intro i
    cases i with
    | call c =>
      intro k _ s mem
      rw [nothing k] at mem
      cases mem
    | observer => trivial
    | sweep tx => trivial
    | writer n => trivial
    | server n => trivial
  have safe : ∀ i p s, orderedFlow.job i p → orderProtocol.inv s → orderProtocol.idle i s →
      Safe orderedFlow orderProtocol i (orderPromise none i) p s := fun i p s may _ idle => safe_orderedJob may idle fun _ absurd => nomatch absurd
  have holds := Protocol.holds (orderPromise_lasts none) safe (reach.trans later) start idle
  refine ⟨holds.inv.increasing, fun c row waiting named absent returned => ?_⟩
  have outside : ∀ p, ¬ orderedFlow.job .observer p := fun p may => nomatch may
  -- from `a` on, the call is the one that is looked at
  have tracked : ∀ {d : Crew outboundStore OutboundName OutboundWorld}, orderedFlow.Reach a d → Tracked c.row d.state := by
    intro d until'
    have rely : orderRely .observer a.state d.state := Protocol.observed (orderPromise_lasts none) safe reach until' start idle outside
    exact rely c.row (.inr ⟨row, waiting, named⟩)
  have before : orderProtocol.Holds orderedFlow (orderPromise (some c)) a := by
    refine (Protocol.holds (orderPromise_lasts none) safe reach start idle).mono fun i mem r s known => ?_
    cases i with
    | call c' => exact ⟨known.1, fun same => (absent (Option.some.inj same ▸ mem)).elim⟩
    | observer => trivial
    | sweep tx => trivial
    | writer n => trivial
    | server n => trivial
  have after := before.run (orderPromise_lasts (some c)) (fun d i p until' may _ idle => safe_orderedJob may idle fun c' same => by
    rw [← Option.some.inj same]
    exact tracked until') later
  obtain ⟨-, delivered⟩ : orderPromise (some c) (.call c) (.ok ()) b.state := after.safe _ returned
  obtain ⟨-, -, -, -, -, once⟩ := delivered rfl rfl
  exact once

/-- The message after the invoice. -/
def reminder : OutboundRow := { invoice with id := "m2", seq := 2, textContent := some "Please pay" }

/-- A conversation with the invoice and the reminder. -/
def reminded : OutboundWorld := conversationOf [invoice, reminder] (by decide)

/-- A call for the reminder sends the invoice first. -/
theorem sends_in_order_reminder :
    ∃ b : Crew outboundStore OutboundName OutboundWorld, orderedFlow.Reach ⟨reminded, []⟩ b ∧
      (sendsIn "conv" b.state).map Sending.seq = [1, 2] ∧
      ((sendsIn "conv" b.state).Pairwise fun s s' => s.seq < s'.seq) ∧ (sendsOf "m2" b.state).length = 1 := by
  have succeeds : Succeeds (some accepting) := ⟨accepting, rfl, fun _ _ => ⟨_, rfl⟩⟩
  have spawned : orderedFlow.Reach ⟨reminded, []⟩ ⟨reminded, [] ++ (.call ⟨0, "m2"⟩, deliver ⟨0, "m2"⟩ (some accepting) "m2" false) :: []⟩ :=
    .single (.spawn (.deliver ⟨0, "m2"⟩ (some accepting) false trivial succeeds) List.not_mem_nil)
  have ended := spawned.trans (orderedFlow.reach_end [] [] (by decide +kernel))
  obtain ⟨increasing, once⟩ := sends_in_order rfl (by decide +kernel) (by decide +kernel) .refl ended
  refine ⟨_, ended, by decide +kernel, increasing "conv", ?_⟩
  refine once ⟨0, "m2"⟩ reminder ⟨by decide +kernel, by decide, by decide +kernel, rfl⟩ rfl List.not_mem_nil ?_
  have returned : ((deliver ⟨0, "m2"⟩ (some accepting) "m2" false).run outboundExec reminded).1 = .ok () := by decide +kernel
  exact List.mem_singleton.2 (congrArg (fun r => (OutboundName.call ⟨0, "m2"⟩, Program.ret r)) returned.symm)

end NovoApex.Outbound
