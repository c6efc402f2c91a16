import NovoApex.Handlers.Reply
import NovoApex.Lib.Nested
import NovoApex.Outbound.OwnReply

/-!
# What the vendor is told

A reply in flight among deliveries of other rows, from its request to its answer. Any
statement may fail; the answer is true of the row where the writes it rests on come
through: the record of the send, the clean-up and the reload, and either what precedes
the send or nobody else's send of the reply.
-/

namespace NovoApex.Outbound
set_option autoImplicit false
open Lib Program Db Workers Handlers

/-! ## Runs -/

/-- Who may start while the reply is handled. -/
inductive ReplyJob (q : ReplyRequest) : OutboundName → Program replyStore Unit → Prop where
  | deliver (c wa finalAttempt) (other : c.row ≠ q.call.row) :
      ReplyJob q (.call c) ((deliver c wa c.row finalAttempt).embed queueStatements)
  | loseConnection (n c) : ReplyJob q (.server n) ((call (I := outboundStore) (.loseConnection c)).embed queueStatements)

/-- When a statement proceeds. -/
def replyProceeds (w : ReplyWorld) : ReplyStmt → Prop
  | .outbound op => outboundProceeds w.outbound op
  | _ => True

instance (w : ReplyWorld) : DecidablePred (replyProceeds w)
  | .outbound op => inferInstanceAs (Decidable (outboundProceeds w.outbound op))
  | .getConversationWithBusiness .. | .deleteOutbound _ | .loadOutbound _ | .respond _ => isTrue trivial

/-- A statement may fail; what the vendor is told, it is told. -/
def replyFails : ReplyStmt → Prop
  | .outbound op => mayFail op
  | .respond _ => False
  | _ => True

instance : DecidablePred replyFails
  | .outbound op => inferInstanceAs (Decidable (mayFail op))
  | .respond _ => isFalse id
  | .getConversationWithBusiness .. | .deleteOutbound _ | .loadOutbound _ => isTrue trivial

/-- The runs of a reply. -/
def replyFlow (q : ReplyRequest) : Roster replyStore OutboundName ReplyWorld where
  exec := replyExec
  job := ReplyJob q
  allow := replyProceeds
  faults _ op := replyFails op
  loses _ op := replyFails op

/-- The reply as its delivery sees it. -/
def ReplyCase.of (q : ReplyRequest) (course : Course) : ReplyCase := ⟨q.call, q.conversationID, course⟩

/-- The statements that come through: those of the queue as on either course, the clean-up and the reload. -/
def toldFaults (q : ReplyCase) (w : ReplyWorld) : ReplyStmt → Prop
  | .outbound op => (replyCourse q).faults w.outbound op
  | .getConversationWithBusiness .. => True
  | _ => False

/-- A reply of the store that may be lost: not that of the insert, nor that of the reload. -/
def toldLoses (q : ReplyCase) (w : ReplyWorld) : ReplyStmt → Prop
  | .outbound (.insertOutbound _) => False
  | .outbound op => (replyCourse q).loses w.outbound op
  | .getConversationWithBusiness .. => True
  | .deleteOutbound _ => True
  | _ => False

/-- The runs in which the vendor is told what became of the reply. -/
def toldFlow (q : ReplyCase) : Roster replyStore OutboundName ReplyWorld where
  exec := replyExec
  job i p := ∃ p', BesideReply q i p' ∧ p = p'.embed queueStatements
  allow w op := match op with
    | .outbound op => (replyCourse q).allow w.outbound op
    | _ => True
  faults := toldFaults q
  loses := toldLoses q
  stops w op := match op with
    | .outbound op => (replyCourse q).stops w.outbound op
    | _ => True

/-- They are runs of the reply. -/
theorem toldFlow_within (q : ReplyRequest) (course : Course) : (toldFlow (.of q course)).Within (replyFlow q) where
  exec := rfl
  job i p job := by
    obtain ⟨p', job, rfl⟩ := job
    cases job with
    | deliver c wa finalAttempt other answers refused => exact .deliver c wa finalAttempt other
    | loseConnection n c => exact .loseConnection n c
  allow w op may := by
    cases op with
    | outbound op => exact may.1
    | getConversationWithBusiness id businessID => trivial
    | deleteOutbound id => trivial
    | loadOutbound id => trivial
    | respond response => trivial
  faults w op fails := by
    cases op with
    | outbound op => exact fails.1
    | getConversationWithBusiness id businessID => trivial
    | deleteOutbound id => trivial
    | loadOutbound id => trivial
    | respond response => exact fails.elim
  loses w op fails := by
    cases op with
    | outbound op =>
      cases op with
      | insertOutbound row => exact fails.elim
      | _ => exact fails.1
    | getConversationWithBusiness id businessID => trivial
    | deleteOutbound id => trivial
    | loadOutbound id => trivial
    | respond response => exact fails.elim
  stops _ _ _ := trivial

/-! ## The protocol -/

/-- What an answer says of the row. -/
def Tells (q : ReplyCase) : ReplyResponse → OutboundWorld → Prop
  | .created row, w => row.id = q.id ∧ row.status = .sent ∧ 1 ≤ acceptances q.id w
  | _, w => Undelivered q w ∧ ∀ row ∈ w.messages.rows, row.id ≠ q.id

/-- The reply is not written yet. -/
structure Unwritten (q : ReplyCase) (w : OutboundWorld) : Prop where
  absent : ∀ row ∈ w.messages.rows, row.id ≠ q.id
  refused : acceptances q.id w = 0
  unlisted : ∀ c, ¬ Lists q.id c w
  unconnected : w.connections.find? q.call = none

section Protocol

variable {q : ReplyCase} {w w' : OutboundWorld}

theorem Tells.relies {response : ReplyResponse} (h : Tells q response w) (rely : Own q w w') : Tells q response w' := by
  cases response with
  | created row => exact ⟨h.1, h.2.1, h.2.2.trans rely.grows⟩
  | invalid issue => exact ⟨h.1.relies rely, rely.absent h.2⟩
  | error response => exact ⟨h.1.relies rely, rely.absent h.2⟩

theorem Unwritten.quiet (h : Unwritten q w) : Quiet q w :=
  ⟨fun c _ => h.unlisted c, fun row mem named => absurd named (h.absent row mem)⟩

theorem Unwritten.relies (h : Unwritten q w) (rely : Own q w w') : Unwritten q w' := by
  obtain ⟨same, quiet⟩ := rely.quiet h.quiet
  refine ⟨rely.absent h.absent, same.trans h.refused, fun c => ?_, rely.connection.trans h.unconnected⟩
  by_cases own : c = q.call
  · subst own
    refine unlisted_of_backlog ?_
    rw [rely.backlog]
    unfold backlogOf openConnection
    rw [h.unconnected]
    rfl
  · exact quiet.1 c own

def answerProtocol (q : ReplyCase) : Protocol OutboundName ReplyWorld where
  inv w := OneReply q w.outbound ∧ ∀ response ∈ w.responses, Tells q response w.outbound
  rely i w w' := replyRely q i w.outbound w'.outbound ∧ (i = .call q.call → w'.responses = w.responses)
  refl i w := ⟨(replyProtocol q).refl i w.outbound, fun _ => rfl⟩
  trans i _ _ _ h h' := ⟨(replyProtocol q).trans i _ _ _ h.1 h'.1, fun own => (h'.2 own).trans (h.2 own)⟩
  idle i w := replyIdle q i w.outbound
  steady i _ _ rely idle := (replyProtocol q).steady i _ _ rely.1 idle

/-- Nothing is answered while the own handler has not answered. -/
def Unanswered (q : ReplyCase) (i : OutboundName) (w : ReplyWorld) : Prop := i = .call q.call → w.responses = []

/-- The statements of the queue, as part of a reply. -/
theorem nested_queue (i : OutboundName) :
    Protocol.Nested queueStatements ReplyWorld.outbound (replyCourse q) (replyProtocol q) (toldFlow q) (answerProtocol q) i (Unanswered q i) where
  reply _ _ := rfl
  effect _ _ := rfl
  fault _ := rfl
  allow _ _ may := may
  faults _ _ fails := fails
  loses op w fails := by
    cases op with
    | insertOutbound row => exact fails.elim
    | _ => exact fails
  stops _ _ stops := stops
  inv _ inv := inv.1
  rely _ _ rely := rely.1
  idle _ idle := idle
  lasting s t rely unanswered own := (rely.2 own).trans (unanswered own)
  keeps op t unanswered inv inv' others := by
    refine ⟨⟨inv', fun response mem => ?_⟩, fun j other => ⟨others j other, fun _ => rfl⟩, unanswered⟩
    by_cases own : i = .call q.call
    · have mem : response ∈ t.responses := mem
      rw [unanswered own] at mem
      cases mem
    · exact (inv.2 response mem).relies ((others _ (Ne.symm own)).2 rfl)

/-- Everything that runs beside the reply is safe. -/
theorem safe_beside {i : OutboundName} {p : Program replyStore Unit} {s : ReplyWorld} (job : (toldFlow q).job i p)
    (idle : (answerProtocol q).idle i s) : Safe (toldFlow q) (answerProtocol q) i (fun _ => (answerProtocol q).idle i) p s := by
  obtain ⟨p', job, rfl⟩ := job
  have aside : i ≠ .call q.call := by
    rintro rfl
    cases job with
    | deliver c wa finalAttempt other answers refused => exact other rfl
  refine (Safe.embed (nested_queue i) (fun own => absurd own aside) (job.safe idle)).mono fun r t after => ?_
  obtain ⟨-, r', -, idle⟩ := after
  exact idle

end Protocol

/-! ## The handler -/

section Handler

variable {q : ReplyCase} {s : ReplyWorld}

/-- The answer. -/
theorem safe_respond {response : ReplyResponse} (tells : ∀ t, Own q s.outbound t → OneReply q t → Tells q response t) :
    Safe (toldFlow q) (answerProtocol q) (.call q.call) (fun _ _ => True) (respond response) s := by
  refine Safe.call (fun t rely inv _ => ?_) (fun _ _ _ fails => fails.elim) fun _ _ _ _ other => absurd rfl other
  refine ⟨⟨inv.1, fun answer mem => ?_⟩, fun j other => ⟨(replyProtocol q).refl j _, fun own => absurd own other⟩, trivial, fun _ => trivial⟩
  rcases List.mem_append.1 mem with before | last
  · exact inv.2 answer before
  · rw [List.mem_singleton.1 last]
    exact tells t.outbound (rely.1.2 rfl) inv.1

/-- Rows are written and deleted behind the back of no call. -/
theorem rely_rows {w : OutboundWorld} {messages : Table OutboundRow.id} {j : OutboundName} (other : j ≠ .call q.call) :
    replyRely q j w { w with messages := messages } := by
  cases j with
  | call c => exact ⟨⟨Iff.rfl, fun _ => rfl, fun _ held _ => held, fun closed => closed⟩, fun own => absurd (own ▸ rfl) other⟩
  | sweep tx => trivial
  | writer n => trivial
  | server n => trivial
  | observer => trivial

/-- The row is written: it waits, and nobody has it. -/
theorem Unwritten.inserted {w w' : OutboundWorld} (row : OutboundRow) (unwritten : Unwritten q w) (inv : OneReply q w) (named : row.id = q.id)
    (inConversation : row.conversation = some q.conversation) (isPending : row.status = .pending) (business : row.businessID.isSome = true)
    (inserts : Db.insertOutbound row w = .ok w') : OneReply q w' ∧ Opening q q.conversation row.seq w' ∧ w'.connections.find? q.call = none := by
  obtain ⟨messages, inserted, rfl⟩ := insertOutbound_ok inserts
  obtain ⟨-, rows⟩ := Table.insert_eq_some.1 inserted
  have mem : ∀ r, r ∈ messages.rows ↔ r ∈ w.messages.rows ∨ r = row := by
    intro r
    rw [rows, List.mem_append, List.mem_singleton]
  refine ⟨⟨inv.holder, inv.nodup, inv.once, fun r present own => ?_⟩, ⟨rfl, ⟨row, (mem row).2 (.inr rfl), named, rfl, ?_, .inl isPending⟩,
    fun _ => unwritten.refused⟩, unwritten.unconnected⟩
  · rcases (mem r).1 present with before | rfl
    · exact absurd own (unwritten.absent r before)
    · exact ⟨inConversation, .pending isPending (.inl unwritten.refused)⟩
  · rw [joined_isSome]
    unfold Db.insertOutbound at inserts
    split at inserts
    · cases inserts
    · rename_i known
      obtain ⟨b, some'⟩ := Option.isSome_iff_exists.1 business
      rw [some'] at known ⊢
      rw [Option.bind_some]
      show (w.businesses.find? b).isSome = true
      cases found : w.businesses.find? b with
      | none =>
        refine absurd ?_ known
        simp [found]
      | some _ => rfl

/-- Deleting the row leaves the others as they are. -/
theorem Undelivered.deleted {w : OutboundWorld} (undelivered : Undelivered q w) (inv : OneReply q w) :
    OneReply q (deleteOutbound q.id w) ∧ Undelivered q (deleteOutbound q.id w) ∧ ∀ row ∈ (deleteOutbound q.id w).messages.rows, row.id ≠ q.id := by
  have mem : ∀ r, r ∈ (deleteOutbound q.id w).messages.rows ↔ r ∈ w.messages.rows ∧ r.id ≠ q.id := by
    intro r
    unfold deleteOutbound
    rw [Table.mem_delete, decide_eq_false_iff_not]
  refine ⟨⟨inv.holder, inv.nodup, inv.once, fun row present named => absurd named ((mem row).1 present).2⟩, ?_, fun row present => ((mem row).1 present).2⟩
  refine ⟨undelivered.1, undelivered.2.imp_right fun quiet => ⟨quiet.1, fun row present named => absurd named ((mem row).1 present).2⟩⟩

/-- What the own handler knows between its statements, of the queue. -/
def Knows (K : OutboundWorld → Prop) (s : ReplyWorld) : Prop := s.responses = [] ∧ K s.outbound

theorem Knows.relies {K : OutboundWorld → Prop} {t : ReplyWorld} (h : Knows K s) (rely : (answerProtocol q).rely (.call q.call) s t)
    (lasting : ∀ w w', Own q w w' → K w → K w') : Knows K t :=
  ⟨(rely.2 rfl).trans h.1, lasting _ _ (rely.1.2 rfl) h.2⟩

/-- The clean-up comes through; only its reply may be lost. -/
theorem safe_cleanup (known : Knows (Undelivered q) s) :
    Safe (toldFlow q) (answerProtocol q) (.call q.call)
      (fun _ => Knows fun w => Undelivered q w ∧ ∀ row ∈ w.messages.rows, row.id ≠ q.id)
      (call (I := replyStore) (.deleteOutbound q.id)) s := by
  refine Safe.call (fun t rely inv _ => ?_) (fun _ _ _ fails => fails.elim) fun _ _ _ _ other => absurd rfl other
  have known := known.relies rely fun _ _ own undelivered => undelivered.relies own
  obtain ⟨inv', after⟩ := known.2.deleted inv.1
  refine ⟨⟨inv', fun response mem => ?_⟩, fun j other => ⟨rely_rows other, fun own => absurd own other⟩, ⟨known.1, after⟩, fun _ => ⟨known.1, after⟩⟩
  have mem : response ∈ t.responses := mem
  rw [known.1] at mem
  cases mem

/-- The row is reloaded: it is sent. -/
theorem safe_reload (known : Knows (Outcome q (.ok ())) s) :
    Safe (toldFlow q) (answerProtocol q) (.call q.call)
      (Replied (fun row t => Knows (Tells q (.created row)) t) fun _ => False) (call (I := replyStore) (.loadOutbound q.id)) s := by
  refine Safe.call (fun t rely inv _ => ?_) (fun _ _ _ fails => fails.elim) fun _ _ _ _ other => absurd rfl other
  have known := known.relies rely fun _ _ own outcome => outcome.relies own
  obtain ⟨unanswered, row, mem, named, isSent⟩ := known
  have found : t.outbound.messages.find? q.id = some row := Table.find?_eq_some.2 ⟨mem, named⟩
  have one : acceptances q.id t.outbound = 1 := by
    cases (inv.1.placed row mem named).2 with
    | pending isPending _ =>
      rw [isSent] at isPending
      cases isPending
    | sent _ accepted => exact accepted
    | failed isFailed _ _ =>
      rw [isSent] at isFailed
      cases isFailed
  have executed : (toldFlow q).exec (.loadOutbound q.id) t = (.ok row, t) := by
    show replyExec (.loadOutbound q.id) t = _
    simp only [replyExec]
    rw [found]
  rw [executed]
  exact ⟨inv, fun j _ => (answerProtocol q).refl j t, ⟨unanswered, named, isSent, one.ge⟩, fun fails => fails.elim⟩

theorem safe_tells {response : ReplyResponse} {K : OutboundWorld → Prop} (known : Knows K s) (lasting : ∀ w w', Own q w w' → K w → K w')
    (tells : ∀ w, K w → Tells q response w) :
    Safe (toldFlow q) (answerProtocol q) (.call q.call) (fun _ _ => True) (respond response) s :=
  safe_respond fun t own _ => tells t (lasting _ _ own known.2)

/-- The row is written: deliver it and answer. -/
theorem safe_deliverReply {q : ReplyRequest} {course : Course} {wa : Option Sender} {seq : Int} {s : ReplyWorld} (answers : AnswersFor q.call.row wa)
    (known : Knows
      (fun w => Opening (.of q course) q.conversationID seq w ∧ w.connections.find? q.call = none) s) :
    Safe (toldFlow (.of q course)) (answerProtocol (.of q course)) (.call q.call) (fun _ _ => True) (deliverReply q wa) s := by
  have delivers : Safe (toldFlow (.of q course)) (answerProtocol (.of q course)) (.call q.call)
      (fun r t => Knows (Outcome (.of q course) r) t) ((deliver q.call wa q.call.row true).embed queueStatements) s := by
    refine (Safe.embed (nested_queue (q := .of q course) (.call q.call)) (fun _ => known.1)
      (known.2.1.safe_deliver known.2.2 answers)).mono fun r t after => ?_
    obtain ⟨unanswered, r', rfl, outcome⟩ := after
    refine ⟨unanswered rfl, ?_⟩
    cases r' <;> exact outcome
  unfold deliverReply
  refine Safe.bind (Safe.attempt (delivers.mono fun r t known => ?_))
  cases r with
  | error e =>
    refine Safe.bind (Safe.bind (Safe.attempt ((safe_cleanup known).mono fun _ u known => ?_)))
    refine safe_tells known (fun w w' own deleted => ?_) fun w deleted => deleted
    exact ⟨deleted.1.relies own, own.absent deleted.2⟩
  | ok _ =>
    refine Safe.bind (Safe.attempt ((safe_reload known).mono fun loaded u known => ?_))
    cases loaded with
    | error e => exact known.elim
    | ok row => exact safe_tells known (fun _ _ own tells => tells.relies own) fun _ tells => tells

section Request

variable {q : ReplyRequest} {course : Course}

/-- A reply that is not written can be refused. -/
theorem safe_refuses {response : ReplyResponse} (apart : ∀ row, response ≠ .created row) (known : Knows (Unwritten (.of q course)) s) :
    Safe (toldFlow (.of q course)) (answerProtocol (.of q course)) (.call q.call) (fun _ _ => True) (respond response) s := by
  refine safe_tells known (fun _ _ own unwritten => unwritten.relies own) fun w unwritten => ?_
  have undelivered : Undelivered (.of q course) w := ⟨unwritten.refused, .inr unwritten.quiet⟩
  cases response with
  | invalid issue => exact ⟨undelivered, unwritten.absent⟩
  | error response => exact ⟨undelivered, unwritten.absent⟩
  | created row => exact absurd rfl (apart row)

theorem safe_finds (known : Knows (Unwritten (.of q course)) s) :
    Safe (toldFlow (.of q course)) (answerProtocol (.of q course)) (.call q.call)
      (fun r t => Knows (Unwritten (.of q course)) t ∧ ∀ conv, r = .ok (some conv) → conv.id = q.conversationID)
      (call (I := replyStore) (.getConversationWithBusiness q.conversationID q.businessID)) s := by
  have lasting : ∀ t, (answerProtocol (.of q course)).rely (.call q.call) s t → Knows (Unwritten (.of q course)) t :=
    fun t rely => known.relies rely fun _ _ own unwritten => unwritten.relies own
  refine Safe.call (fun t rely inv _ => ?_) (fun t rely _ _ => ⟨lasting t rely, fun conv reads => by cases reads⟩)
    fun _ _ _ _ other => absurd rfl other
  refine ⟨inv, fun j _ => (answerProtocol (.of q course)).refl j t, ⟨lasting t rely, fun conv reads => ?_⟩,
    fun _ => ⟨lasting t rely, fun conv reads => by cases reads⟩⟩
  obtain ⟨found, -⟩ := Option.filter_eq_some_iff.1 (Except.ok.inj reads)
  exact (Table.find?_eq_some.1 found).2

theorem safe_inserts (text : String) {conv : Conversation} (own : conv.id = q.conversationID) (known : Knows (Unwritten (.of q course)) s) :
    Safe (toldFlow (.of q course)) (answerProtocol (.of q course)) (.call q.call)
      (Replied (fun _ => Knows fun w => Opening (.of q course) q.conversationID q.seq w ∧ w.connections.find? q.call = none)
        (Knows (Unwritten (.of q course))))
      (call (I := replyStore) (.outbound (.insertOutbound (replyRow q text conv)))) s := by
  have lasting : ∀ t, (answerProtocol (.of q course)).rely (.call q.call) s t → Knows (Unwritten (.of q course)) t :=
    fun t rely => known.relies rely fun _ _ own unwritten => unwritten.relies own
  refine Safe.call (fun t rely inv _ => ?_) (fun t rely _ _ => lasting t rely) fun _ _ _ _ other => absurd rfl other
  obtain ⟨unanswered, unwritten⟩ := lasting t rely
  cases inserts : Db.insertOutbound (replyRow q text conv) t.outbound with
  | error e =>
    have executed : (toldFlow (.of q course)).exec (.outbound (.insertOutbound (replyRow q text conv))) t = (.error e, t) := by
      show replyExec (.outbound (.insertOutbound (replyRow q text conv))) t = _
      simp only [replyExec, outboundExec, inserts]
    rw [executed]
    exact ⟨inv, fun j _ => (answerProtocol (.of q course)).refl j t, ⟨unanswered, unwritten⟩, fun fails => fails.elim⟩
  | ok w =>
    have executed : (toldFlow (.of q course)).exec (.outbound (.insertOutbound (replyRow q text conv))) t =
        (.ok (), { t with outbound := w }) := by
      show replyExec (.outbound (.insertOutbound (replyRow q text conv))) t = _
      simp only [replyExec, outboundExec, inserts]
    rw [executed]
    obtain ⟨inv', opening, unconnected⟩ := unwritten.inserted (replyRow q text conv) inv.1 rfl (congrArg some own) rfl rfl inserts
    refine ⟨⟨inv', fun response mem => ?_⟩, fun j other => ⟨?_, fun same => absurd same other⟩, ⟨unanswered, opening, unconnected⟩, fun fails => fails.elim⟩
    · have mem : response ∈ t.responses := mem
      rw [unanswered] at mem
      cases mem
    · obtain ⟨messages, -, rfl⟩ := insertOutbound_ok inserts
      exact rely_rows other

/-- The handler of a reply that is not written yet. -/
theorem safe_conversationReply {wa : Option Sender} (answers : AnswersFor q.call.row wa) (known : Knows (Unwritten (.of q course)) s) :
    Safe (toldFlow (.of q course)) (answerProtocol (.of q course)) (.call q.call) (fun _ _ => True) (conversationReply q wa) s := by
  unfold conversationReply
  cases q.text with
  | none => exact safe_refuses (fun row same => by cases same) known
  | some text =>
    simp only
    split
    · exact safe_refuses (fun row same => by cases same) known
    · refine Safe.bind (Safe.attempt ((safe_finds known).mono fun found t known => ?_))
      match found, known with
      | .error e, known => exact safe_refuses (fun row same => by cases same) known.1
      | .ok none, known => exact safe_refuses (fun row same => by cases same) known.1
      | .ok (some conv), known =>
        refine Safe.bind (Safe.attempt ((safe_inserts text (known.2 conv rfl) known.1).mono fun inserted u known => ?_))
        cases inserted with
        | error e => exact safe_refuses (fun row same => by cases same) known
        | ok _ => exact safe_deliverReply answers known

end Request

end Handler

/-! ## Answers -/

/-- An answer that is true: after an error nothing was sent and no row is left; the row that is shown is sent, once. -/
def TrueOf (id : String) (w : OutboundWorld) : ReplyResponse → Prop
  | .created row => row.id = id ∧ row.status = .sent ∧ acceptances id w = 1
  | _ => acceptances id w = 0 ∧ ∀ row ∈ w.messages.rows, row.id ≠ id

instance (id : String) (w : OutboundWorld) : DecidablePred (TrueOf id w)
  | .created _ => inferInstanceAs (Decidable (_ ∧ _ ∧ _))
  | .invalid _ | .error _ => inferInstanceAs (Decidable (_ ∧ _))

/-- The vendor is told what became of the reply. -/
def Truthful (q : ReplyRequest) (w : ReplyWorld) : Prop := ∀ response ∈ w.responses, TrueOf q.call.row w.outbound response

instance (q : ReplyRequest) (w : ReplyWorld) : Decidable (Truthful q w) := inferInstanceAs (Decidable (∀ response ∈ _, _))

theorem Tells.trueOf {q : ReplyCase} {response : ReplyResponse} {w : OutboundWorld} (tells : Tells q response w) (inv : OneReply q w) :
    TrueOf q.id w response := by
  cases response with
  | created row => exact ⟨tells.1, tells.2.1, inv.once.antisymm tells.2.2⟩
  | invalid issue => exact ⟨tells.1.1, tells.2⟩
  | error response => exact ⟨tells.1.1, tells.2⟩

/-- In every run in which these writes come through, the vendor is told what became of the reply, at every time from the
answer on. The row's id is new, and the deliveries in flight began after the start of the run. -/
theorem conversationReply_truthful {q : ReplyRequest} {course : Course} {wa : Option Sender} {w : ReplyWorld} (answers : AnswersFor q.call.row wa)
    (closed : ∀ c, backlogOf c w.outbound = none) (unconnected : w.outbound.connections.find? q.call = none)
    (absent : ∀ row ∈ w.outbound.messages.rows, row.id ≠ q.call.row) (unsent : acceptances q.call.row w.outbound = 0)
    (unanswered : w.responses = []) {c : Crew replyStore OutboundName ReplyWorld}
    (reach : (toldFlow (.of q course)).Reach ⟨w, [(.call q.call, conversationReply q wa)]⟩ c) : Truthful q c.state := by
  have unlisted : ∀ c, ¬ Lists q.call.row c w.outbound := fun c => unlisted_of_backlog (by rw [closed c]; rfl)
  have inv : OneReply (.of q course) w.outbound := by
    refine ⟨fun c listed => absurd listed (unlisted c), fun c ids read => ?_, unsent.le.trans (Nat.zero_le 1), fun row mem named => ?_⟩
    · rw [closed c] at read
      cases read
    · exact absurd named (absent row mem)
  have known : Knows (Unwritten (.of q course)) w := ⟨unanswered, absent, unsent, unlisted, unconnected⟩
  have first : (answerProtocol (.of q course)).Holds (toldFlow (.of q course)) (fun i _ => (answerProtocol (.of q course)).idle i)
      ⟨w, [(.call q.call, conversationReply q wa)]⟩ := by
    refine ⟨⟨inv, fun response mem => ?_⟩, List.nodup_singleton _, fun thread mem => ?_, fun i absent => ?_⟩
    · rw [unanswered] at mem
      cases mem
    · rw [List.mem_singleton.1 mem]
      exact (safe_conversationReply answers known).mono fun _ _ _ other => absurd rfl other
    · cases i with
      | call c => exact fun _ listed => absurd listed (unlisted c)
      | sweep tx => trivial
      | writer n => trivial
      | server n => trivial
      | observer => trivial
  have last := first.run Protocol.promise_idle (fun _ _ _ _ job _ idle => safe_beside job idle) reach
  intro response mem
  exact (last.inv.2 response mem).trueOf last.inv.1

/-! ## A reply -/

/-- A vendor answers a customer. -/
def onItsWay : ReplyRequest := ⟨"biz", "conv", some "On its way", ⟨1, "r1"⟩, 1, 0⟩

/-- The conversation, without messages. -/
def vendorDesk : ReplyWorld where
  outbound := conversationOf [] List.nodup_nil
  conversations := ⟨[⟨"conv", "biz", "0240000000", .paid, false⟩], List.nodup_singleton _⟩
  responses := []

/-- The handler. -/
def onItsWayHandler : Program replyStore Unit := conversationReply onItsWay (some accepting)

instance (q : ReplyCase) (w : ReplyWorld) : (op : ReplyStmt) → Decidable ((toldFlow q).allow w op)
  | .outbound op => inferInstanceAs (Decidable (outboundProceeds w.outbound op ∧ keepsReply q w.outbound op))
  | .getConversationWithBusiness .. | .deleteOutbound _ | .loadOutbound _ | .respond _ => isTrue trivial

/-- Undisturbed, the vendor is shown the row as it was sent. -/
theorem reply_is_told : ∃ c : Crew replyStore OutboundName ReplyWorld,
    (toldFlow (.of onItsWay .steady)).Reach ⟨vendorDesk, [(.call onItsWay.call, onItsWayHandler)]⟩ c ∧
      c.state.responses.length = 1 ∧ Truthful onItsWay c.state := by
  have answers : AnswersFor onItsWay.call.row (some accepting) := by
    rintro sender same m request -
    cases same
    exact ⟨fun _ => ⟨_, rfl⟩, fun _ => rfl⟩
  have ends := (toldFlow (.of onItsWay .steady)).reach_end [] [] (i := .call onItsWay.call) (p := onItsWayHandler) (s := vendorDesk)
    (by decide +kernel)
  exact ⟨_, ends, by decide +kernel, conversationReply_truthful answers (fun _ => rfl) rfl (fun row mem => by cases mem) rfl rfl ends⟩

instance (q : ReplyRequest) (w : ReplyWorld) (op : ReplyStmt) : Decidable ((replyFlow q).allow w op) :=
  inferInstanceAs (Decidable (replyProceeds w op))

instance (q : ReplyRequest) (w : ReplyWorld) (op : ReplyStmt) : Decidable ((replyFlow q).faults w op) :=
  inferInstanceAs (Decidable (replyFails op))

/-- When the write after the send fails, the vendor is shown a row that waits to be sent. -/
theorem unrecorded_reply_is_created : ¬ ∀ c : Crew replyStore OutboundName ReplyWorld,
    (replyFlow onItsWay).Reach ⟨vendorDesk, [(.call onItsWay.call, onItsWayHandler)]⟩ c → Truthful onItsWay c.state := by
  intro truthful
  have sent := (replyFlow onItsWay).reach_steps 7 [] [] (i := .call onItsWay.call) (p := onItsWayHandler) (s := vendorDesk)
    (by decide +kernel)
  have failed := sent.trans ((replyFlow onItsWay).reach_fail [] [] (by decide +kernel))
  have ended := failed.trans ((replyFlow onItsWay).reach_steps 20 [] [] (by decide +kernel))
  exact absurd (truthful _ ended) (by decide +kernel)

end NovoApex.Outbound
