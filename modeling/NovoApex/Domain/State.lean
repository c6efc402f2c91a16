import NovoApex.Db.Schema

/-!
# The conversation state machine

`internal/domain/state.go`: the transition table and the compare-and-set writes
every worker goes through.
-/

namespace NovoApex.Domain
set_option autoImplicit false
open Lib

/-- `ValidTransitions`. ESCALATED is terminal. -/
def validTransitions : ConversationState → List ConversationState
  | .lead => [.browsing, .checkout, .support, .invoicing, .escalated]
  | .browsing => [.checkout, .support, .invoicing, .escalated]
  | .checkout => [.invoicing, .support, .escalated]
  | .invoicing => [.paid, .cancelled, .support, .escalated]
  | .paid => [.browsing, .support, .escalated]
  | .cancelled => [.browsing, .support, .escalated]
  | .support => [.browsing, .checkout, .invoicing, .lead, .escalated]
  | .escalated => []

/-- `ValidateTransition`. -/
def validateTransition (src dst : ConversationState) : Bool := decide (dst ∈ validTransitions src)

/-- `UPDATE conversations SET state = dst WHERE id = conversationID AND state = ANY(srcs)`, with
`RowsAffected() == 1`. -/
def compareAndSet (conversationID : String) (srcs : List ConversationState) (dst : ConversationState)
    (db : Database) : Bool × Database :=
  let sel : Conversation → Bool := fun c => decide (c.id = conversationID) && decide (c.state ∈ srcs)
  (decide (db.conversations.affected sel = 1),
    { db with conversations := db.conversations.update sel (fun c => { c with state := dst }) fun _ => rfl })

/-- `transition`, behind `Transition` and `TransitionTx`: false is a rejection, never an error. -/
def transition (conversationID : String) (src dst : ConversationState) (db : Database) : Bool × Database :=
  if validateTransition src dst then compareAndSet conversationID [src] dst db else (false, db)

/-- `TransitionToTx`: every pair has to be legal, the update admits whichever source holds. -/
def transitionToTx (conversationID : String) (srcs : List ConversationState) (dst : ConversationState)
    (db : Database) : Bool × Database :=
  if srcs.isEmpty then (false, db)
  else if srcs.all fun src => validateTransition src dst then compareAndSet conversationID srcs dst db
  else (false, db)

end NovoApex.Domain

namespace NovoApex
open Lib

/-- The state column of a conversation. -/
def Database.stateOf (db : Database) (conversationID : String) : Option ConversationState :=
  (db.conversations.find? conversationID).map Conversation.state

namespace Domain

variable {conversationID : String} {srcs : List ConversationState} {src dst : ConversationState} {db : Database}

/-- The update matches exactly when the conversation sits in one of the sources. -/
theorem compareAndSet_fst :
    (compareAndSet conversationID srcs dst db).1 = true ↔ ∃ s ∈ srcs, db.stateOf conversationID = some s := by
  unfold compareAndSet Database.stateOf
  simp only [Table.affected_keyed]
  cases db.conversations.find? conversationID with
  | none => simp
  | some c => by_cases hc : c.state ∈ srcs <;> simp [hc]

/-- What a compare-and-set leaves in the state column of every conversation. -/
theorem stateOf_compareAndSet (k : String) :
    (compareAndSet conversationID srcs dst db).2.stateOf k =
      if k = conversationID ∧ (compareAndSet conversationID srcs dst db).1 = true then some dst else db.stateOf k := by
  simp only [compareAndSet_fst]
  unfold compareAndSet Database.stateOf
  simp only [Table.find?_update, Option.map_map]
  by_cases hk : k = conversationID
  · subst hk
    cases hf : db.conversations.find? k with
    | none => simp
    | some c =>
      have hid : c.id = k := (Table.find?_eq_some.1 hf).2
      by_cases hc : c.state ∈ srcs <;> simp [Table.rewrite, hid, hc]
  · cases hf : db.conversations.find? k with
    | none => simp [hk]
    | some c =>
      have hid : c.id ≠ conversationID := fun h => hk ((Table.find?_eq_some.1 hf).2.symm.trans h)
      simp [Table.rewrite, hid, hk]

/-- Transitions write the conversations table only. -/
theorem compareAndSet_frame : ∃ cs, (compareAndSet conversationID srcs dst db).2 = { db with conversations := cs } :=
  ⟨_, rfl⟩

section

variable (conversationID) (src dst) (db)

theorem transition_cases : transition conversationID src dst db = (false, db) ∨
    validateTransition src dst = true ∧ transition conversationID src dst db = compareAndSet conversationID [src] dst db := by
  unfold transition
  split
  · exact .inr ⟨‹_›, rfl⟩
  · exact .inl rfl

theorem transition_frame : ∃ cs, (transition conversationID src dst db).2 = { db with conversations := cs } := by
  rcases transition_cases conversationID src dst db with h | ⟨-, h⟩
  · exact ⟨db.conversations, by rw [h]⟩
  · rw [h]; exact compareAndSet_frame

end

/-- A transition changes the state column of its conversation, from its source to its target along
an edge of the table, or nothing. -/
theorem stateOf_transition (k : String) :
    (transition conversationID src dst db).2.stateOf k =
      if k = conversationID ∧ validateTransition src dst = true ∧ db.stateOf conversationID = some src
      then some dst else db.stateOf k := by
  rcases hv : validateTransition src dst with _ | _
  · simp [transition, hv]
  · simp only [transition, hv, if_true]
    rw [stateOf_compareAndSet]
    simp only [compareAndSet_fst, List.mem_singleton, exists_eq_left, true_and]

end Domain

end NovoApex
