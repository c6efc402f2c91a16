import NovoApex.Lib.Crew
import NovoApex.Workers.Debounce

/-!
# Every message has a run that began after it

A webhook stores its message and asks for a run under the fixed id; while a run under that
id is active, the queue drops the request. The run makes up for it: it counts the
messages once more after its turn and asks again, under a fresh id, when there are more.
Two windows stay open: between that count and the return of the handler, and the whole
turn of a run that fails, which is discarded without a count. A message that is asked for
in them, with no other run to come, waits for the next message. `messages_answered` covers
the runs in which that does not happen.
-/

namespace NovoApex.Turns
set_option autoImplicit false
open Lib Program Workers

/-- Something under the id is still to begin a turn, or to count again, or to ask again. -/
def underway : RunTask → Bool
  | .free => false
  | .scheduled => true
  | .active (.counted newer) => newer
  | .active _ => true

section

variable (pair : Workers.OrchestratorJob)

/-- What may start: the webhook job of a message of the pair, and the run of a task, which may fail. -/
inductive DebounceJob : DebounceName → Program (debounceStore.signed DebounceName) Unit → Prop where
  | webhook (n : Nat) (job : WebhookJob) (isRetry : Bool) (a : WebhookAttempt)
      (ofPair : ∀ message, decodeMessage job.payload = some message → (inboundRow message a.rowID a.now).run = pair) :
      DebounceJob (.webhook n) ((handleWebhookJob debounceDeps job isRetry a).signed (.webhook n))
  | run (taskID : String) (fails : Bool) (millis : Nat) :
      DebounceJob (.run taskID) ((orchestratorRun taskID pair fails millis).signed (.run taskID))

/-- The runs in which every call of the database and the queue succeeds. -/
def debounceFlow : Roster (debounceStore.signed DebounceName) DebounceName DebounceWorld where
  exec := debounceExec pair
  job := DebounceJob pair
  allow _ _ := True
  faults _ _ := False
  loses _ _ := False
  stops _ _ := False

/-- The steps that leave no message behind: a request is not dropped on an active run whose last count found nothing new, a
re-enqueue is not dropped on an active run and a run that failed does not end, as long as messages wait that no other run is to
come for. -/
def answers : DebounceWorld → DebounceName × DebounceStmt → Prop
  | w, (_, .publish taskID) => w.tasks taskID = .active (.counted false) →
    (messagesOf pair w).length ≤ w.begun ∨ ∃ id, underway (w.tasks id) = true
  | w, (i, .reenqueue taskID) => (∃ phase, w.tasks taskID = .active phase) →
    w.asked ≤ w.begun ∨ ∃ id, i ≠ .run id ∧ underway (w.tasks id) = true
  | w, (i, .finish taskID) => (∃ mark, w.tasks taskID = .active (.begun mark)) →
    w.asked ≤ w.begun ∨ ∃ id, i ≠ .run id ∧ underway (w.tasks id) = true
  | _, _ => True

/-- The runs whose steps are all of that kind. -/
def debounceCareful : Roster (debounceStore.signed DebounceName) DebounceName DebounceWorld :=
  { debounceFlow pair with allow := answers pair }

/-- Nothing is in flight and no task is left. -/
def AtRest (c : Crew (debounceStore.signed DebounceName) DebounceName DebounceWorld) : Prop :=
  c.threads = [] ∧ ∀ id, c.state.tasks id = .free

/-- When all is settled, the last run began its turn after the last message was committed. -/
def Answered (c : Crew (debounceStore.signed DebounceName) DebounceName DebounceWorld) : Prop :=
  AtRest c → (messagesOf pair c.state).length ≤ c.state.begun

/-- What a run has counted was there, and was there when a run last began its turn. -/
def Counted (w : DebounceWorld) : RunPhase → Prop
  | .marked mark => mark ≤ (messagesOf pair w).length
  | .begun mark => mark ≤ w.begun
  | _ => True

/-- As long as messages were asked for that no run has begun after, a run is underway; a message not asked for yet is owed by its
webhook. -/
structure DebounceInv (w : DebounceWorld) : Prop where
  asked : w.asked ≤ (messagesOf pair w).length
  begun : w.begun ≤ (messagesOf pair w).length
  counts : ∀ id phase, w.tasks id = .active phase → Counted pair w phase
  pending : w.begun < w.asked → ∃ id, underway (w.tasks id) = true
  owed : ∀ k, k < (messagesOf pair w).length → k < w.asked ∨ ∃ i, w.owing i = some k

/-- Nobody else owes in a party's name or touches the task that it runs. -/
structure DebounceRely (i : DebounceName) (w w' : DebounceWorld) : Prop where
  owing : w'.owing i = w.owing i
  own : ∀ id, i = .run id → ∀ phase, w'.tasks id = .active phase ↔ w.tasks id = .active phase

/-- A party that is not there owes nothing and runs nothing. -/
structure DebounceIdle (i : DebounceName) (w : DebounceWorld) : Prop where
  owing : w.owing i = none
  own : ∀ id, i = .run id → ∀ phase, w.tasks id ≠ .active phase

theorem DebounceIdle.steady {i : DebounceName} {w w' : DebounceWorld} (idle : DebounceIdle i w) (rely : DebounceRely i w w') :
    DebounceIdle i w' :=
  ⟨rely.owing.trans idle.owing, fun id own phase active => idle.own id own phase ((rely.own id own phase).1 active)⟩

def debounceProtocol : Protocol DebounceName DebounceWorld where
  inv := DebounceInv pair
  rely := DebounceRely
  refl _ _ := ⟨rfl, fun _ _ _ => Iff.rfl⟩
  trans _ _ _ _ first second :=
    ⟨second.owing.trans first.owing, fun id own phase => (second.own id own phase).trans (first.own id own phase)⟩
  idle := DebounceIdle
  steady _ _ _ rely idle := idle.steady rely

end

section Statements

variable {pair : Workers.OrchestratorJob} {i : DebounceName} {w : DebounceWorld} {tasks : String → RunTask} {taskID : String}

/-! ## Tasks -/

/-- What is pending stays so when an id that is not pending changes, or one becomes pending. -/
theorem underway_update {task : RunTask} (keeps : underway task = true ∨ underway (tasks taskID) = false)
    (h : ∃ id, underway (tasks id) = true) : ∃ id, underway (Function.update tasks taskID task id) = true := by
  obtain ⟨id, waits⟩ := h
  by_cases same : id = taskID
  · subst same
    rcases keeps with now | before
    · exact ⟨id, by rw [Function.update_self]; exact now⟩
    · rw [before] at waits
      cases waits
  · exact ⟨id, by rw [Function.update_of_ne same]; exact waits⟩

theorem schedule_active {id : String} {phase : RunPhase} : schedule taskID tasks id = .active phase ↔ tasks id = .active phase := by
  unfold schedule
  split
  · rename_i free
    by_cases same : id = taskID
    · subst same
      rw [Function.update_self, free]
      constructor <;> intro absurd_ <;> cases absurd_
    · rw [Function.update_of_ne same]
  · exact Iff.rfl

/-- After a request there is something under its id. -/
theorem schedule_self : schedule taskID tasks taskID ≠ .free := by
  unfold schedule
  split
  · rw [Function.update_self]
    exact fun absurd_ => by cases absurd_
  · assumption

theorem underway_schedule (h : ∃ id, underway (tasks id) = true) : ∃ id, underway (schedule taskID tasks id) = true := by
  unfold schedule
  split
  · exact underway_update (.inl rfl) h
  · exact h

theorem advance_run {next : RunPhase → RunPhase} {phase : RunPhase} (active : tasks taskID = .active phase) :
    advance (.run taskID) next tasks = Function.update tasks taskID (.active (next phase)) := by
  unfold advance
  simp only [active]

/-- A run that goes on leaves the other parties alone. -/
theorem rely_update {j : DebounceName} {task : RunTask} (other : j ≠ .run taskID) :
    ∀ id, j = .run id → ∀ phase, Function.update w.tasks taskID task id = .active phase ↔ w.tasks id = .active phase := by
  rintro id rfl phase
  have ne : id ≠ taskID := fun same => other (same ▸ rfl)
  rw [Function.update_of_ne ne]

/-- Tasks change: what is active was so before, or has counted right. -/
theorem DebounceInv.retask (inv : DebounceInv pair w) {next : String → RunTask}
    (counts : ∀ id phase, next id = .active phase → w.tasks id = .active phase ∨ Counted pair w phase)
    (pending : w.begun < w.asked → ∃ id, underway (next id) = true) : DebounceInv pair { w with tasks := next } := by
  refine ⟨inv.asked, inv.begun, fun id phase h => ?_, pending, inv.owed⟩
  rcases counts id phase h with before | counted
  · exact inv.counts id phase before
  · exact counted

/-- An active task is the one that changed, or was active before. -/
theorem update_active {id : String} {next : RunTask} {phase : RunPhase} (h : Function.update tasks taskID next id = .active phase) :
    next = .active phase ∨ tasks id = .active phase := by
  by_cases same : id = taskID
  · subst same
    exact .inl ((Function.update_self id next tasks).symm.trans h)
  · exact .inr ((Function.update_of_ne same _ _).symm.trans h)

/-! ## The webhook -/

theorem messagesOf_insert {row : InboundMessage} {inbound : Table InboundMessage.whatsappMessageID}
    (inserted : w.inbound.insert row = some inbound) (ofPair : row.run = pair) :
    messagesOf pair { w with inbound := inbound, owing := Function.update w.owing i (some (messagesOf pair w).length) } =
      messagesOf pair w ++ [row] := by
  unfold messagesOf
  rw [(Table.insert_eq_some.1 inserted).2, List.filter_append]
  simp [ofPair]

/-- A new message is owed by its webhook. -/
theorem DebounceInv.persist (inv : DebounceInv pair w) {row : InboundMessage} {inbound : Table InboundMessage.whatsappMessageID}
    (inserted : w.inbound.insert row = some inbound) (ofPair : row.run = pair) (free : w.owing i = none) :
    DebounceInv pair { w with inbound := inbound, owing := Function.update w.owing i (some (messagesOf pair w).length) } := by
  have grown := messagesOf_insert (i := i) inserted ofPair
  refine ⟨?_, ?_, fun id phase h => ?_, inv.pending, fun k bound => ?_⟩
  · rw [grown, List.length_append]
    exact le_trans inv.asked (Nat.le_add_right _ _)
  · rw [grown, List.length_append]
    exact le_trans inv.begun (Nat.le_add_right _ _)
  · have before := inv.counts id phase h
    cases phase with
    | marked mark =>
      show mark ≤ _
      rw [grown, List.length_append]
      exact le_trans before (Nat.le_add_right _ _)
    | _ => exact before
  · rw [grown, List.length_append, List.length_singleton] at bound
    by_cases new : k = (messagesOf pair w).length
    · exact .inr ⟨i, by rw [new]; exact Function.update_self ..⟩
    · rcases inv.owed k (by omega) with asked | ⟨j, owes⟩
      · exact .inl asked
      · refine .inr ⟨j, ?_⟩
        have other : j ≠ i := by
          rintro rfl
          rw [free] at owes
          cases owes
        rw [← owes]
        exact Function.update_of_ne other _ _

/-- A request: afterwards something is pending, or every message has a run that began after it. -/
theorem DebounceInv.publish (inv : DebounceInv pair w) (may : answers pair w (i, .publish taskID)) :
    DebounceInv pair { w with
      tasks := schedule taskID w.tasks
      asked := (messagesOf pair w).length
      owing := Function.update w.owing i none } := by
  refine ⟨le_refl _, inv.begun, fun id phase h => inv.counts id phase (schedule_active.1 h), fun behind => ?_,
    fun k bound => .inl bound⟩
  show ∃ id, underway (schedule taskID w.tasks id) = true
  cases here : schedule taskID w.tasks taskID with
  | free => exact absurd here schedule_self
  | scheduled => exact ⟨taskID, by rw [here]; rfl⟩
  | active phase =>
    by_cases done : phase = .counted false
    · subst done
      rcases may (schedule_active.1 here) with all | waits
      · exact absurd behind (by simpa using all)
      · exact underway_schedule waits
    · refine ⟨taskID, ?_⟩
      rw [here]
      cases phase with
      | counted newer =>
        cases newer with
        | true => rfl
        | false => exact absurd rfl done
      | _ => rfl

/-! ## The run -/

/-- A run is in the phase and owes nothing. -/
structure Running (taskID : String) (phase : RunPhase) (w : DebounceWorld) : Prop where
  task : w.tasks taskID = .active phase
  owing : w.owing (.run taskID) = none

theorem Running.steady {phase : RunPhase} {w' : DebounceWorld} (own : Running taskID phase w) (rely : DebounceRely (.run taskID) w w') :
    Running taskID phase w' := ⟨(rely.own taskID rfl phase).2 own.task, rely.owing.trans own.owing⟩

/-- The count before the turn. -/
theorem DebounceInv.mark (inv : DebounceInv pair w) :
    DebounceInv pair { w with tasks := Function.update w.tasks taskID (.active (.marked (messagesOf pair w).length)) } := by
  refine inv.retask (fun id phase h => (update_active h).symm.imp_right fun now => ?_) fun behind =>
    underway_update (.inl rfl) (inv.pending behind)
  cases now
  exact le_refl _

/-- The turn begins: it sees every message there is. -/
theorem DebounceInv.turn (inv : DebounceInv pair w) {mark : Nat} (own : w.tasks taskID = .active (.marked mark)) :
    DebounceInv pair { w with
      tasks := Function.update w.tasks taskID (.active (.begun mark))
      begun := (messagesOf pair w).length } := by
  refine ⟨inv.asked, le_refl _, fun id phase h => ?_, fun behind => absurd inv.asked (Nat.not_le.2 behind), inv.owed⟩
  rcases update_active h with now | before
  · cases now
    exact inv.counts taskID _ own
  · have counted := inv.counts id phase before
    cases phase with
    | begun mark' => exact le_trans counted inv.begun
    | _ => exact counted

/-- The count after the turn: if a message was asked for since, the count finds it. -/
theorem DebounceInv.recheck (inv : DebounceInv pair w) {mark : Nat} (own : w.tasks taskID = .active (.begun mark)) :
    DebounceInv pair { w with
      tasks := Function.update w.tasks taskID (.active (.counted (decide (mark < (messagesOf pair w).length)))) } := by
  refine inv.retask (fun id phase h => (update_active h).symm.imp_right fun now => ?_) fun behind => ⟨taskID, ?_⟩
  · cases now
    trivial
  · have begun : mark ≤ w.begun := inv.counts taskID _ own
    have found : mark < (messagesOf pair w).length := lt_of_le_of_lt begun (lt_of_lt_of_le behind inv.asked)
    rw [Function.update_self, decide_eq_true found]
    rfl

/-- The request for another run, after which the run has nothing left to do. -/
theorem DebounceInv.reenqueue (inv : DebounceInv pair w) {newer : Bool} {fresh : String}
    (own : w.tasks taskID = .active (.counted newer)) (may : answers pair w (.run taskID, .reenqueue fresh)) :
    DebounceInv pair { w with tasks := schedule fresh (Function.update w.tasks taskID (.active (.counted false))) } := by
  refine inv.retask (fun id phase h => (update_active (schedule_active.1 h)).symm.imp_right fun now => ?_) fun behind => ?_
  · cases now
    trivial
  · by_cases active : ∃ phase, w.tasks fresh = .active phase
    · rcases may active with all | ⟨id, other, waits⟩
      · exact absurd behind (Nat.not_lt.2 all)
      · have ne : id ≠ taskID := fun same => other (same ▸ rfl)
        exact underway_schedule ⟨id, by rw [Function.update_of_ne ne]; exact waits⟩
    · have ne : fresh ≠ taskID := by
        rintro rfl
        exact active ⟨_, own⟩
      refine ⟨fresh, ?_⟩
      unfold schedule
      rw [Function.update_of_ne ne]
      cases before : w.tasks fresh with
      | free =>
        rw [if_pos rfl, Function.update_self]
        rfl
      | scheduled =>
        rw [if_neg (fun absurd_ => by cases absurd_), Function.update_of_ne ne, before]
        rfl
      | active phase => exact absurd ⟨phase, before⟩ active

/-- The run has nothing left to do, or it failed. -/
def Through : RunPhase → Prop
  | .counted newer => newer = false
  | .begun _ => True
  | _ => False

/-- The run returns its id. -/
theorem DebounceInv.finish (inv : DebounceInv pair w) {phase : RunPhase} (own : w.tasks taskID = .active phase)
    (through : Through phase) (may : answers pair w (.run taskID, .finish taskID)) :
    DebounceInv pair { w with tasks := Function.update w.tasks taskID .free } := by
  refine inv.retask (fun id phase h => (update_active h).symm.imp_right fun absurd_ => by cases absurd_) fun behind => ?_
  cases phase with
  | begun mark =>
    rcases may ⟨mark, own⟩ with all | ⟨id, other, waits⟩
    · exact absurd behind (Nat.not_lt.2 all)
    · have ne : id ≠ taskID := fun same => other (same ▸ rfl)
      exact ⟨id, by rw [Function.update_of_ne ne]; exact waits⟩
  | counted newer =>
    refine underway_update (.inr ?_) (inv.pending behind)
    rw [own, show newer = false from through]
    rfl
  | started => exact absurd through id
  | marked mark => exact absurd through id

end Statements

section Safety

variable {pair : Workers.OrchestratorJob} {i : DebounceName} {taskID : String} {w : DebounceWorld}

/-! ## Programs -/

/-- A program of a party in the runs that leave no message behind. -/
abbrev SafeDebounce (pair : Workers.OrchestratorJob) {α : Type} (i : DebounceName) (Q : Except DebounceErr α → DebounceWorld → Prop) :
    Program (debounceStore.signed DebounceName) α → DebounceWorld → Prop :=
  Safe (debounceCareful pair) (debounceProtocol pair) i Q

/-- One statement, by what it comes to; none fails. -/
theorem safe_debounce {op : DebounceStmt} {A : Except DebounceErr op.Reply → DebounceWorld → Prop}
    (executed : ∀ t, DebounceRely i w t → DebounceInv pair t → answers pair t (i, op) →
      ∃ r t', debounceExec pair (i, op) t = (r, t') ∧ DebounceInv pair t' ∧ (∀ j, j ≠ i → DebounceRely j t t') ∧ A r t') :
    SafeDebounce pair i A ((call (I := debounceStore) op).signed i) w := by
  refine Safe.call_eq (fun t rely inv may => ?_) (fun _ _ _ absurd_ => absurd_.elim) (fun _ _ _ absurd_ => absurd_.elim)
  obtain ⟨r, t', moved, inv', others, after⟩ := executed t rely inv may
  exact ⟨r, t', moved, inv', others, after, fun absurd_ => absurd_.elim⟩

/-- What a run does to its own task does not concern the others. -/
theorem rely_own {j : DebounceName} (other : j ≠ .run taskID) (task : RunTask) (begun : Nat) :
    DebounceRely j w { w with tasks := Function.update w.tasks taskID task, begun := begun } := ⟨rfl, rely_update other⟩

/-- A run that is in a phase goes on to the next. -/
theorem Running.advance {phase next : RunPhase} (own : Running taskID phase w) (begun : Nat) :
    Running taskID next { w with tasks := Function.update w.tasks taskID (.active next), begun := begun } :=
  ⟨Function.update_self .., own.owing⟩

/-- A run that is through with its turn. -/
def Finishing (taskID : String) (w : DebounceWorld) : Prop := ∃ phase, Through phase ∧ Running taskID phase w

theorem safe_reenqueue {mark : Nat} (millis : Nat) (own : Running taskID (.begun mark) w) :
    SafeDebounce pair (.run taskID) (fun r t => r = .ok () ∧ Finishing taskID t)
      ((reenqueueIfNewerInbound pair mark millis).signed (.run taskID)) w := by
  unfold reenqueueIfNewerInbound
  refine Safe.bind_signed (Safe.attempt_signed (Q := fun r t => ∃ n, r = .ok (.ok n) ∧ Running taskID (.counted (decide (mark < n))) t)
    (safe_debounce fun t rely inv _ => ?_) |>.mono fun r t known => ?_)
  · have here := own.steady rely
    refine ⟨_, _, ?_, inv.recheck here.task, fun j other => rely_own other _ t.begun, _, rfl, here.advance t.begun⟩
    simp only [debounceExec]
    rw [advance_run here.task]
    rfl
  · obtain ⟨n, rfl, own⟩ := known
    simp only
    by_cases all : n ≤ mark
    · rw [if_pos all]
      exact ⟨rfl, .counted (decide (mark < n)), decide_eq_false (Nat.not_lt.2 all), own⟩
    · rw [if_neg all]
      refine Safe.bind_signed (Safe.attempt_signed (Q := fun r t => ∃ u, r = .ok u ∧ Finishing taskID t)
        (safe_debounce fun u rely inv may => ?_) |>.mono fun r u known => ?_)
      · have here := own.steady rely
        refine ⟨.ok (), _, ?_, inv.reenqueue here.task may, fun j other => ⟨rfl, fun id named phase => ?_⟩, _, rfl, .counted false, rfl, ?_,
          here.owing⟩
        · simp only [debounceExec]
          rw [advance_run here.task]
        · exact schedule_active.trans (rely_update other id named phase)
        · exact schedule_active.2 (Function.update_self ..)
      · obtain ⟨_, rfl, finishing⟩ := known
        exact ⟨rfl, finishing⟩

theorem safe_handleOrchestrator (fails : Bool) (millis : Nat) (own : Running taskID .started w) :
    SafeDebounce pair (.run taskID) (fun _ t => Finishing taskID t)
      ((handleOrchestrator pair fails millis).signed (.run taskID)) w := by
  unfold handleOrchestrator
  refine Safe.bind_signed (Safe.attempt_signed (Q := fun r t => ∃ mark, r = .ok (.ok mark) ∧ Running taskID (.marked mark) t)
    (safe_debounce fun t rely inv _ => ?_) |>.mono fun r t known => ?_)
  · have here := own.steady rely
    refine ⟨_, _, ?_, inv.mark, fun j other => rely_own other _ t.begun, _, rfl, here.advance t.begun⟩
    simp only [debounceExec]
    rw [advance_run here.task]
  · obtain ⟨mark, rfl, own⟩ := known
    simp only
    refine Safe.bind_signed (Safe.attempt_signed (Q := fun r t => ∃ result, r = .ok result ∧ Running taskID (.begun mark) t)
      (safe_debounce fun u rely inv _ => ?_) |>.mono fun r u known => ?_)
    · have here := own.steady rely
      refine ⟨if fails then .error .turn else .ok (), _, ?_, inv.turn here.task, fun j other => rely_own other _ _, _, rfl,
        here.advance _⟩
      simp only [debounceExec]
      rw [advance_run here.task]
      rfl
    · obtain ⟨result, rfl, own⟩ := known
      cases result with
      | error e => exact ⟨.begun mark, trivial, own⟩
      | ok _ => exact (safe_reenqueue millis own).mono fun r v known => known.2

theorem safe_orchestratorRun (fails : Bool) (millis : Nat) (idle : DebounceIdle (.run taskID) w) :
    SafeDebounce pair (.run taskID) (fun _ t => DebounceIdle (.run taskID) t)
      ((orchestratorRun taskID pair fails millis).signed (.run taskID)) w := by
  unfold orchestratorRun
  refine Safe.bind_signed ((safe_debounce (A := fun r t => r = .ok true ∧ Running taskID .started t ∨
    r = .ok false ∧ DebounceIdle (.run taskID) t) fun t rely inv _ => ?_).mono fun r t known => ?_)
  · have idle' := idle.steady rely
    by_cases waits : t.tasks taskID = .scheduled
    · refine ⟨.ok true, { t with tasks := Function.update t.tasks taskID (.active .started) }, ?_,
        inv.retask (fun id phase h => (update_active h).symm.imp_right fun now => ?_) fun behind => ?_,
        fun j other => rely_own other _ t.begun, .inl ⟨rfl, Function.update_self .., idle'.owing⟩⟩
      · simp only [debounceExec]
        rw [if_pos waits]
      · cases now
        trivial
      · exact underway_update (.inl rfl) (inv.pending behind)
    · refine ⟨.ok false, t, ?_, inv, fun j _ => (debounceProtocol pair).refl j t, .inr ⟨rfl, idle'⟩⟩
      simp only [debounceExec]
      rw [if_neg waits]
  · rcases known with ⟨rfl, own⟩ | ⟨rfl, idle⟩
    · simp only [if_true]
      refine Safe.bind_signed (Safe.attempt_signed (Q := fun r t => (∃ result, r = .ok result) ∧ Finishing taskID t)
        ((safe_handleOrchestrator fails millis own).mono fun r u finishing => ⟨⟨r, rfl⟩, finishing⟩) |>.mono fun r u known => ?_)
      obtain ⟨⟨result, rfl⟩, phase, through, own⟩ := known
      refine safe_debounce fun v rely inv may => ?_
      have here := own.steady rely
      refine ⟨_, _, rfl, inv.finish here.task through may, fun j other => rely_own other _ v.begun, here.owing, fun id named phase' absurd_ => ?_⟩
      cases named
      have free : RunTask.free = .active phase' := (Function.update_self taskID RunTask.free v.tasks).symm.trans absurd_
      cases free
    · simp only [Bool.false_eq_true, if_false]
      exact idle

/-- A webhook owes nothing and runs nothing. -/
theorem webhook_idle (n : Nat) (owing : w.owing (.webhook n) = none) : DebounceIdle (.webhook n) w :=
  ⟨owing, fun id own => by cases own⟩

/-- What a webhook notes under its own name does not concern the others. -/
theorem rely_owing {w' : DebounceWorld} {j : DebounceName} {owes : Option Nat} (other : j ≠ i)
    (owing : w'.owing = Function.update w.owing i owes)
    (active : ∀ id phase, w'.tasks id = .active phase ↔ w.tasks id = .active phase) : DebounceRely j w w' :=
  ⟨by rw [owing, Function.update_of_ne other], fun id _ => active id⟩

theorem safe_handleWebhookJob (n : Nat) (job : WebhookJob) (isRetry : Bool) (a : WebhookAttempt)
    (ofPair : ∀ message, decodeMessage job.payload = some message → (inboundRow message a.rowID a.now).run = pair)
    (idle : DebounceIdle (.webhook n) w) :
    SafeDebounce pair (.webhook n) (fun _ t => DebounceIdle (.webhook n) t)
      ((handleWebhookJob debounceDeps job isRetry a).signed (.webhook n)) w := by
  unfold handleWebhookJob
  cases decoded : decodeMessage job.payload with
  | none => exact idle
  | some message =>
    simp only
    refine Safe.bind_signed ((safe_debounce (A := fun r t => r = .ok true ∨ r = .ok false ∧ DebounceIdle (.webhook n) t)
      fun t rely inv _ => ?_).mono fun r t known => ?_)
    · have idle' := idle.steady rely
      cases inserted : t.inbound.insert (inboundRow message a.rowID a.now) with
      | some inbound =>
        refine ⟨.ok true, _, ?_, inv.persist inserted (ofPair message decoded) idle'.owing,
          fun j other => rely_owing other rfl fun _ _ => Iff.rfl, .inl rfl⟩
        simp only [debounceExec, inserted]
      | none =>
        refine ⟨.ok false, t, ?_, inv, fun j _ => (debounceProtocol pair).refl j t, .inr ⟨rfl, idle'⟩⟩
        simp only [debounceExec, inserted]
    · have asks : SafeDebounce pair (.webhook n) (fun _ t => DebounceIdle (.webhook n) t)
          ((call (I := debounceStore) (.publish (orchestratorDebounceTaskID (inboundRow message a.rowID a.now).run))).signed (.webhook n)) t :=
        safe_debounce fun u rely inv may => ⟨_, _, rfl, inv.publish may,
          fun j other => rely_owing other rfl fun _ _ => schedule_active, webhook_idle n (Function.update_self ..)⟩
      rcases known with rfl | ⟨rfl, idle⟩
      · exact asks
      · cases isRetry with
        | true => exact asks
        | false => exact idle

theorem safe_debounceJob {p : Program (debounceStore.signed DebounceName) Unit} (job : DebounceJob pair i p) (idle : DebounceIdle i w) :
    SafeDebounce pair i (fun _ t => DebounceIdle i t) p w := by
  cases job with
  | webhook n job isRetry a ofPair => exact safe_handleWebhookJob n job isRetry a ofPair idle
  | run taskID fails millis => exact safe_orchestratorRun fails millis idle

end Safety

/-! ## Runs -/

/-- In every run whose steps leave no message behind, and in which every call succeeds but turns may fail, the last run began after
the last message when all is settled. -/
theorem messages_answered {pair : Workers.OrchestratorJob} {w : DebounceWorld} {c : Crew (debounceStore.signed DebounceName) DebounceName DebounceWorld}
    (start : DebounceInv pair w) (idle : ∀ i, DebounceIdle i w) (reach : (debounceCareful pair).Reach ⟨w, []⟩ c) : Answered pair c := by
  have holds := Protocol.holds (P := debounceProtocol pair) Protocol.promise_idle
    (fun i p s job _ idle => safe_debounceJob job idle) reach start idle
  rintro ⟨ended, free⟩
  have asked : (messagesOf pair c.state).length ≤ c.state.asked := by
    by_contra less
    rcases holds.inv.owed c.state.asked (Nat.not_le.1 less) with absurd_ | ⟨i, owes⟩
    · exact absurd absurd_ (Nat.lt_irrefl _)
    · have nothing := (holds.idle i (by rw [ended]; exact List.not_mem_nil)).owing
      rw [nothing] at owes
      cases owes
  refine le_trans asked (Nat.not_lt.1 fun behind => ?_)
  obtain ⟨id, waits⟩ := holds.inv.pending behind
  rw [free id] at waits
  cases waits

/-- No request is dropped on an active run and no run ends that failed. -/
def dropless : DebounceWorld → DebounceName × DebounceStmt → Bool
  | w, (_, .publish taskID) | w, (_, .reenqueue taskID) =>
    match w.tasks taskID with
    | .active _ => false
    | _ => true
  | w, (_, .finish taskID) =>
    match w.tasks taskID with
    | .active (.begun _) => false
    | _ => true
  | _, _ => true

theorem answers_of_dropless {pair : Workers.OrchestratorJob} {w : DebounceWorld} {op : DebounceName × DebounceStmt}
    (h : dropless w op = true) : answers pair w op := by
  obtain ⟨i, op⟩ := op
  cases op with
  | publish taskID =>
    intro active
    simp only [dropless, active] at h
    cases h
  | reenqueue taskID =>
    rintro ⟨phase, active⟩
    simp only [dropless, active] at h
    cases h
  | finish taskID =>
    rintro ⟨mark, active⟩
    simp only [dropless, active] at h
    cases h
  | _ => trivial

/-- The runs without drops. -/
def debounceDropless (pair : Workers.OrchestratorJob) : Roster (debounceStore.signed DebounceName) DebounceName DebounceWorld :=
  { debounceFlow pair with allow := fun w op => dropless w op = true }

theorem dropless_within (pair : Workers.OrchestratorJob) : (debounceDropless pair).Within (debounceCareful pair) :=
  ⟨rfl, fun _ _ => id, fun _ _ => answers_of_dropless, fun _ _ => id, fun _ _ => id, fun _ _ => id⟩

instance (pair : Workers.OrchestratorJob) (w : DebounceWorld) : DecidablePred ((debounceDropless pair).allow w) :=
  fun op => inferInstanceAs (Decidable (dropless w op = true))

/-- No messages and no tasks. -/
def nothingSent : DebounceWorld where
  inbound := Table.empty
  tasks _ := .free
  begun := 0
  asked := 0
  owing _ := none

/-- The pair of a shop's number and a customer. -/
def oneCustomer : Workers.OrchestratorJob := ⟨"wa-1", "233200000001"⟩

/-- A message of the customer. -/
def textJob (id : String) : WebhookJob where
  idempotencyKey := "waba:233200000001:" ++ id
  payload := .object [("id", .string id), ("from", .string "233200000001"), ("recipientPhone", .string "wa-1"),
    ("type", .string "text"), ("text", .object [("body", .string "hello")])]
  receivedAt := "2026-08-22T09:30:00.000Z"

/-- What the webhook does with it. -/
def webhookOf (n : Nat) (id : String) : Program (debounceStore.signed DebounceName) Unit :=
  (handleWebhookJob debounceDeps (textJob id) false ⟨id, 1000⟩).signed (.webhook n)

/-- The run that it asks for. -/
def customerRun : Program (debounceStore.signed DebounceName) Unit :=
  (orchestratorRun (orchestratorDebounceTaskID oneCustomer) oneCustomer false 2000).signed (.run (orchestratorDebounceTaskID oneCustomer))

theorem webhookOf_job (n : Nat) (id : String) : DebounceJob oneCustomer (.webhook n) (webhookOf n id) := by
  refine .webhook n (textJob id) false ⟨id, 1000⟩ fun message decoded => ?_
  cases decoded
  rfl

theorem nothingSent_inv : DebounceInv oneCustomer nothingSent :=
  ⟨Nat.zero_le _, Nat.zero_le _, fun _ _ absurd_ => (by cases absurd_), fun absurd_ => absurd absurd_ (Nat.lt_irrefl 0),
    fun _ bound => absurd bound (Nat.not_lt_zero _)⟩

theorem nothingSent_idle (i : DebounceName) : DebounceIdle i nothingSent := ⟨rfl, fun _ _ _ absurd_ => by cases absurd_⟩

/-- One message and its run. -/
theorem message_answered : ∃ w, (debounceCareful oneCustomer).Reach ⟨nothingSent, []⟩ ⟨w, []⟩ ∧
    Answered oneCustomer (⟨w, []⟩ : Crew (debounceStore.signed DebounceName) DebounceName DebounceWorld) := by
  let R := debounceDropless oneCustomer
  have asks : R.Follows (webhookOf 1 "wamid.1") nothingSent := by decide +kernel
  have answers_ : R.Follows customerRun ((webhookOf 1 "wamid.1").run R.exec nothingSent).2 := by decide +kernel
  have reach := (Roster.reach_job (R := R) (webhookOf_job 1 "wamid.1") asks).trans
    (Roster.reach_job (R := R) (.run _ false 2000) answers_)
  have careful := (dropless_within oneCustomer).reach reach
  exact ⟨_, careful, messages_answered nothingSent_inv nothingSent_idle careful⟩

/-! ## A message that waits -/

/-- The second message arrives after the run has counted, and its request is dropped: the run ends, and nothing is to come. -/
theorem second_message_waits : DebounceInv oneCustomer nothingSent ∧ (∀ i, DebounceIdle i nothingSent) ∧
    ∃ c, (debounceFlow oneCustomer).Reach ⟨nothingSent, []⟩ c ∧ ¬ Answered oneCustomer c := by
  let R := debounceFlow oneCustomer
  have allows : ∀ s op, R.allow s op := fun _ _ => trivial
  have follows : ∀ (p : Program (debounceStore.signed DebounceName) Unit) s, R.Follows p s := by
    intro p
    induction p with
    | ret r => exact fun s => trivial
    | stmt op next ih => exact fun s => ⟨trivial, ih _ _⟩
  have leaves : ∀ (post : List (DebounceName × Program (debounceStore.signed DebounceName) Unit)) {s i r},
      R.Step ⟨s, [] ++ (i, .ret r) :: post⟩ ⟨s, [] ++ post⟩ := fun post s i r => .drop trivial
  let T := orchestratorDebounceTaskID oneCustomer
  let asked := ((webhookOf 1 "wamid.1").run R.exec nothingSent).2
  let counted := customerRun.steps R.exec 4 asked
  let dropped := ((webhookOf 2 "wamid.2").run R.exec counted.2).2
  let final := (counted.1.run R.exec dropped).2
  have first : R.Reach ⟨nothingSent, []⟩ ⟨asked, []⟩ := Roster.reach_job (webhookOf_job 1 "wamid.1") (follows _ _)
  have counts : R.Reach ⟨asked, []⟩ ⟨counted.2, [(.run T, counted.1)]⟩ :=
    .head (.spawn (.run _ false 2000) List.not_mem_nil) (R.reach_steps 4 [] [] (R.followsFor_of_allows allows 4 customerRun asked))
  have unused : DebounceName.webhook 2 ∉ [(DebounceName.run T, counted.1)].map Prod.fst := by
    intro mem
    cases List.mem_singleton.1 mem
  have drops : R.Reach ⟨counted.2, [(.run T, counted.1)]⟩ ⟨dropped, [(.run T, counted.1)]⟩ :=
    .head (.spawn (webhookOf_job 2 "wamid.2") unused)
      ((R.reach_end [] [(.run T, counted.1)] (follows _ _)).tail (leaves [(.run T, counted.1)]))
  have ends : R.Reach ⟨dropped, [(.run T, counted.1)]⟩ ⟨final, []⟩ :=
    (R.reach_end [] [] (follows _ _)).tail (leaves [])
  refine ⟨nothingSent_inv, nothingSent_idle, ⟨final, []⟩, first.trans (counts.trans (drops.trans ends)), fun answered => ?_⟩
  have waits : final.begun < (messagesOf oneCustomer final).length := by decide +kernel
  have others : ∀ id, id ≠ T → final.tasks id = .free := by
    intro id ne
    have tasks : final.tasks = Function.update (Function.update (Function.update (Function.update (Function.update
      (Function.update nothingSent.tasks T .scheduled) T (.active .started)) T (.active (.marked 1))) T (.active (.begun 1))) T
      (.active (.counted false))) T .free := rfl
    rw [tasks]
    simp only [Function.update_of_ne ne]
    rfl
  refine absurd (answered ⟨rfl, fun id => ?_⟩) (Nat.not_le.2 waits)
  by_cases same : id = T
  · rw [same]
    decide +kernel
  · exact others id same

end NovoApex.Turns
