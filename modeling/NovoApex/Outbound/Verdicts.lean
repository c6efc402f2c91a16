import NovoApex.Outbound.Sessions

/-!
# Compliance verdicts

A row that is `failed_stale` or `failed_24h_window_closed` stays so and is not handed
to the sender any more, as long as no sweep commits `failed_stale` for a row that a
running delivery has read in its backlog and not recorded. Sweeps exclude each other
and mark rows of conversations only; what a delivery is about to send is either a row
without conversation or one of its backlog.
-/

namespace NovoApex.Outbound
set_option autoImplicit false
open Lib Program Db Workers

/-- A sweep commits no verdict on a row that a running delivery is about to send, and no connection is lost before its
backlog is recorded. -/
def spares (w : OutboundWorld) : OutboundStmt → Prop
  | .commit tx => ∀ t ∈ w.transactions.rows, t.id = tx → t.ended = false → ∀ id ∈ t.stale,
    ∀ x ∈ w.connections.rows, x.closed = false → id ∉ x.backlog
  | .loseConnection c => backlogOf c w = some []
  | _ => True

/-- The same, computed. -/
def sparesNow (w : OutboundWorld) : OutboundStmt → Bool
  | .commit tx => w.transactions.rows.all fun t => t.id != tx || t.ended || t.stale.all fun id =>
    w.connections.rows.all fun x => x.closed || !x.backlog.contains id
  | .loseConnection c => decide (backlogOf c w = some [])
  | _ => true

theorem sparesNow_iff (w : OutboundWorld) (op : OutboundStmt) : sparesNow w op = true ↔ spares w op := by
  unfold sparesNow spares
  split <;> simp [imp_iff_not_or, or_assoc]

instance (w : OutboundWorld) : DecidablePred (spares w) := fun op => decidable_of_iff _ (sparesNow_iff w op)

/-- Everything that runs on the outbound queue, with any sender. -/
def everything : OutboundSetup := ⟨True, True, True, fun _ => True⟩

/-- The runs in which sweeps spare what is being delivered. -/
def sparingFlow : Roster outboundStore OutboundName OutboundWorld :=
  { outboundFlow everything with allow := fun w op => outboundProceeds w op ∧ spares w op }

instance (w : OutboundWorld) (op : OutboundStmt) : Decidable (sparingFlow.allow w op) :=
  inferInstanceAs (Decidable (outboundProceeds w op ∧ spares w op))

/-! ## The protocol -/

/-- The sweeps: one at a time, and what it has marked are rows of conversations without a verdict. -/
structure Staged (w : OutboundWorld) : Prop where
  stale : ∀ t ∈ w.transactions.rows, t.ended = false → ∀ id ∈ t.stale,
    ∃ row ∈ w.messages.rows, row.id = id ∧ row.conversation ≠ none ∧ row.status.isVerdict = false
  locked : ∀ t ∈ w.transactions.rows, t.ended = false → t.stale ≠ [] → t.locked = true
  one : ∀ t ∈ w.transactions.rows, ∀ t' ∈ w.transactions.rows, t.ended = false → t'.ended = false → t.locked = true →
    t'.locked = true → t = t'

/-- The call may send the row: it has no verdict and none is going to be committed. -/
def Spared (c : OutboundCall) (id : String) (w : OutboundWorld) : Prop :=
  ∃ row ∈ w.messages.rows, row.id = id ∧ row.status.isVerdict = false ∧
    (row.conversation = none ∨ ∃ ids, backlogOf c w = some ids ∧ id ∈ ids)

/-- Rows without a verdict do not get one. -/
def Unjudged (w w' : OutboundWorld) : Prop := ∀ row ∈ w.messages.rows, row.status.isVerdict = false →
  ∃ row' ∈ w'.messages.rows, row'.id = row.id ∧ row'.conversation = row.conversation ∧ row'.status.isVerdict = false

/-- Verdicts stay, and nothing is sent of their rows. -/
def Final (w w' : OutboundWorld) : Prop := ∀ row ∈ w.messages.rows, row.status.isVerdict = true →
  row ∈ w'.messages.rows ∧ sendsOf row.id w' = sendsOf row.id w

/-- What each name relies on. -/
def verdictRely : OutboundName → OutboundWorld → OutboundWorld → Prop
  | .call c, w, w' => ∀ id, Spared c id w → Spared c id w'
  | .sweep tx, w, w' => ∀ t, openSweep tx w' = some t → openSweep tx w = some t ∧ (t.locked = true → Unjudged w w')
  | .observer, w, w' => Final w w'
  | _, _, _ => True

theorem Unjudged.trans {u v w : OutboundWorld} (h : Unjudged u v) (h' : Unjudged v w) : Unjudged u w := by
  intro row mem clean
  obtain ⟨row', mem', id', conversation', clean'⟩ := h row mem clean
  obtain ⟨row'', mem'', id'', conversation'', clean''⟩ := h' row' mem' clean'
  exact ⟨row'', mem'', id''.trans id', conversation''.trans conversation', clean''⟩

theorem verdictRely_refl (i : OutboundName) (w : OutboundWorld) : verdictRely i w w := by
  cases i with
  | call c => exact fun _ spared => spared
  | sweep tx => exact fun t isOpen => ⟨isOpen, fun _ row mem clean => ⟨row, mem, rfl, rfl, clean⟩⟩
  | observer => exact fun row mem _ => ⟨mem, rfl⟩
  | writer n => trivial
  | server n => trivial

theorem verdictRely_trans (i : OutboundName) (u v w : OutboundWorld) (h : verdictRely i u v) (h' : verdictRely i v w) :
    verdictRely i u w := by
  cases i with
  | call c => exact fun id spared => h' id (h id spared)
  | sweep tx =>
    intro t isOpen
    obtain ⟨before, unjudged'⟩ := h' t isOpen
    obtain ⟨first, unjudged⟩ := h t before
    exact ⟨first, fun locked => (unjudged locked).trans (unjudged' locked)⟩
  | observer =>
    intro row mem judged
    obtain ⟨mem', sends⟩ := h row mem judged
    obtain ⟨mem'', sends'⟩ := h' row mem' judged
    exact ⟨mem'', sends'.trans sends⟩
  | writer n => trivial
  | server n => trivial

/-- The protocol of sweeps and deliveries. -/
def verdictProtocol : Protocol OutboundName OutboundWorld where
  inv := Staged
  rely := verdictRely
  refl := verdictRely_refl
  trans := verdictRely_trans

/-- A statement of `i` keeps the protocol. -/
def KeepsVerdicts (i : OutboundName) (w w' : OutboundWorld) : Prop := Staged w' ∧ ∀ j, j ≠ i → verdictRely j w w'

/-! ## Statements that are no sweep's -/

/-- No verdict changes, nothing is sent of a row with one, and the backlogs of the others keep their rows. -/
structure Mild (i : OutboundName) (w w' : OutboundWorld) : Prop where
  unjudged : Unjudged w w'
  final : Final w w'
  backlogs : ∀ j ids, i ≠ .call j → backlogOf j w = some ids → ∀ id ∈ ids, ∃ ids', backlogOf j w' = some ids' ∧ id ∈ ids'
  transactions : w'.transactions = w.transactions

section Statements

variable {i : OutboundName} {c : OutboundCall} {w w' : OutboundWorld}

theorem Unjudged.spared {id : String} (h : Unjudged w w')
    (backlog : ∀ ids, backlogOf c w = some ids → id ∈ ids → ∃ ids', backlogOf c w' = some ids' ∧ id ∈ ids')
    (spared : Spared c id w) : Spared c id w' := by
  obtain ⟨row, mem, rfl, clean, mine⟩ := spared
  obtain ⟨row', mem', id', conversation', clean'⟩ := h row mem clean
  refine ⟨row', mem', id', clean', ?_⟩
  rcases mine with alone | ⟨ids, read, listed⟩
  · exact .inl (conversation'.trans alone)
  · exact .inr (backlog ids read listed)

theorem Unjudged.staged (h : Unjudged w w') (transactions : w'.transactions = w.transactions) (inv : Staged w) : Staged w' := by
  refine ⟨?_, ?_, ?_⟩ <;> rw [transactions]
  · intro t ht isOpen id hid
    obtain ⟨row, mem, rfl, conversation, clean⟩ := inv.stale t ht isOpen id hid
    obtain ⟨row', mem', id', conversation', clean'⟩ := h row mem clean
    exact ⟨row', mem', id', conversation'.symm ▸ conversation, clean'⟩
  · exact inv.locked
  · exact inv.one

theorem Mild.keeps (h : Mild i w w') (inv : Staged w) : KeepsVerdicts i w w' := by
  refine ⟨h.unjudged.staged h.transactions inv, fun j other => ?_⟩
  cases j with
  | call c =>
    intro id spared
    exact h.unjudged.spared (fun ids read listed => h.backlogs c ids (Ne.symm other) read id listed) spared
  | sweep tx =>
    intro t isOpen
    rw [openSweep, h.transactions] at isOpen
    exact ⟨isOpen, fun _ => h.unjudged⟩
  | observer => exact h.final
  | writer n => trivial
  | server n => trivial

theorem mild_refl : Mild i w w :=
  ⟨fun row mem clean => ⟨row, mem, rfl, rfl, clean⟩, fun _ mem _ => ⟨mem, rfl⟩, fun _ ids _ read _ listed => ⟨ids, read, listed⟩, rfl⟩

/-- A statement that leaves rows, sends and sweeps alone. -/
theorem mild_of_eq (messages : w'.messages = w.messages) (sends : w'.sends = w.sends) (transactions : w'.transactions = w.transactions)
    (backlogs : ∀ j ids, i ≠ .call j → backlogOf j w = some ids → ∀ id ∈ ids, ∃ ids', backlogOf j w' = some ids' ∧ id ∈ ids') :
    Mild i w w' := by
  refine ⟨fun row mem clean => ⟨row, by rwa [messages], rfl, rfl, clean⟩, fun row mem _ => ⟨by rwa [messages], ?_⟩, backlogs, transactions⟩
  unfold sendsOf
  rw [sends]

/-- A statement on the connection of the call. -/
theorem mild_connection (messages : w'.messages = w.messages) (sends : w'.sends = w.sends)
    (transactions : w'.transactions = w.transactions) (backlogs : ∀ j, j ≠ c → backlogOf j w' = backlogOf j w) :
    Mild (.call c) w w' := by
  refine mild_of_eq messages sends transactions fun j ids other read id listed => ⟨ids, ?_, listed⟩
  exact (backlogs j fun same => other (same ▸ rfl)).trans read

/-- A status write on a row without a verdict. -/
theorem mild_setOutbound {id : String} {f : OutboundRow → OutboundRow} {keeps : ∀ r, (f r).id = r.id}
    (clean : ∀ row ∈ w.messages.rows, row.id = id → row.status.isVerdict = false)
    (writes : ∀ row, (f row).status.isVerdict = false ∧ (f row).conversation = row.conversation) :
    Mild i w (setOutbound id f keeps w) := by
  refine ⟨fun row mem clean' => ?_, fun row mem judged => ⟨?_, rfl⟩, fun j ids _ read id' listed => ⟨ids, read, listed⟩, rfl⟩
  · by_cases own : row.id = id
    · exact ⟨f row, mem_setOutbound.2 (.inr ⟨row, mem, own, rfl⟩), keeps row, (writes row).2, (writes row).1⟩
    · exact ⟨row, mem_setOutbound.2 (.inl ⟨mem, own⟩), rfl, rfl, clean'⟩
  · refine mem_setOutbound.2 (.inl ⟨mem, fun own => ?_⟩)
    rw [clean row mem own] at judged
    cases judged

theorem mild_insert {row : OutboundRow} (h : insertOutbound row w = .ok w') : Mild i w w' := by
  obtain ⟨messages, inserted, rfl⟩ := insertOutbound_ok h
  have rows : messages.rows = w.messages.rows ++ [row] := (Table.insert_eq_some.1 inserted).2
  have kept : ∀ r ∈ w.messages.rows, r ∈ messages.rows := by
    intro r mem
    rw [rows]
    exact List.mem_append_left _ mem
  exact ⟨fun r mem clean => ⟨r, kept r mem, rfl, rfl, clean⟩, fun r mem _ => ⟨kept r mem, rfl⟩,
    fun j ids _ read id listed => ⟨ids, read, listed⟩, rfl⟩

/-- A row that is handed to the sender has no verdict. -/
theorem mild_send {m : QueuedMessage} {request : SendRequest} {accepted : Bool} (spared : Spared c m.id w) :
    Mild i w { w with sends := w.sends ++ [⟨m.id, m.seq, m.conversation, request, accepted⟩] } := by
  refine ⟨fun row mem clean => ⟨row, mem, rfl, rfl, clean⟩, fun row mem judged => ⟨mem, ?_⟩,
    fun j ids _ read id listed => ⟨ids, read, listed⟩, rfl⟩
  obtain ⟨sparedRow, mem', named, clean, -⟩ := spared
  have apart : m.id ≠ row.id := by
    intro same
    obtain rfl := Table.eq_of_key mem mem' (same.symm.trans named.symm)
    rw [clean] at judged
    cases judged
  simp [sendsOf, List.filter_append, apart]

end Statements

/-! ## Statements of sweeps -/

section Sweeps

variable {i : OutboundName} {tx : String} {w : OutboundWorld}

theorem openSweep_eq_some {t : SweepTx} : openSweep tx w = some t ↔ t ∈ w.transactions.rows ∧ t.id = tx ∧ t.ended = false := by
  unfold openSweep
  rw [Option.filter_eq_some_iff, Table.find?_eq_some, and_assoc]
  simp

/-- A transaction of a rewritten table: another one, or the rewritten one. -/
theorem mem_setSweep {f : SweepTx → SweepTx} {keeps : ∀ t, (f t).id = t.id} {t : SweepTx} :
    t ∈ (setSweep tx f keeps w).transactions.rows ↔
      (t ∈ w.transactions.rows ∧ t.id ≠ tx) ∨ ∃ old ∈ w.transactions.rows, old.id = tx ∧ t = f old :=
  @Table.mem_update_keyed _ _ _ _ w.transactions tx f keeps t

theorem openSweep_setSweep_ne {f : SweepTx → SweepTx} {keeps : ∀ t, (f t).id = t.id} {other : String} (apart : other ≠ tx) :
    openSweep other (setSweep tx f keeps w) = openSweep other w := by
  unfold openSweep setSweep
  rw [Table.find?_update_of_ne _ f keeps apart]

theorem openSweep_setSweep {f : SweepTx → SweepTx} {keeps : ∀ t, (f t).id = t.id} {t : SweepTx} (isOpen : openSweep tx w = some t)
    (still : (f t).ended = false) : openSweep tx (setSweep tx f keeps w) = some (f t) := by
  obtain ⟨mem, rfl, -⟩ := openSweep_eq_some.1 isOpen
  refine openSweep_eq_some.2 ⟨?_, keeps t, still⟩
  exact mem_setSweep.2 (.inr ⟨t, mem, rfl, rfl⟩)

/-- A statement that only touches the transaction of the sweep. -/
theorem keeps_transactions {transactions : Table SweepTx.id} (staged : Staged { w with transactions := transactions })
    (others : ∀ tx' t, i ≠ .sweep tx' → openSweep tx' { w with transactions := transactions } = some t → openSweep tx' w = some t) :
    KeepsVerdicts i w { w with transactions := transactions } := by
  refine ⟨staged, fun j apart => ?_⟩
  cases j with
  | call c => exact fun id spared => spared
  | sweep tx' =>
    intro t isOpen
    exact ⟨others tx' t (Ne.symm apart) isOpen, fun _ row mem clean => ⟨row, mem, rfl, rfl, clean⟩⟩
  | observer => exact fun row mem _ => ⟨mem, rfl⟩
  | writer n => trivial
  | server n => trivial

theorem keeps_begin {transactions : Table SweepTx.id} (inv : Staged w) (h : w.transactions.insert ⟨tx, false, false, []⟩ = some transactions) :
    KeepsVerdicts (.sweep tx) w { w with transactions := transactions } := by
  obtain ⟨fresh, rows⟩ := Table.insert_eq_some.1 h
  have old : ∀ t ∈ transactions.rows, t ∈ w.transactions.rows ∨ t = ⟨tx, false, false, []⟩ := by
    intro t ht
    rwa [rows, List.mem_append, List.mem_singleton] at ht
  refine keeps_transactions ⟨fun t ht isOpen id hid => ?_, fun t ht isOpen marked => ?_, fun t ht t' ht' isOpen isOpen' locked locked' => ?_⟩
    fun tx' t apart isOpen => ?_
  · rcases old t ht with ht | rfl
    · exact inv.stale t ht isOpen id hid
    · cases hid
  · rcases old t ht with ht | rfl
    · exact inv.locked t ht isOpen marked
    · exact (marked rfl).elim
  · rcases old t ht with ht | rfl
    · rcases old t' ht' with ht' | rfl
      · exact inv.one t ht t' ht' isOpen isOpen' locked locked'
      · cases locked'
    · cases locked
  · obtain ⟨ht, named, isOpen⟩ := openSweep_eq_some.1 isOpen
    rcases old t ht with ht | rfl
    · exact openSweep_eq_some.2 ⟨ht, named, isOpen⟩
    · exact (apart (named ▸ rfl)).elim

/-- Rewriting the own transaction. -/
theorem keeps_setSweep {f : SweepTx → SweepTx} {keeps : ∀ t, (f t).id = t.id} {t : SweepTx} (inv : Staged w)
    (isOpen : openSweep tx w = some t)
    (stale : ∀ id ∈ (f t).stale, ∃ row ∈ w.messages.rows, row.id = id ∧ row.conversation ≠ none ∧ row.status.isVerdict = false)
    (locked : (f t).stale ≠ [] → (f t).locked = true)
    (one : (f t).locked = true → ∀ t' ∈ w.transactions.rows, t'.id ≠ tx → t'.ended = false → t'.locked = false) :
    KeepsVerdicts (.sweep tx) w (setSweep tx f keeps w) := by
  obtain ⟨mem, named, notEnded⟩ := openSweep_eq_some.1 isOpen
  have cases' : ∀ u ∈ (setSweep tx f keeps w).transactions.rows, (u ∈ w.transactions.rows ∧ u.id ≠ tx) ∨ u = f t := by
    intro u hu
    rcases mem_setSweep.1 hu with other | ⟨old, hold, same, rfl⟩
    · exact .inl other
    · exact .inr (by rw [Table.eq_of_key hold mem (same.trans named.symm)])
  refine keeps_transactions ⟨fun u hu isOpen id hid => ?_, fun u hu isOpen marked => ?_, fun u hu v hv uOpen vOpen uLocked vLocked => ?_⟩
    fun tx' u apart isOpen => ?_
  · rcases cases' u hu with ⟨hu, -⟩ | rfl
    · exact inv.stale u hu isOpen id hid
    · exact stale id hid
  · rcases cases' u hu with ⟨hu, -⟩ | rfl
    · exact inv.locked u hu isOpen marked
    · exact locked marked
  · rcases cases' u hu with ⟨hu, uid⟩ | rfl
    · rcases cases' v hv with ⟨hv, vid⟩ | rfl
      · exact inv.one u hu v hv uOpen vOpen uLocked vLocked
      · rw [one vLocked u hu uid uOpen] at uLocked
        cases uLocked
    · rcases cases' v hv with ⟨hv, vid⟩ | rfl
      · rw [one uLocked v hv vid vOpen] at vLocked
        cases vLocked
      · rfl
  · have other : tx' ≠ tx := fun same => apart (same ▸ rfl)
    have same : openSweep tx' (setSweep tx f keeps w) = openSweep tx' w := openSweep_setSweep_ne other
    exact same.symm.trans isOpen

theorem keeps_endSweep (inv : Staged w) : KeepsVerdicts i w (endSweep tx w) := by
  have live : ∀ t ∈ (endSweep tx w).transactions.rows, t.ended = false → t ∈ w.transactions.rows := by
    intro t ht isOpen
    rcases mem_setSweep.1 ht with ⟨ht, -⟩ | ⟨old, -, -, rfl⟩
    · exact ht
    · cases isOpen
  refine keeps_transactions ⟨fun t ht isOpen => inv.stale t (live t ht isOpen) isOpen, fun t ht isOpen => inv.locked t (live t ht isOpen) isOpen,
    fun t ht t' ht' isOpen isOpen' => inv.one t (live t ht isOpen) t' (live t' ht' isOpen') isOpen isOpen'⟩ fun tx' t _ isOpen => ?_
  obtain ⟨ht, named, notEnded⟩ := openSweep_eq_some.1 isOpen
  exact openSweep_eq_some.2 ⟨live t ht notEnded, named, notEnded⟩

theorem mem_applyStale {stale : List String} {r : OutboundRow} (mem : r ∈ w.messages.rows) (unmarked : r.id ∉ stale) :
    r ∈ (applyStale stale w).messages.rows := by
  simp only [applyStale]
  rw [Table.mem_update]
  exact ⟨r, mem, Table.rewrite_of_neg (by simp [unmarked])⟩

/-- A sweep that has marked nothing changes nothing. -/
theorem unjudged_applyStale_nil : Unjudged w (applyStale [] w) :=
  fun row mem clean => ⟨row, mem_applyStale mem List.not_mem_nil, rfl, rfl, clean⟩

/-- The verdicts of a sweep become visible: no running delivery has the rows, and no other sweep has the lock. -/
theorem keeps_commit {t : SweepTx} (inv : Staged w) (isOpen : openSweep tx w = some t) (spare : spares w (.commit tx)) :
    KeepsVerdicts (.sweep tx) w (endSweep tx (applyStale t.stale w)) := by
  obtain ⟨mem, named, notEnded⟩ := openSweep_eq_some.1 isOpen
  -- a marked row is one of a conversation and has no verdict
  have marked : ∀ row ∈ w.messages.rows, row.id ∈ t.stale → row.conversation ≠ none ∧ row.status.isVerdict = false := by
    intro row hrow listed
    obtain ⟨row', hrow', same, facts⟩ := inv.stale t mem notEnded row.id listed
    obtain rfl := Table.eq_of_key hrow' hrow same
    exact facts
  -- another sweep with the lock leaves this one nothing to commit
  have alone : ∀ t' ∈ w.transactions.rows, t'.id ≠ tx → t'.ended = false → t'.locked = true → t.stale = [] := by
    intro t' ht' apart isOpen' locked'
    by_contra some
    obtain rfl := inv.one t mem t' ht' notEnded isOpen' (inv.locked t mem notEnded some) locked'
    exact apart named
  have live : ∀ t' ∈ (endSweep tx w).transactions.rows, t'.ended = false → t' ∈ w.transactions.rows ∧ t'.id ≠ tx := by
    intro t' ht' isOpen'
    rcases mem_setSweep.1 ht' with other | ⟨old, -, -, rfl⟩
    · exact other
    · cases isOpen'
  refine ⟨⟨fun t' ht' isOpen' id hid => ?_, fun t' ht' isOpen' => inv.locked t' (live t' ht' isOpen').1 isOpen',
    fun u hu v hv uOpen vOpen => inv.one u (live u hu uOpen).1 v (live v hv vOpen).1 uOpen vOpen⟩, fun j apart => ?_⟩
  · obtain ⟨ht', other⟩ := live t' ht' isOpen'
    have nothing := alone t' ht' other isOpen' (inv.locked t' ht' isOpen' (List.ne_nil_of_mem hid))
    obtain ⟨row, hrow, rfl, facts⟩ := inv.stale t' ht' isOpen' id hid
    refine ⟨row, mem_applyStale hrow ?_, rfl, facts⟩
    rw [nothing]
    exact List.not_mem_nil
  · cases j with
    | call c =>
      rintro id ⟨row, hrow, rfl, clean, mine⟩
      refine ⟨row, mem_applyStale hrow fun listed => ?_, rfl, clean, mine⟩
      rcases mine with none' | ⟨ids, read, listed'⟩
      · exact (marked row hrow listed).1 none'
      · obtain ⟨x, found, rfl⟩ := openConnection_of_backlogOf read
        obtain ⟨hx, isOpen'⟩ := openConnection_mem found
        exact spare t mem named notEnded row.id listed x hx isOpen' listed'
    | sweep tx' =>
      intro t' isOpen'
      obtain ⟨ht', named', notEnded'⟩ := openSweep_eq_some.1 isOpen'
      obtain ⟨before, other⟩ := live t' ht' notEnded'
      refine ⟨openSweep_eq_some.2 ⟨before, named', notEnded'⟩, fun locked' => ?_⟩
      rw [alone t' before other notEnded' locked']
      exact unjudged_applyStale_nil
    | observer =>
      intro row hrow judged
      refine ⟨mem_applyStale hrow fun listed => ?_, rfl⟩
      rw [(marked row hrow listed).2] at judged
      cases judged
    | writer n => trivial
    | server n => trivial

end Sweeps

/-! ## Deliveries -/

section Deliveries

variable {i : OutboundName} {c : OutboundCall} {wa : Option Sender} {w : OutboundWorld}

/-- One statement. -/
theorem safe_verdict {op : OutboundStmt} {Q : Except OutboundErr op.Reply → OutboundWorld → Prop}
    (executed : ∀ t, verdictRely i w t → Staged t → outboundProceeds t op → spares t op →
      KeepsVerdicts i t (outboundExec op t).2 ∧ Q (outboundExec op t).1 (outboundExec op t).2 ∧
        (mayFail op → Q (.error (.db .transient)) (outboundExec op t).2))
    (failed : ∀ t, verdictRely i w t → mayFail op → Q (.error (.db .transient)) t) :
    Safe sparingFlow verdictProtocol i Q (call (I := outboundStore) op) w := by
  refine Safe.call (fun t rely inv may => ?_) (fun t rely _ faults => failed t rely faults) fun _ _ _ _ => trivial
  obtain ⟨keeps, replied, unreplied⟩ := executed t rely inv may.1 may.2
  exact ⟨keeps.1, keeps.2, replied, unreplied⟩

/-- A statement whose outcome does not matter. -/
theorem safe_plain {op : OutboundStmt}
    (executed : ∀ t, verdictRely i w t → Staged t → outboundProceeds t op → spares t op → KeepsVerdicts i t (outboundExec op t).2) :
    Safe sparingFlow verdictProtocol i (fun _ _ => True) (call (I := outboundStore) op) w :=
  safe_verdict (fun t rely inv may spare => ⟨executed t rely inv may spare, trivial, fun _ => trivial⟩) fun _ _ _ => trivial

/-- The rows a call is to deliver are its own, and none has a verdict. -/
def Sparing (c : OutboundCall) (on : Option OutboundCall) (rest : List QueuedMessage) (w : OutboundWorld) : Prop :=
  (on = none ∨ on = some c) ∧ (rest.map QueuedMessage.id).Nodup ∧ ∀ m ∈ rest, Spared c m.id w

theorem Sparing.relies {on : Option OutboundCall} {rest : List QueuedMessage} {t : OutboundWorld} (h : Sparing c on rest w)
    (rely : verdictRely (.call c) w t) : Sparing c on rest t :=
  ⟨h.1, h.2.1, fun m mem => rely m.id (h.2.2 m mem)⟩

theorem Sparing.rest {on : Option OutboundCall} {m : QueuedMessage} {rest : List QueuedMessage} (h : Sparing c on (m :: rest) w) :
    Sparing c on rest w := by
  obtain ⟨mine, nodup, spared⟩ := h
  rw [List.map_cons, List.nodup_cons] at nodup
  exact ⟨mine, nodup.2, fun m' mem => spared m' (List.mem_cons_of_mem _ mem)⟩

theorem Mild.trans {u v : OutboundWorld} (h : Mild i u v) (h' : Mild i v w) : Mild i u w := by
  refine ⟨h.unjudged.trans h'.unjudged, verdictRely_trans .observer u v w h.final h'.final, fun j ids other read id listed => ?_,
    h'.transactions.trans h.transactions⟩
  obtain ⟨ids', read', listed'⟩ := h.backlogs j ids other read id listed
  exact h'.backlogs j ids' other read' id listed'

theorem Spared.clean {id : String} (h : Spared c id w) : ∀ row ∈ w.messages.rows, row.id = id → row.status.isVerdict = false := by
  obtain ⟨row, mem, named, clean, -⟩ := h
  intro row' mem' named'
  rw [Table.eq_of_key mem' mem (named'.trans named.symm)]
  exact clean

/-- The outcome of a row is recorded; the others are still to do. -/
theorem Sparing.record {on : Option OutboundCall} {m : QueuedMessage} {rest : List QueuedMessage} {f : OutboundRow → OutboundRow}
    {keeps : ∀ r, (f r).id = r.id} (h : Sparing c on (m :: rest) w)
    (writes : ∀ row, (f row).status.isVerdict = false ∧ (f row).conversation = row.conversation) :
    Mild (.call c) w (recorded on m.id (setOutbound m.id f keeps w)) ∧
      Sparing c on rest (recorded on m.id (setOutbound m.id f keeps w)) := by
  obtain ⟨mine, nodup, spared⟩ := h
  rw [List.map_cons, List.nodup_cons] at nodup
  have written : Mild (.call c) w (setOutbound m.id f keeps w) := mild_setOutbound (spared m List.mem_cons_self).clean writes
  have mild : Mild (.call c) w (recorded on m.id (setOutbound m.id f keeps w)) :=
    written.trans (mild_connection recorded_messages recorded_sends recorded_transactions fun j other => backlogOf_recorded_ne mine other)
  refine ⟨mild, mine, nodup.2, fun m' mem => mild.unjudged.spared (fun ids read listed => ?_) (spared m' (List.mem_cons_of_mem _ mem))⟩
  rcases mine with rfl | rfl
  · exact ⟨ids, read, listed⟩
  · have apart : m'.id ≠ m.id := fun same => nodup.1 (same ▸ List.mem_map_of_mem mem)
    refine ⟨ids.erase m.id, ?_, (List.mem_erase_of_ne apart).2 listed⟩
    rw [backlogOf_recorded, show backlogOf c (setOutbound m.id f keeps w) = some ids from read]
    rfl

/-- A status write on the call's connection. -/
theorem Sparing.safe_mark {on : Option OutboundCall} {m : QueuedMessage} {rest : List QueuedMessage} {op : OutboundStmt}
    {Q : Except OutboundErr op.Reply → OutboundWorld → Prop} {f : OutboundRow → OutboundRow} {keeps : ∀ r, (f r).id = r.id}
    (h : Sparing c on (m :: rest) w) (writes : ∀ row, (f row).status.isVerdict = false ∧ (f row).conversation = row.conversation)
    (runs : ∀ t, (outboundExec op t).2 = t ∨ (outboundExec op t).2 = recorded on m.id (setOutbound m.id f keeps t))
    (next : ∀ r t, Sparing c on rest t → Q r t) :
    Safe sparingFlow verdictProtocol (.call c) Q (call (I := outboundStore) op) w := by
  refine safe_verdict (fun t rely inv _ _ => ?_) fun t rely _ => next _ t (h.relies rely).rest
  have held := h.relies rely
  rcases runs t with same | written
  · rw [same]
    exact ⟨mild_refl.keeps inv, next _ t held.rest, fun _ => next _ t held.rest⟩
  · obtain ⟨mild, after⟩ := held.record writes
    rw [written]
    exact ⟨mild.keeps inv, next _ _ after, fun _ => next _ _ after⟩

/-- A statement on the call's connection: it is executed, or the connection is closed. -/
theorem keeps_onConnection {α : Type} {on : Option OutboundCall} {f : Except OutboundErr α × OutboundWorld} (inv : Staged w)
    (mild : Mild (.call c) w f.2) : KeepsVerdicts (.call c) w (onConnection on w f).2 := by
  rcases onConnection_cases on f with ⟨runs, -⟩ | ⟨runs, -⟩
  · rw [runs]
    exact mild.keeps inv
  · rw [runs]
    exact mild_refl.keeps inv

theorem keeps_closeConnection (inv : Staged w) : KeepsVerdicts (.call c) w (closeConnection c w) := by
  have mild : Mild (.call c) w (closeConnection c w) :=
    mild_connection rfl rfl rfl fun _ other => backlogOf_closeConnection_ne other
  exact mild.keeps inv

theorem safe_acquire : Safe sparingFlow verdictProtocol (.call c) (fun _ _ => True) (call (I := outboundStore) (.acquire c)) w := by
  refine safe_plain fun t _ inv _ _ => ?_
  simp only [outboundExec]
  split
  · rename_i connections inserted
    have mild : Mild (.call c) t { t with connections := connections } :=
      mild_connection rfl rfl rfl fun _ other => backlogOf_acquired_ne inserted other
    exact mild.keeps inv
  · exact mild_refl.keeps inv

/-- The backlog: pending rows, and the connection knows them. -/
theorem safe_loadBacklog {conversation : String} {seq : Int} :
    Safe sparingFlow verdictProtocol (.call c) (Replied (fun backlog => Sparing c (some c) backlog) fun _ => True)
      (call (I := outboundStore) (.loadBacklog c conversation seq)) w := by
  refine safe_verdict (fun t _ inv _ _ => ?_) fun _ _ _ => trivial
  have mild : Mild (.call c) t (setConnection c
      (fun x => { x with backlog := (loadBacklog conversation seq t).map QueuedMessage.id }) (fun _ => rfl) t) :=
    mild_connection rfl rfl rfl fun _ other => backlogOf_setConnection_ne other
  simp only [outboundExec]
  rcases onConnection_cases (some c) (_ : Except OutboundErr (List QueuedMessage) × OutboundWorld) with ⟨runs, isOpen⟩ | ⟨runs, -⟩
  · obtain ⟨ids, read⟩ := isOpen c rfl
    rw [runs]
    refine ⟨mild.keeps inv, ⟨.inr rfl, loadBacklog_nodup, fun m mem => ?_⟩, fun _ => trivial⟩
    obtain ⟨row, hrow, -, pending, -, scanned⟩ := mem_loadBacklog.1 mem
    refine ⟨row, hrow, (joined_eq scanned).1.symm, by rw [pending]; rfl, .inr ⟨_, ?_, List.mem_map_of_mem mem⟩⟩
    have reads := backlogOf_setConnection (c := c) (w := t) (g := fun _ => (loadBacklog conversation seq t).map QueuedMessage.id)
    rw [reads, read]
    rfl
  · rw [runs]
    exact ⟨mild_refl.keeps inv, trivial, fun _ => trivial⟩

theorem Sparing.safe_send {on : Option OutboundCall} {m : QueuedMessage} {rest : List QueuedMessage} {request : SendRequest}
    {outcome : SendOutcome} (h : Sparing c on (m :: rest) w) :
    Safe sparingFlow verdictProtocol (.call c) (fun _ => Sparing c on (m :: rest))
      (call (I := outboundStore) (.send m request outcome)) w := by
  refine safe_verdict (fun t rely inv _ _ => ?_) fun _ _ may => may.elim
  have held := h.relies rely
  have mild : Mild (.call c) t (outboundExec (.send m request outcome) t).2 := mild_send (held.2.2 m List.mem_cons_self)
  exact ⟨mild.keeps inv, held, fun may => may.elim⟩

theorem runs_onConnection {α : Type} {on : Option OutboundCall} {r : Except OutboundErr α} {w' : OutboundWorld} :
    (onConnection on w (r, w')).2 = w ∨ (onConnection on w (r, w')).2 = w' := by
  rcases onConnection_cases on (r, w') with ⟨runs, -⟩ | ⟨runs, -⟩
  · exact .inr (by rw [runs])
  · exact .inl (by rw [runs])

/-- What a delivery knows where. -/
def verdictOutline (c : OutboundCall) (wa : Option Sender) : Outline sparingFlow verdictProtocol c wa fun _ _ => True where
  ready _ _ _ := True
  acquired _ _ _ := True
  locked _ _ _ := True
  todo := Sparing c
  sent on m rest := Sparing c on (m :: rest)
  failed on m rest := Sparing c on (m :: rest)
  leaving _ _ := True
  acquire _ _ _ _ := safe_acquire.mono fun r _ _ => by cases r <;> simp [Replied]
  lock _ _ _ _ := (safe_plain fun _ _ inv _ _ => keeps_onConnection inv (mild_connection rfl rfl rfl fun _ _ => rfl)).mono
    fun r _ _ => by cases r <;> simp [Replied]
  load _ _ _ _ := safe_loadBacklog.mono fun r _ after => by
    cases r with
    | ok backlog => exact after
    | error e => exact fun _ => trivial
  unsent _ _ _ _ _ todo := todo
  send _ _ _ _ _ _ _ todo := todo.safe_send.mono fun r _ after => by cases r <;> exact after
  markSent _ _ _ whatsappMessageID response _ sent :=
    sent.safe_mark (f := .markSent whatsappMessageID response) (fun _ => ⟨rfl, rfl⟩) (fun _ => runs_onConnection) fun _ _ done => done
  markFailed _ _ _ error _ failed :=
    failed.safe_mark (f := .markFailed error) (fun _ => ⟨rfl, rfl⟩) (fun _ => runs_onConnection) fun _ _ done => done
  skip _ _ _ _ failed := failed.rest
  finish _ _ _ := trivial
  leave _ _ _ := trivial
  unlock _ _ _ _ := safe_plain fun _ _ inv _ _ => keeps_onConnection inv
    (mild_connection rfl rfl rfl fun _ other => backlogOf_setConnection_ne other)
  release _ _ _ := safe_plain fun _ _ inv _ _ => keeps_closeConnection inv
  close _ _ _ := safe_plain fun _ _ inv _ _ => keeps_closeConnection inv

/-- A row that is loaded and not skipped has no verdict. -/
theorem safe_loadMessage {id : String} :
    Safe sparingFlow verdictProtocol (.call c) (Loaded (fun _ _ => True) (fun _ _ _ => True) (Sparing c))
      (call (I := outboundStore) (.loadMessage id)) w := by
  refine safe_verdict (fun t _ inv _ _ => ⟨mild_refl.keeps inv, ?_, fun _ _ => trivial⟩) fun _ _ _ _ => trivial
  simp only [outboundExec]
  cases found : loadMessage id t with
  | none => trivial
  | some m =>
    refine ⟨fun _ => trivial, fun kept => ⟨fun alone => ⟨.inl rfl, List.nodup_singleton _, fun m' mem => ?_⟩, fun _ _ => trivial⟩⟩
    rw [List.mem_singleton.1 mem]
    obtain ⟨row, hrow, -, scanned⟩ := loadMessage_eq found
    obtain ⟨named, -, status, conversation⟩ := joined_eq scanned
    have clean : m.status.isVerdict = false := by
      unfold skipOutbound at kept
      exact (Bool.or_eq_false_iff.1 kept).2
    exact ⟨row, hrow, named.symm, status ▸ clean, .inl (conversation.symm.trans alone)⟩

theorem safe_deliver {finalAttempt : Bool} {id : String} :
    Safe sparingFlow verdictProtocol (.call c) (fun _ _ => True) (deliver c wa id finalAttempt) w :=
  (verdictOutline c wa).safe_deliver rfl safe_loadMessage

end Deliveries

/-! ## Sweeps -/

section Sweeping

variable {tx : String} {rows : List StrandedRow} {w : OutboundWorld}

/-- While the sweep's transaction is open it has the lock, and the rows it has read are still without a verdict. -/
def Sweeping (tx : String) (rows : List StrandedRow) (w : OutboundWorld) : Prop :=
  ∀ t, openSweep tx w = some t → t.locked = true ∧ ∀ msg ∈ rows,
    ∃ row ∈ w.messages.rows, row.id = msg.id ∧ row.conversation.getD "" = msg.conversationID ∧ row.status.isVerdict = false

theorem Sweeping.relies {t : OutboundWorld} (h : Sweeping tx rows w) (rely : verdictRely (.sweep tx) w t) : Sweeping tx rows t := by
  intro tr isOpen
  obtain ⟨before, unjudged⟩ := rely tr isOpen
  obtain ⟨locked, known⟩ := h tr before
  refine ⟨locked, fun msg mem => ?_⟩
  obtain ⟨row, hrow, named, conversation, clean⟩ := known msg mem
  obtain ⟨row', hrow', id', conversation', clean'⟩ := unjudged locked row hrow clean
  exact ⟨row', hrow', id'.trans named, by rw [conversation', conversation], clean'⟩

theorem Sweeping.rest {msg : StrandedRow} (h : Sweeping tx (msg :: rows) w) : Sweeping tx rows w :=
  fun t isOpen => ⟨(h t isOpen).1, fun m mem => (h t isOpen).2 m (List.mem_cons_of_mem _ mem)⟩

/-- A statement of the sweep's transaction; its errors end the sweep. -/
theorem safe_withinSweep {op : OutboundStmt} {Q : Except OutboundErr op.Reply → OutboundWorld → Prop}
    {body : OutboundWorld → SweepTx → Except OutboundErr op.Reply × OutboundWorld}
    (runs : ∀ t, outboundExec op t = withinSweep tx t (body t)) (failed : ∀ e t, Q (.error e) t)
    (executed : ∀ t tr, verdictRely (.sweep tx) w t → Staged t → outboundProceeds t op → spares t op → openSweep tx t = some tr →
      KeepsVerdicts (.sweep tx) t (body t tr).2 ∧ Q (body t tr).1 (body t tr).2) :
    Safe sparingFlow verdictProtocol (.sweep tx) Q (call (I := outboundStore) op) w := by
  refine safe_verdict (fun t rely inv may spare => ?_) fun t _ _ => failed _ t
  rw [runs t, withinSweep]
  cases isOpen : openSweep tx t with
  | none => exact ⟨mild_refl.keeps inv, failed _ t, fun _ => failed _ t⟩
  | some tr =>
    obtain ⟨keeps, next⟩ := executed t tr rely inv may spare isOpen
    exact ⟨keeps, next, fun _ => failed _ _⟩

theorem safe_lockSweep :
    Safe sparingFlow verdictProtocol (.sweep tx) (Replied (fun _ => Sweeping tx []) fun _ => True)
      (call (I := outboundStore) (.lockSweep tx)) w := by
  refine safe_withinSweep (fun _ => rfl) (fun _ _ => trivial) fun t tr _ inv may _ isOpen => ⟨?_, fun tr' isOpen' => ?_⟩
  · obtain ⟨mem, named, notEnded⟩ := openSweep_eq_some.1 isOpen
    exact keeps_setSweep inv isOpen (inv.stale tr mem notEnded) (fun _ => rfl) fun _ => may
  · have notEnded := (openSweep_eq_some.1 isOpen).2.2
    rw [openSweep_setSweep isOpen notEnded] at isOpen'
    cases isOpen'
    exact ⟨rfl, fun _ mem => nomatch mem⟩

theorem mem_stranded {cutoff : Int} {msg : StrandedRow} (h : msg ∈ stranded cutoff w) :
    ∃ row ∈ w.messages.rows, row.id = msg.id ∧ row.conversation.getD "" = msg.conversationID ∧ row.status = .pending := by
  unfold stranded at h
  obtain ⟨row, mem, rfl⟩ := List.mem_map.1 h
  have mem := List.mem_of_mem_take mem
  rw [List.mem_insertionSort, List.mem_filter] at mem
  simp only [Bool.and_eq_true, decide_eq_true_eq] at mem
  exact ⟨row, mem.1, rfl, rfl, mem.2.1⟩

theorem Sweeping.safe_stranded {cutoff : Int} (h : Sweeping tx [] w) :
    Safe sparingFlow verdictProtocol (.sweep tx) (Replied (fun rows => Sweeping tx rows) fun _ => True)
      (call (I := outboundStore) (.stranded tx cutoff)) w := by
  refine safe_withinSweep (fun _ => rfl) (fun _ _ => trivial) fun t tr rely inv _ _ _ => ⟨mild_refl.keeps inv, fun tr' isOpen' => ?_⟩
  refine ⟨(h.relies rely tr' isOpen').1, fun msg mem => ?_⟩
  obtain ⟨row, hrow, named, conversation, pending⟩ := mem_stranded mem
  exact ⟨row, hrow, named, conversation, by rw [pending]; rfl⟩

/-- A stale row: it is one of a conversation and still without a verdict. -/
theorem Sweeping.safe_markFailedStale {msg : StrandedRow} (h : Sweeping tx (msg :: rows) w) (conversing : msg.conversationID ≠ "") :
    Safe sparingFlow verdictProtocol (.sweep tx) (Replied (fun _ => Sweeping tx rows) fun _ => True)
      (call (I := outboundStore) (.markFailedStale tx msg.id)) w := by
  refine safe_withinSweep (fun _ => rfl) (fun _ _ => trivial) fun t tr rely inv _ _ isOpen => ?_
  obtain ⟨mem, named, notEnded⟩ := openSweep_eq_some.1 isOpen
  obtain ⟨locked, known⟩ := h.relies rely tr isOpen
  refine ⟨keeps_setSweep inv isOpen (fun id hid => ?_) (fun _ => locked) fun _ t' ht' apart isOpen' => ?_, fun tr' isOpen' => ?_⟩
  · rcases List.mem_cons.1 hid with rfl | hid
    · obtain ⟨row, hrow, same, conversation, clean⟩ := known msg List.mem_cons_self
      refine ⟨row, hrow, same, fun alone => conversing ?_, clean⟩
      rw [← conversation, alone]
      rfl
    · exact inv.stale tr mem notEnded id hid
  · cases locked' : t'.locked with
    | false => rfl
    | true =>
      obtain rfl := inv.one tr mem t' ht' notEnded isOpen' locked locked'
      exact (apart named).elim
  · rw [openSweep_setSweep isOpen notEnded] at isOpen'
    cases isOpen'
    exact ⟨locked, fun m mem => known m (List.mem_cons_of_mem _ mem)⟩

theorem Sweeping.safe_markStale {msg : StrandedRow} (h : Sweeping tx (msg :: rows) w) :
    Safe sparingFlow verdictProtocol (.sweep tx) (Replied (fun _ => Sweeping tx rows) fun _ => True) (markStale tx msg) w := by
  unfold markStale
  split
  · exact h.rest
  · rename_i conversing
    have probe : Safe sparingFlow verdictProtocol (.sweep tx) (Replied (fun _ => Sweeping tx (msg :: rows)) fun _ => True)
        (call (I := outboundStore) (.newerSent tx msg.conversationID msg.id)) w :=
      safe_withinSweep (fun _ => rfl) (fun _ _ => trivial) fun t tr rely inv _ _ _ => ⟨mild_refl.keeps inv, h.relies rely⟩
    refine Safe.bind (probe.mono fun newer t known => ?_)
    match newer, known with
    | .error e, _ => exact trivial
    | .ok none, known => exact known.rest
    | .ok (some _), known =>
      refine Safe.bind ((known.safe_markFailedStale conversing).mono fun marked u after => ?_)
      cases marked with
      | error e => exact trivial
      | ok _ => exact after

theorem Sweeping.safe_sweepRows {publisher : Bool} (h : Sweeping tx rows w) :
    Safe sparingFlow verdictProtocol (.sweep tx) (fun _ _ => True) (sweepRows tx publisher rows) w := by
  induction rows generalizing w with
  | nil => exact trivial
  | cons msg rest ih =>
    refine Safe.bind (h.safe_markStale.mono fun stale t known => ?_)
    cases stale with
    | error e => exact trivial
    | ok stale =>
      simp only
      split
      · exact ih known
      · have publishes : Safe sparingFlow verdictProtocol (.sweep tx) (fun _ => Sweeping tx rest)
            (call (I := outboundStore) (.publishOutbound msg.id)) t :=
          safe_verdict (fun u rely inv _ _ => ⟨mild_refl.keeps inv, known.relies rely, fun _ => known.relies rely⟩)
            fun u rely _ => known.relies rely
        exact Safe.bind (Safe.bind (Safe.attempt (publishes.mono fun _ u known => ih known)))

theorem safe_sweepWithin {now : Int} {publisher : Bool} :
    Safe sparingFlow verdictProtocol (.sweep tx) (fun _ _ => True) (sweepWithin tx now publisher) w := by
  unfold sweepWithin
  refine Safe.bind (safe_lockSweep.mono fun locked t known => ?_)
  cases locked with
  | error e => exact trivial
  | ok _ =>
    refine Safe.bind ((known.safe_stranded).mono fun rows u known => ?_)
    cases rows with
    | error e => exact trivial
    | ok rows =>
      refine Safe.bind (known.safe_sweepRows.mono fun swept v _ => ?_)
      cases swept with
      | error e => exact trivial
      | ok _ =>
        exact safe_withinSweep (fun _ => rfl) (fun _ _ => trivial) fun x tr _ inv _ spare isOpen =>
          ⟨keeps_commit inv isOpen spare, trivial⟩

theorem safe_sweepOutbox {now : Int} {publisher : Bool} :
    Safe sparingFlow verdictProtocol (.sweep tx) (fun _ _ => True) (sweepOutbox tx now publisher) w := by
  unfold sweepOutbox
  have begins : Safe sparingFlow verdictProtocol (.sweep tx) (fun _ _ => True) (call (I := outboundStore) (.begin tx)) w := by
    refine safe_plain fun t _ inv _ _ => ?_
    simp only [outboundExec]
    split
    · rename_i transactions inserted
      exact keeps_begin inv inserted
    · exact mild_refl.keeps inv
  refine Safe.bind (begins.mono fun began t _ => ?_)
  cases began with
  | error e => exact trivial
  | ok _ =>
    refine Safe.bind (Safe.attempt (safe_sweepWithin.mono fun swept u _ => ?_))
    cases swept with
    | ok _ => exact trivial
    | error e => exact Safe.bind (Safe.bind (Safe.attempt (safe_plain fun v _ inv _ _ => keeps_endSweep inv)))

end Sweeping

/-! ## Runs -/

/-- Every job keeps the protocol wherever it starts. -/
theorem safe_outboundJob {i : OutboundName} {p : OutboundHandler Unit} {w : OutboundWorld} (may : sparingFlow.job i p) :
    Safe sparingFlow verdictProtocol i (fun _ _ => True) p w := by
  have tasks : ∀ {c : OutboundCall} {op : OutboundStmt} {w : OutboundWorld}, (∀ t, Mild (.call c) t (outboundExec op t).2) →
      Safe sparingFlow verdictProtocol (.call c) (fun _ _ => True) (call (I := outboundStore) op) w :=
    fun mild => safe_plain fun t _ inv _ _ => (mild t).keeps inv
  have aside : ∀ {c : OutboundCall} {t t' : OutboundWorld}, t'.messages = t.messages → t'.sends = t.sends →
      t'.transactions = t.transactions → (∀ j, backlogOf j t' = backlogOf j t) → Mild (.call c) t t' :=
    fun messages sends transactions backlogs => mild_connection messages sends transactions fun j _ => backlogs j
  cases may with
  | task c wa finalAttempt =>
    unfold handleOutboundSend
    refine Safe.bind ((tasks fun t => aside rfl rfl rfl fun _ => rfl).mono fun started t _ => ?_)
    cases started with
    | error e => exact trivial
    | ok _ =>
      refine Safe.bind (Safe.bind (Safe.attempt (safe_deliver.mono fun _ u _ => ?_)))
      exact tasks fun t => aside rfl rfl rfl fun _ => rfl
  | deliver c wa finalAttempt => exact safe_deliver
  | disconnect c => exact Safe.bind (Safe.bind (Safe.attempt (safe_plain fun v _ inv _ _ => keeps_closeConnection inv)))
  | recover c => exact Safe.bind (Safe.bind (Safe.attempt (tasks fun t => aside rfl rfl rfl fun _ => rfl)))
  | sweep tx now publisher => exact safe_sweepOutbox
  | insert n row =>
    refine safe_plain fun t _ inv _ _ => ?_
    simp only [outboundExec]
    split
    · rename_i w' inserted
      exact (mild_insert inserted).keeps inv
    · exact mild_refl.keeps inv
  | rollback n tx => exact safe_plain fun t _ inv _ _ => keeps_endSweep inv
  | loseConnection n c =>
    refine safe_plain fun t _ inv _ spare => ?_
    have spare : backlogOf c t = some [] := spare
    refine (mild_of_eq rfl rfl rfl fun j ids _ read id listed => ?_ : Mild _ t (closeConnection c t)).keeps inv
    by_cases own : j = c
    · rw [own, spare] at read
      cases read
      cases listed
    · exact ⟨ids, (backlogOf_closeConnection_ne own).trans read, listed⟩

/-- As long as no sweep commits a verdict on a row that a running delivery is about to send, a verdict is final: its row
never changes again, and nothing of it is handed to the sender any more. -/
theorem verdict_final {w : OutboundWorld} {a b : Crew outboundStore OutboundName OutboundWorld} (quiet : w.transactions.rows = [])
    (reach : sparingFlow.Reach ⟨w, []⟩ a) (later : sparingFlow.Reach a b) {row : OutboundRow} (mem : row ∈ a.state.messages.rows)
    (verdict : row.status = .failedStale ∨ row.status = .failed24hWindowClosed) :
    row ∈ b.state.messages.rows ∧ sendsOf row.id b.state = sendsOf row.id a.state := by
  have start : Staged w := by
    refine ⟨fun t ht => ?_, fun t ht => ?_, fun t ht => ?_⟩ <;>
    · rw [quiet] at ht
      cases ht
  have outside : ∀ p, ¬ sparingFlow.job .observer p := fun p may => nomatch may
  have final : Final a.state b.state := Protocol.observed (Protocol.promise_idle (P := verdictProtocol))
    (fun _ _ _ may _ _ => safe_outboundJob may) reach later start (fun _ => trivial) outside
  refine final row mem ?_
  rcases verdict with status | status <;> rw [status] <;> rfl

/-- The invoice waits to be sent, and a newer message of its conversation has been. -/
def superseded : OutboundWorld :=
  conversationOf [invoice, { invoice with id := "m2", seq := 2, status := .sent, createdAt := 10 }] (by decide)

/-- The delivery of the older message. -/
def olderDelivery : OutboundHandler Unit := deliver ⟨0, "m1"⟩ (some accepting) "m1" true

/-- A sweep after two minutes. -/
def laterSweep : OutboundHandler Unit := sweepOutbox "tx" 200000 true

/-- The message is judged while no delivery has read it, and the delivery that comes later does not send it. -/
theorem verdict_final_swept :
    ∃ a b : Crew outboundStore OutboundName OutboundWorld, sparingFlow.Reach ⟨superseded, []⟩ a ∧ sparingFlow.Reach a b ∧
      { invoice with status := .failedStale } ∈ a.state.messages.rows ∧
      { invoice with status := .failedStale } ∈ b.state.messages.rows ∧ sendsOf "m1" b.state = sendsOf "m1" a.state := by
  have swept := sparingFlow.reach_job (i := .sweep "tx") (s := superseded) (.sweep "tx" 200000 true trivial) (by decide +kernel)
  have delivered := sparingFlow.reach_job (i := .call ⟨0, "m1"⟩) (.deliver ⟨0, "m1"⟩ (some accepting) true trivial trivial)
    (by decide +kernel : sparingFlow.Follows olderDelivery (laterSweep.run outboundExec superseded).2)
  have judged : { invoice with status := .failedStale } ∈ (laterSweep.run outboundExec superseded).2.messages.rows := by
    decide +kernel
  exact ⟨_, _, swept, delivered, judged, verdict_final rfl swept delivered judged (.inl rfl)⟩

/-- The delivery has read its backlog. -/
def backlogRead : OutboundHandler Unit × OutboundWorld := olderDelivery.steps outboundExec 4 superseded

/-- The sweep commits its verdict. -/
def judgedMeanwhile : OutboundHandler Unit × OutboundWorld := laterSweep.steps outboundExec 20 backlogRead.2

/-- A verdict committed between the delivery's read of its backlog and its send is neither obeyed nor kept. -/
theorem verdict_overwritten :
    ¬ ∀ a b : Crew outboundStore OutboundName OutboundWorld, (outboundFlow everything).Reach ⟨superseded, []⟩ a →
      (outboundFlow everything).Reach a b → ∀ row ∈ a.state.messages.rows, row.status = .failedStale →
        (∃ row' ∈ b.state.messages.rows, row'.id = row.id ∧ row'.status = row.status) ∧
          sendsOf row.id b.state = sendsOf row.id a.state := by
  intro final
  have spawned : (outboundFlow everything).Reach ⟨superseded, []⟩ ⟨superseded, [] ++ (.call ⟨0, "m1"⟩, olderDelivery) :: []⟩ :=
    .single (.spawn (.deliver ⟨0, "m1"⟩ (some accepting) true trivial trivial) List.not_mem_nil)
  have read := spawned.trans ((outboundFlow everything).reach_steps 4 [] [] (by decide +kernel))
  have sweeps := read.tail (.spawn (.sweep "tx" 200000 true trivial) (by decide))
  have judged := sweeps.trans ((outboundFlow everything).reach_steps 20 [] [(.call ⟨0, "m1"⟩, backlogRead.1)] (by decide +kernel))
  have sends := (outboundFlow everything).reach_steps 20 [(.sweep "tx", judgedMeanwhile.1)] [] (i := .call ⟨0, "m1"⟩)
    (s := judgedMeanwhile.2) (p := backlogRead.1) (by decide +kernel)
  have contra := final _ _ judged sends { invoice with status := .failedStale } (by decide +kernel) rfl
  exact absurd contra.2 (by decide +kernel)

end NovoApex.Outbound
