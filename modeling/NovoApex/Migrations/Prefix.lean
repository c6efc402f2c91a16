import NovoApex.Migrations.Migrate
import Mathlib.Data.List.Perm.Basic

/-!
# Migrations are applied in order, each once

Whoever holds the lock is the only one whose transaction writes, and what it has read of
the versions stays true until it writes the next one. A connection that is lost loses the
lock and the transaction together. So every commit extends what is on record by the
first migration that is missing, and the schema by its file.
-/

namespace NovoApex.Migrations
set_option autoImplicit false
open Lib Program

/-- The schema after some files. -/
def runAll {S : Type} (run : String → S → Option S) (schema : S) (ms : List Migration) : Option S :=
  ms.foldlM (fun s m => run m.sql s) schema

/-- What is on record may be extended by the first migration that is missing. -/
def Extends {S : Type} (run : String → S → Option S) (ms : List Migration) (good : List String → S → Prop) : Prop :=
  ∀ front m rest rows schema schema', ms = front ++ m :: rest → (∀ v ∈ rows, v ∈ ms.map Migration.version) →
    (∀ x ∈ front, x.version ∈ rows) → m.version ∉ rows → good rows schema → run m.sql schema = some schema' →
    good (rows ++ [m.version]) schema'

section Protocol

variable {S : Type}

/-- A connection that the client or the server has closed. -/
def Closed (c : String) (w : MigrationWorld S) : Prop := (∃ tx, w.sessions c = .closed tx) ∨ w.sessions c = .gone

/-- How far a process is: it is connected; its connection has no transaction; or it holds the lock, and has this
transaction over this table and schema. -/
inductive MigrationStage (S : Type) where
  | connected
  | outside
  | holding (tx : Option (TxView S)) (table : Option (List String)) (schema : S)

/-- The process holds the lock. -/
def Holds (c : String) (w : MigrationWorld S) : Prop := ∃ n, w.lock = some (c, n)

/-- What a process knows at a stage. -/
def KnowsMigration (c : String) : MigrationStage S → MigrationWorld S → Prop
  | .connected, w => ∃ tx, w.sessions c = .live tx
  | .outside, w => w.sessions c = .live none
  | .holding tx table schema, w => Holds c w ∧ w.sessions c = .live tx ∧ w.schemaMigrations = table ∧ w.schema = schema

/-- What a process knows, unless its connection is closed. -/
def MigrationStands (c : String) (stage : MigrationStage S) (w : MigrationWorld S) : Prop := Closed c w ∨ KnowsMigration c stage w

/-- These versions are on record. -/
def Recorded (versions : List String) (w : MigrationWorld S) : Prop := ∀ v ∈ versions, v ∈ w.recorded

/-- What is on record stays, and a process relies on the others for what it knows. -/
structure MigrationRely (i : MigrationName) (s t : MigrationWorld S) : Prop where
  recorded : ∀ v ∈ s.recorded, v ∈ t.recorded
  stands : ∀ c, i = .migrator c → ∀ stage, MigrationStands c stage s → MigrationStands c stage t

def migrationProtocol (good : List String → S → Prop) : Protocol MigrationName (MigrationWorld S) where
  inv w := good w.recorded w.schema
  rely := MigrationRely
  refl _ _ := ⟨fun _ mem => mem, fun _ _ _ known => known⟩
  trans _ _ _ _ first second := ⟨fun v mem => second.recorded v (first.recorded v mem),
    fun c same stage known => second.stands c same stage (first.stands c same stage known)⟩

theorem Recorded.mono {i : MigrationName} {versions : List String} {s t : MigrationWorld S} (h : Recorded versions s)
    (rely : MigrationRely i s t) : Recorded versions t := fun v mem => rely.recorded v (h v mem)

/-! ## What leaves a process alone -/

/-- A step that a process does not notice. -/
structure Aside (c : String) (s t : MigrationWorld S) : Prop where
  session : t.sessions c = s.sessions c
  holds : Holds c s → Holds c t ∧ t.schemaMigrations = s.schemaMigrations ∧ t.schema = s.schema

theorem Aside.stands {c : String} {stage : MigrationStage S} {s t : MigrationWorld S} (h : Aside c s t)
    (known : MigrationStands c stage s) : MigrationStands c stage t := by
  rcases known with closed | known
  · left
    unfold Closed
    rw [h.session]
    exact closed
  · right
    cases stage with
    | connected =>
      obtain ⟨tx, live⟩ := known
      exact ⟨tx, h.session.trans live⟩
    | outside => exact h.session.trans known
    | holding tx table schema =>
      obtain ⟨holds, session, table', schema'⟩ := known
      obtain ⟨holds', same, same'⟩ := h.holds holds
      exact ⟨holds', h.session.trans session, same.trans table', same'.trans schema'⟩

/-- A step that other processes do not notice, and that keeps what is on record. -/
theorem rely_of_aside {c : String} {s t : MigrationWorld S} (aside : ∀ other, other ≠ c → Aside other s t)
    (recorded : ∀ v ∈ s.recorded, v ∈ t.recorded) : ∀ j, j ≠ MigrationName.migrator c → MigrationRely j s t := by
  intro j ne
  refine ⟨recorded, fun other same stage known => ?_⟩
  subst same
  exact (aside other fun same => ne (same ▸ rfl)).stands known

/-- A session's own state is nobody else's. -/
theorem aside_setSession {c other : String} (ne : other ≠ c) (state : SessionState S) (w : MigrationWorld S) :
    Aside other w (setSession c state w) :=
  ⟨Function.update_of_ne ne _ _, fun holds => ⟨holds, rfl, rfl⟩⟩

/-- Another process's lock stays. -/
theorem holds_takeLock {c other : String} {w : MigrationWorld S} (ne : other ≠ c) (holds : Holds other w) :
    Holds other { w with lock := takeLock c w.lock } := by
  obtain ⟨n, locked⟩ := holds
  refine ⟨n, ?_⟩
  show takeLock c w.lock = _
  rw [locked]
  exact if_neg ne

theorem holds_giveLock {c other : String} {w : MigrationWorld S} (ne : other ≠ c) (holds : Holds other w) :
    Holds other { w with lock := giveLock c w.lock } := by
  obtain ⟨n, locked⟩ := holds
  refine ⟨n, ?_⟩
  show giveLock c w.lock = _
  rw [locked]
  cases n with
  | zero => exact if_neg ne
  | succ n => exact if_neg ne

theorem holds_disconnect {c other : String} {w : MigrationWorld S} (ne : other ≠ c) (holds : Holds other w) :
    (if w.lock.any (fun l => l.1 == c) then none else w.lock) = w.lock := by
  obtain ⟨n, locked⟩ := holds
  rw [locked]
  simp [ne]

end Protocol

/-! ## Statements -/

section Statements

variable {S : Type} {entries : List Entry} {run : String → S → Option S} {good : List String → S → Prop} {c : String}
  {w : MigrationWorld S} {versions : List String}

/-- A process is at a stage, and these versions are on record. -/
def Standing (c : String) (stage : MigrationStage S) (versions : List String) (w : MigrationWorld S) : Prop :=
  MigrationStands c stage w ∧ Recorded versions w

theorem Standing.rely {stage : MigrationStage S} {s t : MigrationWorld S} (h : Standing c stage versions s)
    (rely : MigrationRely (.migrator c) s t) : Standing c stage versions t :=
  ⟨rely.stands c rfl stage h.1, h.2.mono rely⟩

theorem Standing.outside {tx : Option (TxView S)} {table : Option (List String)} {schema : S}
    (h : Standing c (.holding tx table schema) versions w) (none : tx = none) : Standing c .outside versions w := by
  subst none
  rcases h with ⟨closed | known, recorded⟩
  · exact ⟨.inl closed, recorded⟩
  · exact ⟨.inr known.2.1, recorded⟩

theorem MigrationStands.connected {stage : MigrationStage S} (h : MigrationStands c stage w) : MigrationStands c .connected w := by
  rcases h with closed | known
  · exact .inl closed
  · right
    cases stage with
    | connected => exact known
    | outside => exact ⟨none, known⟩
    | holding tx table schema => exact ⟨tx, known.2.1⟩

/-- A statement on a closed connection. -/
theorem onSession_closed {α : Type} (closed : Closed c w) (f : Option (TxView S) → Except MigrateErr α × MigrationWorld S) :
    onSession c w f = (.error .connClosed, w) := by
  unfold onSession
  rcases closed with ⟨tx, state⟩ | state <;> rw [state]

theorem onSession_live {α : Type} {tx : Option (TxView S)} (live : w.sessions c = .live tx)
    (f : Option (TxView S) → Except MigrateErr α × MigrationWorld S) : onSession c w f = f tx := by
  unfold onSession
  rw [live]

/-- What a statement of a process does to the others and to what is on record. -/
structure Quiet (good : List String → S → Prop) (c : String) (s t : MigrationWorld S) : Prop where
  good : good t.recorded t.schema
  aside : ∀ other, other ≠ c → Aside other s t
  recorded : ∀ v ∈ s.recorded, v ∈ t.recorded

theorem Quiet.refl (inv : good w.recorded w.schema) : Quiet good c w w :=
  ⟨inv, fun _ _ => ⟨rfl, fun holds => ⟨holds, rfl, rfl⟩⟩, fun _ mem => mem⟩

theorem Quiet.session (state : SessionState S) (inv : good w.recorded w.schema) : Quiet good c w (setSession c state w) :=
  ⟨inv, fun _ ne => aside_setSession ne state w, fun _ mem => mem⟩

/-- One statement of a process: on a closed connection it is an error, and otherwise what it does is known. -/
theorem safe_own {op : MigrationStmt} {stage : MigrationStage S} {A : migrationStore.Reply op → MigrationWorld S → Prop}
    {B : MigrationStage S} (known : Standing c stage versions w)
    (closed : ∀ t, Closed c t → migrationExec run op t = (.error .connClosed, t))
    (executed : ∀ t, good t.recorded t.schema → migrationProceeds t op → KnowsMigration c stage t →
      Quiet good c t (migrationExec run op t).2 ∧
        Replied A (MigrationStands c B) (migrationExec run op t).1 (migrationExec run op t).2 ∧
        MigrationStands c B (migrationExec run op t).2)
    (failed : ∀ t, KnowsMigration c stage t → MigrationStands c B t) :
    Safe (migrationFlow entries run) (migrationProtocol good) (.migrator c)
      (Replied (fun a t => A a t ∧ Recorded versions t) (Standing c B versions)) (call (I := migrationStore) op) w := by
  apply Safe.call
  · intro t rely inv may
    obtain ⟨stands, recorded⟩ := known.rely rely
    rcases stands with gone | knows
    · simp only [migrationFlow, closed t gone]
      exact ⟨inv, fun j _ => (migrationProtocol good).refl j t, ⟨.inl gone, recorded⟩, fun _ => ⟨.inl gone, recorded⟩⟩
    · obtain ⟨quiet, reply, lost⟩ := executed t inv may knows
      have kept : Recorded versions (migrationExec run op t).2 := fun v mem => quiet.recorded v (recorded v mem)
      refine ⟨quiet.good, rely_of_aside quiet.aside quiet.recorded, ?_, fun _ => ⟨lost, kept⟩⟩
      show Replied _ _ (migrationExec run op t).1 (migrationExec run op t).2
      revert reply
      cases (migrationExec run op t).1 with
      | ok a => exact fun reply => ⟨reply, kept⟩
      | error e => exact fun reply => ⟨reply, kept⟩
  · intro t rely _ _
    obtain ⟨stands, recorded⟩ := known.rely rely
    rcases stands with gone | knows
    · exact ⟨.inl gone, recorded⟩
    · exact ⟨failed t knows, recorded⟩
  · intro t _ _ _
    trivial

theorem safe_advisoryLock (known : Standing c .outside versions w) :
    Safe (migrationFlow entries run) (migrationProtocol good) (.migrator c)
      (Replied (fun _ t => (∃ table schema, MigrationStands c (.holding none table schema) t) ∧ Recorded versions t)
        (Standing c .outside versions)) (call (I := migrationStore) (.advisoryLock c)) w := by
  apply safe_own known
  · intro t closed
    exact onSession_closed closed _
  · intro t inv may live
    have takes : migrationExec run (.advisoryLock c) t = (.ok (), { t with lock := takeLock c t.lock }) := onSession_live live _
    rw [takes]
    have own : Holds c { t with lock := takeLock c t.lock } := by
      show ∃ n, takeLock c t.lock = some (c, n)
      cases lock : t.lock with
      | none => exact ⟨0, rfl⟩
      | some l =>
        obtain ⟨holder, n⟩ := l
        obtain rfl := may holder n lock
        exact ⟨n + 1, if_pos rfl⟩
    refine ⟨⟨inv, fun other ne => ⟨rfl, fun holds => ⟨holds_takeLock ne holds, rfl, rfl⟩⟩, fun _ mem => mem⟩, ?_, .inr live⟩
    exact ⟨t.schemaMigrations, t.schema, .inr ⟨own, live, rfl, rfl⟩⟩
  · intro t live
    exact .inr live

/-- Nobody else holds the lock of a process. -/
theorem Holds.unique {other : String} {t : MigrationWorld S} (own : Holds c t) (holds : Holds other t) : other = c := by
  obtain ⟨n, lock⟩ := own
  obtain ⟨m, lock'⟩ := holds
  exact (Prod.mk.inj (Option.some.inj (lock'.symm.trans lock))).1

/-- The holder of the lock may write what nobody else looks at. -/
theorem aside_of_holder {s t : MigrationWorld S} (own : Holds c s) (sessions : ∀ other, other ≠ c → t.sessions other = s.sessions other) :
    ∀ other, other ≠ c → Aside other s t :=
  fun other ne => ⟨sessions other ne, fun holds => (ne (own.unique holds)).elim⟩

theorem safe_createTable {table : Option (List String)} {schema : S} (known : Standing c (.holding none table schema) versions w) :
    Safe (migrationFlow entries run) (migrationProtocol good) (.migrator c)
      (Replied (fun _ => Standing c (.holding none (some (table.getD [])) schema) versions) (Standing c .outside versions))
      (call (I := migrationStore) (.createTable c)) w := by
  apply safe_own known
  · intro t closed
    exact onSession_closed closed _
  · rintro t inv - ⟨own, live, rfl, rfl⟩
    have creates : migrationExec run (.createTable c) t = (.ok (), { t with schemaMigrations := some t.recorded }) :=
      onSession_live live _
    rw [creates]
    exact ⟨⟨inv, aside_of_holder own fun _ _ => rfl, fun _ mem => mem⟩, .inr ⟨own, live, rfl, rfl⟩, .inr live⟩
  · exact fun t known => .inr known.2.1

theorem safe_selectVersions {rows : List String} {schema : S} (known : Standing c (.holding none (some rows) schema) versions w) :
    Safe (migrationFlow entries run) (migrationProtocol good) (.migrator c)
      (Replied (fun applied t => (applied = rows ∧ MigrationStands c (.holding none (some rows) schema) t ∧ Recorded rows t) ∧
        Recorded versions t) (Standing c .outside versions)) (call (I := migrationStore) (.selectVersions c)) w := by
  apply safe_own known
  · intro t closed
    exact onSession_closed closed _
  · rintro t inv - ⟨own, live, table, rfl⟩
    have reads : migrationExec run (.selectVersions c) t = (.ok rows, t) := by
      refine (onSession_live live _).trans ?_
      rw [table]
    rw [reads]
    have there : Recorded rows t := by
      intro v mem
      unfold MigrationWorld.recorded
      rw [table]
      exact mem
    exact ⟨Quiet.refl inv, ⟨rfl, .inr ⟨own, live, table, rfl⟩, there⟩, .inr live⟩
  · exact fun t known => .inr known.2.1

theorem safe_begin {table : Option (List String)} {schema : S} (known : Standing c (.holding none table schema) versions w) :
    Safe (migrationFlow entries run) (migrationProtocol good) (.migrator c)
      (Replied (fun _ => Standing c (.holding (some ⟨schema, table⟩) table schema) versions) (Standing c .connected versions))
      (call (I := migrationStore) (.begin c)) w := by
  apply safe_own known
  · intro t closed
    exact onSession_closed closed _
  · rintro t inv - ⟨own, live, rfl, rfl⟩
    have begins : migrationExec run (.begin c) t = (.ok (), setSession c (.live (some ⟨t.schema, t.schemaMigrations⟩)) t) :=
      onSession_live live _
    rw [begins]
    have session : (setSession c (.live (some ⟨t.schema, t.schemaMigrations⟩)) t).sessions c =
        .live (some ⟨t.schema, t.schemaMigrations⟩) := Function.update_self ..
    exact ⟨Quiet.session _ inv, .inr ⟨own, session, rfl, rfl⟩, .inr ⟨_, session⟩⟩
  · exact fun t known => .inr ⟨none, known.2.1⟩

theorem safe_execFile {m : Migration} {v : TxView S} {table : Option (List String)} {schema : S}
    (known : Standing c (.holding (some v) table schema) versions w) :
    Safe (migrationFlow entries run) (migrationProtocol good) (.migrator c)
      (Replied (fun _ t => (∃ schema', run m.sql v.schema = some schema' ∧
        MigrationStands c (.holding (some { v with schema := schema' }) table schema) t) ∧ Recorded versions t) (Standing c .connected versions))
      (call (I := migrationStore) (.execFile c m)) w := by
  apply safe_own known
  · intro t closed
    exact onSession_closed closed _
  · rintro t inv - ⟨own, live, rfl, rfl⟩
    cases ran : run m.sql v.schema with
    | none =>
      have fails : migrationExec run (.execFile c m) t = (.error .sqlError, t) := by
        refine (onSession_live live _).trans ?_
        simp only [ran]
      rw [fails]
      exact ⟨Quiet.refl inv, .inr ⟨some v, live⟩, .inr ⟨some v, live⟩⟩
    | some schema' =>
      have runs : migrationExec run (.execFile c m) t = (.ok (), setSession c (.live (some { v with schema := schema' })) t) := by
        refine (onSession_live live _).trans ?_
        simp only [ran]
      rw [runs]
      have session : (setSession c (.live (some { v with schema := schema' })) t).sessions c = .live (some { v with schema := schema' }) :=
        Function.update_self ..
      exact ⟨Quiet.session _ inv, ⟨schema', rfl, .inr ⟨own, session, rfl, rfl⟩⟩, .inr ⟨_, session⟩⟩
  · exact fun t known => .inr ⟨some v, known.2.1⟩

theorem safe_insertVersion {version : String} {v : TxView S} {table : Option (List String)} {schema : S}
    (known : Standing c (.holding (some v) table schema) versions w) :
    Safe (migrationFlow entries run) (migrationProtocol good) (.migrator c)
      (Replied (fun _ t => (∃ v', insertVersion version v = .ok v' ∧ MigrationStands c (.holding (some v') table schema) t) ∧
        Recorded versions t) (Standing c .connected versions)) (call (I := migrationStore) (.insertVersion c version)) w := by
  apply safe_own known
  · intro t closed
    exact onSession_closed closed _
  · rintro t inv - ⟨own, live, rfl, rfl⟩
    cases inserted : insertVersion version v with
    | error e =>
      have fails : migrationExec run (.insertVersion c version) t = (.error e, t) := by
        refine (onSession_live live _).trans ?_
        simp only [inserted]
      rw [fails]
      exact ⟨Quiet.refl inv, .inr ⟨some v, live⟩, .inr ⟨some v, live⟩⟩
    | ok v' =>
      have inserts : migrationExec run (.insertVersion c version) t = (.ok (), setSession c (.live (some v')) t) := by
        refine (onSession_live live _).trans ?_
        simp only [inserted]
      rw [inserts]
      have session : (setSession c (.live (some v')) t).sessions c = .live (some v') := Function.update_self ..
      exact ⟨Quiet.session _ inv, ⟨v', rfl, .inr ⟨own, session, rfl, rfl⟩⟩, .inr ⟨_, session⟩⟩
  · exact fun t known => .inr ⟨some v, known.2.1⟩

theorem safe_rollback (known : Standing c .connected versions w) :
    Safe (migrationFlow entries run) (migrationProtocol good) (.migrator c)
      (Replied (fun _ => Standing c .outside versions) (Standing c .connected versions)) (call (I := migrationStore) (.rollback c)) w := by
  apply safe_own known
  · intro t closed
    exact onSession_closed closed _
  · rintro t inv - ⟨tx, live⟩
    have ends : migrationExec run (.rollback c) t = (.ok (), setSession c (.live none) t) := onSession_live live _
    rw [ends]
    have session : (setSession c (.live none) t).sessions c = .live none := Function.update_self ..
    exact ⟨Quiet.session _ inv, .inr session, .inr ⟨none, session⟩⟩
  · exact fun t known => .inr known

theorem safe_advisoryUnlock (known : Standing c .outside versions w) :
    Safe (migrationFlow entries run) (migrationProtocol good) (.migrator c)
      (Replied (fun _ => Standing c .outside versions) (Standing c .outside versions)) (call (I := migrationStore) (.advisoryUnlock c)) w := by
  apply safe_own known
  · intro t closed
    exact onSession_closed closed _
  · intro t inv _ live
    have gives : migrationExec run (.advisoryUnlock c) t = (.ok (), { t with lock := giveLock c t.lock }) := onSession_live live _
    rw [gives]
    exact ⟨⟨inv, fun other ne => ⟨rfl, fun holds => ⟨holds_giveLock ne holds, rfl, rfl⟩⟩, fun _ mem => mem⟩, .inr live, .inr live⟩
  · exact fun t known => .inr known

/-- To close the connection cannot fail. -/
theorem safe_close (known : Standing c .connected versions w) :
    Safe (migrationFlow entries run) (migrationProtocol good) (.migrator c) (fun _ => Standing c .outside versions)
      (call (I := migrationStore) (.close c)) w := by
  apply Safe.call
  · intro t rely inv _
    obtain ⟨stands, recorded⟩ := known.rely rely
    have closes : Quiet good c t (migrationExec run (.close c) t).2 ∧ Closed c (migrationExec run (.close c) t).2 := by
      rcases stands with (⟨tx, state⟩ | state) | ⟨tx, live⟩
      · simp only [migrationExec, state]
        exact ⟨Quiet.refl inv, .inl ⟨tx, state⟩⟩
      · simp only [migrationExec, state]
        exact ⟨Quiet.refl inv, .inr state⟩
      · simp only [migrationExec, live]
        exact ⟨Quiet.session _ inv, .inl ⟨tx, Function.update_self ..⟩⟩
    obtain ⟨quiet, closed⟩ := closes
    have kept : Standing c .outside versions (migrationExec run (.close c) t).2 :=
      ⟨.inl closed, fun v mem => quiet.recorded v (recorded v mem)⟩
    exact ⟨quiet.good, rely_of_aside quiet.aside quiet.recorded, kept, fun _ => kept⟩
  · intro t _ _ fails
    exact fails.elim
  · intro t _ _ _
    trivial

/-- How a commit ends: with the new table and schema, refused with no transaction, or broken off. -/
def CommitEnds (c : String) (versions : List String) (v : TxView S) : Except MigrateErr Unit → MigrationWorld S → Prop
  | .ok _, t => Standing c (.holding none v.versions v.schema) (v.versions.getD []) t ∧ Recorded versions t
  | .error .commitRefused, t => Standing c .outside versions t
  | .error _, t => Standing c .connected versions t

theorem safe_commit {refused : Bool} {v : TxView S} {table : Option (List String)} {schema : S}
    (next : good (table.getD []) schema → good (v.versions.getD []) v.schema) (grows : ∀ x ∈ table.getD [], x ∈ v.versions.getD [])
    (known : Standing c (.holding (some v) table schema) versions w) :
    Safe (migrationFlow entries run) (migrationProtocol good) (.migrator c) (CommitEnds c versions v)
      (call (I := migrationStore) (.commit c refused)) w := by
  apply Safe.call
  · intro t rely inv _
    obtain ⟨stands, recorded⟩ := known.rely rely
    rcases stands with closed | ⟨own, live, rfl, rfl⟩
    · have fails : migrationExec run (.commit c refused) t = (.error .connClosed, t) := onSession_closed closed _
      simp only [migrationFlow, fails]
      exact ⟨inv, fun j _ => (migrationProtocol good).refl j t, ⟨.inl closed, recorded⟩, fun _ => ⟨.inl closed, recorded⟩⟩
    · cases refused with
      | true =>
        have refuses : migrationExec run (.commit c true) t = (.error .commitRefused, setSession c (.live none) t) := onSession_live live _
        simp only [migrationFlow, refuses]
        have session : (setSession c (.live none) t).sessions c = .live none := Function.update_self ..
        have quiet : Quiet good c t (setSession c (.live none) t) := Quiet.session _ inv
        exact ⟨quiet.good, rely_of_aside quiet.aside quiet.recorded, ⟨.inr session, recorded⟩, fun _ => ⟨.inr ⟨none, session⟩, recorded⟩⟩
      | false =>
        have commits : migrationExec run (.commit c false) t =
            (.ok (), setSession c (.live none) { t with schema := v.schema, schemaMigrations := v.versions }) := onSession_live live _
        simp only [migrationFlow, commits]
        have session : (setSession c (.live none) { t with schema := v.schema, schemaMigrations := v.versions }).sessions c = .live none :=
          Function.update_self ..
        have kept : Recorded versions (setSession c (.live none) { t with schema := v.schema, schemaMigrations := v.versions }) :=
          fun x mem => grows x (recorded x mem)
        refine ⟨next inv, rely_of_aside (aside_of_holder own fun other ne => Function.update_of_ne ne _ _) grows, ⟨⟨?_, ?_⟩, kept⟩,
          fun _ => ⟨.inr ⟨none, session⟩, kept⟩⟩
        · exact .inr ⟨own, session, rfl, rfl⟩
        · exact fun x mem => mem
  · intro t rely _ _
    obtain ⟨stands, recorded⟩ := known.rely rely
    exact ⟨stands.connected, recorded⟩
  · intro t _ _ _
    trivial

/-! ## One file -/

/-- A broken transaction: the connection has none, or it is closed. -/
theorem safe_raise {α : Type} {A : α → MigrationWorld S → Prop} (e : MigrateErr) (known : Standing c .connected versions w) :
    Safe (migrationFlow entries run) (migrationProtocol good) (.migrator c) (Replied A (Standing c .outside versions))
      (do
        let _ : Unit ← call (I := migrationStore) (.close c)
        raise e : MigrationHandler α) w := by
  refine Safe.bind ((safe_close known).mono fun reply t known => ?_)
  cases reply <;> exact known

theorem safe_beginFunc {refused : Bool} {body : MigrationHandler Unit} {rows : Option (List String)} {schema : S}
    {good' : TxView S → Prop} (known : Standing c (.holding none rows schema) versions w)
    (next : ∀ v, good' v → good (rows.getD []) schema → good (v.versions.getD []) v.schema)
    (grows : ∀ v, good' v → ∀ x ∈ rows.getD [], x ∈ v.versions.getD [])
    (runs : ∀ t, Standing c (.holding (some ⟨schema, rows⟩) rows schema) versions t →
      Safe (migrationFlow entries run) (migrationProtocol good) (.migrator c)
        (Replied (fun _ u => ∃ v, good' v ∧ Standing c (.holding (some v) rows schema) versions u) (Standing c .connected versions)) body t) :
    Safe (migrationFlow entries run) (migrationProtocol good) (.migrator c)
      (Replied (fun _ t => ∃ v, good' v ∧ Standing c (.holding none v.versions v.schema) (v.versions.getD []) t ∧ Recorded versions t)
        (Standing c .outside versions)) (beginFunc c refused body) w := by
  unfold beginFunc
  refine Safe.bind (Safe.attempt ((safe_begin known).mono fun begun t known => ?_))
  cases begun with
  | error e => exact safe_raise e known
  | ok _ =>
    refine Safe.bind (Safe.attempt ((runs t known).mono fun ran t known => ?_))
    cases ran with
    | error e =>
      refine Safe.bind (Safe.attempt ((safe_rollback known).mono fun rolledBack t known => ?_))
      cases rolledBack with
      | error _ => exact safe_raise e known
      | ok _ => exact known
    | ok _ =>
      obtain ⟨v, right, known⟩ := known
      refine Safe.bind (Safe.attempt ((safe_commit (next v right) (grows v right) known).mono fun committed t known => ?_))
      cases committed with
      | ok _ => exact ⟨v, right, known⟩
      | error e =>
        cases e with
        | commitRefused => exact known
        | _ => exact safe_raise _ known

/-- What one file leaves to commit: its schema, and its version after the others. -/
def FileRan (run : String → S → Option S) (m : Migration) (rows : List String) (schema : S) (v : TxView S) : Prop :=
  run m.sql schema = some v.schema ∧ v.versions = some (rows ++ [m.version])

theorem safe_fileBody {m : Migration} {rows : List String} {schema : S} (missing : m.version ∉ rows) {t : MigrationWorld S}
    (known : Standing c (.holding (some ⟨schema, some rows⟩) (some rows) schema) versions t) :
    Safe (migrationFlow entries run) (migrationProtocol good) (.migrator c)
      (Replied (fun _ u => ∃ v, FileRan run m rows schema v ∧ Standing c (.holding (some v) (some rows) schema) versions u)
        (Standing c .connected versions))
      (do
        let _ : Unit ← call (I := migrationStore) (.execFile c m)
        call (I := migrationStore) (.insertVersion c m.version) : MigrationHandler Unit) t := by
  refine Safe.bind ((safe_execFile known).mono fun reply u known => ?_)
  cases reply with
  | error e => exact known
  | ok _ =>
    obtain ⟨⟨schema', ran, stands⟩, recorded⟩ := known
    refine (safe_insertVersion ⟨stands, recorded⟩).mono fun reply x known => ?_
    cases reply with
    | error e => exact known
    | ok _ =>
      obtain ⟨⟨v, inserted, stands⟩, recorded⟩ := known
      unfold insertVersion at inserted
      simp only [if_neg missing, Except.ok.injEq] at inserted
      subst inserted
      exact ⟨_, ⟨ran, rfl⟩, stands, recorded⟩

theorem safe_applyMigration {ms front rest : List Migration} {m : Migration} {refuses : String → Bool} {rows : List String} {schema : S}
    (extends' : Extends run ms good) (split : ms = front ++ m :: rest) (all : ∀ v ∈ rows, v ∈ ms.map Migration.version)
    (before : ∀ x ∈ front, x.version ∈ rows) (missing : m.version ∉ rows)
    (known : Standing c (.holding none (some rows) schema) versions w) :
    Safe (migrationFlow entries run) (migrationProtocol good) (.migrator c)
      (Replied (fun _ t => ∃ schema', Standing c (.holding none (some (rows ++ [m.version])) schema') (rows ++ [m.version]) t)
        (Standing c .outside versions)) (applyMigration c refuses m) w := by
  unfold applyMigration
  have next : ∀ v, FileRan run m rows schema v → good rows schema → good (v.versions.getD []) v.schema := by
    rintro ⟨schema', _⟩ ⟨ran, rfl⟩ inv
    exact extends' front m rest rows schema schema' split all before missing inv ran
  have grows : ∀ v, FileRan run m rows schema v → ∀ x ∈ rows, x ∈ v.versions.getD [] := by
    rintro ⟨schema', _⟩ ⟨-, rfl⟩ x mem
    exact List.mem_append_left _ mem
  refine Safe.mapErr_replied ((safe_beginFunc known next grows fun t known => ?_).mono fun reply t known => ?_)
  · exact safe_fileBody missing known
  · cases reply with
    | error e => exact known
    | ok _ =>
      obtain ⟨⟨schema', _⟩, ⟨-, rfl⟩, known, -⟩ := known
      exact ⟨schema', known⟩

/-! ## A call -/

/-- What a call leaves: no transaction, and on success every version on record. -/
abbrev Migrated (c : String) (ms : List Migration) : Except MigrateErr (List String) → MigrationWorld S → Prop :=
  Replied (fun _ => Standing c .outside (ms.map Migration.version)) (Standing c .outside [])

theorem Standing.forget {stage : MigrationStage S} (h : Standing c stage versions w) : Standing c stage [] w :=
  ⟨h.1, fun _ mem => (List.not_mem_nil mem).elim⟩

theorem safe_applyAll {ms front rest : List Migration} {refuses : String → Bool} {applied rows : List String} {schema : S}
    (extends' : Extends run ms good) (nodup : (ms.map Migration.version).Nodup) (split : ms = front ++ rest)
    (applied' : ∀ v ∈ applied, v ∈ ms.map Migration.version) (here : ∀ v, v ∈ rows ↔ v ∈ applied ∨ v ∈ front.map Migration.version)
    (known : Standing c (.holding none (some rows) schema) rows w) :
    Safe (migrationFlow entries run) (migrationProtocol good) (.migrator c) (Migrated c ms) (applyAll c refuses applied rest) w := by
  induction rest generalizing w front rows schema with
  | nil =>
    obtain ⟨stands, recorded⟩ := known.outside rfl
    refine ⟨stands, fun v mem => recorded v ((here v).2 (.inr ?_))⟩
    rwa [split, List.append_nil] at mem
  | cons m rest ih =>
    have split' : ms = (front ++ [m]) ++ rest := by rw [split, List.append_assoc, List.singleton_append]
    unfold applyAll
    split
    · rename_i done
      refine ih split' ?_ known
      intro v
      rw [here, List.map_append, List.mem_append, List.map_singleton, List.mem_singleton]
      constructor
      · rintro (old | old)
        · exact .inl old
        · exact .inr (.inl old)
      · rintro (old | old | rfl)
        · exact .inl old
        · exact .inr old
        · exact .inl done
    · rename_i absent
      have all : ∀ v ∈ rows, v ∈ ms.map Migration.version := by
        intro v mem
        rcases (here v).1 mem with old | old
        · exact applied' v old
        · rw [split, List.map_append]
          exact List.mem_append_left _ old
      have before : ∀ x ∈ front, x.version ∈ rows := fun x mem => (here x.version).2 (.inr (List.mem_map_of_mem mem))
      have missing : m.version ∉ rows := by
        intro mem
        rcases (here m.version).1 mem with old | old
        · exact absent old
        · rw [split, List.map_append, List.nodup_append] at nodup
          exact nodup.2.2 m.version old m.version (by simp) rfl
      refine Safe.bind ((safe_applyMigration extends' split all before missing known).mono fun reply t known => ?_)
      cases reply with
      | error e => exact known.forget
      | ok _ =>
        obtain ⟨schema', known⟩ := known
        refine Safe.bind ((ih split' (fun v => ?_) known).mono fun reply t known => ?_)
        · simp only [List.mem_append, List.mem_singleton, here, List.map_append, List.map_singleton, or_assoc]
        · cases reply <;> exact known

theorem safe_migrateLocked {ms : List Migration} {refuses : String → Bool} {table : Option (List String)} {schema : S}
    (extends' : Extends run ms good) (nodup : (ms.map Migration.version).Nodup)
    (known : Standing c (.holding none table schema) versions w) :
    Safe (migrationFlow entries run) (migrationProtocol good) (.migrator c) (Migrated c ms) (migrateLocked c refuses ms) w := by
  unfold migrateLocked
  refine Safe.bind ((Safe.mapErr_replied (safe_createTable known)).mono fun reply t known => ?_)
  cases reply with
  | error e => exact known.forget
  | ok _ =>
    refine Safe.bind ((Safe.mapErr_replied (safe_selectVersions known)).mono fun reply t known => ?_)
    cases reply with
    | error e => exact known.forget
    | ok applied =>
      obtain ⟨⟨rfl, stands, recorded⟩, -⟩ := known
      simp only
      split
      · exact (Standing.outside ⟨stands, recorded⟩ rfl).forget
      · rename_i none
        have applied' : ∀ v ∈ table.getD [], v ∈ ms.map Migration.version := by
          simp only [Bool.not_eq_true', Bool.not_eq_false, List.isEmpty_iff] at none
          intro v mem
          by_contra foreign
          have unknown : v ∈ unknownVersions (table.getD []) ms := List.mem_filter.2 ⟨mem, decide_eq_true foreign⟩
          rw [none] at unknown
          exact List.not_mem_nil unknown
        have whole : ms = [] ++ ms := (List.nil_append ms).symm
        exact safe_applyAll extends' nodup whole applied' (fun _ => by simp) ⟨stands, recorded⟩

theorem safe_migrate {ms : List Migration} {refuses : String → Bool} (files : migrations entries = .ok ms)
    (extends' : Extends run ms good) (known : Standing c .outside [] w) :
    Safe (migrationFlow entries run) (migrationProtocol good) (.migrator c) (Migrated c ms) (migrate entries c refuses) w := by
  unfold migrate
  rw [files]
  refine Safe.bind ((Safe.mapErr_replied (safe_advisoryLock known)).mono fun reply t known => ?_)
  cases reply with
  | error e => exact known
  | ok _ =>
    obtain ⟨⟨table, schema, stands⟩, recorded⟩ := known
    refine Safe.bind (Safe.attempt ((safe_migrateLocked extends' (migrations_nodup files) ⟨stands, recorded⟩).mono
      fun applied t known => ?_))
    cases applied with
    | error e =>
      refine Safe.bind (Safe.bind (Safe.attempt ((safe_advisoryUnlock known).mono fun reply t known => ?_)))
      cases reply <;> exact known
    | ok done =>
      refine Safe.bind (Safe.bind (Safe.attempt ((safe_advisoryUnlock known).mono fun reply t known => ?_)))
      cases reply <;> exact known

theorem safe_migrateCalls {ms : List Migration} {refuses : String → Bool} {n : Nat} (files : migrations entries = .ok ms)
    (extends' : Extends run ms good) (known : Standing c .outside [] w) :
    Safe (migrationFlow entries run) (migrationProtocol good) (.migrator c) (Migrated c ms) (migrateCalls entries c refuses n) w := by
  induction n generalizing w with
  | zero => exact safe_migrate files extends' known
  | succ n ih =>
    unfold migrateCalls
    refine Safe.bind (Safe.bind (Safe.attempt ((safe_migrate files extends' known).mono fun reply t known => ?_)))
    cases reply with
    | error e => exact ih known
    | ok done => exact ih known.forget

end Statements

/-! ## Runs -/

section Runs

variable {S : Type} {entries : List Entry} {run : String → S → Option S} {good : List String → S → Prop}

/-- A process that ends without an error leaves every version on record. -/
def Promised (ms : List Migration) : MigrationName → Except MigrateErr Unit → MigrationWorld S → Prop
  | .migrator _, .ok _, w => Recorded (ms.map Migration.version) w
  | _, _, _ => True

theorem promise_recorded (ms : List Migration) : (migrationProtocol good).Promise (I := migrationStore) (Promised (S := S) ms) := by
  constructor
  · intro i r s t rely known
    cases i with
    | migrator c =>
      cases r with
      | ok _ => exact known.mono rely
      | error e => trivial
    | server n => trivial
  · intro i r s _
    trivial

theorem safe_migrator {ms : List Migration} {c : String} {refuses : String → Bool} {n : Nat} {w : MigrationWorld S}
    (files : migrations entries = .ok ms) (extends' : Extends run ms good) :
    Safe (migrationFlow entries run) (migrationProtocol good) (.migrator c) (Promised ms (.migrator c)) (migrator entries c refuses n) w := by
  have connects : Safe (migrationFlow entries run) (migrationProtocol good) (.migrator c)
      (Replied (fun _ => Standing c .outside []) fun _ => True) (call (I := migrationStore) (.connect c)) w := by
    apply Safe.call
    · intro t rely inv _
      have nothing : Recorded [] (setSession c (.live none) t) := fun v mem => (List.not_mem_nil mem).elim
      show good (migrationExec run (.connect c) t).2.recorded (migrationExec run (.connect c) t).2.schema ∧ _
      simp only [migrationFlow, migrationExec]
      split
      · have quiet : Quiet good c t (setSession c (.live none) t) := Quiet.session _ inv
        exact ⟨quiet.good, rely_of_aside quiet.aside quiet.recorded, ⟨.inr (Function.update_self ..), nothing⟩, fun _ => trivial⟩
      · exact ⟨inv, fun j _ => (migrationProtocol good).refl j t, trivial, fun _ => trivial⟩
    · intro t _ _ _
      trivial
    · intro t _ _ _
      trivial
  unfold migrator
  refine Safe.bind (connects.mono fun reply t known => ?_)
  cases reply with
  | error e => trivial
  | ok _ =>
    refine Safe.bind ((safe_migrateCalls files extends' known).mono fun reply t known => ?_)
    cases reply with
    | error e => trivial
    | ok done => exact known.2

theorem safe_disconnect {c : String} {n : Nat} {ms : List Migration} {w : MigrationWorld S} :
    Safe (migrationFlow entries run) (migrationProtocol good) (.server n) (Promised ms (.server n))
      (call (I := migrationStore) (.disconnect c)) w := by
  apply Safe.call
  · intro t _ inv _
    refine ⟨inv, fun j _ => ⟨fun _ mem => mem, fun other same stage known => ?_⟩, trivial, fun _ => trivial⟩
    by_cases own : other = c
    · subst own
      exact .inl (.inr (Function.update_self ..))
    · have aside : Aside other t (migrationExec run (.disconnect c) t).2 := by
        refine ⟨Function.update_of_ne own _ _, fun holds => ⟨?_, rfl, rfl⟩⟩
        obtain ⟨k, locked⟩ := holds
        exact ⟨k, (holds_disconnect own ⟨k, locked⟩).trans locked⟩
      exact aside.stands known
  · intro t _ _ _
    trivial
  · intro t _ _ _
    trivial

/-- Whatever every commit extends holds in every run, and a process that ends without an error leaves every version on
record. -/
theorem migrations_good {ms : List Migration} {w : MigrationWorld S} {c : Crew migrationStore MigrationName (MigrationWorld S)}
    (files : migrations entries = .ok ms) (extends' : Extends run ms good) (start : good w.recorded w.schema)
    (reach : (migrationFlow entries run).Reach ⟨w, []⟩ c) : good c.state.recorded c.state.schema ∧
      ∀ name, (.migrator name, .ret (.ok ())) ∈ c.threads → Recorded (ms.map Migration.version) c.state := by
  have holds : (migrationProtocol good).Holds (migrationFlow entries run) (Promised ms) c := by
    refine Protocol.holds (promise_recorded ms) ?_ reach start fun _ => trivial
    intro i p s job _ _
    cases job with
    | migrator c refuses n => exact safe_migrator files extends'
    | disconnect n c => exact safe_disconnect
  exact ⟨holds.inv, fun name mem => holds.safe _ mem⟩

end Runs

/-! ## Prefixes -/

section Prefix

variable {S : Type} {run : String → S → Option S} {ms : List Migration}

/-- Where the versions of a list are on record and the next one is not, the prefix on record is that list. -/
theorem prefix_length {front rest : List Migration} {m : Migration} {rows : List String} {k : Nat}
    (nodup : (ms.map Migration.version).Nodup) (split : ms = front ++ m :: rest)
    (perm : rows.Perm ((ms.take k).map Migration.version)) (before : ∀ x ∈ front, x.version ∈ rows) (missing : m.version ∉ rows) :
    ms.take k = front := by
  have short : k ≤ front.length := by
    by_contra long
    obtain ⟨j, rfl⟩ : ∃ j, k = front.length + (j + 1) := ⟨k - front.length - 1, by omega⟩
    apply missing
    rw [perm.mem_iff, split, List.take_length_add_append, List.take_succ_cons, List.map_append, List.map_cons]
    exact List.mem_append_right _ List.mem_cons_self
  have front' : ms.take k = front.take k := by rw [split, List.take_append_of_le_length short]
  have dropped : front.drop k = [] := by
    rw [split, ← List.take_append_drop k front, List.append_assoc, List.map_append, List.map_append] at nodup
    rw [List.eq_nil_iff_forall_not_mem]
    intro x mem
    have here : x.version ∈ (front.take k).map Migration.version := by
      rw [← front', ← perm.mem_iff]
      exact before x (List.mem_of_mem_drop mem)
    exact List.disjoint_of_nodup_append nodup here (List.mem_append_left _ (List.mem_map_of_mem mem))
  rw [front', ← List.append_nil (front.take k), ← dropped, List.take_append_drop]

/-- What the migrations of a build have made of the empty schema. -/
def IsPrefix (run : String → S → Option S) (ms : List Migration) (empty : S) (rows : List String) (schema : S) : Prop :=
  ∃ k, rows.Perm ((ms.take k).map Migration.version) ∧ runAll run empty (ms.take k) = some schema

theorem isPrefix_extends {empty : S} (nodup : (ms.map Migration.version).Nodup) : Extends run ms (IsPrefix run ms empty) := by
  rintro front m rest rows schema schema' split - before missing ⟨k, perm, ran⟩ runs
  have front' := prefix_length nodup split perm before missing
  have next : ms.take (front.length + 1) = front ++ [m] := by
    rw [split, List.take_length_add_append]
    rfl
  rw [front'] at perm ran
  refine ⟨front.length + 1, ?_, ?_⟩
  · rw [next, List.map_append]
    exact perm.append_right _
  · rw [next]
    unfold runAll at ran ⊢
    rw [List.foldlM_append, ran]
    show (List.foldlM (fun s m => run m.sql s) schema [m] : Option S) = some schema'
    rw [List.foldlM_cons, runs]
    rfl

/-- A version that the build does not know keeps everything as it is. -/
theorem frozen_extends {rows : List String} {schema : S} {v : String} (mem : v ∈ rows) (unknown : v ∉ ms.map Migration.version) :
    Extends run ms fun rows' schema' => rows' = rows ∧ schema' = schema := by
  rintro front m rest _ _ schema' split known - - ⟨rfl, rfl⟩ -
  exact (unknown (known v mem)).elim

end Prefix

/-- In every run of a build's migrations the versions on record are a prefix of the build's, in their order, if they were at
the start, and the schema is what the files of that prefix make of the empty one, each run once; if a version is on record
that the build does not know, nothing is applied; and who ends without an error leaves every version on record. -/
theorem migrations_in_order {S : Type} {run : String → S → Option S} {entries : List Entry} {ms : List Migration} {empty : S}
    {w : MigrationWorld S} {c : Crew migrationStore MigrationName (MigrationWorld S)} (files : migrations entries = .ok ms)
    (reach : (migrationFlow entries run).Reach ⟨w, []⟩ c) :
    ms.Pairwise (fun a b => a.version < b.version) ∧
      (IsPrefix run ms empty w.recorded w.schema → IsPrefix run ms empty c.state.recorded c.state.schema) ∧
      (∀ v ∈ w.recorded, v ∉ ms.map Migration.version → c.state.recorded = w.recorded ∧ c.state.schema = w.schema) ∧
      ∀ name, (.migrator name, .ret (.ok ())) ∈ c.threads → ∀ m ∈ ms, m.version ∈ c.state.recorded := by
  refine ⟨migrations_sorted files, fun start => ?_, fun v mem unknown => ?_, fun name mem m hm => ?_⟩
  · exact (migrations_good files (isPrefix_extends (migrations_nodup files)) start reach).1
  · exact (migrations_good files (frozen_extends mem unknown) ⟨rfl, rfl⟩ reach).1
  · have always : Extends run ms fun (_ : List String) (_ : S) => True := fun _ _ _ _ _ _ _ _ _ _ _ _ => trivial
    exact (migrations_good files always trivial reach).2 name mem m.version (List.mem_map_of_mem hm)

/-! ## Two processes -/

/-- Two files, of which the directory lists the later one first. -/
def twoFiles : List Entry := [⟨"0002_orders.sql", false, "orders"⟩, ⟨"0001_baseline.sql", false, "baseline"⟩]

def twoMigrations : List Migration := [⟨"0001_baseline", "baseline"⟩, ⟨"0002_orders", "orders"⟩]

/-- A schema as the files that made it. -/
def appendSQL (sql : String) (schema : List String) : Option (List String) := some (schema ++ [sql])

def emptyDatabase : MigrationWorld (List String) := ⟨[], none, fun _ => .unused, none⟩

def firstProcess : MigrationHandler Unit := migrator twoFiles "first" (fun _ => false) 0

def secondProcess : MigrationHandler Unit := migrator twoFiles "second" (fun _ => false) 0

/-- The first process crashes when the first file is committed, and the server drops its session. -/
def halfway : MigrationWorld (List String) :=
  (migrationExec appendSQL (.disconnect "first") (firstProcess.steps (migrationExec appendSQL) 8 emptyDatabase).2).2

theorem twoFiles_migrations : migrations twoFiles = .ok twoMigrations := by
  decide +kernel

/-- `migrationProceeds`, computed. -/
def migrationProceedsNow {S : Type} (w : MigrationWorld S) : MigrationStmt → Bool
  | .advisoryLock c => w.lock.all fun l => l.1 == c
  | _ => true

theorem migrationProceedsNow_iff {S : Type} (w : MigrationWorld S) (op : MigrationStmt) :
    migrationProceedsNow w op = true ↔ migrationProceeds w op := by
  unfold migrationProceedsNow migrationProceeds
  split
  · simp only [Option.all_eq_true, Prod.forall, beq_iff_eq]
  · simp

instance {S : Type} (run : String → S → Option S) (w : MigrationWorld S) (op : MigrationStmt) :
    Decidable ((migrationFlow twoFiles run).allow w op) := decidable_of_iff _ (migrationProceedsNow_iff w op)

/-- The first process crashes after the first file, and the second one applies the rest. -/
theorem migrations_resumed : ∃ c : Crew migrationStore MigrationName (MigrationWorld (List String)),
    halfway.recorded = ["0001_baseline"] ∧ c.state.recorded = ["0001_baseline", "0002_orders"] ∧
      IsPrefix appendSQL twoMigrations [] c.state.recorded c.state.schema := by
  have starts : (migrationFlow twoFiles appendSQL).Step ⟨emptyDatabase, []⟩ ⟨emptyDatabase, [] ++ (.migrator "first", firstProcess) :: []⟩ :=
    .spawn (.migrator "first" _ 0) List.not_mem_nil
  have commits := (migrationFlow twoFiles appendSQL).reach_steps (i := .migrator "first") (p := firstProcess) (s := emptyDatabase) 8 [] []
    (by decide +kernel)
  have crashes : (migrationFlow twoFiles appendSQL).Step
      ⟨(firstProcess.steps (migrationExec appendSQL) 8 emptyDatabase).2,
        [] ++ (.migrator "first", (firstProcess.steps (migrationExec appendSQL) 8 emptyDatabase).1) :: []⟩
      ⟨(firstProcess.steps (migrationExec appendSQL) 8 emptyDatabase).2, [] ++ []⟩ := by
    apply Roster.Step.drop
    cases (firstProcess.steps (migrationExec appendSQL) 8 emptyDatabase).1 <;> trivial
  have disconnects := (migrationFlow twoFiles appendSQL).reach_job (i := .server 0)
    (p := call (I := migrationStore) (.disconnect "first")) (s := (firstProcess.steps (migrationExec appendSQL) 8 emptyDatabase).2)
    (.disconnect 0 "first") ⟨trivial, trivial⟩
  have resumes := (migrationFlow twoFiles appendSQL).reach_job (i := .migrator "second") (p := secondProcess) (s := halfway)
    (.migrator "second" _ 0) (by decide +kernel)
  have reach := Relation.ReflTransGen.head starts (commits.trans (.head crashes (disconnects.trans resumes)))
  have start : IsPrefix appendSQL twoMigrations [] emptyDatabase.recorded emptyDatabase.schema := ⟨0, .nil, rfl⟩
  exact ⟨_, by decide +kernel, by decide +kernel, (migrations_in_order twoFiles_migrations reach).2.1 start⟩

end NovoApex.Migrations
