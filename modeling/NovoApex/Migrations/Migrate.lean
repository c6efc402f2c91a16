import NovoApex.Migrations.Files
import NovoApex.Lib.Crew

/-!
# Migrate

The rest of `internal/db/migrate.go`: the statements of `Migrate` on its connection, and
the function. What a file does to the schema is a parameter. A session-level lock counts
how often its session has taken it. When the server drops a connection, the lock is
released and the open transaction is gone, at once.
-/

namespace NovoApex.Migrations
set_option autoImplicit false
open Lib Program

section Store

variable {S : Type}

/-- What an open transaction sees: the schema and `schema_migrations`, if it exists. -/
structure TxView (S : Type) where
  schema : S
  versions : Option (List String)

/-- A connection: of one that the client has closed, the server may still hold the session. -/
inductive SessionState (S : Type) where
  | unused
  | live (tx : Option (TxView S))
  | closed (tx : Option (TxView S))
  | gone

/-- The database, its sessions and the migration lock. -/
structure MigrationWorld (S : Type) where
  schema : S
  schemaMigrations : Option (List String)
  sessions : String → SessionState S
  lock : Option (String × Nat)

/-- The versions on record. -/
def MigrationWorld.recorded (w : MigrationWorld S) : List String := w.schemaMigrations.getD []

inductive MigrationStmt where
  | connect (c : String)
  | advisoryLock (c : String)
  | createTable (c : String)
  | selectVersions (c : String)
  | begin (c : String)
  | execFile (c : String) (m : Migration)
  | insertVersion (c version : String)
  /-- The server refuses some commits. -/
  | commit (c : String) (refused : Bool)
  | rollback (c : String)
  | advisoryUnlock (c : String)
  /-- The client closes its connection. -/
  | close (c : String)
  /-- The server drops the session. -/
  | disconnect (c : String)

/-- What a statement answers. -/
@[reducible] def MigrationStmt.Reply : MigrationStmt → Type
  | selectVersions .. => List String
  | _ => Unit

/-- The interface of the migrations. -/
abbrev migrationStore : Interface := ⟨MigrationStmt, MigrationStmt.Reply, MigrateErr, .db .transient⟩

/-- The state of a session. -/
def setSession (c : String) (s : SessionState S) (w : MigrationWorld S) : MigrationWorld S :=
  { w with sessions := Function.update w.sessions c s }

/-- A statement on an open connection. -/
def onSession {α : Type} (c : String) (w : MigrationWorld S) (f : Option (TxView S) → Except MigrateErr α × MigrationWorld S) :
    Except MigrateErr α × MigrationWorld S :=
  match w.sessions c with
  | .live tx => f tx
  | _ => (.error .connClosed, w)

/-- `INSERT INTO schema_migrations`. -/
def insertVersion (version : String) (v : TxView S) : Except MigrateErr (TxView S) :=
  match v.versions with
  | none => .error .undefinedTable
  | some rows =>
    if version ∈ rows then .error (.db (.uniqueViolation "schema_migrations_pkey"))
    else .ok { v with versions := some (rows ++ [version]) }

/-- Take the lock once more. -/
def takeLock (c : String) : Option (String × Nat) → Option (String × Nat)
  | some (holder, n) => if holder = c then some (c, n + 1) else some (holder, n)
  | none => some (c, 0)

/-- Give it back once. -/
def giveLock (c : String) : Option (String × Nat) → Option (String × Nat)
  | some (holder, n + 1) => if holder = c then some (c, n) else some (holder, n + 1)
  | some (holder, 0) => if holder = c then none else some (holder, 0)
  | none => none

/-- Execute one statement. -/
def migrationExec (run : String → S → Option S) : migrationStore.Exec (MigrationWorld S)
  | .connect c, w =>
    match w.sessions c with
    | .unused => (.ok (), setSession c (.live none) w)
    | _ => (.error .connClosed, w)
  | .advisoryLock c, w => onSession c w fun _ => (.ok (), { w with lock := takeLock c w.lock })
  | .createTable c, w => onSession c w fun _ => (.ok (), { w with schemaMigrations := some w.recorded })
  | .selectVersions c, w =>
    onSession c w fun _ =>
      match w.schemaMigrations with
      | some rows => (.ok rows, w)
      | none => (.error .undefinedTable, w)
  | .begin c, w => onSession c w fun _ => (.ok (), setSession c (.live (some ⟨w.schema, w.schemaMigrations⟩)) w)
  | .execFile c m, w =>
    onSession c w fun
      | none => (.error .sqlError, w)
      | some v =>
        match run m.sql v.schema with
        | some schema => (.ok (), setSession c (.live (some { v with schema := schema })) w)
        | none => (.error .sqlError, w)
  | .insertVersion c version, w =>
    onSession c w fun
      | none => (.error .sqlError, w)
      | some v =>
        match insertVersion version v with
        | .ok v' => (.ok (), setSession c (.live (some v')) w)
        | .error e => (.error e, w)
  | .commit c refused, w =>
    onSession c w fun
      | none => (.error .sqlError, w)
      | some v =>
        if refused then (.error .commitRefused, setSession c (.live none) w)
        else (.ok (), setSession c (.live none) { w with schema := v.schema, schemaMigrations := v.versions })
  | .rollback c, w => onSession c w fun _ => (.ok (), setSession c (.live none) w)
  | .advisoryUnlock c, w => onSession c w fun _ => (.ok (), { w with lock := giveLock c w.lock })
  | .close c, w =>
    match w.sessions c with
    | .live tx => (.ok (), setSession c (.closed tx) w)
    | _ => (.ok (), w)
  | .disconnect c, w =>
    (.ok (), setSession c .gone { w with lock := if w.lock.any (fun l => l.1 == c) then none else w.lock })

/-- When a statement proceeds: the lock waits for its holder. -/
def migrationProceeds (w : MigrationWorld S) : MigrationStmt → Prop
  | .advisoryLock c => ∀ holder n, w.lock = some (holder, n) → holder = c
  | _ => True

end Store

/-! ## The function -/

abbrev MigrationHandler (α : Type) : Type := Program migrationStore α

/-- `pgx.BeginFunc`: the driver closes a connection whose `begin`, `rollback` or `commit` breaks off; a commit that the
server refuses leaves it open. -/
def beginFunc (c : String) (refused : Bool) (body : MigrationHandler Unit) : MigrationHandler Unit := do
  let begun ← attempt (call (I := migrationStore) (.begin c))
  match begun with
  | .error e => do
    let _ : Unit ← call (I := migrationStore) (.close c)
    raise e
  | .ok _ => do
    let ran ← attempt body
    match ran with
    | .error e => do
      let rolledBack ← attempt (call (I := migrationStore) (.rollback c))
      match rolledBack with
      | .ok _ => raise e
      | .error _ => do
        let _ : Unit ← call (I := migrationStore) (.close c)
        raise e
    | .ok _ => do
      let committed ← attempt (call (I := migrationStore) (.commit c refused))
      match committed with
      | .ok _ => pure ()
      | .error .commitRefused => raise .commitRefused
      | .error e => do
        let _ : Unit ← call (I := migrationStore) (.close c)
        raise e

/-- One file, with its bookkeeping row. -/
def applyMigration (c : String) (refuses : String → Bool) (m : Migration) : MigrationHandler Unit :=
  mapErr (.context ("db: apply migration " ++ m.version)) (beginFunc c (refuses m.version) do
    let _ : Unit ← call (I := migrationStore) (.execFile c m)
    call (I := migrationStore) (.insertVersion c m.version))

/-- The loop over the migrations: the versions it has applied. -/
def applyAll (c : String) (refuses : String → Bool) (applied : List String) : List Migration → MigrationHandler (List String)
  | [] => pure []
  | m :: rest =>
    if m.version ∈ applied then applyAll c refuses applied rest
    else do
      let _ : Unit ← applyMigration c refuses m
      let done ← applyAll c refuses applied rest
      pure (m.version :: done)

/-- `checkKnownVersions`: the versions that no migration has. -/
def unknownVersions (applied : List String) (ms : List Migration) : List String :=
  applied.filter fun v => decide (v ∉ ms.map Migration.version)

/-- `Migrate` between the lock and its release. -/
def migrateLocked (c : String) (refuses : String → Bool) (ms : List Migration) : MigrationHandler (List String) := do
  let _ : Unit ← mapErr (.context "db: ensure schema_migrations") (call (I := migrationStore) (.createTable c))
  let applied : List String ← mapErr (.context "db: read schema_migrations") (call (I := migrationStore) (.selectVersions c))
  if !(unknownVersions applied ms).isEmpty then
    raise (.unknownVersions ((unknownVersions applied ms).insertionSort fun a b => a ≤ b))
  else applyAll c refuses applied ms

/-- `Migrate` of one build: the versions it has applied. -/
def migrate (entries : List Entry) (c : String) (refuses : String → Bool) : MigrationHandler (List String) :=
  match migrations entries with
  | .error e => raise e
  | .ok ms => do
    let _ : Unit ← mapErr (.context "db: acquire migration lock") (call (I := migrationStore) (.advisoryLock c))
    let applied ← attempt (migrateLocked c refuses ms)
    ignore (attempt (call (I := migrationStore) (.advisoryUnlock c)))
    match applied with
    | .ok done => pure done
    | .error e => raise e

/-! ## Runs -/

/-- Calls of `Migrate` one after the other on one connection, of which the last one counts. -/
def migrateCalls (entries : List Entry) (c : String) (refuses : String → Bool) : Nat → MigrationHandler (List String)
  | 0 => migrate entries c refuses
  | n + 1 => do
    ignore (attempt (migrate entries c refuses))
    migrateCalls entries c refuses n

/-- A process that connects and migrates. -/
def migrator (entries : List Entry) (c : String) (refuses : String → Bool) (n : Nat) : MigrationHandler Unit := do
  let _ : Unit ← call (I := migrationStore) (.connect c)
  ignore (migrateCalls entries c refuses n)

/-- Who acts on the schema. -/
inductive MigrationName where
  | migrator (c : String)
  | server (n : Nat)
  deriving DecidableEq

/-- What a name may run: processes of one build, and the server that drops a session. -/
inductive MigrationJob (entries : List Entry) : MigrationName → MigrationHandler Unit → Prop where
  | migrator (c refuses n) : MigrationJob entries (.migrator c) (migrator entries c refuses n)
  | disconnect (n c) : MigrationJob entries (.server n) (call (I := migrationStore) (.disconnect c))

/-- To close a connection is up to the client. -/
def mayFail : MigrationStmt → Prop
  | .close _ => False
  | _ => True

/-- The runs of the migrations of one build: any statement may fail, lose its reply or be the last of its process. -/
def migrationFlow {S : Type} (entries : List Entry) (run : String → S → Option S) :
    Roster migrationStore MigrationName (MigrationWorld S) where
  exec := migrationExec run
  job := MigrationJob entries
  allow := migrationProceeds
  faults _ op := mayFail op
  loses _ op := mayFail op

end NovoApex.Migrations
