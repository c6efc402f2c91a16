import NovoApex.Db.Schema
import Mathlib.Data.List.Sort
import Mathlib.Data.String.Basic

/-!
# The embedded migrations

`Migrations` of `internal/db/migrate.go`: the files under `migrations`, checked for their
names and numbers, in the order of their versions.
-/

namespace NovoApex.Migrations
set_option autoImplicit false

/-- An entry of the embedded directory. -/
structure Entry where
  name : String
  isDir : Bool
  body : String
  deriving DecidableEq

/-- One embedded migration. -/
structure Migration where
  version : String
  sql : String
  deriving DecidableEq

/-- The errors of `Migrate`. -/
inductive MigrateErr where
  | db (e : Err)
  /-- The connection is closed. -/
  | connClosed
  /-- SQLSTATE 42P01. -/
  | undefinedTable
  /-- A statement of the file failed. -/
  | sqlError
  /-- The server rolled back at the commit. -/
  | commitRefused
  | misnamed (name : String)
  | sharedNumber (first second number : String)
  | unknownVersions (versions : List String)
  /-- `fmt.Errorf("context: %w", cause)`. -/
  | context (text : String) (cause : MigrateErr)
  deriving DecidableEq, Repr

/-- `.sql`. -/
def sqlSuffix : List Char := ['.', 's', 'q', 'l']

/-- `[a-z0-9_]`. -/
def isNameChar (c : Char) : Bool := c.isLower || c.isDigit || c == '_'

/-- `^(\d{4})_[a-z0-9_]+\.sql$`, with the number it captures. -/
def migrationNameRe (name : String) : Option (List Char) :=
  match name.toList with
  | a :: b :: c :: d :: '_' :: rest =>
    if [a, b, c, d].all Char.isDigit && rest.drop (rest.length - 4) == sqlSuffix && !(rest.take (rest.length - 4)).isEmpty &&
        (rest.take (rest.length - 4)).all isNameChar then
      some [a, b, c, d]
    else none
  | _ => none

/-- `strings.TrimSuffix(name, ".sql")`. -/
def trimSQL (name : String) : String :=
  if sqlSuffix.isSuffixOf name.toList then String.ofList (name.toList.take (name.toList.length - 4)) else name

/-- The loop over the entries; `seen` has the number and the name of the files before. -/
def collect : List Entry → List (List Char × String) → Except MigrateErr (List Migration)
  | [], _ => .ok []
  | e :: rest, seen =>
    if e.isDir then collect rest seen
    else
      match migrationNameRe e.name with
      | none => .error (.misnamed e.name)
      | some number =>
        match seen.lookup number with
        | some first => .error (.sharedNumber first e.name (String.ofList number))
        | none => do
          let out ← collect rest ((number, e.name) :: seen)
          pure (⟨trimSQL e.name, e.body⟩ :: out)

/-- `Migrations`. -/
def migrations (entries : List Entry) : Except MigrateErr (List Migration) := do
  let out ← collect entries []
  pure (out.insertionSort fun a b => a.version ≤ b.version)

/-! ## Numbers and versions -/

/-- A version begins with the number of its file. -/
theorem number_of_version {name : String} {number : List Char} (h : migrationNameRe name = some number) :
    (trimSQL name).toList.take 4 = number := by
  unfold migrationNameRe at h
  split at h
  · rename_i a b c d rest chars
    split at h
    · rename_i valid
      obtain rfl := Option.some.inj h
      simp only [Bool.and_eq_true, beq_iff_eq] at valid
      obtain ⟨⟨⟨-, suffix⟩, -⟩, -⟩ := valid
      have length : 4 ≤ rest.length := by
        have four := congrArg List.length suffix
        simp only [List.length_drop, sqlSuffix, List.length_cons, List.length_nil] at four
        omega
      have ends : sqlSuffix.isSuffixOf name.toList = true := by
        rw [List.isSuffixOf_iff_suffix, chars, ← suffix]
        exact (List.drop_suffix _ rest).trans ⟨[a, b, c, d, '_'], rfl⟩
      have five : (a :: b :: c :: d :: '_' :: rest).length - 4 = rest.length - 4 + 5 := by
        simp only [List.length_cons]
        omega
      unfold trimSQL
      rw [if_pos ends, String.toList_ofList, chars, five]
      rfl
    · cases h
  · cases h

theorem bind_ok {x : Except MigrateErr (List Migration)} {f : List Migration → Except MigrateErr (List Migration)}
    {out : List Migration} (h : (x >>= f) = .ok out) : ∃ more, x = .ok more ∧ f more = .ok out := by
  cases x with
  | error e => cases h
  | ok more => exact ⟨more, rfl, h⟩

/-- No two of the files that are collected share a number, with each other or with those before. -/
theorem collect_numbers {entries : List Entry} {seen : List (List Char × String)} {out : List Migration}
    (h : collect entries seen = .ok out) : (out.map fun m => m.version.toList.take 4).Nodup ∧
      ∀ m ∈ out, ∀ pair ∈ seen, pair.1 ≠ m.version.toList.take 4 := by
  induction entries generalizing seen out with
  | nil =>
    cases h
    exact ⟨List.nodup_nil, fun m mem => (List.not_mem_nil mem).elim⟩
  | cons e rest ih =>
    unfold collect at h
    split at h
    · exact ih h
    · split at h
      · cases h
      · rename_i number found
        split at h
        · cases h
        · rename_i fresh
          obtain ⟨more, collected, same⟩ := bind_ok h
          cases same
          obtain ⟨nodup, apart⟩ := ih collected
          have own := number_of_version found
          constructor
          · rw [List.map_cons, List.nodup_cons]
            refine ⟨fun mem => ?_, nodup⟩
            obtain ⟨m, hm, same⟩ := List.mem_map.1 mem
            exact apart m hm (number, e.name) List.mem_cons_self (own.symm.trans same.symm)
          · intro m mem pair hp
            rcases List.mem_cons.1 mem with rfl | mem
            · rintro same
              have none := List.lookup_eq_none_iff.1 fresh pair hp
              rw [same, own] at none
              simp at none
            · exact apart m mem pair (List.mem_cons_of_mem _ hp)

instance : IsTrans Migration fun a b => a.version ≤ b.version := ⟨fun _ _ _ first second => le_trans first second⟩

instance : Std.Total fun a b : Migration => a.version ≤ b.version := ⟨fun a b => le_total a.version b.version⟩

/-- The migrations have each version once. -/
theorem migrations_nodup {entries : List Entry} {ms : List Migration} (h : migrations entries = .ok ms) :
    (ms.map Migration.version).Nodup := by
  obtain ⟨out, collected, same⟩ := bind_ok h
  cases same
  have perm := (List.perm_insertionSort (fun a b : Migration => a.version ≤ b.version) out).map Migration.version
  rw [perm.nodup_iff]
  have numbers : ((out.map Migration.version).map fun v => v.toList.take 4).Nodup := by
    rw [List.map_map]
    exact (collect_numbers collected).1
  exact List.Nodup.of_map _ numbers

/-- The migrations are in the order of their versions. -/
theorem migrations_sorted {entries : List Entry} {ms : List Migration} (h : migrations entries = .ok ms) :
    ms.Pairwise fun a b => a.version < b.version := by
  have apart : ms.Pairwise fun a b => a.version ≠ b.version := List.pairwise_map.1 (migrations_nodup h)
  obtain ⟨out, collected, same⟩ := bind_ok h
  cases same
  have sorted := List.pairwise_insertionSort (fun a b : Migration => a.version ≤ b.version) out
  exact (sorted.and apart).imp fun {a b} both => lt_of_le_of_ne both.1 both.2

end NovoApex.Migrations
