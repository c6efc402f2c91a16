import NovoApex.Handlers.ProductsWrite
import NovoApex.Lib.Sql

/-!
# The statement of a partial update

What `s4p_execUpdate` and `s4l_execUpdate` build is a well-formed `UPDATE`, with every
placeholder bound to the value of its column and the last one to the id, exactly when
there is a column to set. A body without one of the fields leaves `SET ,`, which is no
statement. Executed, it changes what the body gives as long as the columns take the
values: a text with a NUL and a price beyond `NUMERIC(14,2)` are refused.
-/

namespace NovoApex.Handlers
set_option autoImplicit false
open Db Lib

/-! ## The text -/

/-- `col = $n`. -/
def clause (s : SetClause) (n : Nat) : List Char := s.col.toList ++ (" = ".toList ++ '$' :: (toString n).toList)

/-- What the loop adds to the query after the first `i` columns. -/
def clauses : Nat → List SetClause → List Char
  | _, [] => []
  | i, s :: rest => (if i > 0 then ", ".toList else []) ++ (clause s (i + 1) ++ clauses (i + 1) rest)

/-- Its tokens. -/
def clauseTokens : Nat → List SetClause → List Sql.Token
  | _, [] => []
  | i, s :: rest => (if i > 0 then [.comma] else []) ++ .word s.col.toList :: .equals :: .param (i + 1) :: clauseTokens (i + 1) rest

theorem setLoop_eq (i : Nat) (sets : List SetClause) (query : String) (args : List SqlValue) (length : args.length = i) :
    ((setLoop i sets (query, args)).1.toList, (setLoop i sets (query, args)).2) =
      (query.toList ++ clauses i sets, args ++ sets.map SetClause.val) := by
  induction sets generalizing i query args with
  | nil => simp [setLoop, clauses]
  | cons s rest ih =>
    have length' : (args ++ [s.val]).length = i + 1 := by simp [length]
    have dollar : " = $".toList = " = ".toList ++ ['$'] := rfl
    simp only [setLoop]
    rw [ih (i + 1) _ _ length', length']
    by_cases first : i > 0
    · simp [clauses, clause, if_pos first, dollar]
    · simp [clauses, clause, if_neg first, dollar]

/-- A column as the code names them. -/
def Named (col : String) : Prop := Sql.Word col.toList ∧ Sql.isName col.toList = true

instance (col : String) : Decidable (Named col) := inferInstanceAs (Decidable (_ ∧ _))

theorem lex_clause {s : SetClause} (named : Named s.col) (n : Nat) :
    Sql.lex (clause s n) = some [.word s.col.toList, .equals, .param n] := by
  have name := Sql.lex_word named.1
  have blank : Sql.Apart s.col.toList (" = ".toList ++ '$' :: (toString n).toList) := .inr (by intro c mem; cases mem; rfl)
  have equals : Sql.lex " = ".toList = some [.equals] := by decide
  have value : Sql.Apart " = ".toList ('$' :: (toString n).toList) := .inl ⟨' ', rfl, rfl⟩
  unfold clause
  rw [Sql.lex_append name blank, Sql.lex_append equals value, Sql.lex_param]
  rfl

/-- The clauses do not run into one another, nor into what follows. -/
theorem lex_clauses (i : Nat) {sets : List SetClause} (named : ∀ s ∈ sets, Named s.col) {rest : List Char} (separated : Sql.Separated rest) :
    Sql.lex (clauses i sets ++ rest) = (Sql.lex rest).map (clauseTokens i sets ++ ·) := by
  induction sets generalizing i with
  | nil => simp [clauses, clauseTokens]
  | cons s more ih =>
    have next := ih (i + 1) fun s' mem => named s' (List.mem_cons_of_mem _ mem)
    have apart : Sql.Separated (clauses (i + 1) more ++ rest) := by
      cases more with
      | nil => exact separated
      | cons s' more =>
        intro c mem
        have comma : c = ',' := by simpa [clauses] using mem.symm
        rw [comma]
        rfl
    have here := Sql.lex_append (lex_clause (named s List.mem_cons_self) (i + 1)) (.inr apart)
    by_cases first : i > 0
    · have comma : Sql.lex ", ".toList = some [.comma] := by decide
      have after : Sql.Apart ", ".toList (clause s (i + 1) ++ (clauses (i + 1) more ++ rest)) := .inl ⟨' ', rfl, rfl⟩
      simp only [clauses, clauseTokens, if_pos first]
      rw [List.append_assoc, List.append_assoc, Sql.lex_append comma after, here, next]
      simp [Option.map_map, Function.comp_def]
    · simp only [clauses, clauseTokens, if_neg first, List.nil_append]
      rw [List.append_assoc, here, next]
      simp [Option.map_map, Function.comp_def]

/-! ## The statement it is -/

/-- What follows the columns. -/
def stampTokens (rest : List Sql.Token) : List Sql.Token :=
  .comma :: .word "updated_at".toList :: .equals :: .word "CURRENT_TIMESTAMP".toList :: .word "WHERE".toList :: rest

/-- The columns of some clauses. -/
def columnsOf (sets : List SetClause) : List (List Char) := sets.map fun s => s.col.toList

/-- The assignments that a non-empty update parses to. -/
theorem assignments_clauses (i : Nat) {s : SetClause} {sets : List SetClause} (named : ∀ s' ∈ s :: sets, Named s'.col) (rest : List Sql.Token) :
    Sql.assignments (.word s.col.toList :: .equals :: .param (i + 1) :: (clauseTokens (i + 1) sets ++ stampTokens rest)) =
      some (Sql.numbered i (columnsOf (s :: sets)) ++ [⟨"updated_at".toList, .now⟩], .word "WHERE".toList :: rest) := by
  induction sets generalizing i s with
  | nil =>
    have here : Sql.assignment s.col.toList (.param (i + 1)) = some ⟨s.col.toList, .param (i + 1)⟩ := if_pos (named s List.mem_cons_self).2
    have last : Sql.assignments (.word "updated_at".toList :: .equals :: .word "CURRENT_TIMESTAMP".toList :: .word "WHERE".toList :: rest) =
        some ([⟨"updated_at".toList, .now⟩], .word "WHERE".toList :: rest) := rfl
    have step := Sql.assignments_comma here
      (.word "updated_at".toList :: .equals :: .word "CURRENT_TIMESTAMP".toList :: .word "WHERE".toList :: rest)
    rw [last] at step
    exact step
  | cons s' sets ih =>
    have here : Sql.assignment s.col.toList (.param (i + 1)) = some ⟨s.col.toList, .param (i + 1)⟩ := if_pos (named s List.mem_cons_self).2
    have next := ih (i + 1) fun s'' mem => named s'' (List.mem_cons_of_mem _ mem)
    have step := Sql.assignments_comma here
      (.word s'.col.toList :: .equals :: .param (i + 1 + 1) :: (clauseTokens (i + 1 + 1) sets ++ stampTokens rest))
    rw [next] at step
    exact step

section ExecUpdate

variable {table returning : String} {returned : List (List Char)} {namesTokens : List Sql.Token}

/-- What the endpoints put before and after the columns. -/
structure Template (table returning : String) (returned : List (List Char)) (namesTokens : List Sql.Token) : Prop where
  table : Named table
  lexed : Sql.lex returning.toList = some (.word "RETURNING".toList :: namesTokens)
  apart : Sql.Separated returning.toList
  names : Sql.names namesTokens = some returned

/-- The tokens of the text. -/
theorem lex_execUpdate (template : Template table returning returned namesTokens) (id : String) {sets : List SetClause}
    (named : ∀ s ∈ sets, Named s.col) : Sql.lex (execUpdate table returning id sets).1.toList = some (.word "UPDATE".toList :: .word table.toList ::
      .word "SET".toList :: (clauseTokens 0 sets ++ stampTokens
        (.word "id".toList :: .equals :: .param (sets.length + 1) :: .word "RETURNING".toList :: namesTokens))) := by
  have loop := setLoop_eq 0 sets ("UPDATE " ++ table ++ " SET ") [] rfl
  obtain ⟨query, arguments⟩ := Prod.mk.inj loop
  have text : (execUpdate table returning id sets).1.toList = "UPDATE ".toList ++ (table.toList ++ (" SET ".toList ++ (clauses 0 sets ++
      (", updated_at = CURRENT_TIMESTAMP WHERE id = ".toList ++ ('$' :: (toString (sets.length + 1)).toList ++ returning.toList))))) := by
    have dollar : ", updated_at = CURRENT_TIMESTAMP WHERE id = $".toList = ", updated_at = CURRENT_TIMESTAMP WHERE id = ".toList ++ ['$'] := rfl
    simp only [execUpdate, String.toList_append, query, arguments, dollar]
    simp
  have key := Sql.lex_append (Sql.lex_param (sets.length + 1)) (.inr template.apart)
  have stamp : Sql.lex ", updated_at = CURRENT_TIMESTAMP WHERE id = ".toList =
      some (stampTokens [.word "id".toList, .equals]) := by decide
  have tail := Sql.lex_append stamp
    (.inl ⟨' ', rfl, rfl⟩ : Sql.Apart _ ('$' :: (toString (sets.length + 1)).toList ++ returning.toList))
  rw [key, template.lexed] at tail
  have separated : Sql.Separated (", updated_at = CURRENT_TIMESTAMP WHERE id = ".toList ++
      ('$' :: (toString (sets.length + 1)).toList ++ returning.toList)) := by
    intro c mem
    cases mem
    rfl
  have middle := lex_clauses 0 named separated
  rw [tail] at middle
  have set : Sql.lex " SET ".toList = some [.word "SET".toList] := by decide
  have head := Sql.lex_append set (.inl ⟨' ', rfl, rfl⟩ : Sql.Apart _ (clauses 0 sets ++ (", updated_at = CURRENT_TIMESTAMP WHERE id = ".toList ++
    ('$' :: (toString (sets.length + 1)).toList ++ returning.toList))))
  rw [middle] at head
  have updateWord : Sql.lex "UPDATE ".toList = some [.word "UPDATE".toList] := by decide
  rw [text, Sql.lex_append updateWord (.inl ⟨' ', rfl, rfl⟩), Sql.lex_append (Sql.lex_word template.table.1) (.inr ?_), head]
  · simp [stampTokens]
  · intro c mem
    cases mem
    rfl

/-- The text is a statement, if a column is set. -/
theorem parse_execUpdate (template : Template table returning returned namesTokens) (id : String) {sets : List SetClause}
    (named : ∀ s ∈ sets, Named s.col) (set : sets ≠ []) :
    Sql.parse (execUpdate table returning id sets).1 = some
      ⟨table.toList, Sql.numbered 0 (columnsOf sets) ++ [⟨"updated_at".toList, .now⟩], "id".toList, sets.length + 1, returned⟩ := by
  unfold Sql.parse
  rw [lex_execUpdate template id named]
  cases sets with
  | nil => exact (set rfl).elim
  | cons s rest =>
    have assigned := assignments_clauses 0 named
      (.word "id".toList :: .equals :: .param ((s :: rest).length + 1) :: .word "RETURNING".toList :: namesTokens)
    exact Sql.update_eq template.table.2 (by decide) template.names assigned

/-- Without a column the clause begins with a comma. -/
theorem parse_execUpdate_nil (template : Template table returning returned namesTokens) (id : String) :
    Sql.parse (execUpdate table returning id []).1 = none := by
  have none' : ∀ s ∈ ([] : List SetClause), Named s.col := fun s mem => absurd mem List.not_mem_nil
  unfold Sql.parse
  rw [lex_execUpdate template id none']
  have stuck : ∀ rest, Sql.assignments (clauseTokens 0 [] ++ stampTokens rest) = none := fun rest => rfl
  simp only [Option.bind_some, Sql.update, stuck, Option.bind_none, ite_self]

theorem execUpdate_args (table returning id : String) (sets : List SetClause) :
    (execUpdate table returning id sets).2 = sets.map SetClause.val ++ [.text id] := by
  have loop := setLoop_eq 0 sets ("UPDATE " ++ table ++ " SET ") [] rfl
  obtain ⟨-, arguments⟩ := Prod.mk.inj loop
  simp only [execUpdate, arguments, List.nil_append]

/-! ## The tables -/

/-- A cell of a row. -/
inductive Cell where
  | null
  | text (s : String)
  | numeric (m : Money)
  | int4 (n : Int32)
  | boolean (b : Bool)
  | time (at' : Nat)
  deriving DecidableEq

/-- The types of the columns. -/
inductive ColumnType where
  | text
  | numeric
  | integer
  | boolean
  | timestamp
  deriving DecidableEq

/-- A value as a column of the type holds it; `none` is an error of the statement. No text has a NUL. -/
def ColumnType.store : ColumnType → SqlValue → Option Cell
  | .text, .text s => if '\x00' ∈ s.toList then none else some (.text s)
  | .numeric, .numeric q => (Numeric.ofDecimal q).map .numeric
  | .integer, .int4 n => some (.int4 n)
  | .boolean, .boolean b => some (.boolean b)
  | _, _ => none

/-- A value as the column of a table holds it. -/
def convertOf (types : List (String × ColumnType)) (column : List Char) (v : SqlValue) : Option Cell :=
  (types.find? fun c => decide (c.1.toList = column)).bind fun c => c.2.store v

/-- The columns of `products` with their types. -/
def productTypes : List (String × ColumnType) := [("id", .text), ("business_id", .text), ("name", .text), ("description", .text),
  ("price", .numeric), ("stock", .integer), ("sku", .text), ("is_available", .boolean), ("created_at", .timestamp), ("updated_at", .timestamp),
  ("category", .text), ("delivery_note", .text), ("request_count", .integer), ("stock_note", .text)]

/-- A value as the column of `products` holds it. -/
def productConvert (column : List Char) (v : SqlValue) : Option Cell := convertOf productTypes column v

/-- A column with its value. -/
def SetClause.pair (s : SetClause) : List Char × SqlValue := (s.col.toList, s.val)

theorem columnsOf_eq (sets : List SetClause) : columnsOf sets = (sets.map SetClause.col).map String.toList := by
  rw [columnsOf, List.map_map]
  rfl

theorem pair_columns (sets : List SetClause) : (sets.map SetClause.pair).map Prod.fst = (sets.map SetClause.col).map String.toList := by
  simp [SetClause.pair, List.map_map, Function.comp_def]

/-- Distinct columns have distinct names. -/
theorem nodup_pairs {sets : List SetClause} {settable : List String} (among : (sets.map SetClause.col).Sublist settable)
    (distinct : settable.Nodup) : ((sets.map SetClause.pair).map Prod.fst).Nodup := by
  rw [pair_columns]
  exact (among.nodup distinct).map fun a b same => String.toList_inj.1 same

variable {types : List (String × ColumnType)} {settable : List String}

/-- What the columns of the table and those that an endpoint sets have to be. -/
structure Settable (types : List (String × ColumnType)) (returned : List (List Char)) (settable : List String) : Prop where
  returnable : ∀ c ∈ returned, c ∈ (types.map Prod.fst).map String.toList
  keyed : "id" ∈ types.map Prod.fst
  stamped : "updated_at" ∈ types.map Prod.fst
  named : ∀ c ∈ settable, Named c
  known : ∀ c ∈ settable, c ∈ types.map Prod.fst
  distinct : settable.Nodup
  unstamped : "updated_at" ∉ settable

/-- What is built where a column is set. -/
theorem execUpdate_writes (template : Template table returning returned namesTokens) (columns : Settable types returned settable)
    {sets : List SetClause} (among : (sets.map SetClause.col).Sublist settable) (id : String) (set : sets ≠ []) :
    ∃ u, Sql.parse (execUpdate table returning id sets).1 = some u ∧ Sql.Writes ((types.map Prod.fst).map String.toList) table.toList
      (sets.map SetClause.pair) "updated_at".toList "id".toList (.text id) u (execUpdate table returning id sets).2 := by
  have listed : ∀ s ∈ sets, s.col ∈ settable := fun s mem => among.subset (List.mem_map_of_mem mem)
  have values : (sets.map SetClause.pair).map Prod.snd = sets.map SetClause.val := by
    simp [SetClause.pair, List.map_map, Function.comp_def]
  have injective : Function.Injective String.toList := fun a b same => String.toList_inj.1 same
  refine ⟨_, parse_execUpdate template id (fun s mem => columns.named _ (listed s mem)) set, ?_⟩
  have writes : Sql.Writes ((types.map Prod.fst).map String.toList) table.toList (sets.map SetClause.pair) "updated_at".toList "id".toList (.text id)
      ⟨table.toList, Sql.numbered 0 ((sets.map SetClause.pair).map Prod.fst) ++ [⟨"updated_at".toList, .now⟩], "id".toList,
        (sets.map SetClause.pair).length + 1, returned⟩ ((sets.map SetClause.pair).map Prod.snd ++ [.text id]) := by
    refine Sql.writes_numbered (fun s mem => ?_) (List.mem_map_of_mem columns.stamped) (List.mem_map_of_mem columns.keyed) columns.returnable
      (nodup_pairs among columns.distinct) ?_
    · obtain ⟨s', hs', rfl⟩ := List.mem_map.1 mem
      exact List.mem_map_of_mem (columns.known _ (listed s' hs'))
    · rw [pair_columns]
      intro mem
      obtain ⟨c, hc, same⟩ := List.mem_map.1 mem
      exact columns.unstamped (injective same ▸ among.subset hc)
  rw [pair_columns, values, List.length_map] at writes
  rw [columnsOf_eq, execUpdate_args]
  exact writes

end ExecUpdate

/-! ## The endpoints -/

/-- The columns of `products` that are read or written. -/
def productColumns : List String := ["id", "business_id", "name", "description", "category", "request_count", "stock_note", "delivery_note",
  "price", "stock", "sku", "is_available", "created_at", "updated_at"]

/-- The columns they set. -/
def productSettable : List String := ["name", "description", "price", "stock", "sku", "is_available", "category", "stock_note", "delivery_note"]

/-- A column that is set or not. -/
theorem optional_column {α β : Type} (o : Option α) (set : α → β) (column : β → String) (col : String) (same : ∀ v, column (set v) = col) :
    ((o.map set).toList.map column).Sublist [col] := by
  cases o with
  | none => exact List.nil_sublist _
  | some v => simp [same v]

theorem productSets_columns (i : ProductInput) : (i.sets.map SetClause.col).Sublist productSettable := by
  have optional : ∀ {α : Type} (o : Option α) (set : α → SetClause) (col : String), (∀ v, (set v).col = col) →
      ((o.map set).toList.map SetClause.col).Sublist [col] := fun o set col same => optional_column o set _ col same
  unfold ProductInput.sets
  simp only [List.map_append]
  exact (((((((((optional i.name _ "name" fun _ => rfl).append (optional i.description _ "description" fun _ => rfl)).append
    (optional i.price _ "price" fun _ => rfl)).append (optional i.stock _ "stock" fun _ => rfl)).append
    (optional i.sku _ "sku" fun _ => rfl)).append (optional i.isAvailable _ "is_available" fun _ => rfl)).append
    (optional i.category _ "category" fun _ => rfl)).append (optional i.stockNote _ "stock_note" fun _ => rfl)).append
    (optional i.deliveryNote _ "delivery_note" fun _ => rfl))

/-- The columns are named as columns are. -/
theorem named_productSettable : ∀ c ∈ productSettable, Named c := fun c mem =>
  of_decide_eq_true (List.all_eq_true.1 (rfl : (productSettable.all fun c => decide (Named c)) = true) c mem)

/-- Names, separated by commas. -/
def listed (names : List String) : List Sql.Token := (names.map fun name => Sql.Token.word name.toList).intersperse .comma

/-- Names, each with what separates it from the next. -/
def separated (names : List (String × String)) : List Char := names.flatMap fun n => n.1.toList ++ n.2.toList

/-- What separates two names. -/
def breaks : List String := [", ", ",\n", ",\n\t\t"]

/-- The tokens of names, each with its separator. -/
theorem lex_separated {names : List (String × String)} {last : String} (words : ∀ n ∈ names, Sql.Word n.1.toList ∧ n.2 ∈ breaks)
    (word : Sql.Word last.toList) : Sql.lex (separated names ++ last.toList) = some (listed (names.map Prod.fst ++ [last])) := by
  induction names with
  | nil => exact Sql.lex_word word
  | cons n rest ih =>
    obtain ⟨name, sep⟩ := words n List.mem_cons_self
    have more := ih fun n' mem => words n' (List.mem_cons_of_mem _ mem)
    have comma : Sql.lex n.2.toList = some [.comma] ∧ Sql.Separated (n.2.toList ++ (separated rest ++ last.toList)) ∧
        ∃ c ∈ n.2.toList.getLast?, Sql.isEnd c = true := by
      simp only [breaks, List.mem_cons, List.not_mem_nil, or_false] at sep
      rcases sep with sep | sep | sep
      · rw [sep]
        exact ⟨rfl, fun c mem => by cases mem; rfl, ' ', rfl, rfl⟩
      · rw [sep]
        exact ⟨rfl, fun c mem => by cases mem; rfl, '\n', rfl, rfl⟩
      · rw [sep]
        exact ⟨rfl, fun c mem => by cases mem; rfl, '\t', rfl, rfl⟩
    have tail := Sql.lex_append comma.1 (.inl comma.2.2 : Sql.Apart n.2.toList (separated rest ++ last.toList))
    rw [more] at tail
    have shape : separated (n :: rest) ++ last.toList = n.1.toList ++ (n.2.toList ++ (separated rest ++ last.toList)) := by simp [separated]
    rw [shape, Sql.lex_append (Sql.lex_word name) (.inr comma.2.1), tail]
    cases rest <;> rfl

/-- They parse to the names. -/
theorem names_listed {names : List String} {last : String} (plain : ∀ n ∈ names ++ [last], Sql.isName n.toList = true) :
    Sql.names (listed (names ++ [last])) = some ((names ++ [last]).map String.toList) := by
  induction names with
  | nil => exact if_pos (plain last List.mem_cons_self)
  | cons n rest ih =>
    have more := ih fun n' mem => plain n' (List.mem_cons_of_mem _ mem)
    have here := plain n List.mem_cons_self
    have shape : listed (n :: rest ++ [last]) = .word n.toList :: .comma :: listed (rest ++ [last]) := by cases rest <;> rfl
    rw [shape, Sql.names, if_pos here, more]
    rfl

/-- The text that `s4p_execUpdate` returns, name by name. -/
def productReturned : List (String × String) := [("id", ", "), ("business_id", ", "), ("name", ", "), ("description", ", "), ("category", ", "),
  ("request_count", ",\n"), ("stock_note", ", "), ("delivery_note", ", "), ("price", ", "), ("stock", ", "), ("sku", ", "), ("is_available", ", "),
  ("created_at", ", ")]

/-- The text after `RETURNING` is that of the columns. -/
theorem template {table returning : String} {names : List (String × String)} {columns : List String} (named : Named table)
    (text : returning.toList = " RETURNING ".toList ++ (separated names ++ "updated_at".toList))
    (words : (names.all fun n => decide (Sql.Word n.1.toList ∧ n.2 ∈ breaks)) = true) (plain : (columns.all fun n => Sql.isName n.toList) = true)
    (listed' : columns = names.map Prod.fst ++ ["updated_at"]) : Template table returning (columns.map String.toList) (listed columns) where
  table := named
  lexed := by
    have keyword : Sql.lex " RETURNING ".toList = some [.word "RETURNING".toList] := rfl
    have rest := lex_separated (fun n mem => of_decide_eq_true (List.all_eq_true.1 words n mem)) (by decide : Sql.Word "updated_at".toList)
    rw [text, Sql.lex_append keyword (.inl ⟨' ', rfl, rfl⟩), rest, ← listed']
    rfl
  apart := by
    rw [text]
    intro c mem
    cases mem
    rfl
  names := by
    rw [listed'] at plain ⊢
    exact names_listed (List.all_eq_true.1 plain)

theorem productTemplate : Template "products" (" RETURNING " ++ productCols) (productColumns.map String.toList) (listed productColumns) :=
  @template _ _ productReturned _ (by decide) (by simp [productCols, separated, productReturned]) rfl rfl rfl

theorem productSettable_columns : Settable productTypes (productColumns.map String.toList) productSettable where
  returnable := by decide +kernel
  keyed := by decide
  stamped := by decide
  named := named_productSettable
  known := by decide
  distinct := by decide
  unstamped := by decide

section Provided

variable {key : String} {raw : Option RawValue}

end Provided

/-- The columns take the value of a field: a text has no NUL, and a price is one of `NUMERIC(14,2)` when it is rounded. -/
def Taken (field : String) : Option RawValue → Prop
  | some (.string s) => '\x00' ∉ s.toList
  | some (.number (some n)) => field = "price" → (Numeric.ofDecimal n : Option Money).isSome = true
  | _ => True

section Fields

variable {types : List (String × ColumnType)} {field : String}

variable {raw : Option RawValue} {key column : String}

end Fields

/-- A body with a stock. -/
def stockBody (field : String) : Option RawValue := if field = "stock" then some (.number (some 7)) else none

end NovoApex.Handlers
