import Mathlib.Data.List.Basic
import Mathlib.Data.List.Nodup

/-!
# A partial UPDATE

The text of a statement

    UPDATE t SET a = $1, b = $2, c = CURRENT_TIMESTAMP WHERE k = $3 RETURNING a, b

is cut into tokens, parsed, and run with its arguments. Keywords are written in capitals
and names are not. Texts are composed of pieces that do not run into one another, and the
tokens of the whole are those of the pieces (`lex_append`).
-/

namespace NovoApex.Lib.Sql
set_option autoImplicit false

/-! ## Tokens -/

inductive Token where
  | word (chars : List Char)
  | param (n : Nat)
  | comma
  | equals
  deriving DecidableEq, Repr

/-- What may stand in a name or a keyword. -/
def isWordChar (c : Char) : Bool := c.isAlpha || c.isDigit || c == '_'

/-- White space. -/
def isBlank (c : Char) : Bool := c == ' ' || c == '\n' || c == '\t'

/-- What is being read. -/
inductive Reading where
  | idle
  | word (chars : List Char)
  /-- The digits after `$`. -/
  | param (digits : List Char)
  deriving DecidableEq

/-- The token that ends here; `$` alone is none. -/
def Reading.close : Reading → Option (List Token)
  | idle => some []
  | word chars => some [.word chars]
  | param [] => none
  | param (d :: digits) => some [.param (Nat.ofDigitChars 10 (d :: digits) 0)]

/-- Read one more character of a word or a number. -/
def Reading.next : Reading → Char → Option Reading
  | idle, c => if c.isDigit then none else some (word [c])
  | word chars, c => some (word (chars ++ [c]))
  | param digits, c => if c.isDigit then some (param (digits ++ [c])) else none

/-- The tokens of a text. -/
def lexFrom : Reading → List Char → Option (List Token)
  | r, [] => r.close
  | r, c :: rest =>
    if isWordChar c then (r.next c).bind fun r => lexFrom r rest
    else
      r.close.bind fun closed =>
        if isBlank c then (lexFrom .idle rest).map (closed ++ ·)
        else if c = ',' then (lexFrom .idle rest).map (closed ++ .comma :: ·)
        else if c = '=' then (lexFrom .idle rest).map (closed ++ .equals :: ·)
        else if c = '$' then (lexFrom (.param []) rest).map (closed ++ ·)
        else none

/-- The tokens of a statement. -/
def lex (text : List Char) : Option (List Token) := lexFrom .idle text

/-- A text that no word runs into. -/
def Separated (rest : List Char) : Prop := ∀ c ∈ rest.head?, isWordChar c = false

instance (rest : List Char) : Decidable (Separated rest) :=
  decidable_of_iff ((rest.head?.all fun c => !isWordChar c) = true) (by cases rest <;> simp [Separated])

/-- Nothing is being read after this character. -/
def isEnd (c : Char) : Bool := isBlank c || c == ',' || c == '='

/-- Two texts do not run into one another. -/
def Apart (text rest : List Char) : Prop := (∃ c ∈ text.getLast?, isEnd c = true) ∨ Separated rest

theorem not_isEnd {c : Char} (h : isWordChar c = true) : isEnd c = false := by
  by_contra ends
  simp only [isEnd, isBlank, Bool.not_eq_false, Bool.or_eq_true, beq_iff_eq] at ends
  rcases ends with (((rfl | rfl) | rfl) | rfl) | rfl <;> exact absurd h (by decide)

theorem Apart.tail {c : Char} {text rest : List Char} (apart : Apart (c :: text) rest) (inner : text ≠ [] ∨ isEnd c = false) : Apart text rest := by
  rcases apart with ⟨d, last, ends⟩ | separated
  · cases text with
    | nil =>
      obtain rfl : c = d := by simpa using last
      rcases inner with some | other
      · exact (some rfl).elim
      · rw [other] at ends
        cases ends
    | cons e text => exact .inl ⟨d, by simpa using last, ends⟩
  · exact .inr separated

/-- Pieces that do not run into one another are read one by one. -/
theorem lexFrom_append {r : Reading} {text rest : List Char} {tokens : List Token} (read : lexFrom r text = some tokens)
    (apart : Apart text rest) : lexFrom r (text ++ rest) = (lex rest).map (tokens ++ ·) := by
  induction text generalizing r tokens with
  | nil =>
    have closed : r.close = some tokens := read
    have separated : Separated rest := by
      rcases apart with ⟨c, last, -⟩ | separated
      · cases last
      · exact separated
    cases rest with
    | nil =>
      show r.close = some (tokens ++ [])
      rw [closed, List.append_nil]
    | cons c rest =>
      have plain := separated c rfl
      have start : Reading.idle.close = some [] := rfl
      simp only [List.nil_append, lex, lexFrom, plain, closed, start, Bool.false_eq_true, if_false, Option.bind_some]
      split
      · simp
      · split
        · simp [Function.comp_def]
        · split
          · simp [Function.comp_def]
          · split
            · simp
            · rfl
  | cons c text ih =>
    by_cases letter : isWordChar c = true
    · simp only [lexFrom, List.cons_append, letter, if_true] at read ⊢
      obtain ⟨next, stepped, read⟩ := Option.bind_eq_some_iff.1 read
      rw [stepped]
      exact ih read (apart.tail (.inr (not_isEnd letter)))
    · have plain : isWordChar c = false := by simpa using letter
      simp only [lexFrom, List.cons_append, plain, Bool.false_eq_true, if_false] at read ⊢
      obtain ⟨closed, closes, read⟩ := Option.bind_eq_some_iff.1 read
      rw [closes, Option.bind_some]
      -- from the next character on, or at once if this was the last
      have onward : ∀ {r' : Reading} {more : List Token}, lexFrom r' text = some more → (r' = .idle ∨ isEnd c = false) →
          lexFrom r' (text ++ rest) = (lex rest).map (more ++ ·) := by
        intro r' more read' clean
        by_cases last : text = [] ∧ isEnd c = true
        · obtain ⟨rfl, ends⟩ := last
          rcases clean with rfl | other
          · obtain rfl : [] = more := Option.some.inj read'
            simp [lex]
          · rw [other] at ends
            cases ends
        · refine ih read' (apart.tail ?_)
          by_cases empty : text = []
          · exact .inr (by simpa [empty] using last)
          · exact .inl empty
      split at read
      · rename_i blank
        obtain ⟨more, read', rfl⟩ := Option.map_eq_some_iff.1 read
        rw [onward read' (.inl rfl), if_pos blank]
        simp [Option.map_map, Function.comp_def]
      · rename_i blank
        rw [if_neg blank]
        split at read
        · rename_i comma
          obtain ⟨more, read', rfl⟩ := Option.map_eq_some_iff.1 read
          rw [onward read' (.inl rfl), if_pos comma]
          simp [Option.map_map, Function.comp_def]
        · rename_i comma
          rw [if_neg comma]
          split at read
          · rename_i equals
            obtain ⟨more, read', rfl⟩ := Option.map_eq_some_iff.1 read
            rw [onward read' (.inl rfl), if_pos equals]
            simp [Option.map_map, Function.comp_def]
          · rename_i equals
            rw [if_neg equals]
            split at read
            · rename_i dollar
              obtain ⟨more, read', rfl⟩ := Option.map_eq_some_iff.1 read
              have open' : isEnd c = false := by
                subst dollar
                decide
              rw [onward read' (.inr open'), if_pos dollar]
              simp [Option.map_map, Function.comp_def]
            · cases read

theorem lex_append {text rest : List Char} {tokens : List Token} (read : lex text = some tokens) (apart : Apart text rest) :
    lex (text ++ rest) = (lex rest).map (tokens ++ ·) := lexFrom_append read apart

/-- A name or keyword. -/
def Word (w : List Char) : Prop := w.all isWordChar = true ∧ ∃ c ∈ w.head?, c.isDigit = false

instance (w : List Char) : Decidable (Word w) :=
  decidable_of_iff ((w.all isWordChar && w.head?.any fun c => !c.isDigit) = true) (by cases w <;> simp [Word])

theorem lexFrom_word (chars w : List Char) (letters : w.all isWordChar = true) : lexFrom (.word chars) w = some [.word (chars ++ w)] := by
  induction w generalizing chars with
  | nil => rw [List.append_nil]; rfl
  | cons c w ih =>
    rw [List.all_cons, Bool.and_eq_true] at letters
    have more := ih (chars ++ [c]) letters.2
    rw [List.append_assoc, List.singleton_append] at more
    simp only [lexFrom, letters.1, if_true, Reading.next, Option.bind_some]
    exact more

theorem lex_word {w : List Char} (word : Word w) : lex w = some [.word w] := by
  obtain ⟨letters, c, first, plain⟩ := word
  cases w with
  | nil => cases first
  | cons d w =>
    obtain rfl : d = c := by simpa using first
    rw [List.all_cons, Bool.and_eq_true] at letters
    have read := lexFrom_word [d] w letters.2
    simp only [lex, lexFrom, letters.1, if_true, Reading.next, plain, Bool.false_eq_true, if_false, Option.bind_some]
    exact read

theorem lexFrom_digits (d : Char) (digits ds : List Char) (numeric : ds.all Char.isDigit = true) :
    lexFrom (.param (d :: digits)) ds = some [.param (Nat.ofDigitChars 10 (d :: digits ++ ds) 0)] := by
  induction ds generalizing digits with
  | nil => rw [List.append_nil]; rfl
  | cons e ds ih =>
    rw [List.all_cons, Bool.and_eq_true] at numeric
    have letter : isWordChar e = true := by simp [isWordChar, numeric.1]
    have more := ih (digits ++ [e]) numeric.2
    simp only [lexFrom, letter, if_true, Reading.next, numeric.1, List.cons_append, Option.bind_some]
    simpa using more

/-- A placeholder. -/
theorem lex_param (n : Nat) : lex ('$' :: (toString n).toList) = some [.param n] := by
  have digits : (toString n).toList = Nat.toDigits 10 n := by simp [toString, Nat.repr]
  have value : Nat.ofDigitChars 10 (Nat.toDigits 10 n) 0 = n := Nat.ofDigitChars_ten_toDigits
  have numeric : (Nat.toDigits 10 n).all Char.isDigit = true := by
    rw [List.all_eq_true]
    exact fun c mem => Nat.isDigit_of_mem_toDigits (by decide) (by decide) mem
  rw [digits]
  cases printed : Nat.toDigits 10 n with
  | nil => exact absurd printed Nat.toDigits_ne_nil
  | cons d ds =>
    rw [printed] at value numeric
    rw [List.all_cons, Bool.and_eq_true] at numeric
    have letter : isWordChar d = true := by simp [isWordChar, numeric.1]
    have read := lexFrom_digits d [] ds numeric.2
    have dollar : lex ('$' :: d :: ds) = (lexFrom (.param []) (d :: ds)).map ([] ++ ·) := rfl
    rw [dollar]
    simp only [lexFrom, letter, if_true, Reading.next, numeric.1, List.nil_append, Option.bind_some]
    rw [read]
    simpa using value

/-! ## Statements -/

/-- What a column is set to. -/
inductive Source where
  | param (n : Nat)
  | now
  deriving DecidableEq, Repr

structure Assignment where
  column : List Char
  source : Source
  deriving DecidableEq, Repr

/-- `UPDATE table SET assignments WHERE keyColumn = $keyParam RETURNING returning`. -/
structure Update where
  table : List Char
  assignments : List Assignment
  keyColumn : List Char
  keyParam : Nat
  returning : List (List Char)
  deriving DecidableEq, Repr

/-- Names are not in capitals. -/
def isName (w : List Char) : Bool := w.all fun c => !c.isUpper

/-- `column = source`. -/
def assignment (column : List Char) : Token → Option Assignment
  | .param n => if isName column then some ⟨column, .param n⟩ else none
  | .word w => if isName column ∧ w = "CURRENT_TIMESTAMP".toList then some ⟨column, .now⟩ else none
  | _ => none

/-- Assignments, separated by commas, and what follows them. -/
def assignments : List Token → Option (List Assignment × List Token)
  | .word column :: .equals :: source :: .comma :: rest =>
    (assignment column source).bind fun a => (assignments rest).map fun more => (a :: more.1, more.2)
  | .word column :: .equals :: source :: rest => (assignment column source).map fun a => ([a], rest)
  | _ => none

/-- Names to the end, separated by commas. -/
def names : List Token → Option (List (List Char))
  | [.word w] => if isName w then some [w] else none
  | .word w :: .comma :: rest => if isName w then (names rest).map (w :: ·) else none
  | _ => none

/-- What follows the assignments. -/
def selection (table : List Char) (assigned : List Assignment) : List Token → Option Update
  | .word whereWord :: .word column :: .equals :: .param n :: .word returningWord :: rest =>
    if whereWord = "WHERE".toList ∧ isName column ∧ returningWord = "RETURNING".toList then
      (names rest).map fun returning => ⟨table, assigned, column, n, returning⟩
    else none
  | _ => none

/-- The statement that the tokens are. -/
def update : List Token → Option Update
  | .word updateWord :: .word table :: .word setWord :: rest =>
    if updateWord = "UPDATE".toList ∧ isName table ∧ setWord = "SET".toList then
      (assignments rest).bind fun assigned => selection table assigned.1 assigned.2
    else none
  | _ => none

/-- The statement that a text is. -/
def parse (text : String) : Option Update := (lex text.toList).bind update

theorem assignments_comma {column : List Char} {source : Token} {a : Assignment} (assigned : assignment column source = some a)
    (rest : List Token) : assignments (.word column :: .equals :: source :: .comma :: rest) =
      (assignments rest).map fun more => (a :: more.1, more.2) := by
  simp only [assignments, assigned, Option.bind_some]

theorem update_eq {table key : List Char} {n : Nat} {rest names' : List Token} {assigned : List Assignment} {returning : List (List Char)}
    (tableName : isName table = true) (keyName : isName key = true) (returns : names names' = some returning)
    (assigns : assignments rest = some (assigned,
      .word "WHERE".toList :: .word key :: .equals :: .param n :: .word "RETURNING".toList :: names')) :
    update (.word "UPDATE".toList :: .word table :: .word "SET".toList :: rest) = some ⟨table, assigned, key, n, returning⟩ := by
  have selects : selection table assigned (.word "WHERE".toList :: .word key :: .equals :: .param n :: .word "RETURNING".toList :: names') =
      some ⟨table, assigned, key, n, returning⟩ := by
    simp only [selection, keyName, returns, and_true, if_true, Option.map_some]
  simp only [update, tableName, assigns, and_true, if_true, Option.bind_some]
  exact selects

/-! ## Execution -/

/-- The placeholder of an assignment. -/
def Assignment.param? (a : Assignment) : Option Nat :=
  match a.source with
  | .param n => some n
  | .now => none

/-- The placeholders of a statement. -/
def Update.params (u : Update) : List Nat := u.assignments.filterMap Assignment.param? ++ [u.keyParam]

/-- The argument of a placeholder. -/
def argument {V : Type} (args : List V) (n : Nat) : Option V := if n = 0 then none else args[n - 1]?

/-- The table has the columns, none is assigned twice, and every argument has a placeholder and every placeholder an argument. -/
def Update.Fits {V : Type} (u : Update) (columns : List (List Char)) (args : List V) : Prop :=
  (∀ a ∈ u.assignments, a.column ∈ columns) ∧ u.keyColumn ∈ columns ∧ (∀ c ∈ u.returning, c ∈ columns) ∧
    (u.assignments.map Assignment.column).Nodup ∧ (∀ n ∈ u.params, 0 < n ∧ n ≤ args.length) ∧ ∀ n, 0 < n → n ≤ args.length → n ∈ u.params

section Run

variable {V C : Type} [DecidableEq C]

/-- What a column is set to, as the column holds it; `none` is an error. -/
def Assignment.value (convert : List Char → V → Option C) (now : C) (args : List V) (a : Assignment) : Option C :=
  match a.source with
  | .param n => (argument args n).bind (convert a.column)
  | .now => some now

/-- A row is a function of its columns. The statement rewrites the rows under the key and answers what it returns of them; where a value
has no place in its column it fails and changes nothing. -/
def Update.run (u : Update) (convert : List Char → V → Option C) (now : C) (args : List V) (rows : List (List Char → C)) :
    Option (List (List Char → C) × List (List C)) :=
  if u.assignments.any fun a => (a.value convert now args).isNone then none
  else
    ((argument args u.keyParam).bind (convert u.keyColumn)).map fun key =>
      let written : (List Char → C) → List Char → C := fun row column =>
        ((u.assignments.find? fun a => decide (a.column = column)).bind fun a => a.value convert now args).getD (row column)
      (rows.map fun row => if row u.keyColumn = key then written row else row,
        (rows.filter fun row => decide (row u.keyColumn = key)).map fun row => u.returning.map (written row))

end Run

/-! ## Numbered assignments -/

/-- Columns set to the placeholders after the first `i`, in their order. -/
def numbered : Nat → List (List Char) → List Assignment
  | _, [] => []
  | i, column :: rest => ⟨column, .param (i + 1)⟩ :: numbered (i + 1) rest

@[simp] theorem numbered_columns (i : Nat) (columns : List (List Char)) : (numbered i columns).map Assignment.column = columns := by
  induction columns generalizing i with
  | nil => rfl
  | cons column rest ih => simp [numbered, ih]

theorem numbered_params (i : Nat) (columns : List (List Char)) :
    (numbered i columns).filterMap Assignment.param? = List.range' (i + 1) columns.length := by
  induction columns generalizing i with
  | nil => rfl
  | cons column rest ih => simp [numbered, Assignment.param?, ih, List.range'_succ]

theorem getElem?_numbered (i j : Nat) (columns : List (List Char)) :
    (numbered i columns)[j]? = columns[j]?.map fun column => ⟨column, .param (i + j + 1)⟩ := by
  induction columns generalizing i j with
  | nil => rfl
  | cons column rest ih =>
    cases j with
    | zero => rfl
    | succ j =>
      simp only [numbered, List.getElem?_cons_succ, ih]
      have same : i + 1 + j + 1 = i + (j + 1) + 1 := by omega
      rw [same]

/-- The statement, with its arguments, sets the columns `sets`, each to the value that its placeholder is bound to, and the stamp, and it
does so in the row under the key. Where every value has a place in its column, this is what an execution does; where one has none, the
execution fails (`Writes.refused`). -/
structure Writes {V : Type} (columns : List (List Char)) (table : List Char) (sets : List (List Char × V)) (stamp keyColumn : List Char)
    (key : V) (u : Update) (args : List V) : Prop where
  table : u.table = table
  fits : u.Fits columns args
  bound : ∀ j (h : j < sets.length), u.assignments[j]? = some ⟨sets[j].1, .param (j + 1)⟩ ∧ argument args (j + 1) = some sets[j].2
  keyed : u.keyColumn = keyColumn ∧ argument args u.keyParam = some key
  effect : ∀ {C : Type} [DecidableEq C] (convert : List Char → V → Option C) (now k : C) (cells : List Char → C)
    (rows : List (List Char → C)), (∀ s ∈ sets, convert s.1 s.2 = some (cells s.1)) → convert keyColumn key = some k →
    (u.run convert now args rows).map Prod.fst = some (rows.map fun row =>
      if row keyColumn = k then fun c => if c ∈ sets.map Prod.fst then cells c else if c = stamp then now else row c else row)

/-- Where the keys are distinct, a member is found by its key. -/
theorem find?_key {A K : Type} [DecidableEq K] {key : A → K} {l : List A} (distinct : (l.map key).Nodup) {a : A} (mem : a ∈ l) :
    (l.find? fun b => decide (key b = key a)) = some a := by
  cases search : l.find? fun b => decide (key b = key a) with
  | none => exact absurd (decide_eq_true rfl) (List.find?_eq_none.1 search a mem)
  | some b =>
    have named : key b = key a := by simpa using List.find?_some search
    exact congrArg some (List.inj_on_of_nodup_map distinct (List.mem_of_find?_eq_some search) mem named)

section Execution

variable {V C : Type} [DecidableEq C] {columns : List (List Char)} {table stamp keyColumn : List Char} {sets : List (List Char × V)}
  {key : V} {u : Update} {args : List V} {convert : List Char → V → Option C} {now : C} {rows : List (List Char → C)}

/-- A value without a place in its column fails the statement. -/
theorem Writes.refused (writes : Writes columns table sets stamp keyColumn key u args) {s : List Char × V} (mem : s ∈ sets)
    (refuses : convert s.1 s.2 = none) : u.run convert now args rows = none := by
  obtain ⟨j, short, rfl⟩ := List.getElem_of_mem mem
  obtain ⟨assigned, argued⟩ := writes.bound j short
  unfold Update.run
  refine if_pos (List.any_eq_true.2 ⟨_, List.mem_of_getElem? assigned, ?_⟩)
  simp only [Assignment.value, argued, Option.bind_some, refuses, Option.isNone_none]

omit [DecidableEq C] in
/-- The cells that the values are in their columns. -/
theorem exists_cells [Inhabited C] (distinct : (sets.map Prod.fst).Nodup) (converts : ∀ s ∈ sets, (convert s.1 s.2).isSome = true) :
    ∃ cells : List Char → C, ∀ s ∈ sets, convert s.1 s.2 = some (cells s.1) := by
  refine ⟨fun c => ((sets.find? fun s => decide (s.1 = c)).bind fun s => convert s.1 s.2).getD default, fun s mem => ?_⟩
  obtain ⟨cell, converted⟩ := Option.isSome_iff_exists.1 (converts s mem)
  have found : (sets.find? fun s' => decide (s'.1 = s.1)) = some s := find?_key distinct mem
  simp only [found, Option.bind_some, converted, Option.getD_some]

/-- A run that succeeds has rewritten the rows under the key: the columns that are set hold their values, and of the others only the stamp
has changed. It returns something only if there is such a row. -/
theorem Writes.ran (writes : Writes columns table sets stamp keyColumn key u args) (distinct : (sets.map Prod.fst).Nodup)
    {rows' : List (List Char → C)} {out : List (List C)}
    (ran : u.run convert now args rows = some (rows', out)) :
    ∃ (k : C) (write : (List Char → C) → List Char → C), convert keyColumn key = some k ∧
      rows' = rows.map (fun row => if row keyColumn = k then write row else row) ∧
      (∀ s ∈ sets, ∀ row, convert s.1 s.2 = some (write row s.1)) ∧
      (∀ row c, c ∉ sets.map Prod.fst → c ≠ stamp → write row c = row c) ∧ (out ≠ [] → ∃ row ∈ rows, row keyColumn = k) := by
  have converts : ∀ s ∈ sets, (convert s.1 s.2).isSome = true := by
    intro s mem
    cases refuses : convert s.1 s.2 with
    | some cell => rfl
    | none =>
      rw [writes.refused mem refuses] at ran
      cases ran
  have whole := ran
  unfold Update.run at ran
  split at ran
  · cases ran
  obtain ⟨k, bound, same⟩ := Option.map_eq_some_iff.1 ran
  rw [writes.keyed.2, writes.keyed.1, Option.bind_some] at bound
  obtain ⟨-, returned⟩ := Prod.mk.inj same
  rw [writes.keyed.1] at returned
  have : Inhabited C := ⟨now⟩
  obtain ⟨cells, stored⟩ := exists_cells distinct converts
  have effect := writes.effect convert now k cells rows stored bound
  rw [whole] at effect
  refine ⟨k, fun row c => if c ∈ sets.map Prod.fst then cells c else if c = stamp then now else row c, bound, Option.some.inj effect,
    fun s mem row => ?_, fun row c unset other => ?_, fun some' => ?_⟩
  · simp only [List.mem_map_of_mem mem, if_true]
    exact stored s mem
  · simp only [unset, other, if_false]
  · by_contra missing
    have empty : (rows.filter fun row => decide (row keyColumn = k)) = [] := by
      rw [List.filter_eq_nil_iff]
      intro row mem same
      exact missing ⟨row, mem, of_decide_eq_true same⟩
    rw [empty] at returned
    exact some' returned.symm

end Execution

section Numbered

variable {V C : Type} {sets : List (List Char × V)} {args before after : List V}

theorem argument_append {n : Nat} {v : V} (length : before.length = n) : argument (before ++ v :: after) (n + 1) = some v := by
  unfold argument
  rw [if_neg (Nat.succ_ne_zero n), Nat.add_sub_cancel, ← length, List.getElem?_append_right (Nat.le_refl _), Nat.sub_self]
  rfl

/-- Every placeholder has the value of its column. -/
theorem value_numbered {convert : List Char → V → Option C} {now : C} {cells : List Char → C} (i : Nat) (length : before.length = i)
    (converts : ∀ s ∈ sets, convert s.1 s.2 = some (cells s.1)) (after : List V) :
    ∀ a ∈ numbered i (sets.map Prod.fst), a.value convert now (before ++ (sets.map Prod.snd ++ after)) = some (cells a.column) := by
  induction sets generalizing before i with
  | nil => exact fun a mem => absurd mem List.not_mem_nil
  | cons s rest ih =>
    intro a mem
    rcases List.mem_cons.1 mem with rfl | later
    · have bound : argument (before ++ s.2 :: (rest.map Prod.snd ++ after)) (i + 1) = some s.2 := argument_append length
      simp only [Assignment.value, List.map_cons, List.cons_append, bound, Option.bind_some]
      exact converts s List.mem_cons_self
    · have length' : (before ++ [s.2]).length = i + 1 := by simp [length]
      have next := ih (i + 1) length' (fun s' mem => converts s' (List.mem_cons_of_mem _ mem)) a later
      rw [List.append_assoc] at next
      exact next

variable {columns : List (List Char)} {table stamp keyColumn : List Char} {key : V} {returning : List (List Char)}

/-- Placeholders in the order of the arguments, then the stamp, and the key last. -/
theorem writes_numbered (known : ∀ s ∈ sets, s.1 ∈ columns) (stampKnown : stamp ∈ columns) (keyKnown : keyColumn ∈ columns)
    (returned : ∀ c ∈ returning, c ∈ columns) (nodup : (sets.map Prod.fst).Nodup) (unstamped : stamp ∉ sets.map Prod.fst) :
    Writes columns table sets stamp keyColumn key
      ⟨table, numbered 0 (sets.map Prod.fst) ++ [⟨stamp, .now⟩], keyColumn, sets.length + 1, returning⟩ (sets.map Prod.snd ++ [key]) where
  table := rfl
  fits := by
    have params : Update.params ⟨table, numbered 0 (sets.map Prod.fst) ++ [⟨stamp, .now⟩], keyColumn, sets.length + 1, returning⟩ =
        List.range' 1 sets.length ++ [sets.length + 1] := by
      simp [Update.params, numbered_params, Assignment.param?]
    refine ⟨fun a mem => ?_, keyKnown, returned, ?_, fun n mem => ?_, fun n positive le => ?_⟩
    · rcases List.mem_append.1 mem with set | last
      · have named := List.mem_map_of_mem (f := Assignment.column) set
        rw [numbered_columns] at named
        obtain ⟨s, hs, same⟩ := List.mem_map.1 named
        exact same ▸ known s hs
      · rw [List.mem_singleton.1 last]
        exact stampKnown
    · rw [List.map_append, numbered_columns]
      exact List.nodup_append.2 ⟨nodup, List.nodup_singleton _, fun a ha b hb same => unstamped (by
        rw [List.map_singleton, List.mem_singleton] at hb
        rwa [same, hb] at ha)⟩
    · rw [params] at mem
      simp only [List.mem_append, List.mem_range'_1, List.mem_singleton] at mem
      rw [List.length_append, List.length_map, List.length_singleton]
      omega
    · rw [params]
      rw [List.length_append, List.length_map, List.length_singleton] at le
      simp only [List.mem_append, List.mem_range'_1, List.mem_singleton]
      omega
  bound j h := by
    constructor
    · rw [List.getElem?_append_left (by rw [← List.length_map (f := Assignment.column), numbered_columns, List.length_map]; exact h),
        getElem?_numbered, List.getElem?_map, List.getElem?_eq_getElem h]
      simp
    · unfold argument
      rw [if_neg (Nat.succ_ne_zero j), Nat.add_sub_cancel, List.getElem?_append_left (by rw [List.length_map]; exact h), List.getElem?_map,
        List.getElem?_eq_getElem h]
      rfl
  keyed := ⟨rfl, argument_append (List.length_map _)⟩
  effect {C _} convert now k cells rows converts converted := by
    have values : ∀ a ∈ numbered 0 (sets.map Prod.fst), a.value convert now (sets.map Prod.snd ++ [key]) = some (cells a.column) :=
      @value_numbered V C sets [] convert now cells 0 rfl converts [key]
    have sound : ((numbered 0 (sets.map Prod.fst) ++ [(⟨stamp, .now⟩ : Assignment)]).any fun a =>
        (a.value convert now (sets.map Prod.snd ++ [key])).isNone) = false := by
      rw [List.any_eq_false]
      intro a mem
      rcases List.mem_append.1 mem with set | last
      · rw [values a set]
        exact Bool.false_ne_true
      · rw [List.mem_singleton.1 last]
        exact Bool.false_ne_true
    have bound : argument (sets.map Prod.snd ++ [key]) (sets.length + 1) = some key := argument_append (List.length_map _)
    unfold Update.run
    rw [sound, bound]
    simp only [Bool.false_eq_true, if_false, Option.bind_some, converted, Option.map_some]
    refine congrArg some (List.map_congr_left fun row _ => ?_)
    refine if_congr Iff.rfl (funext fun column => ?_) rfl
    rw [List.find?_append]
    by_cases mem : column ∈ sets.map Prod.fst
    · rw [if_pos mem]
      obtain ⟨a, set, named⟩ : ∃ a ∈ numbered 0 (sets.map Prod.fst), a.column = column := by
        rw [← numbered_columns 0 (sets.map Prod.fst)] at mem
        exact List.mem_map.1 mem
      cases found : (numbered 0 (sets.map Prod.fst)).find? fun a => decide (a.column = column) with
      | none => exact absurd (decide_eq_true named) (List.find?_eq_none.1 found a set)
      | some b =>
        have there := List.mem_of_find?_eq_some found
        have about : b.column = column := by simpa using List.find?_some found
        rw [Option.some_or, Option.bind_some, values b there, about]
        rfl
    · rw [if_neg mem]
      have unset : (numbered 0 (sets.map Prod.fst)).find? (fun a => decide (a.column = column)) = none := by
        refine List.find?_eq_none.2 fun a set named => mem ?_
        rw [← numbered_columns 0 (sets.map Prod.fst), ← of_decide_eq_true named]
        exact List.mem_map_of_mem set
      rw [unset, Option.none_or]
      by_cases same : column = stamp
      · rw [if_pos same, same]
        simp [Assignment.value]
      · rw [if_neg same]
        simp [Ne.symm same]

end Numbered

end NovoApex.Lib.Sql
