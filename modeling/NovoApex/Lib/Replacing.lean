import Mathlib.Data.List.Infix

/-!
# Replacing matches by a template

`ReplaceAllString` of an expression with one group: the matches are taken from the left,
and each is replaced by a template in which `$1` and the like stand for parts of the
match. The expression itself is a function that says what it matches at the start of a
text. Where nothing matches after the first match, only that one is replaced:
`replaceAllString_first`.
-/

namespace NovoApex.Lib
set_option autoImplicit false

/-- What an expression matches at the start of a text: the match, its group and what follows. -/
abbrev Matcher : Type := List Char → Option (List Char × List Char × List Char)

/-! ## Parts of expressions -/

/-- A literal at the start of a text, as `fold` compares characters: what it matches and what follows. -/
def literalAt (fold : Char → Char → Bool) : List Char → List Char → Option (List Char × List Char)
  | [], text => some ([], text)
  | _ :: _, [] => none
  | c :: literal, d :: text => if fold c d then (literalAt fold literal text).map fun found => (d :: found.1, found.2) else none

/-- As few characters as possible, of those that may be skipped, and then `p`. -/
def lazily {A : Type} (skips : Char → Bool) (p : List Char → Option A) : List Char → Option (List Char × A)
  | [] => (p []).map fun found => ([], found)
  | c :: rest =>
    match p (c :: rest) with
    | some found => some ([], found)
    | none => if skips c then (lazily skips p rest).map fun found => (c :: found.1, found.2) else none

theorem literalAt_eq {fold : Char → Char → Bool} {literal text matched rest : List Char}
    (h : literalAt fold literal text = some (matched, rest)) : text = matched ++ rest := by
  induction literal generalizing text matched with
  | nil =>
    cases h
    rfl
  | cons c literal ih =>
    cases text with
    | nil => cases h
    | cons d text =>
      unfold literalAt at h
      split at h
      · obtain ⟨⟨inner, after⟩, found, same⟩ := Option.map_eq_some_iff.1 h
        cases same
        rw [ih found, List.cons_append]
      · cases h

theorem literalAt_length {fold : Char → Char → Bool} {literal text matched rest : List Char}
    (h : literalAt fold literal text = some (matched, rest)) : matched.length = literal.length := by
  induction literal generalizing text matched with
  | nil =>
    cases h
    rfl
  | cons c literal ih =>
    cases text with
    | nil => cases h
    | cons d text =>
      unfold literalAt at h
      split at h
      · obtain ⟨⟨inner, after⟩, found, same⟩ := Option.map_eq_some_iff.1 h
        cases same
        exact congrArg Nat.succ (ih found)
      · cases h

/-- The characters of a literal, each as `fold` allows. -/
theorem literalAt_of_forall₂ {fold : Char → Char → Bool} {literal matched : List Char}
    (h : List.Forall₂ (fun c d => fold c d = true) literal matched) (rest : List Char) :
    literalAt fold literal (matched ++ rest) = some (matched, rest) := by
  induction h with
  | nil => rfl
  | cons first _ ih =>
    rw [List.cons_append]
    unfold literalAt
    rw [if_pos first, ih]
    rfl

section Lazily

variable {A : Type} {skips : Char → Bool} {p : List Char → Option A}

theorem lazily_eq {text filler : List Char} {found : A} (h : lazily skips p text = some (filler, found)) :
    ∃ rest, text = filler ++ rest ∧ p rest = some found := by
  induction text generalizing filler with
  | nil =>
    obtain ⟨here, read, same⟩ := Option.map_eq_some_iff.1 h
    cases same
    exact ⟨[], rfl, read⟩
  | cons c rest ih =>
    unfold lazily at h
    split at h
    · rename_i read
      cases h
      exact ⟨c :: rest, rfl, read⟩
    · split at h
      · obtain ⟨⟨inner, here⟩, found, same⟩ := Option.map_eq_some_iff.1 h
        cases same
        obtain ⟨tail, rfl, read⟩ := ih found
        exact ⟨tail, rfl, read⟩
      · cases h

/-- What may be skipped leads to what follows. -/
theorem lazily_isSome {filler rest : List Char} (clear : ∀ c ∈ filler, skips c = true) (h : (p rest).isSome = true) :
    (lazily skips p (filler ++ rest)).isSome = true := by
  induction filler with
  | nil =>
    obtain ⟨found, read⟩ := Option.isSome_iff_exists.1 h
    cases rest with
    | nil =>
      show ((p []).map fun found => (([] : List Char), found)).isSome = true
      rw [read]
      rfl
    | cons c rest =>
      rw [List.nil_append]
      unfold lazily
      rw [read]
      rfl
  | cons c filler ih =>
    have later := ih fun d mem => clear d (List.mem_cons_of_mem c mem)
    rw [List.cons_append]
    unfold lazily
    split
    · rfl
    · rw [if_pos (clear c List.mem_cons_self), Option.isSome_map]
      exact later

/-- Nothing is found on the way, so it has been skipped. -/
theorem lazily_append {u after : List Char} (none : ∀ x v, u = x ++ v → v ≠ [] → p (v ++ after) = none)
    (h : (lazily skips p (u ++ after)).isSome = true) : (lazily skips p after).isSome = true := by
  induction u with
  | nil => exact h
  | cons c u ih =>
    rw [List.cons_append] at h
    unfold lazily at h
    have here : p (c :: (u ++ after)) = Option.none := none [] (c :: u) rfl (List.cons_ne_nil c u)
    rw [here] at h
    simp only at h
    split at h
    · rw [Option.isSome_map] at h
      exact ih (fun x v same some_ => none (c :: x) v (by rw [same]; rfl) some_) h
    · cases h

end Lazily

/-! ## Templates -/

/-- The characters of a name in a template. -/
def isNameChar (c : Char) : Bool := c.isAlphanum || c == '_'

/-- `extract`: the name that a `$` is followed by, and what follows it. -/
def extract : List Char → Option (List Char × List Char)
  | '\x7b' :: rest =>
    match rest.dropWhile isNameChar with
    | '\x7d' :: after => if rest.takeWhile isNameChar = [] then none else some (rest.takeWhile isNameChar, after)
    | _ => none
  | text => if text.takeWhile isNameChar = [] then none else some (text.takeWhile isNameChar, text.dropWhile isNameChar)

/-- What a name stands for: the match, its group, or nothing. -/
def submatch (whole group name : List Char) : List Char :=
  if name = ['0'] then whole else if name = ['1'] then group else []

/-- `expand`. -/
def expand (whole group : List Char) : Nat → List Char → List Char
  | 0, _ => []
  | _ + 1, [] => []
  | fuel + 1, c :: rest =>
    if c = '$' then
      if rest.head? = some '$' then '$' :: expand whole group fuel (rest.drop 1)
      else
        match extract rest with
        | some (name, after) => submatch whole group name ++ expand whole group fuel after
        | none => '$' :: expand whole group fuel rest
    else c :: expand whole group fuel rest

/-- A template expanded for a match. -/
def expandTemplate (whole group template : List Char) : List Char := expand whole group (template.length + 1) template

theorem expand_cons {whole group rest : List Char} {c : Char} (other : c ≠ '$') (fuel : Nat) :
    expand whole group (fuel + 1) (c :: rest) = c :: expand whole group fuel rest := by
  rw [expand, if_neg other]

/-- Text without `$` stands for itself. -/
theorem expand_plain {whole group text : List Char} (plain : '$' ∉ text) (rest : List Char) (fuel : Nat) :
    expand whole group (text.length + fuel) (text ++ rest) = text ++ expand whole group fuel rest := by
  induction text with
  | nil => rw [List.length_nil, Nat.zero_add, List.nil_append, List.nil_append]
  | cons c text ih =>
    have other : c ≠ '$' := fun same => plain (same ▸ List.mem_cons_self)
    rw [List.length_cons, Nat.add_right_comm, List.cons_append, expand_cons other, ih fun mem => plain (List.mem_cons_of_mem c mem),
      List.cons_append]

/-- `${1}`. -/
def firstGroup : List Char := ['$', '\x7b', '1', '\x7d']

theorem expand_firstGroup (whole group rest : List Char) (fuel : Nat) :
    expand whole group (fuel + 1) (firstGroup ++ rest) = group ++ expand whole group fuel rest := rfl

theorem extract_length {text name after : List Char} (h : extract text = some (name, after)) : after.length ≤ text.length := by
  unfold extract at h
  split at h
  · rename_i rest
    split at h
    · rename_i tail closed
      split at h
      · cases h
      · cases h
        have suffix := (List.dropWhile_suffix (l := rest) isNameChar).length_le
        rw [closed, List.length_cons] at suffix
        rw [List.length_cons]
        omega
    · cases h
  · split at h
    · cases h
    · cases h
      exact (List.dropWhile_suffix isNameChar).length_le

/-- As much fuel as the template is long is enough. -/
theorem expand_fuel {whole group text : List Char} {fuel : Nat} (enough : text.length < fuel) :
    expand whole group fuel text = expandTemplate whole group text := by
  unfold expandTemplate
  generalize enough' : text.length + 1 = fuel'
  replace enough' : text.length < fuel' := enough' ▸ Nat.lt_succ_self _
  induction fuel generalizing fuel' text with
  | zero => exact absurd enough (Nat.not_lt_zero _)
  | succ fuel ih =>
    obtain ⟨fuel', rfl⟩ := Nat.exists_eq_succ_of_ne_zero (Nat.ne_zero_of_lt enough')
    cases text with
    | nil => rfl
    | cons c rest =>
      rw [List.length_cons] at enough enough'
      rw [expand, expand]
      split
      · split
        · have shorter := List.length_drop (i := 1) (l := rest)
          rw [ih (by omega) fuel' (by omega)]
        · cases named : extract rest with
          | none =>
            simp only
            rw [ih (by omega) fuel' (by omega)]
          | some found =>
            obtain ⟨name, after⟩ := found
            have shorter := extract_length named
            simp only
            rw [ih (by omega) fuel' (by omega)]
      · rw [ih (by omega) fuel' (by omega)]

/-- The group and then a template. -/
theorem expandTemplate_group (whole group template : List Char) :
    expandTemplate whole group (firstGroup ++ template) = group ++ expandTemplate whole group template := by
  have length : (firstGroup ++ template).length = template.length + 4 := by rw [List.length_append, Nat.add_comm]; rfl
  rw [expandTemplate, length, expand_firstGroup, expand_fuel (by omega)]

theorem expandTemplate_append {whole group text : List Char} (plain : '$' ∉ text) (rest : List Char) :
    expandTemplate whole group (text ++ rest) = text ++ expandTemplate whole group rest := by
  unfold expandTemplate
  rw [List.length_append, Nat.add_assoc, expand_plain plain]

theorem expandTemplate_plain {whole group text : List Char} (plain : '$' ∉ text) : expandTemplate whole group text = text := by
  have spelled := @expandTemplate_append whole group text plain []
  rwa [List.append_nil, show expandTemplate whole group [] = [] from rfl, List.append_nil] at spelled

/-- A name goes as far as its characters do. -/
theorem extract_name {c : Char} (digit : c.isDigit = true) (tail : List Char) {more : List Char}
    (stop : ∀ d, more.head? = some d → isNameChar d = false) :
    extract (c :: tail ++ more) = some ((c :: tail).takeWhile isNameChar, (c :: tail).dropWhile isNameChar ++ more) := by
  have isName : isNameChar c = true := by
    unfold isNameChar Char.isAlphanum
    rw [digit, Bool.or_true, Bool.true_or]
  have named : ∀ text : List Char, (text ++ more).takeWhile isNameChar = text.takeWhile isNameChar ∧
      (text ++ more).dropWhile isNameChar = text.dropWhile isNameChar ++ more := by
    intro text
    induction text with
    | nil =>
      cases more with
      | nil => exact ⟨rfl, rfl⟩
      | cons d more =>
        have other := stop d rfl
        exact ⟨List.takeWhile_cons_of_neg (by rw [other]; decide), List.dropWhile_cons_of_neg (by rw [other]; decide)⟩
    | cons d text ih =>
      rw [List.cons_append]
      cases letter : isNameChar d with
      | true =>
        rw [List.takeWhile_cons_of_pos letter, List.takeWhile_cons_of_pos letter, List.dropWhile_cons_of_pos letter,
          List.dropWhile_cons_of_pos letter, ih.1, ih.2]
        exact ⟨rfl, rfl⟩
      | false =>
        have other : ¬ isNameChar d = true := by rw [letter]; decide
        rw [List.takeWhile_cons_of_neg other, List.takeWhile_cons_of_neg other, List.dropWhile_cons_of_neg other,
          List.dropWhile_cons_of_neg other]
        exact ⟨rfl, rfl⟩
  have brace : c ≠ '\x7b' := by
    rintro rfl
    exact absurd digit (by decide)
  unfold extract
  split
  · rename_i rest same
    exact absurd (List.cons.inj same).1 brace
  · rw [(named (c :: tail)).1, (named (c :: tail)).2, List.takeWhile_cons_of_pos isName, if_neg (List.cons_ne_nil _ _)]

/-- A number after `$` is a name. -/
theorem expandTemplate_number {whole group : List Char} {c : Char} (digit : c.isDigit = true) {tail : List Char} (plain : '$' ∉ tail)
    {more : List Char} (stop : ∀ d, more.head? = some d → isNameChar d = false) :
    expandTemplate whole group ('$' :: (c :: tail ++ more)) =
      submatch whole group ((c :: tail).takeWhile isNameChar) ++ ((c :: tail).dropWhile isNameChar ++ expandTemplate whole group more) := by
  have other : (c :: tail ++ more).head? ≠ some '$' := by
    rintro same
    rw [Option.some.inj same] at digit
    exact absurd digit (by decide)
  have rest : '$' ∉ (c :: tail).dropWhile isNameChar := by
    intro mem
    rcases List.mem_cons.1 ((List.dropWhile_suffix isNameChar).mem mem) with same | mem
    · rw [← same] at digit
      exact absurd digit (by decide)
    · exact plain mem
  have shorter := extract_length (extract_name digit tail stop)
  rw [expandTemplate, expand, if_pos rfl, if_neg other, extract_name digit tail stop]
  simp only
  rw [expand_fuel (by rw [List.length_cons]; omega), expandTemplate_append rest]

/-! ## Replacement -/

/-- `MatchString`. -/
def matchString (re : Matcher) (text : List Char) : Bool := text.tails.any fun t => (re t).isSome

/-- The first match and what stands before it. -/
def findFirst (re : Matcher) (text : List Char) : Option (List Char × List Char × List Char × List Char) := lazily (fun _ => true) re text

/-- `ReplaceAllString`, of an expression that does not match the empty text. -/
def replaceAllString (re : Matcher) (template : List Char) : Nat → List Char → List Char
  | 0, text => text
  | _ + 1, [] => []
  | fuel + 1, c :: rest =>
    match re (c :: rest) with
    | some (whole, group, after) => expandTemplate whole group template ++ replaceAllString re template fuel after
    | none => c :: replaceAllString re template fuel rest

section Replacement

variable {re : Matcher} {template : List Char}

theorem matchString_iff {text : List Char} : matchString re text = true ↔ ∃ x y, text = x ++ y ∧ (re y).isSome = true := by
  unfold matchString
  rw [List.any_eq_true]
  constructor
  · rintro ⟨y, mem, found⟩
    obtain ⟨x, same⟩ := (List.mem_tails _ _).1 mem
    exact ⟨x, y, same.symm, found⟩
  · rintro ⟨x, y, same, found⟩
    exact ⟨y, (List.mem_tails _ _).2 ⟨x, same.symm⟩, found⟩

theorem matchString_false {text : List Char} : matchString re text = false ↔ ∀ x y, text = x ++ y → re y = none := by
  constructor
  · intro unmatched x y same
    cases read : re y with
    | none => rfl
    | some _ =>
      rw [matchString_iff.2 ⟨x, y, same, by rw [read]; rfl⟩] at unmatched
      cases unmatched
  · intro none
    cases matched : matchString re text with
    | false => rfl
    | true =>
      obtain ⟨x, y, same, found⟩ := matchString_iff.1 matched
      rw [none x y same] at found
      cases found

theorem findFirst_of_matchString {text : List Char} (h : matchString re text = true) :
    ∃ before whole group after, findFirst re text = some (before, whole, group, after) := by
  obtain ⟨x, y, rfl, found⟩ := matchString_iff.1 h
  obtain ⟨⟨before, whole, group, after⟩, first⟩ := Option.isSome_iff_exists.1 (lazily_isSome (fun _ _ => rfl) found)
  exact ⟨before, whole, group, after, first⟩

theorem replaceAllString_none {text : List Char} (none : ∀ x y, text = x ++ y → re y = none) (fuel : Nat) :
    replaceAllString re template fuel text = text := by
  induction fuel generalizing text with
  | zero => rfl
  | succ fuel ih =>
    cases text with
    | nil => rfl
    | cons c rest =>
      unfold replaceAllString
      rw [none [] (c :: rest) rfl]
      exact congrArg (c :: ·) (ih fun x y same => none (c :: x) y (by rw [same]; rfl))

/-- Only the first match is replaced when nothing matches after it. -/
theorem replaceAllString_first {text before whole group after : List Char} {fuel : Nat} (enough : text.length < fuel) (nonempty : re [] = none)
    (found : findFirst re text = some (before, whole, group, after)) (alone : matchString re after = false) :
    replaceAllString re template fuel text = before ++ (expandTemplate whole group template ++ after) := by
  induction text generalizing fuel before with
  | nil =>
    obtain ⟨here, read, -⟩ := Option.map_eq_some_iff.1 found
    rw [nonempty] at read
    cases read
  | cons c rest ih =>
    obtain ⟨fuel, rfl⟩ := Nat.exists_eq_succ_of_ne_zero (Nat.ne_zero_of_lt enough)
    unfold findFirst lazily at found
    unfold replaceAllString
    cases here : re (c :: rest) with
    | some match_ =>
      rw [here] at found
      cases found
      simp only
      rw [replaceAllString_none (matchString_false.1 alone), List.nil_append]
    | none =>
      rw [here] at found
      obtain ⟨⟨inner, later⟩, more, same⟩ := Option.map_eq_some_iff.1 found
      cases same
      simp only
      rw [ih (Nat.lt_of_succ_lt_succ enough) more, List.cons_append]

end Replacement

end NovoApex.Lib
