import NovoApex.Orchestrator.Catalog

/-!
# Formatted amounts

`formatJSAmount` with its slices: what it writes denotes the number it was given, in
groups of three digits and without zeros or a point at the end of the fraction.
-/

namespace NovoApex.Orchestrator
set_option autoImplicit false
open Lib Turns

/-! ## Slices -/

/-- `s[i:j]`, which is out of range unless `i ≤ j ≤ len(s)`. -/
def slice (s : List Char) (i j : Nat) : Option (List Char) := if i ≤ j ∧ j ≤ s.length then some ((s.take j).drop i) else none

/-- The loop of `formatJSAmount`, at index `i`. -/
def writeGroups (intPart grouped : List Char) (i : Nat) : Option (List Char) :=
  if i < intPart.length then
    (slice intPart i (i + 3)).bind fun group => writeGroups intPart (grouped ++ (if grouped = [] then [] else [',']) ++ group) (i + 3)
  else some grouped
termination_by intPart.length - i

/-- `formatJSAmount`, where a slice out of range ends it. -/
def formatJSAmountSlices (decimalText : List Char) : Option (List Char) :=
  let text := trimSpace decimalText
  if text = [] then some ['0']
  else
    let neg := decide (text.head? = some '-')
    let text := trimSign '-' (trimSign '+' text)
    let frac := ((text.dropWhile (· != '.')).drop 1).rdropWhile (· == '0')
    let intPart := trimSpace (text.takeWhile (· != '.'))
    let intPart := if intPart = [] then ['0'] else intPart
    let head := intPart.length % 3
    let first := if 0 < head then slice intPart 0 head else some []
    (first.bind fun front => writeGroups intPart front head).map fun grouped =>
      let out := if frac = [] then grouped else grouped ++ '.' :: frac
      if neg && decide (out ≠ ['0']) then '-' :: out else out

theorem slice_three {s : List Char} {i : Nat} (within : i + 3 ≤ s.length) :
    ∃ a b c, slice s i (i + 3) = some [a, b, c] ∧ s.drop i = a :: b :: c :: s.drop (i + 3) := by
  have three : ((s.take (i + 3)).drop i).length = 3 := by
    rw [List.length_drop, List.length_take]
    omega
  obtain ⟨a, b, c, group⟩ := List.length_eq_three.1 three
  refine ⟨a, b, c, ?_, ?_⟩
  · unfold slice
    rw [if_pos ⟨by omega, within⟩, group]
  · have split := List.take_append_drop 3 (s.drop i)
    rw [List.drop_drop, List.take_drop, group] at split
    exact split.symm

/-- What is left is written in groups, each within the range. -/
theorem writeGroups_eq (intPart grouped : List Char) {i : Nat} (within : i ≤ intPart.length) (whole : (intPart.length - i) % 3 = 0) :
    writeGroups intPart grouped i = some (groupDigits grouped (intPart.drop i)) := by
  fun_induction writeGroups intPart grouped i with
  | case1 grouped i less ih =>
    obtain ⟨a, b, c, group, rest⟩ := slice_three (s := intPart) (i := i) (by omega)
    rw [group, rest]
    simp only [Option.bind_some, groupDigits]
    exact ih [a, b, c] (by omega) (by omega)
  | case2 grouped i done =>
    rw [List.drop_eq_nil_of_le (by omega), groupDigits]
    simp

/-- No slice is out of range. -/
theorem formatJSAmountSlices_eq (text : List Char) : formatJSAmountSlices text = some (formatJSAmount text) := by
  have front : ∀ s : List Char, (if 0 < s.length % 3 then slice s 0 (s.length % 3) else some []) = some (s.take (s.length % 3)) := by
    intro s
    split
    · unfold slice
      rw [if_pos ⟨Nat.zero_le _, Nat.mod_le _ _⟩, List.drop_zero]
    · rename_i none_
      rw [Nat.eq_zero_of_not_pos none_]
      rfl
  unfold formatJSAmountSlices formatJSAmount
  simp only
  split
  · rfl
  · simp only [front, Option.bind_some]
    rw [writeGroups_eq _ _ (Nat.mod_le _ _) (by omega)]
    rfl

/-! ## Groups -/

/-- Groups of three digits, after a first group of one to three, separated by commas. -/
structure Grouped (text first : List Char) (rest : List (List Char)) : Prop where
  parts : text = first ++ rest.flatMap fun group => ',' :: group
  some_ : 1 ≤ first.length ∧ first.length ≤ 3
  three : ∀ group ∈ rest, group.length = 3
  digits : ∀ group ∈ first :: rest, ∀ c ∈ group, c.isDigit = true

section Groups

variable {front digits whole frac : List Char}

theorem Grouped.snoc {first : List Char} {rest : List (List Char)} (grouped : Grouped front first rest) {a b c : Char}
    (digits : ∀ d ∈ [a, b, c], d.isDigit = true) : Grouped (front ++ [','] ++ [a, b, c]) first (rest ++ [[a, b, c]]) where
  parts := by
    rw [grouped.parts]
    simp
  some_ := grouped.some_
  three group mem := by
    rcases List.mem_append.1 mem with mem | mem
    · exact grouped.three group mem
    · rw [List.mem_singleton.1 mem]
      rfl
  digits group mem := by
    rcases List.mem_cons.1 mem with rfl | mem
    · exact grouped.digits group List.mem_cons_self
    · rcases List.mem_append.1 mem with mem | mem
      · exact grouped.digits group (List.mem_cons_of_mem _ mem)
      · rw [List.mem_singleton.1 mem]
        exact digits

/-- The loop adds groups of three. -/
theorem groupDigits_grouped (begun : front = [] ∧ 3 ≤ digits.length ∨ ∃ first rest, Grouped front first rest)
    (digit : ∀ c ∈ digits, c.isDigit = true) : ∃ first rest, Grouped (groupDigits front digits) first rest := by
  fun_induction groupDigits front digits with
  | case1 front a b c tail ih =>
    have here : ∀ d ∈ [a, b, c], d.isDigit = true := fun d mem => digit d (List.mem_append_left tail mem)
    apply ih
    · rcases begun with ⟨rfl, -⟩ | ⟨first, rest, grouped⟩
      · refine .inr ⟨[a, b, c], [], by simp, by simp, fun group mem => absurd mem List.not_mem_nil, fun group mem => ?_⟩
        rw [List.mem_singleton.1 mem]
        exact here
      · have some_ : front ≠ [] := by
          intro none_
          have length := congrArg List.length grouped.parts
          rw [none_, List.length_append, List.length_nil] at length
          have := grouped.some_.1
          omega
        rw [if_neg some_]
        exact .inr ⟨first, _, grouped.snoc here⟩
    · exact fun d mem => digit d (by simp [mem])
  | case2 digits front short =>
    rcases begun with ⟨-, three⟩ | grouped
    · rcases digits with _ | ⟨a, _ | ⟨b, _ | ⟨c, tail⟩⟩⟩
      · exact absurd three (by decide)
      · exact absurd three (by simp)
      · exact absurd three (by simp)
      · exact (short a b c tail rfl).elim
    · exact grouped

/-- The digits of a number are in groups. -/
theorem whole_grouped (some_ : whole ≠ []) (digit : ∀ c ∈ whole, c.isDigit = true) :
    ∃ first rest, Grouped (groupDigits (whole.take (whole.length % 3)) (whole.drop (whole.length % 3))) first rest := by
  have positive := List.length_pos_iff.2 some_
  refine groupDigits_grouped ?_ fun c mem => digit c (List.mem_of_mem_drop mem)
  by_cases even : whole.length % 3 = 0
  · refine .inl ⟨by rw [even]; rfl, ?_⟩
    rw [List.length_drop]
    omega
  · refine .inr ⟨whole.take (whole.length % 3), [], by simp, ?_, fun group mem => absurd mem List.not_mem_nil, fun group mem => ?_⟩
    · rw [List.length_take]
      omega
    · rw [List.mem_singleton.1 mem]
      exact fun c mem => digit c (List.mem_of_mem_take mem)

/-- Without the commas the digits are as they were. -/
theorem groupDigits_commas (digit : ∀ c ∈ digits, c.isDigit = true) (whole : digits.length % 3 = 0) :
    (groupDigits front digits).filter (· != ',') = front.filter (· != ',') ++ digits := by
  fun_induction groupDigits front digits with
  | case1 front a b c tail ih =>
    have noComma : ∀ d ∈ [a, b, c], (d != ',') = true := fun d mem =>
      bne_iff_ne.2 (isDigit_ne (digit d (List.mem_append_left tail mem))).2.2.2
    rw [ih (fun d mem => digit d (by simp [mem])) (by simp only [List.length_cons] at whole; omega), List.filter_append, List.filter_append,
      List.filter_eq_self.2 noComma]
    split <;> simp
  | case2 digits front short =>
    rcases digits with _ | ⟨a, _ | ⟨b, _ | ⟨c, tail⟩⟩⟩
    · rw [List.append_nil]
    · exact absurd whole (by simp)
    · exact absurd whole (by simp)
    · exact (short a b c tail rfl).elim

theorem formatDigits_commas (digit : ∀ c ∈ whole, c.isDigit = true) (decimals : ∀ c ∈ frac, c.isDigit = true) :
    (formatDigits whole frac).filter (· != ',') = if frac = [] then whole else whole ++ '.' :: frac := by
  have plain : ∀ {l : List Char}, (∀ c ∈ l, c.isDigit = true) → l.filter (· != ',') = l := fun all =>
    List.filter_eq_self.2 fun c mem => bne_iff_ne.2 (isDigit_ne (all c mem)).2.2.2
  have grouped : (groupDigits (whole.take (whole.length % 3)) (whole.drop (whole.length % 3))).filter (· != ',') = whole := by
    rw [groupDigits_commas (fun c mem => digit c (List.mem_of_mem_drop mem)) (by rw [List.length_drop]; omega),
      plain fun c mem => digit c (List.mem_of_mem_take mem), List.take_append_drop]
  unfold formatDigits
  simp only
  split
  · exact grouped
  · rw [List.filter_append, grouped, List.filter_cons_of_pos (by decide), plain decimals]

/-- There is no point in the groups. -/
theorem groups_no_point (digit : ∀ c ∈ whole, c.isDigit = true) :
    ∀ c ∈ groupDigits (whole.take (whole.length % 3)) (whole.drop (whole.length % 3)), c ≠ '.' := by
  intro c mem
  have char := groupDigits_chars (fun c mem => .inl (digit c (List.mem_of_mem_take mem))) (fun c mem => digit c (List.mem_of_mem_drop mem)) c mem
  rcases char with digit | rfl
  · exact (isDigit_ne digit).1
  · decide

/-- What is written before a point is in groups. -/
theorem formatDigits_grouped (some_ : whole ≠ []) (digit : ∀ c ∈ whole, c.isDigit = true) :
    ∃ first rest, Grouped ((formatDigits whole frac).takeWhile (· != '.')) first rest := by
  have noPoint : ∀ c ∈ groupDigits (whole.take (whole.length % 3)) (whole.drop (whole.length % 3)), (c != '.') = true :=
    fun c mem => bne_iff_ne.2 (groups_no_point digit c mem)
  have before : (formatDigits whole frac).takeWhile (· != '.') =
      groupDigits (whole.take (whole.length % 3)) (whole.drop (whole.length % 3)) := by
    unfold formatDigits
    simp only
    split
    · exact List.takeWhile_eq_self_iff.2 noPoint
    · rw [List.takeWhile_append_of_pos noPoint]
      simp
  rw [before]
  exact whole_grouped some_ digit

/-- Nothing ends in a point, nor a fraction in a zero. -/
theorem formatDigits_last (digit : ∀ c ∈ whole, c.isDigit = true) (decimals : ∀ c ∈ frac, c.isDigit = true)
    (trimmed : ∀ c, frac.getLast? = some c → c ≠ '0') :
    (formatDigits whole frac).getLast? ≠ some '.' ∧ ('.' ∈ formatDigits whole frac → (formatDigits whole frac).getLast? ≠ some '0') := by
  have noPoint : '.' ∉ groupDigits (whole.take (whole.length % 3)) (whole.drop (whole.length % 3)) :=
    fun mem => groups_no_point digit '.' mem rfl
  unfold formatDigits
  simp only
  split
  · exact ⟨fun last => noPoint (List.mem_of_getLast? last), fun mem => absurd mem noPoint⟩
  · rename_i fraction
    have last : frac.getLast? = some (frac.getLast fraction) := List.getLast?_eq_some_getLast fraction
    generalize frac.getLast fraction = d at last
    have whole_last : ∀ l : List Char, (l ++ '.' :: frac).getLast? = some d := by
      intro l
      rw [List.getLast?_append, List.getLast?_cons, last]
      rfl
    rw [whole_last]
    refine ⟨fun same => ?_, fun _ same => trimmed d last (Option.some.inj same)⟩
    exact (isDigit_ne (decimals d (List.mem_of_getLast? last))).1 (Option.some.inj same)

end Groups

/-! ## The amount -/

section Amount

variable {text out : List Char} {q : ℚ}

/-- What is written denotes the number that was given. -/
theorem formatJSAmount_denotes (number : numberOf text = some q) : numberOf ((formatJSAmount text).filter (· != ',')) = some q := by
  obtain ⟨sign, whole, frac, notates⟩ := notates_of_number number
  have value := notates.number
  rw [number] at value
  obtain rfl := Option.some.inj value
  have decimals : ∀ c ∈ frac.rdropWhile (· == '0'), c.isDigit = true :=
    fun c mem => notates.decimals c ((List.rdropWhile_prefix _ _).subset mem)
  have bare := @formatDigits_commas whole (frac.rdropWhile (· == '0')) notates.digits decimals
  rw [formatJSAmount_notates notates]
  split
  · rename_i minus
    obtain ⟨rfl, -⟩ := minus
    rw [List.filter_cons_of_pos (by decide), bare]
    have written : Notates ('-' :: if frac.rdropWhile (· == '0') = [] then whole else whole ++ '.' :: frac.rdropWhile (· == '0')) (some true)
        whole (frac.rdropWhile (· == '0')) := by
      refine ⟨notates.some_, notates.digits, decimals, ?_⟩
      split
      · rename_i none_
        exact .inr ⟨rfl, none_⟩
      · exact .inl rfl
    rw [written.number, digitsValue_trim]
  · rename_i plus
    rw [bare]
    have written : Notates (if frac.rdropWhile (· == '0') = [] then whole else whole ++ '.' :: frac.rdropWhile (· == '0')) none
        whole (frac.rdropWhile (· == '0')) := by
      refine ⟨notates.some_, notates.digits, decimals, ?_⟩
      split
      · rename_i none_
        exact .inr ⟨rfl, none_⟩
      · exact .inl rfl
    rw [written.number, digitsValue_trim]
    by_cases minus : sign = some true
    · -- only a zero loses its sign
      have zero : formatDigits whole (frac.rdropWhile (· == '0')) = ['0'] := by
        by_contra other
        exact plus ⟨minus, other⟩
      have fraction : frac.rdropWhile (· == '0') = [] ∧ whole = ['0'] := by
        rw [zero] at bare
        split at bare
        · rename_i none_
          exact ⟨none_, bare.symm⟩
        · have length := congrArg List.length bare
          have positive := List.length_pos_iff.2 notates.some_
          simp only [List.length_cons, List.length_append] at length
          have one : (List.filter (· != ',') ['0']).length = 1 := by decide
          omega
      have value : digitsValue whole frac = 0 := by
        rw [← digitsValue_trim, fraction.1, fraction.2, digitsValue_zero]
      rw [value]
      simp [signedValue]
    · simp [minus]

/-- The form of what is written. -/
theorem formatJSAmount_form (number : numberOf text = some q) :
    (∃ first rest, Grouped ((unsigned (formatJSAmount text)).takeWhile (· != '.')) first rest) ∧
    (formatJSAmount text).getLast? ≠ some '.' ∧ ('.' ∈ formatJSAmount text → (formatJSAmount text).getLast? ≠ some '0') := by
  obtain ⟨sign, whole, frac, notates⟩ := notates_of_number number
  have decimals : ∀ c ∈ frac.rdropWhile (· == '0'), c.isDigit = true :=
    fun c mem => notates.decimals c ((List.rdropWhile_prefix _ _).subset mem)
  have trimmed : ∀ c, (frac.rdropWhile (· == '0')).getLast? = some c → c ≠ '0' := by
    intro c last zero
    have some_ : frac.rdropWhile (· == '0') ≠ [] := fun none_ => by simp [none_] at last
    have kept := List.rdropWhile_last_not _ _ some_
    rw [List.getLast?_eq_some_getLast some_] at last
    exact kept (by rw [Option.some.inj last, zero]; rfl)
  obtain ⟨first, rest, grouped⟩ := @formatDigits_grouped whole (frac.rdropWhile (· == '0')) notates.some_ notates.digits
  have last := formatDigits_last notates.digits decimals trimmed
  have nonempty : formatDigits whole (frac.rdropWhile (· == '0')) ≠ [] := by
    intro none_
    have parts := grouped.parts
    have some_ := grouped.some_.1
    rw [none_, List.takeWhile_nil] at parts
    have length := congrArg List.length parts
    rw [List.length_append, List.length_nil] at length
    omega
  rw [formatJSAmount_notates notates]
  split
  · refine ⟨⟨first, rest, grouped⟩, ?_⟩
    have tail : ('-' :: formatDigits whole (frac.rdropWhile (· == '0'))).getLast? = (formatDigits whole (frac.rdropWhile (· == '0'))).getLast? := by
      rw [List.getLast?_cons, List.getLast?_eq_some_getLast nonempty]
      rfl
    rw [tail]
    refine ⟨last.1, fun mem => last.2 ?_⟩
    rcases List.mem_cons.1 mem with absurd_ | mem
    · exact absurd absurd_ (by decide)
    · exact mem
  · refine ⟨⟨first, rest, ?_⟩, last⟩
    -- the first character is a digit
    obtain ⟨d, front, starts⟩ := List.exists_cons_of_ne_nil (List.length_pos_iff.1 grouped.some_.1)
    obtain ⟨-, minus, plus, -⟩ := isDigit_ne (grouped.digits first List.mem_cons_self d (starts ▸ List.mem_cons_self))
    obtain ⟨c, tail, written⟩ := List.exists_cons_of_ne_nil nonempty
    have same : c = d := by
      have parts := grouped.parts
      rw [written, starts, List.takeWhile_cons] at parts
      split at parts
      · exact (List.cons.inj parts).1
      · cases parts
    have bare : unsigned (formatDigits whole (frac.rdropWhile (· == '0'))) = formatDigits whole (frac.rdropWhile (· == '0')) := by
      rw [written]
      simp [unsigned, same, minus, plus]
    rw [bare]
    exact grouped

/-- A number is formatted without a slice out of range: the result denotes it when its commas are removed, its integer part is in groups, it
ends in no point and no fraction zero, and no text of another number has the same result. -/
theorem formatJSAmount_number (number : numberOf text = some q) :
    ∃ out, formatJSAmountSlices text = some out ∧ numberOf (out.filter (· != ',')) = some q ∧
      (∃ first rest, Grouped ((unsigned out).takeWhile (· != '.')) first rest) ∧
      out.getLast? ≠ some '.' ∧ ('.' ∈ out → out.getLast? ≠ some '0') ∧
      ∀ other q', numberOf other = some q' → q ≠ q' → formatJSAmountSlices other ≠ some out := by
  obtain ⟨grouped, point, zero⟩ := formatJSAmount_form number
  refine ⟨formatJSAmount text, formatJSAmountSlices_eq text, formatJSAmount_denotes number, grouped, point, zero, ?_⟩
  intro other q' number' ne same
  rw [formatJSAmountSlices_eq] at same
  have denotes := formatJSAmount_denotes number'
  rw [Option.some.inj same, formatJSAmount_denotes number] at denotes
  exact ne (Option.some.inj denotes)

end Amount

theorem millions_formatted : ∃ out, formatJSAmountSlices "-1234567.50".toList = some out ∧ out = "-1,234,567.5".toList ∧
    numberOf (out.filter (· != ',')) = some (-2469135 / 2) := by
  obtain ⟨out, formatted, denotes, -⟩ := formatJSAmount_number (by decide +kernel : numberOf "-1234567.50".toList = some (-2469135 / 2))
  refine ⟨out, formatted, ?_, denotes⟩
  have written : formatJSAmount "-1234567.50".toList = "-1,234,567.5".toList := by decide +kernel
  rw [formatJSAmountSlices_eq, written] at formatted
  exact (Option.some.inj formatted).symm

end NovoApex.Orchestrator
