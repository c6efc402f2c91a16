import NovoApex.Workers.Orchestrator

/-!
# Product ids in replies

A reply is stripped of its tags `[ID: …]` in one pass, so a tag that stands inside the
opening of another one leaves a tag behind. `stripInternalProductIDs_sound_iff` says
that nothing else goes wrong: a stripped text has no tag, no double space and no white
space at its ends, and is not changed by stripping it again, exactly when no tag of
the text interrupts an opening.
-/

namespace NovoApex.Turns
set_option autoImplicit false

/-- A tag: `[ID:` in either case, characters other than `]`, at least one, and `]`. -/
def ContainsTag (text : List Char) : Prop :=
  ∃ before i d body after, text = before ++ '[' :: i :: d :: ':' :: (body ++ ']' :: after) ∧ i.toLower = 'i' ∧ d.toLower = 'd' ∧
    body ≠ [] ∧ ']' ∉ body

/-- What stripping is for. -/
structure StripSound (s : String) : Prop where
  untagged : ¬ ContainsTag (stripInternalProductIDs s).toList
  single : ¬ ∃ before after, (stripInternalProductIDs s).toList = before ++ ' ' :: ' ' :: after
  first : ∀ c, (stripInternalProductIDs s).toList.head? = some c → isSpace c = false
  last : ∀ c, (stripInternalProductIDs s).toList.getLast? = some c → isSpace c = false
  again : stripInternalProductIDs (stripInternalProductIDs s) = stripInternalProductIDs s

/-- What stands at the next match of the expression, a tag with the white space before it. -/
def afterMatch (text : List Char) : Option (List Char) := afterTag (text.dropWhile reSpace)

/-- The characters outside the matches, each with whether a match stands right before it. -/
def outside : Nat → Bool → List Char → List (Bool × Char)
  | 0, _, _ => []
  | fuel + 1, interrupted, text =>
    match afterMatch text with
    | some rest => outside fuel true rest
    | none =>
      match text with
      | [] => []
      | c :: rest => (interrupted, c) :: outside fuel false rest

/-- The characters of a text outside its matches. -/
def outsideTags (text : List Char) : List (Bool × Char) := outside (text.length + 1) false text

/-- Four characters that spell an opening with a match between two of them; a character other than `]`, and a `]`, follow. -/
def interruptedOpening : List (Bool × Char) → Bool
  | (_, '[') :: (m₁, i) :: (m₂, d) :: (m₃, ':') :: rest =>
    i.toLower == 'i' && d.toLower == 'd' && (m₁ || m₂ || m₃) && decide ((rest.map Prod.snd).head? ≠ some ']') &&
      decide (']' ∈ rest.map Prod.snd)
  | _ => false

/-- A tag of the text interrupts an opening. -/
def Interrupted (text : List Char) : Prop :=
  ∃ before rest, outsideTags text = before ++ rest ∧ interruptedOpening rest = true

/-! ## Tags -/

theorem afterClosing_isSome {text : List Char} : (afterClosing text).isSome = true ↔ ']' ∈ text := by
  induction text with
  | nil => simp [afterClosing]
  | cons c rest ih =>
    unfold afterClosing
    by_cases h : c = ']'
    · simp [h]
    · simp [h, ih, Ne.symm h]

theorem afterClosing_length {text rest : List Char} (h : afterClosing text = some rest) : rest.length < text.length := by
  induction text with
  | nil => cases h
  | cons c tail ih =>
    unfold afterClosing at h
    split at h
    · cases h
      exact Nat.lt_succ_self _
    · exact Nat.lt_succ_of_lt (ih h)

theorem afterOpening_eq_some {text rest : List Char} :
    afterOpening text = some rest ↔ ∃ i d, text = '[' :: i :: d :: ':' :: rest ∧ i.toLower = 'i' ∧ d.toLower = 'd' := by
  unfold afterOpening
  split
  · rename_i i d tail
    split
    · rename_i letters
      simp only [Bool.and_eq_true, beq_iff_eq] at letters
      constructor
      · rintro ⟨⟩
        exact ⟨i, d, rfl, letters⟩
      · rintro ⟨i', d', same, -⟩
        simp only [List.cons.injEq, true_and] at same
        rw [same.2.2]
    · rename_i letters
      simp only [Bool.and_eq_true, beq_iff_eq] at letters
      constructor
      · rintro ⟨⟩
      · rintro ⟨i', d', same, il, dl⟩
        simp only [List.cons.injEq, true_and] at same
        obtain ⟨rfl, rfl, -⟩ := same
        exact absurd ⟨il, dl⟩ letters
  · rename_i other
    constructor
    · rintro ⟨⟩
    · rintro ⟨i, d, same, -⟩
      exact absurd same (other i d rest)

/-- A tag starts here: an opening, then a character other than `]`, and a `]` somewhere. -/
theorem afterTag_isSome {text : List Char} :
    (afterTag text).isSome = true ↔ ∃ rest, afterOpening text = some rest ∧ rest.head? ≠ some ']' ∧ ']' ∈ rest := by
  unfold afterTag
  split
  · rename_i c rest opening
    rw [opening]
    by_cases h : c = ']'
    · simp [h]
    · simp [h, afterClosing_isSome, Ne.symm h]
  · rename_i other
    constructor
    · intro h
      cases h
    · rintro ⟨rest, opening, -, closing⟩
      cases rest with
      | nil => cases closing
      | cons c rest => exact absurd opening (other c rest)

theorem afterTag_length {text rest : List Char} (h : afterTag text = some rest) : rest.length < text.length := by
  unfold afterTag at h
  split at h
  · rename_i c tail opening
    obtain ⟨i, d, rfl, -⟩ := afterOpening_eq_some.1 opening
    split at h
    · cases h
    · have := afterClosing_length h
      simp only [List.length_cons]
      omega
  · cases h

theorem afterClosing_suffix {text rest : List Char} (h : afterClosing text = some rest) : rest <:+ text := by
  induction text with
  | nil => cases h
  | cons c tail ih =>
    unfold afterClosing at h
    split at h
    · cases h
      exact List.suffix_cons c _
    · exact (ih h).trans (List.suffix_cons c tail)

theorem afterTag_suffix {text rest : List Char} (h : afterTag text = some rest) : rest <:+ text := by
  unfold afterTag at h
  split at h
  · rename_i c tail opening
    obtain ⟨i, d, rfl, -⟩ := afterOpening_eq_some.1 opening
    split at h
    · cases h
    · exact (afterClosing_suffix h).trans ⟨['[', i, d, ':', c], rfl⟩
  · cases h

/-- A tag starts somewhere. -/
def hasTag : List Char → Bool
  | [] => false
  | c :: rest => (afterTag (c :: rest)).isSome || hasTag rest

theorem hasTag_iff {text : List Char} : hasTag text = true ↔ ∃ before rest, text = before ++ rest ∧ (afterTag rest).isSome = true := by
  induction text with
  | nil =>
    constructor
    · intro h
      cases h
    · rintro ⟨before, rest, same, tag⟩
      obtain ⟨rfl, rfl⟩ := List.append_eq_nil_iff.1 same.symm
      cases tag
  | cons c tail ih =>
    unfold hasTag
    rw [Bool.or_eq_true, ih]
    constructor
    · rintro (h | ⟨before, rest, rfl, tag⟩)
      · exact ⟨[], c :: tail, rfl, h⟩
      · exact ⟨c :: before, rest, rfl, tag⟩
    · rintro ⟨before, rest, same, tag⟩
      cases before with
      | nil =>
        rw [List.nil_append] at same
        exact .inl (same ▸ tag)
      | cons b before =>
        obtain ⟨-, same⟩ := List.cons.inj same
        exact .inr ⟨before, rest, same, tag⟩

theorem containsTag_iff {text : List Char} : ContainsTag text ↔ hasTag text = true := by
  rw [hasTag_iff]
  constructor
  · rintro ⟨before, i, d, body, after, rfl, il, dl, some_, closed⟩
    refine ⟨before, _, rfl, afterTag_isSome.2 ⟨body ++ ']' :: after, afterOpening_eq_some.2 ⟨i, d, rfl, il, dl⟩, ?_, by simp⟩⟩
    obtain ⟨b, body, rfl⟩ := List.exists_cons_of_ne_nil some_
    simp only [List.cons_append, List.head?_cons, ne_eq, Option.some.injEq]
    rintro rfl
    exact closed List.mem_cons_self
  · rintro ⟨before, rest, rfl, tag⟩
    obtain ⟨tail, opening, head, closing⟩ := afterTag_isSome.1 tag
    obtain ⟨i, d, rfl, il, dl⟩ := afterOpening_eq_some.1 opening
    obtain ⟨body, after, rfl, closed⟩ := List.eq_append_cons_of_mem closing
    refine ⟨before, i, d, body, after, rfl, il, dl, ?_, closed⟩
    rintro rfl
    exact head rfl

theorem afterTag_of_ne {c : Char} (h : c ≠ '[') (rest : List Char) : afterTag (c :: rest) = none := by
  cases tag : afterTag (c :: rest) with
  | none => rfl
  | some after =>
    obtain ⟨tail, opening, -⟩ := afterTag_isSome.1 (by rw [tag]; rfl)
    obtain ⟨i, d, same, -⟩ := afterOpening_eq_some.1 opening
    exact absurd (List.cons.inj same).1 h

theorem hasTag_cons_of_ne {c : Char} (h : c ≠ '[') (rest : List Char) : hasTag (c :: rest) = hasTag rest := by
  rw [hasTag, afterTag_of_ne h]
  rfl

/-- What comes after the last `]` does not matter. -/
theorem hasTag_snoc {c : Char} (h : c ≠ ']') (text : List Char) : hasTag (text ++ [c]) = hasTag text := by
  rw [Bool.eq_iff_iff, ← containsTag_iff, ← containsTag_iff]
  constructor
  · rintro ⟨before, i, d, body, after, same, il, dl, some_, closed⟩
    rcases List.eq_nil_or_concat after with rfl | ⟨after, last, rfl⟩
    · have ends : text ++ [c] = (before ++ '[' :: i :: d :: ':' :: body) ++ [']'] := by simp [same]
      exact absurd (List.append_inj' ends rfl).2 (by simpa using h)
    · have ends : text ++ [c] = (before ++ '[' :: i :: d :: ':' :: (body ++ ']' :: after)) ++ [last] := by simp [same]
      exact ⟨before, i, d, body, after, (List.append_inj' ends rfl).1, il, dl, some_, closed⟩
  · rintro ⟨before, i, d, body, after, rfl, il, dl, some_, closed⟩
    exact ⟨before, i, d, body, after ++ [c], by simp, il, dl, some_, closed⟩

/-! ## Double spaces -/

theorem halveSpaces_cons {c : Char} (h : c ≠ ' ') (rest : List Char) : halveSpaces (c :: rest) = c :: halveSpaces rest := by
  rw [halveSpaces]
  rintro rest' rfl
  exact absurd rfl h

/-- A character other than a space stands where it stood. -/
theorem halveSpaces_eq_cons {text tail : List Char} {c : Char} (h : c ≠ ' ') (halved : halveSpaces text = c :: tail) :
    ∃ rest, text = c :: rest ∧ tail = halveSpaces rest := by
  unfold halveSpaces at halved
  split at halved
  · exact absurd (List.cons.inj halved).1.symm h
  · rename_i rest _
    obtain ⟨rfl, rfl⟩ := List.cons.inj halved
    exact ⟨rest, rfl, rfl⟩
  · cases halved

theorem mem_halveSpaces {c : Char} (text : List Char) : c ∈ halveSpaces text ↔ c ∈ text := by
  fun_induction halveSpaces text with
  | case1 rest ih => simp [ih]
  | case2 c rest _ ih => simp [ih]
  | case3 => simp

theorem head_halveSpaces {c : Char} (h : c ≠ ' ') (text : List Char) : (halveSpaces text).head? = some c ↔ text.head? = some c := by
  constructor
  · intro head
    obtain ⟨tail, same⟩ := List.head?_eq_some_iff.1 head
    obtain ⟨rest, rfl, -⟩ := halveSpaces_eq_cons h same
    rfl
  · intro head
    obtain ⟨tail, rfl⟩ := List.head?_eq_some_iff.1 head
    rw [halveSpaces_cons h]
    rfl

/-- A letter of the opening is no space. -/
theorem letter_ne_space {c l : Char} (lower : c.toLower = l) (h : l ≠ ' ') : c ≠ ' ' := by
  rintro rfl
  exact h (lower ▸ by decide)

theorem afterTag_halveSpaces (rest : List Char) :
    (afterTag ('[' :: halveSpaces rest)).isSome = (afterTag ('[' :: rest)).isSome := by
  rw [Bool.eq_iff_iff, afterTag_isSome, afterTag_isSome]
  constructor
  · rintro ⟨tail, opening, head, closing⟩
    obtain ⟨i, d, same, il, dl⟩ := afterOpening_eq_some.1 opening
    obtain ⟨rest₁, rfl, first⟩ := halveSpaces_eq_cons (letter_ne_space il (by decide)) (List.cons.inj same).2
    obtain ⟨rest₂, rfl, second⟩ := halveSpaces_eq_cons (letter_ne_space dl (by decide)) first.symm
    obtain ⟨rest₃, rfl, rfl⟩ := halveSpaces_eq_cons (by decide) second.symm
    refine ⟨rest₃, afterOpening_eq_some.2 ⟨i, d, rfl, il, dl⟩, ?_, (mem_halveSpaces rest₃).1 closing⟩
    rwa [ne_eq, ← head_halveSpaces (by decide)]
  · rintro ⟨tail, opening, head, closing⟩
    obtain ⟨i, d, same, il, dl⟩ := afterOpening_eq_some.1 opening
    obtain ⟨-, rfl⟩ := List.cons.inj same
    refine ⟨halveSpaces tail, afterOpening_eq_some.2 ⟨i, d, ?_, il, dl⟩, ?_, (mem_halveSpaces tail).2 closing⟩
    · rw [halveSpaces_cons (letter_ne_space il (by decide)), halveSpaces_cons (letter_ne_space dl (by decide)),
        halveSpaces_cons (by decide)]
    · rwa [ne_eq, head_halveSpaces (by decide)]

theorem hasTag_halveSpaces (text : List Char) : hasTag (halveSpaces text) = hasTag text := by
  fun_induction halveSpaces text with
  | case1 rest ih => simp only [hasTag_cons_of_ne (by decide : ' ' ≠ '['), ih]
  | case2 c rest _ ih =>
    by_cases h : c = '['
    · subst h
      rw [hasTag, hasTag, afterTag_halveSpaces, ih]
    · rw [hasTag_cons_of_ne h, hasTag_cons_of_ne h, ih]
  | case3 => rfl

theorem length_halveSpaces_le (text : List Char) : (halveSpaces text).length ≤ text.length := by
  fun_induction halveSpaces text with
  | case1 rest ih =>
    simp only [List.length_cons]
    omega
  | case2 c rest _ ih =>
    simp only [List.length_cons]
    omega
  | case3 => exact le_refl 0

theorem length_halveSpaces_lt {text : List Char} (h : hasDoubleSpace text = true) : (halveSpaces text).length < text.length := by
  fun_induction halveSpaces text with
  | case1 rest ih =>
    have := length_halveSpaces_le rest
    simp only [List.length_cons]
    omega
  | case2 c rest other ih =>
    have later : hasDoubleSpace rest = true := by
      unfold hasDoubleSpace at h
      split at h
      · rename_i rest' same
        obtain ⟨rfl, rfl⟩ := List.cons.inj same
        exact (other rest' rfl rfl).elim
      · rename_i same
        obtain ⟨-, rfl⟩ := List.cons.inj same
        exact h
      · cases h
    have := ih later
    simp only [List.length_cons]
    omega
  | case3 => cases h

theorem hasTag_collapseSpaces (fuel : Nat) (text : List Char) : hasTag (collapseSpaces fuel text) = hasTag text := by
  induction fuel generalizing text with
  | zero => rfl
  | succ fuel ih =>
    unfold collapseSpaces
    split
    · rw [ih, hasTag_halveSpaces]
    · rfl

/-- Each round shortens the text, so the loop ends without a double space. -/
theorem collapseSpaces_single {fuel : Nat} {text : List Char} (enough : text.length ≤ fuel) :
    hasDoubleSpace (collapseSpaces fuel text) = false := by
  induction fuel generalizing text with
  | zero =>
    obtain rfl := List.length_eq_zero_iff.1 (Nat.le_zero.1 enough)
    rfl
  | succ fuel ih =>
    unfold collapseSpaces
    split
    · rename_i double
      have := length_halveSpaces_lt double
      exact ih (by omega)
    · rename_i single
      exact Bool.eq_false_iff.2 single

theorem collapseSpaces_of_single {text : List Char} (h : hasDoubleSpace text = false) (fuel : Nat) : collapseSpaces fuel text = text := by
  cases fuel with
  | zero => rfl
  | succ fuel =>
    unfold collapseSpaces
    rw [h]
    rfl

theorem hasDoubleSpace_iff {text : List Char} :
    hasDoubleSpace text = true ↔ ∃ before after, text = before ++ ' ' :: ' ' :: after := by
  fun_induction hasDoubleSpace text with
  | case1 rest => exact ⟨fun _ => ⟨[], rest, rfl⟩, fun _ => rfl⟩
  | case2 c rest other ih =>
    rw [ih]
    constructor
    · rintro ⟨before, after, rfl⟩
      exact ⟨c :: before, after, rfl⟩
    · rintro ⟨before, after, same⟩
      cases before with
      | nil =>
        obtain ⟨rfl, rfl⟩ := List.cons.inj same
        exact (other after rfl rfl).elim
      | cons b before => exact ⟨before, after, (List.cons.inj same).2⟩
  | case3 =>
    constructor
    · intro h
      cases h
    · rintro ⟨before, after, same⟩
      cases before <;> cases same

/-! ## White space at the ends -/

theorem isSpace_ne {c b : Char} (space : isSpace c = true) (h : isSpace b = false) : c ≠ b := by
  rintro rfl
  rw [space] at h
  cases h

theorem hasTag_dropWhile (text : List Char) : hasTag (text.dropWhile isSpace) = hasTag text := by
  induction text with
  | nil => rfl
  | cons c rest ih =>
    by_cases space : isSpace c = true
    · rw [List.dropWhile_cons_of_pos space, ih, hasTag_cons_of_ne (isSpace_ne space (by decide))]
    · rw [List.dropWhile_cons_of_neg space]

theorem hasTag_reverse_dropWhile (text : List Char) : hasTag (text.dropWhile isSpace).reverse = hasTag text.reverse := by
  induction text with
  | nil => rfl
  | cons c rest ih =>
    by_cases space : isSpace c = true
    · rw [List.dropWhile_cons_of_pos space, ih, List.reverse_cons, hasTag_snoc (isSpace_ne space (by decide))]
    · rw [List.dropWhile_cons_of_neg space]

theorem hasTag_trimSpace (text : List Char) : hasTag (trimSpace text) = hasTag text := by
  unfold trimSpace
  rw [hasTag_reverse_dropWhile, List.reverse_reverse, hasTag_dropWhile]

/-- Trimming takes a part out of the middle. -/
theorem trim_within (blank : Char → Bool) (text : List Char) : ((text.dropWhile blank).reverse.dropWhile blank).reverse <:+: text := by
  have tail : (text.dropWhile blank).reverse.dropWhile blank <:+ (text.dropWhile blank).reverse := List.dropWhile_suffix _
  have head := List.reverse_prefix.2 tail
  rw [List.reverse_reverse] at head
  exact head.isInfix.trans (List.dropWhile_suffix _).isInfix

theorem trimSpace_within (text : List Char) : trimSpace text <:+: text := trim_within isSpace text

theorem trimSpace_first {text : List Char} {c : Char} (h : (trimSpace text).head? = some c) : isSpace c = false := by
  unfold trimSpace at h
  have tail : (text.dropWhile isSpace).reverse.dropWhile isSpace <:+ (text.dropWhile isSpace).reverse := List.dropWhile_suffix _
  obtain ⟨spaces, same⟩ := List.reverse_prefix.2 tail
  rw [List.reverse_reverse] at same
  obtain ⟨rest, eq⟩ := List.head?_eq_some_iff.1 h
  have front : (text.dropWhile isSpace).head? = some c := by rw [← same, eq]; rfl
  have := List.head?_dropWhile_not isSpace text
  rw [front] at this
  exact this

theorem trimSpace_last {text : List Char} {c : Char} (h : (trimSpace text).getLast? = some c) : isSpace c = false := by
  unfold trimSpace at h
  rw [List.getLast?_reverse] at h
  have := List.head?_dropWhile_not isSpace (text.dropWhile isSpace).reverse
  rw [h] at this
  exact this

/-- A text without white space at its ends is trimmed already. -/
theorem trimSpace_of_trimmed {text : List Char} (first : ∀ c, text.head? = some c → isSpace c = false)
    (last : ∀ c, text.getLast? = some c → isSpace c = false) : trimSpace text = text := by
  have keeps : ∀ {l : List Char}, (∀ c, l.head? = some c → isSpace c = false) → l.dropWhile isSpace = l := by
    intro l head
    cases l with
    | nil => rfl
    | cons c rest => exact List.dropWhile_cons_of_neg (by rw [head c rfl]; decide)
  unfold trimSpace
  rw [keeps first, keeps, List.reverse_reverse]
  intro c head
  rw [List.head?_reverse] at head
  exact last c head

/-! ## What removing the tags leaves -/

theorem afterMatch_length {text rest : List Char} (h : afterMatch text = some rest) : rest.length < text.length :=
  lt_of_lt_of_le (afterTag_length h) (List.dropWhile_suffix _).length_le

theorem afterMatch_suffix {text rest : List Char} (h : afterMatch text = some rest) : rest <:+ text :=
  (afterTag_suffix h).trans (List.dropWhile_suffix _)

/-- Fuel beyond the length of the text changes nothing. -/
theorem outside_fuel {fuel fuel' : Nat} {interrupted : Bool} {text : List Char} (enough : text.length < fuel)
    (enough' : text.length < fuel') : outside fuel interrupted text = outside fuel' interrupted text := by
  induction fuel generalizing fuel' interrupted text with
  | zero => exact absurd enough (Nat.not_lt_zero _)
  | succ fuel ih =>
    obtain ⟨fuel', rfl⟩ := Nat.exists_eq_succ_of_ne_zero (Nat.ne_zero_of_lt enough')
    unfold outside
    split
    · rename_i rest found
      have := afterMatch_length found
      exact ih (by omega) (by omega)
    · cases text with
      | nil => rfl
      | cons c rest =>
        simp only [List.length_cons] at enough enough'
        exact congrArg _ (ih (by omega) (by omega))

/-- The marks aside, it does not matter what stands before a text. -/
theorem outside_chars (fuel : Nat) (interrupted : Bool) (text : List Char) :
    (outside fuel interrupted text).map Prod.snd = (outside fuel false text).map Prod.snd := by
  cases fuel with
  | zero => rfl
  | succ fuel =>
    unfold outside
    split
    · rfl
    · cases text <;> rfl

theorem outside_match {fuel : Nat} {b : Bool} {text rest : List Char} (h : afterMatch text = some rest) :
    outside (fuel + 1) b text = outside fuel true rest := by
  rw [outside.eq_def]
  simp only [h]

theorem outside_kept {fuel : Nat} {b : Bool} {c : Char} {rest : List Char} (h : afterMatch (c :: rest) = none) :
    outside (fuel + 1) b (c :: rest) = (b, c) :: outside fuel false rest := by
  rw [outside.eq_def]
  simp only [h]

theorem outside_nil (fuel : Nat) (interrupted : Bool) : outside fuel interrupted [] = [] := by
  cases fuel <;> rfl

/-- White space that no tag follows is kept, and so is the character after it. -/
theorem outside_spaces {fuel : Nat} {spaces text : List Char} (blank : ∀ c ∈ spaces, reSpace c = true)
    (visible : ∀ c, text.head? = some c → reSpace c = false) (noTag : afterTag text = none) :
    (outside (spaces.length + fuel) false (spaces ++ text)).map Prod.snd = spaces ++ (outside fuel false text).map Prod.snd := by
  induction spaces with
  | nil => simp
  | cons c spaces ih =>
    have none : afterMatch (c :: (spaces ++ text)) = none := by
      unfold afterMatch
      rw [← List.cons_append, List.dropWhile_append_of_pos blank]
      cases text with
      | nil => rfl
      | cons d rest => rw [List.dropWhile_cons_of_neg (by rw [visible d rfl]; decide), noTag]
    have length : (c :: spaces).length + fuel = (spaces.length + fuel) + 1 := by
      simp only [List.length_cons]
      omega
    rw [length, List.cons_append, outside_kept none]
    simp only [List.map_cons, List.cons_append]
    rw [ih fun d mem => blank d (List.mem_cons_of_mem c mem)]

/-- Removing the tags leaves the characters outside the matches. -/
theorem removeTags_eq {fuel : Nat} {spaces text : List Char} (blank : ∀ c ∈ spaces, reSpace c = true) (enough : text.length < fuel) :
    removeTags fuel spaces text = (outside (spaces.length + fuel) false (spaces ++ text)).map Prod.snd := by
  induction fuel generalizing spaces text with
  | zero => exact absurd enough (Nat.not_lt_zero _)
  | succ fuel ih =>
    cases text with
    | nil =>
      rw [outside_spaces blank (by simp) rfl, outside_nil]
      simp [removeTags]
    | cons c rest =>
      simp only [List.length_cons] at enough
      unfold removeTags
      by_cases space : reSpace c = true
      · rw [if_pos space, ih (by simpa using fun d mem => mem.elim (blank d) fun same => same ▸ space) (by omega)]
        have length : (spaces ++ [c]).length + fuel = spaces.length + (fuel + 1) := by
          simp only [List.length_append, List.length_singleton]
          omega
        rw [length, List.append_assoc, List.singleton_append]
      · rw [if_neg space]
        have visible : ∀ d, (c :: rest).head? = some d → reSpace d = false := by
          rintro d ⟨⟩
          exact Bool.eq_false_iff.2 space
        cases tag : afterTag (c :: rest) with
        | some after =>
          have short := afterTag_length tag
          simp only [List.length_cons] at short
          have found : afterMatch (spaces ++ c :: rest) = some after := by
            unfold afterMatch
            rw [List.dropWhile_append_of_pos blank, List.dropWhile_cons_of_neg space, tag]
          simp only
          rw [ih (by simp) (by omega), ← Nat.add_assoc, outside_match found]
          simp only [List.length_nil, Nat.zero_add, List.nil_append]
          rw [outside_chars _ true, outside_fuel (by omega) (by omega : after.length < spaces.length + fuel)]
        | none =>
          have none : afterMatch (c :: rest) = none := by
            unfold afterMatch
            rw [List.dropWhile_cons_of_neg space, tag]
          rw [outside_spaces blank visible tag, outside_kept none, ih (by simp) (by omega)]
          simp

/-- The first character outside is marked when a match stands before it. -/
theorem outside_marked {fuel : Nat} {text : List Char} {m : Bool} {c : Char} {rest : List (Bool × Char)}
    (h : outside fuel true text = (m, c) :: rest) : m = true := by
  induction fuel generalizing text with
  | zero => cases h
  | succ fuel ih =>
    unfold outside at h
    split at h
    · exact ih h
    · cases text with
      | nil => cases h
      | cons d tail => exact (Prod.mk.inj (List.cons.inj h).1).1.symm

/-- An unmarked first character stands at the head of the text. -/
theorem outside_unmarked {fuel : Nat} {text : List Char} {c : Char} {rest : List (Bool × Char)}
    (h : outside fuel false text = (false, c) :: rest) :
    ∃ fuel' tail, text = c :: tail ∧ rest = outside fuel' false tail := by
  cases fuel with
  | zero => cases h
  | succ fuel =>
    unfold outside at h
    split at h
    · exact absurd (outside_marked h) (by decide)
    · cases text with
      | nil => cases h
      | cons d tail =>
        obtain ⟨same, rfl⟩ := List.cons.inj h
        exact ⟨fuel, tail, by rw [(Prod.mk.inj same).2], rfl⟩

/-- Every character outside stands somewhere in the text where no match starts. -/
theorem outside_suffix {fuel : Nat} {b m : Bool} {text : List Char} {c : Char} {before rest : List (Bool × Char)}
    (h : outside fuel b text = before ++ (m, c) :: rest) :
    ∃ fuel' tail, afterMatch (c :: tail) = none ∧ rest = outside fuel' false tail := by
  induction fuel generalizing b text before with
  | zero => exact absurd h.symm (by simp [outside])
  | succ fuel ih =>
    unfold outside at h
    split at h
    · exact ih h
    · rename_i none
      cases text with
      | nil => exact absurd h.symm (by simp)
      | cons d tail =>
        cases before with
        | nil =>
          obtain ⟨same, rfl⟩ := List.cons.inj h
          obtain ⟨-, rfl⟩ := Prod.mk.inj same
          exact ⟨fuel, tail, none, rfl⟩
        | cons p before => exact ih (List.cons.inj h).2

theorem mem_of_outside {fuel : Nat} {b : Bool} {text : List Char} {c : Char} (h : c ∈ (outside fuel b text).map Prod.snd) : c ∈ text := by
  induction fuel generalizing b text with
  | zero => cases h
  | succ fuel ih =>
    unfold outside at h
    split at h
    · rename_i rest found
      exact (afterMatch_suffix found).subset (ih h)
    · cases text with
      | nil => cases h
      | cons d tail =>
        simp only [List.map_cons, List.mem_cons] at h
        rcases h with rfl | h
        · exact List.mem_cons_self
        · exact List.mem_cons_of_mem d (ih h)

/-! ## Stripping -/

/-- A text of which something is left a tag had it interrupted. -/
theorem hasTag_outside_iff (text : List Char) : hasTag ((outsideTags text).map Prod.snd) = true ↔ Interrupted text := by
  rw [hasTag_iff]
  constructor
  · rintro ⟨before, rest, same, tag⟩
    obtain ⟨before, rest, split, rfl, rfl⟩ := List.map_eq_append_iff.1 same
    refine ⟨before, rest, split, ?_⟩
    obtain ⟨tail, opening, head, closing⟩ := afterTag_isSome.1 tag
    obtain ⟨i, d, spelled, il, dl⟩ := afterOpening_eq_some.1 opening
    obtain ⟨⟨m₀, c₀⟩, rest₀, rfl, c₀same, spelled₀⟩ := List.map_eq_cons_iff.1 spelled
    obtain ⟨⟨m₁, c₁⟩, rest₁, rfl, c₁same, spelled₁⟩ := List.map_eq_cons_iff.1 spelled₀
    obtain ⟨⟨m₂, c₂⟩, rest₂, rfl, c₂same, spelled₂⟩ := List.map_eq_cons_iff.1 spelled₁
    obtain ⟨⟨m₃, c₃⟩, rest₃, rfl, c₃same, rfl⟩ := List.map_eq_cons_iff.1 spelled₂
    simp only at c₀same c₁same c₂same c₃same
    subst c₀same c₁same c₂same c₃same
    simp only [interruptedOpening, il, dl, beq_self_eq_true, Bool.true_and, head, ne_eq, not_false_eq_true, decide_true, closing,
      Bool.and_true]
    cases m₁ with
    | true => rfl
    | false =>
      cases m₂ with
      | true => rfl
      | false =>
        cases m₃ with
        | true => rfl
        | false =>
          -- the opening stands in the text as it is, so no tag starts with it
          obtain ⟨_, tail₀, none, after₀⟩ := outside_suffix split
          obtain ⟨_, tail₁, rfl, after₁⟩ := outside_unmarked after₀.symm
          obtain ⟨_, tail₂, rfl, after₂⟩ := outside_unmarked after₁.symm
          obtain ⟨fuel, tail, rfl, after₃⟩ := outside_unmarked after₂.symm
          rw [after₃] at head closing
          have none : (afterTag ('[' :: c₁ :: c₂ :: ':' :: tail)).isSome = false := by
            unfold afterMatch at none
            rw [List.dropWhile_cons_of_neg (by decide)] at none
            rw [none]
            rfl
          refine absurd (afterTag_isSome.2 ⟨tail, afterOpening_eq_some.2 ⟨c₁, c₂, rfl, il, dl⟩, ?_, mem_of_outside closing⟩)
            (by rw [none]; decide)
          intro same
          obtain ⟨tail, rfl⟩ := List.head?_eq_some_iff.1 same
          cases fuel with
          | zero => cases closing
          | succ fuel => exact head rfl
  · rintro ⟨before, rest, split, interrupted⟩
    refine ⟨before.map Prod.snd, rest.map Prod.snd, by rw [split, List.map_append], ?_⟩
    unfold interruptedOpening at interrupted
    split at interrupted
    · rename_i rest₃
      simp only [Bool.and_eq_true, beq_iff_eq, decide_eq_true_eq] at interrupted
      obtain ⟨⟨⟨⟨il, dl⟩, -⟩, head⟩, closing⟩ := interrupted
      exact afterTag_isSome.2 ⟨rest₃.map Prod.snd, afterOpening_eq_some.2 ⟨_, _, rfl, il, dl⟩, head, closing⟩
    · cases interrupted

/-- A text without tags keeps all its characters. -/
theorem outside_of_untagged {fuel : Nat} {text : List Char} (noTag : hasTag text = false) (enough : text.length < fuel) :
    (outside fuel false text).map Prod.snd = text := by
  induction fuel generalizing text with
  | zero => exact absurd enough (Nat.not_lt_zero _)
  | succ fuel ih =>
    have noMatch : afterMatch text = none := by
      cases found : afterMatch text with
      | none => rfl
      | some rest =>
        obtain ⟨spaces, same⟩ := List.dropWhile_suffix (l := text) reSpace
        have tag : hasTag text = true := hasTag_iff.2 ⟨spaces, _, same.symm, by
          unfold afterMatch at found
          rw [found]
          rfl⟩
        rw [noTag] at tag
        cases tag
    cases text with
    | nil => rw [outside_nil, List.map_nil]
    | cons c rest =>
      unfold hasTag at noTag
      rw [Bool.or_eq_false_iff] at noTag
      simp only [List.length_cons] at enough
      rw [outside_kept noMatch, List.map_cons, ih noTag.2 (by omega)]

/-- `stripInternalProductIDs` on lists. -/
theorem toList_strip (s : String) : (stripInternalProductIDs s).toList =
    trimSpace (collapseSpaces ((outsideTags s.toList).map Prod.snd).length ((outsideTags s.toList).map Prod.snd)) := by
  unfold stripInternalProductIDs outsideTags
  simp only [String.toList_ofList]
  rw [removeTags_eq (by simp) (Nat.lt_succ_self _)]
  simp

theorem hasTag_strip (s : String) : hasTag (stripInternalProductIDs s).toList = true ↔ Interrupted s.toList := by
  rw [toList_strip, hasTag_trimSpace, hasTag_collapseSpaces, hasTag_outside_iff]

/-- A text without tags, double spaces and white space at its ends is stripped already. -/
theorem strip_of_clean {s : String} (untagged : hasTag s.toList = false) (single : hasDoubleSpace s.toList = false)
    (first : ∀ c, s.toList.head? = some c → isSpace c = false) (last : ∀ c, s.toList.getLast? = some c → isSpace c = false) :
    stripInternalProductIDs s = s := by
  refine String.toList_injective ?_
  rw [toList_strip]
  unfold outsideTags
  rw [outside_of_untagged untagged (Nat.lt_succ_self _), collapseSpaces_of_single single, trimSpace_of_trimmed first last]

/-- The characters that are no white space. -/
def visible (text : List Char) : List Char := text.filter fun c => !isSpace c

theorem visible_append (text more : List Char) : visible (text ++ more) = visible text ++ visible more := List.filter_append text more

theorem visible_dropWhile (text : List Char) : visible (text.dropWhile isSpace) = visible text := by
  have blank : visible (text.takeWhile isSpace) = [] := by
    refine List.filter_eq_nil_iff.2 fun c mem => ?_
    rw [List.all_eq_true.1 List.all_takeWhile c mem]
    decide
  have whole := visible_append (text.takeWhile isSpace) (text.dropWhile isSpace)
  rw [List.takeWhile_append_dropWhile, blank, List.nil_append] at whole
  exact whole.symm

theorem visible_reverse (text : List Char) : visible text.reverse = (visible text).reverse := List.filter_reverse

theorem visible_trimSpace (text : List Char) : visible (trimSpace text) = visible text := by
  unfold trimSpace
  rw [visible_reverse, visible_dropWhile, visible_reverse, List.reverse_reverse, visible_dropWhile]

theorem visible_halveSpaces (text : List Char) : visible (halveSpaces text) = visible text := by
  unfold visible
  fun_induction halveSpaces text with
  | case1 rest ih =>
    rw [List.filter_cons_of_neg (by decide), List.filter_cons_of_neg (by decide), List.filter_cons_of_neg (by decide), ih]
  | case2 c rest _ ih => rw [List.filter_cons, List.filter_cons, ih]
  | case3 => rfl

theorem visible_collapseSpaces (fuel : Nat) (text : List Char) : visible (collapseSpaces fuel text) = visible text := by
  induction fuel generalizing text with
  | zero => rfl
  | succ fuel ih =>
    unfold collapseSpaces
    split
    · rw [ih, visible_halveSpaces]
    · rfl

theorem hasTag_of_not_mem {text : List Char} (none : '[' ∉ text) : hasTag text = false := by
  induction text with
  | nil => rfl
  | cons c rest ih =>
    have other : c ≠ '[' := fun same => none (same ▸ List.mem_cons_self)
    rw [hasTag_cons_of_ne other, ih fun mem => none (List.mem_cons_of_mem c mem)]

/-- Of a text without brackets only white space is stripped. -/
theorem visible_strip {text : List Char} (none : '[' ∉ text) : visible (stripInternalProductIDs (String.ofList text)).toList = visible text := by
  rw [toList_strip, visible_trimSpace, visible_collapseSpaces, String.toList_ofList]
  unfold outsideTags
  rw [outside_of_untagged (hasTag_of_not_mem none) (Nat.lt_succ_self _)]

/-- Stripping does what it is for exactly on the texts in which no tag interrupts an opening. -/
theorem stripInternalProductIDs_sound_iff (s : String) : StripSound s ↔ ¬ Interrupted s.toList := by
  rw [← hasTag_strip]
  constructor
  · intro sound tag
    exact sound.untagged (containsTag_iff.2 tag)
  · intro untagged
    have single : hasDoubleSpace (stripInternalProductIDs s).toList = false := by
      rw [Bool.eq_false_iff]
      intro double
      obtain ⟨before, after, same⟩ := hasDoubleSpace_iff.1 double
      have within : hasDoubleSpace (collapseSpaces ((outsideTags s.toList).map Prod.snd).length ((outsideTags s.toList).map Prod.snd)) =
          true := by
        rw [toList_strip] at same
        obtain ⟨front, back, whole⟩ := trimSpace_within
          (collapseSpaces ((outsideTags s.toList).map Prod.snd).length ((outsideTags s.toList).map Prod.snd))
        exact hasDoubleSpace_iff.2 ⟨front ++ before, after ++ back, by rw [← whole, same]; simp⟩
      rw [collapseSpaces_single (le_refl _)] at within
      cases within
    have first : ∀ c, (stripInternalProductIDs s).toList.head? = some c → isSpace c = false := fun c h => by
      rw [toList_strip] at h
      exact trimSpace_first h
    have last : ∀ c, (stripInternalProductIDs s).toList.getLast? = some c → isSpace c = false := fun c h => by
      rw [toList_strip] at h
      exact trimSpace_last h
    refine ⟨fun tag => untagged (containsTag_iff.1 tag), ?_, first, last, ?_⟩
    · intro double
      rw [hasDoubleSpace_iff.2 double] at single
      cases single
    · exact strip_of_clean (Bool.eq_false_iff.2 untagged) single first last

/-- A tag inside the opening of another one. -/
theorem nested_tag_survives : ¬ StripSound "Sold [I[ID: ab12]D: cd34]" ∧
    stripInternalProductIDs "Sold [I[ID: ab12]D: cd34]" = "Sold [ID: cd34]" := by
  refine ⟨fun sound => ?_, by decide +kernel⟩
  have tag : hasTag (stripInternalProductIDs "Sold [I[ID: ab12]D: cd34]").toList = true := by decide +kernel
  exact sound.untagged (containsTag_iff.2 tag)

end NovoApex.Turns
