import NovoApex.Orchestrator.Catalog
import Mathlib.Data.List.Infix

/-!
# Reading the catalog back

`parseCatalogItems` reads the products out of the context that `FormatProduct` wrote,
with a regular expression whose price has two decimals or none. A price that ends in a
zero is written with one decimal, and is read without it: `parseCatalogItems_iff`.

The expression is matched from the left, a greedy part as far as it goes and the name
as short as possible; what a greedy part could give back starts no other match.
-/

namespace NovoApex.Turns
set_option autoImplicit false
open Lib Orchestrator

/-- `catalogItem`. -/
structure CatalogItem where
  id : String
  name : String
  price : String
  deriving DecidableEq

/-! ## The expressions -/

/-- `[\d,]`. -/
def isAmountChar (c : Char) : Bool := c.isDigit || c == ','

/-- `(?:GH₵|GHS|¢|\$|₦)`, and what follows. -/
def symbolAt : List Char → Option (List Char × List Char)
  | 'G' :: 'H' :: '₵' :: rest => some (['G', 'H', '₵'], rest)
  | 'G' :: 'H' :: 'S' :: rest => some (['G', 'H', 'S'], rest)
  | '¢' :: rest => some (['¢'], rest)
  | '$' :: rest => some (['$'], rest)
  | '₦' :: rest => some (['₦'], rest)
  | _ => none

/-- `(?:\.\d{2})?`, and what follows. -/
def decimals : List Char → List Char × List Char
  | '.' :: a :: b :: rest => if a.isDigit && b.isDigit then (['.', a, b], rest) else ([], '.' :: a :: b :: rest)
  | text => ([], text)

/-- `rePricePattern` at the start of a text: the price and what follows. -/
def priceAt (text : List Char) : Option (List Char × List Char) :=
  match symbolAt text with
  | none => none
  | some (symbol, rest) =>
    let amount := (rest.dropWhile reSpace).takeWhile isAmountChar
    let cents := decimals ((rest.dropWhile reSpace).dropWhile isAmountChar)
    if amount = [] then none else some (symbol ++ rest.takeWhile reSpace ++ amount ++ cents.1, cents.2)

/-- `\s*[—-]\s*` and a price. -/
def separatedPrice (text : List Char) : Option (List Char × List Char) :=
  match text.dropWhile reSpace with
  | c :: rest => if c == '—' || c == '-' then priceAt (rest.dropWhile reSpace) else none
  | [] => none

/-- `(.*?)` and a separated price: the name is as short as possible and has no newline. -/
def nameAndPrice : List Char → Option (List Char × List Char × List Char)
  | [] => none
  | c :: rest =>
    match separatedPrice (c :: rest) with
    | some (price, after) => some ([], price, after)
    | none => if c = '\n' then none else (nameAndPrice rest).map fun found => (c :: found.1, found.2)

/-- The group of `\s*([^\]]+)`: blanks before it stay outside, as long as something is left. -/
def captured (body : List Char) : List Char :=
  if body.dropWhile reSpace = [] then body.drop (body.length - 1) else body.dropWhile reSpace

/-- `\[ID:\s*([^\]]+)\]`: the group and what follows. -/
def idField : List Char → Option (List Char × List Char)
  | '[' :: 'I' :: 'D' :: ':' :: rest =>
    match rest.dropWhile (· != ']') with
    | _ :: after => if rest.takeWhile (· != ']') = [] then none else some (captured (rest.takeWhile (· != ']')), after)
    | [] => none
  | _ => none

/-- `reCatalogLine` at the start of a line: the item and what follows. -/
def catalogLine (text : List Char) : Option (CatalogItem × List Char) :=
  match idField text with
  | none => none
  | some (id, rest) =>
    match nameAndPrice (rest.dropWhile reSpace) with
    | none => none
    | some (name, price, after) =>
      some (⟨String.ofList (trimSpace id), String.ofList (trimSpace name), String.ofList (trimSpace price)⟩, after)

/-- `FindAllStringSubmatch`: the matches from the left, each at the start of a line. -/
def catalogItems : Nat → Bool → List Char → List CatalogItem
  | 0, _, _ => []
  | _ + 1, _, [] => []
  | fuel + 1, lineStart, c :: rest =>
    match (if lineStart then catalogLine (c :: rest) else none) with
    | some (item, after) => item :: catalogItems fuel false after
    | none => catalogItems fuel (c == '\n') rest

/-- The items of a text that stands at the start of a line or inside one. -/
def itemsFrom (lineStart : Bool) (text : List Char) : List CatalogItem := catalogItems (text.length + 1) lineStart text

/-- `parseCatalogItems`. -/
def parseCatalogItems (catalogContext : List Char) : List CatalogItem := itemsFrom true catalogContext

/-! ## What is read -/

/-- The texts in which a name can be found again: not empty, trimmed, in one line, without `]` and without a price. -/
structure PlainName (name : List Char) : Prop where
  nonempty : name ≠ []
  trimmed : trimSpace name = name
  oneLine : '\n' ∉ name
  bracket : ']' ∉ name
  noPrice : ∀ before rest, name = before ++ rest → priceAt rest = none

/-- A line of the text starts with `[ID:`. -/
def TaggedLine (text : List Char) : Prop := "[ID:".toList <+: text ∨ "\n[ID:".toList <:+: text

/-- A product as the catalog holds it. -/
structure Listed (p : ProductRow) : Prop where
  name : PlainName p.name.toList
  price : ∃ m : Money, 0 ≤ m.units ∧ p.price = some (numericText m)
  description : ∀ text, p.description = some text → ¬ TaggedLine text.toList

/-- The item a product stands for. -/
def itemOf (currency : String) (p : ProductRow) : CatalogItem :=
  ⟨String.ofList (shortProductID p.id), p.name, String.ofList (formatPrice p.price currency)⟩

/-- The short id is trimmed and has no `]`, and the price does not end in a single zero. -/
structure ReadsBack (p : ProductRow) : Prop where
  bracket : ']' ∉ shortProductID p.id
  trimmed : trimSpace (shortProductID p.id) = shortProductID p.id
  price : ∀ m : Money, 0 ≤ m.units → p.price = some (numericText m) → m.units % 100 = 0 ∨ m.units % 10 ≠ 0

/-! ## Lengths -/

theorem symbolAt_eq {text symbol rest : List Char} (h : symbolAt text = some (symbol, rest)) : text = symbol ++ rest ∧ symbol ≠ [] := by
  unfold symbolAt at h
  split at h <;> first | (cases h; exact ⟨rfl, by simp⟩) | cases h

theorem decimals_eq (text : List Char) : (decimals text).1 ++ (decimals text).2 = text := by
  unfold decimals
  split
  · split <;> rfl
  · rfl

theorem priceAt_eq {text price after : List Char} (h : priceAt text = some (price, after)) : text = price ++ after := by
  unfold priceAt at h
  split at h
  · cases h
  · rename_i symbol rest found
    obtain ⟨rfl, -⟩ := symbolAt_eq found
    simp only at h
    split at h
    · cases h
    · cases h
      simp only [List.append_assoc, decimals_eq, List.takeWhile_append_dropWhile]

theorem separatedPrice_length {text price after : List Char} (h : separatedPrice text = some (price, after)) :
    after.length < text.length := by
  unfold separatedPrice at h
  split at h
  · rename_i c rest same
    split at h
    · have suffix := (List.dropWhile_suffix (l := text) reSpace).length_le
      have blanks := (List.dropWhile_suffix (l := rest) reSpace).length_le
      have split_ := congrArg List.length (priceAt_eq h)
      rw [same] at suffix
      rw [List.length_append] at split_
      simp only [List.length_cons] at suffix
      omega
    · cases h
  · cases h

theorem nameAndPrice_length {text : List Char} {found : List Char × List Char × List Char} (h : nameAndPrice text = some found) :
    found.2.2.length < text.length := by
  induction text generalizing found with
  | nil => cases h
  | cons c rest ih =>
    unfold nameAndPrice at h
    split at h
    · rename_i priced
      cases h
      exact separatedPrice_length priced
    · split at h
      · cases h
      · obtain ⟨inner, later, rfl⟩ := Option.map_eq_some_iff.1 h
        have shorter := ih later
        exact Nat.lt_succ_of_lt shorter

theorem idField_eq {text id after : List Char} (h : idField text = some (id, after)) :
    ∃ body, text = '[' :: 'I' :: 'D' :: ':' :: (body ++ ']' :: after) ∧ id = captured body ∧ body ≠ [] ∧ ']' ∉ body := by
  unfold idField at h
  split at h
  · rename_i rest
    split at h
    · rename_i c tail closed
      split at h
      · cases h
      · rename_i some_
        cases h
        have bracket : c = ']' := by
          have := List.head?_dropWhile_not (· != ']') rest
          rw [closed] at this
          simpa using this
        refine ⟨rest.takeWhile (· != ']'), ?_, rfl, some_, fun mem => ?_⟩
        · have whole := List.takeWhile_append_dropWhile (p := (· != ']')) (l := rest)
          rw [closed, bracket] at whole
          rw [whole]
        · have := List.mem_takeWhile_imp mem
          simp at this
    · cases h
  · cases h

theorem catalogLine_length {text after : List Char} {item : CatalogItem} (h : catalogLine text = some (item, after)) :
    after.length < text.length := by
  unfold catalogLine at h
  split at h
  · cases h
  · rename_i id rest field
    obtain ⟨body, rfl, -⟩ := idField_eq field
    split at h
    · cases h
    · rename_i found
      cases h
      have := nameAndPrice_length found
      have blanks := (List.dropWhile_suffix (l := rest) reSpace).length_le
      simp only [List.length_cons, List.length_append]
      simp only at this
      omega

/-! ## The scan -/

theorem catalogItems_fuel {fuel fuel' : Nat} {lineStart : Bool} {text : List Char} (enough : text.length < fuel)
    (enough' : text.length < fuel') : catalogItems fuel lineStart text = catalogItems fuel' lineStart text := by
  induction fuel generalizing fuel' lineStart text with
  | zero => exact absurd enough (Nat.not_lt_zero _)
  | succ fuel ih =>
    obtain ⟨fuel', rfl⟩ := Nat.exists_eq_succ_of_ne_zero (Nat.ne_zero_of_lt enough')
    cases text with
    | nil => rfl
    | cons c rest =>
      simp only [List.length_cons] at enough enough'
      unfold catalogItems
      split
      · rename_i item after found
        have shorter : after.length < (c :: rest).length := by
          split at found
          · exact catalogLine_length found
          · cases found
        simp only [List.length_cons] at shorter
        exact congrArg _ (ih (by omega) (by omega))
      · exact ih (by omega) (by omega)

theorem itemsFrom_item {text after : List Char} {item : CatalogItem} (h : catalogLine text = some (item, after)) :
    itemsFrom true text = item :: itemsFrom false after := by
  have shorter := catalogLine_length h
  obtain ⟨c, rest, rfl⟩ := List.exists_cons_of_length_pos (lt_of_le_of_lt (Nat.zero_le _) shorter)
  unfold itemsFrom
  rw [catalogItems.eq_def]
  simp only [if_true, h]
  rw [catalogItems_fuel shorter (Nat.lt_succ_self _)]

theorem itemsFrom_skip {lineStart : Bool} {c : Char} {rest : List Char} (h : lineStart = true → catalogLine (c :: rest) = none) :
    itemsFrom lineStart (c :: rest) = itemsFrom (c == '\n') rest := by
  have none : (if lineStart then catalogLine (c :: rest) else none) = none := by
    split
    · rename_i start
      exact h start
    · rfl
  unfold itemsFrom
  rw [catalogItems.eq_def]
  simp only [none]
  rfl

/-- A line is read only where `[ID:` stands. -/
theorem catalogLine_none {text : List Char} (h : ¬ "[ID:".toList <+: text) : catalogLine text = none := by
  cases read : catalogLine text with
  | none => rfl
  | some found =>
    unfold catalogLine at read
    split at read
    · cases read
    · rename_i id rest field
      obtain ⟨body, rfl, -⟩ := idField_eq field
      exact absurd ⟨_, rfl⟩ h

/-- A prefix without newlines of a text that goes on in another line stands in its first line. -/
theorem tag_of_line {tag junk more : List Char} (oneLine : '\n' ∉ tag) (h : tag <+: junk ++ '\n' :: more) : tag <+: junk := by
  rcases List.prefix_or_prefix_of_prefix h (List.prefix_append junk ('\n' :: more)) with within | longer
  · exact within
  · obtain ⟨rest, rfl⟩ := longer
    obtain ⟨after, same⟩ := h
    rw [List.append_assoc, List.append_cancel_left_eq] at same
    cases rest with
    | nil => exact ⟨[], by simp⟩
    | cons c rest =>
      obtain ⟨rfl, -⟩ := List.cons.inj same
      exact absurd (List.mem_append_right junk List.mem_cons_self) oneLine

/-- Text without a tagged line is passed over, to the start of the next line. -/
theorem itemsFrom_junk {lineStart : Bool} {junk : List Char} (more : List Char) (start : lineStart = true → ¬ "[ID:".toList <+: junk)
    (inner : ¬ "\n[ID:".toList <:+: junk) : itemsFrom lineStart (junk ++ '\n' :: more) = itemsFrom true more := by
  induction junk generalizing lineStart with
  | nil => exact itemsFrom_skip fun _ => catalogLine_none fun h => absurd (@tag_of_line _ [] more (by decide) h) (by decide)
  | cons c rest ih =>
    have unread : lineStart = true → catalogLine (c :: (rest ++ '\n' :: more)) = none := fun on =>
      catalogLine_none fun h => start on (@tag_of_line _ (c :: rest) more (by decide) h)
    rw [List.cons_append, itemsFrom_skip unread]
    refine ih (fun on h => ?_) fun h => inner (h.trans (List.suffix_cons c rest).isInfix)
    rw [beq_iff_eq] at on
    subst on
    obtain ⟨after, rfl⟩ := h
    exact inner ⟨[], after, rfl⟩

theorem itemsFrom_end {lineStart : Bool} {junk : List Char} (start : lineStart = true → ¬ "[ID:".toList <+: junk)
    (inner : ¬ "\n[ID:".toList <:+: junk) : itemsFrom lineStart junk = [] := by
  induction junk generalizing lineStart with
  | nil => rfl
  | cons c rest ih =>
    rw [itemsFrom_skip fun on => catalogLine_none (start on)]
    refine ih (fun on h => ?_) fun h => inner (h.trans (List.suffix_cons c rest).isInfix)
    rw [beq_iff_eq] at on
    subst on
    obtain ⟨after, rfl⟩ := h
    exact inner ⟨[], after, rfl⟩

/-! ## The price -/

theorem reSpace_of_isSpace {c : Char} (h : isSpace c = false) : reSpace c = false := by
  unfold isSpace at h
  simp only [Bool.or_eq_false_iff] at h
  tauto

theorem not_reSpace_of_amount {c : Char} (h : c.isDigit = true ∨ c = ',') : reSpace c = false := by
  rcases h with digit | rfl
  · exact reSpace_of_isSpace (digit_visible digit).1
  · decide

/-- What may follow a price: nothing, or a character that does not go on with it. -/
def EndsPrice (after : List Char) : Prop := ∀ c, after.head? = some c → isAmountChar c = false ∧ c ≠ '.'

theorem symbolAt_currency (currency : String) (rest : List Char) :
    symbolAt (currencySymbol currency ++ rest) = some (currencySymbol currency, rest) := by
  unfold currencySymbol
  split
  · rfl
  · split <;> rfl

/-- A grouped number behind a symbol is read, with whatever decimals follow. -/
theorem priceAt_grouped (currency : String) (n : Nat) {after : List Char} (ends : ∀ c, after.head? = some c → isAmountChar c = false) :
    priceAt (currencySymbol currency ++ (grouped n ++ after)) =
      some (currencySymbol currency ++ (grouped n ++ (decimals after).1), (decimals after).2) := by
  obtain ⟨d, rest, same⟩ := List.exists_cons_of_ne_nil (grouped_ne_nil n)
  have amount : ∀ c ∈ grouped n, isAmountChar c = true := by
    intro c mem
    unfold isAmountChar
    rcases grouped_chars n c mem with digit | rfl
    · rw [digit, Bool.true_or]
    · decide
  have visible : ¬ reSpace d = true := by
    rw [not_reSpace_of_amount (grouped_chars n d (by rw [same]; exact List.mem_cons_self))]
    decide
  have blanks : (grouped n ++ after).takeWhile reSpace = [] ∧ (grouped n ++ after).dropWhile reSpace = grouped n ++ after := by
    rw [same, List.cons_append]
    exact ⟨List.takeWhile_cons_of_neg visible, List.dropWhile_cons_of_neg visible⟩
  have taken : after.takeWhile isAmountChar = [] ∧ after.dropWhile isAmountChar = after := by
    cases after with
    | nil => exact ⟨rfl, rfl⟩
    | cons c rest =>
      have stop : ¬ isAmountChar c = true := by rw [ends c rfl]; decide
      exact ⟨List.takeWhile_cons_of_neg stop, List.dropWhile_cons_of_neg stop⟩
  unfold priceAt
  rw [symbolAt_currency]
  simp only [blanks.1, blanks.2, List.takeWhile_append_of_pos amount, List.dropWhile_append_of_pos amount, taken.1, taken.2,
    List.append_nil, grouped_ne_nil n, if_false, List.append_assoc]

theorem decimals_none {after : List Char} (h : after.head? ≠ some '.') : decimals after = ([], after) := by
  unfold decimals
  split
  · exact absurd rfl h
  · rfl

/-- A price with two decimals or none is read whole. -/
theorem priceAt_whole (currency : String) {n cents : Nat} {after : List Char} (bound : cents < 100) (full : cents = 0 ∨ cents % 10 ≠ 0)
    (ends : EndsPrice after) :
    priceAt (currencySymbol currency ++ amountText n cents ++ after) = some (currencySymbol currency ++ amountText n cents, after) := by
  have digit : ∀ c < 10, (Nat.digitChar c).isDigit = true := by decide
  unfold amountText
  by_cases zero : cents = 0
  · have none : fraction cents = [] := by rw [zero]; rfl
    rw [if_pos none, List.append_assoc, priceAt_grouped currency n fun c h => (ends c h).1,
      decimals_none fun h => (ends '.' h).2 rfl]
    simp
  · have two : fraction cents = [Nat.digitChar (cents / 10), Nat.digitChar (cents % 10)] := by
      unfold fraction
      rw [if_neg zero, if_neg (full.resolve_left zero)]
    have dec : decimals ('.' :: Nat.digitChar (cents / 10) :: Nat.digitChar (cents % 10) :: after) =
        (['.', Nat.digitChar (cents / 10), Nat.digitChar (cents % 10)], after) := by
      simp [decimals, digit (cents / 10) (by omega), digit (cents % 10) (by omega)]
    rw [two, if_neg (by simp)]
    simp only [List.append_assoc, List.cons_append, List.nil_append]
    rw [priceAt_grouped currency n (by rintro c ⟨⟩; decide), dec]

/-! ## The name -/

theorem symbolAt_append {text symbol rest : List Char} (h : symbolAt text = some (symbol, rest)) (more : List Char) :
    symbolAt (symbol ++ more) = some (symbol, more) ∧ ' ' ∉ symbol := by
  unfold symbolAt at h
  split at h <;> first | (cases h; exact ⟨rfl, by decide⟩) | cases h

/-- What follows a name in its line. -/
def dash (priced : List Char) : List Char := ' ' :: '—' :: ' ' :: priced

/-- No price goes on from a name into what follows it. -/
theorem priceAt_append_none {part priced : List Char} (h : priceAt part = none) : priceAt (part ++ dash priced) = none := by
  cases symbol : symbolAt (part ++ dash priced) with
  | none =>
    unfold priceAt
    rw [symbol]
  | some found =>
    obtain ⟨sym, rest⟩ := found
    obtain ⟨same, -⟩ := symbolAt_eq symbol
    have blank := (symbolAt_append symbol []).2
    rcases List.append_eq_append_iff.1 same with ⟨more, rfl, crosses⟩ | ⟨rest', rfl, rfl⟩
    · cases more with
      | nil =>
        rw [List.append_nil] at symbol blank
        rw [List.nil_append] at crosses
        have alone : symbolAt part = some (part, []) := by
          have := (symbolAt_append symbol []).1
          rwa [List.append_nil] at this
        unfold priceAt
        rw [symbol, ← crosses]
        rfl
      | cons c more =>
        obtain ⟨rfl, -⟩ := List.cons.inj crosses
        exact absurd (List.mem_append_right part List.mem_cons_self) blank
    · unfold priceAt at h ⊢
      rw [(symbolAt_append symbol rest').1] at h
      rw [symbol]
      simp only at h ⊢
      have none : (rest'.dropWhile reSpace).takeWhile isAmountChar = [] := by
        by_contra some_
        rw [if_neg some_] at h
        cases h
      have none' : ((rest' ++ dash priced).dropWhile reSpace).takeWhile isAmountChar = [] := by
        rw [List.dropWhile_append]
        split
        · rfl
        · rename_i visible
          cases kept : rest'.dropWhile reSpace with
          | nil => exact absurd (by rw [kept]; rfl) visible
          | cons c tail =>
            rw [kept] at none
            rw [List.cons_append]
            unfold List.takeWhile at none ⊢
            split at none
            · cases none
            · rfl
      rw [if_pos none']

/-- A part at the end of a name is not a separator with its price. -/
theorem separatedPrice_none {part priced : List Char} (some_ : part ≠ []) (last : ∀ c, part.getLast? = some c → isSpace c = false)
    (noPrice : ∀ before rest, part = before ++ rest → priceAt rest = none) : separatedPrice (part ++ dash priced) = none := by
  have visible : (part.dropWhile reSpace).isEmpty = false := by
    cases kept : part.dropWhile reSpace with
    | cons c tail => rfl
    | nil =>
      have blanks := List.dropWhile_eq_nil_iff.1 kept
      have blank := blanks _ (List.getLast_mem some_)
      rw [reSpace_of_isSpace (last _ (List.getLast?_eq_some_getLast some_))] at blank
      cases blank
  obtain ⟨blanks, whole⟩ := List.dropWhile_suffix (l := part) reSpace
  unfold separatedPrice
  rw [List.dropWhile_append, visible]
  simp only [Bool.false_eq_true, if_false]
  cases kept : part.dropWhile reSpace with
  | nil =>
    rw [kept] at visible
    cases visible
  | cons c tail =>
    rw [kept] at whole
    simp only [List.cons_append]
    split
    · rw [List.dropWhile_append]
      split
      · rfl
      · obtain ⟨inner, same⟩ := List.dropWhile_suffix (l := tail) reSpace
        refine priceAt_append_none (noPrice (blanks ++ c :: inner) _ ?_)
        rw [List.append_assoc, List.cons_append, same, whole]
    · rfl

/-- The name is read up to the dash. -/
theorem nameAndPrice_plain {name priced price after : List Char} (oneLine : '\n' ∉ name)
    (last : ∀ c, name.getLast? = some c → isSpace c = false) (noPrice : ∀ before rest, name = before ++ rest → priceAt rest = none)
    (read : priceAt priced = some (price, after)) (visible : ∀ c, priced.head? = some c → reSpace c = false) :
    nameAndPrice (name ++ dash priced) = some (name, price, after) := by
  induction name with
  | nil =>
    have priced' : priced.dropWhile reSpace = priced := by
      cases priced with
      | nil => rfl
      | cons c rest => exact List.dropWhile_cons_of_neg (by rw [visible c rfl]; decide)
    have found : separatedPrice (dash priced) = some (price, after) := by
      show priceAt (priced.dropWhile reSpace) = some (price, after)
      rw [priced', read]
    rw [List.nil_append, dash, nameAndPrice, ← dash, found]
  | cons c rest ih =>
    have none := @separatedPrice_none (c :: rest) priced (List.cons_ne_nil c rest) last noPrice
    have inner : nameAndPrice (rest ++ dash priced) = some (rest, price, after) := by
      refine ih (fun mem => oneLine (List.mem_cons_of_mem c mem)) (fun d h => last d ?_) fun before tail same => ?_
      · rw [List.getLast?_cons, h]
        rfl
      · exact noPrice (c :: before) tail (by rw [same, List.cons_append])
    have line : c ≠ '\n' := by
      rintro rfl
      exact oneLine List.mem_cons_self
    rw [List.cons_append] at none ⊢
    rw [nameAndPrice, none]
    simp only [line, if_false, inner, Option.map_some]

/-! ## The line -/

theorem trimSpace_captured (body : List Char) : trimSpace (captured body) = trimSpace body := by
  have within : ∀ text : List Char, (text.dropWhile reSpace).dropWhile isSpace = text.dropWhile isSpace := by
    intro text
    induction text with
    | nil => rfl
    | cons c rest ih =>
      by_cases blank : reSpace c = true
      · have blank' : isSpace c = true := by
          unfold isSpace
          rw [blank]
          rfl
        rw [List.dropWhile_cons_of_pos blank, List.dropWhile_cons_of_pos blank', ih]
      · rw [List.dropWhile_cons_of_neg blank]
  unfold captured
  split
  · rename_i blanks
    -- nothing but blanks: the group keeps the last of them
    have nothing : body.dropWhile isSpace = [] := by rw [← within, blanks]; rfl
    have blank := List.dropWhile_eq_nil_iff.1 nothing
    have last : (body.drop (body.length - 1)).dropWhile isSpace = [] :=
      List.dropWhile_eq_nil_iff.2 fun c mem => blank c (List.mem_of_mem_drop mem)
    unfold trimSpace
    rw [nothing, last]
  · unfold trimSpace
    rw [within]

theorem trimSpace_cons_blank (text : List Char) : trimSpace (' ' :: text) = trimSpace text := by
  unfold trimSpace
  rw [List.dropWhile_cons_of_pos (by decide)]

theorem ends_of_trimmed {text : List Char} (h : trimSpace text = text) :
    (∀ c, text.head? = some c → isSpace c = false) ∧ ∀ c, text.getLast? = some c → isSpace c = false :=
  ⟨fun _ first => trimSpace_first (by rw [h, first]), fun _ last => trimSpace_last (by rw [h, last])⟩

theorem amountText_ends (n : Nat) {cents : Nat} (bound : cents < 100) :
    ∃ c, (amountText n cents).getLast? = some c ∧ isSpace c = false := by
  have digit : ∀ c < 10, isSpace (Nat.digitChar c) = false := by decide
  unfold amountText
  split
  · rename_i whole
    refine ⟨(grouped n).getLast (grouped_ne_nil n), List.getLast?_eq_some_getLast _, ?_⟩
    rcases grouped_chars n _ (List.getLast_mem (grouped_ne_nil n)) with isDigit | comma
    · exact (digit_visible isDigit).1
    · rw [comma]
      decide
  · rename_i some_
    unfold fraction at some_ ⊢
    split
    · rename_i zero
      rw [if_pos zero] at some_
      exact absurd rfl some_
    · split
      · exact ⟨Nat.digitChar (cents / 10), by simp, digit _ (by omega)⟩
      · exact ⟨Nat.digitChar (cents % 10), by simp, digit _ (by omega)⟩

/-- A price has no blanks around it. -/
theorem trimSpace_price (currency : String) (n : Nat) {cents : Nat} (bound : cents < 100) :
    trimSpace (currencySymbol currency ++ amountText n cents) = currencySymbol currency ++ amountText n cents := by
  obtain ⟨d, lastIs, visible⟩ := amountText_ends n bound
  refine trimSpace_of_trimmed (fun c h => ?_) fun c h => ?_
  · unfold currencySymbol at h
    split at h
    · cases h
      decide
    · split at h
      · cases h
        decide
      · cases h
        decide
  · rw [List.getLast?_append, lastIs] at h
    cases h
    exact visible

theorem productTail_ends (p : ProductRow) {more : List Char} (next : more = [] ∨ ∃ rest, more = '\n' :: rest) :
    EndsPrice (productTail p ++ more) := by
  have blank : isAmountChar ' ' = false ∧ ' ' ≠ '.' := by decide
  have colon : isAmountChar ':' = false ∧ ':' ≠ '.' := by decide
  intro c h
  unfold productTail at h
  simp only at h
  split at h
  · cases h
    exact blank
  · split at h
    · cases h
      exact blank
    · split at h
      · rcases next with rfl | ⟨rest, rfl⟩
        · cases h
        · cases h
          decide
      · cases h
        exact colon

/-- What precedes a text and has no newline adds no line. -/
theorem tagged_of_line {line text : List Char} (oneLine : '\n' ∉ line) (h : "\n[ID:".toList <:+: line ++ text) :
    "\n[ID:".toList <:+: text := by
  obtain ⟨before, after, same⟩ := h
  rw [List.append_assoc] at same
  rcases List.append_eq_append_iff.1 same with ⟨rest, rfl, crosses⟩ | ⟨rest, rfl, rfl⟩
  · cases rest with
    | nil => exact ⟨[], after, by simpa using crosses⟩
    | cons c rest =>
      obtain ⟨rfl, -⟩ := List.cons.inj crosses
      exact absurd (List.mem_append_right before List.mem_cons_self) oneLine
  · exact ⟨rest, after, by simp⟩

theorem no_newline_stock (n : Int) : '\n' ∉ (toString n).toList := by
  have digits : ∀ k : Nat, '\n' ∉ (toString k).toList := by
    intro k mem
    have text : (toString k).toList = Nat.toDigits 10 k := by simp [toString, Nat.repr]
    rw [text] at mem
    have digit := Nat.isDigit_of_mem_toDigits (by decide) (by decide) mem
    exact absurd digit (by decide)
  cases n with
  | ofNat k => exact digits k
  | negSucc k =>
    intro mem
    have text : (toString (Int.negSucc k)).toList = '-' :: (toString (k + 1)).toList := by
      show ("-" ++ Nat.repr (k + 1)).toList = _
      rw [String.toList_append]
      rfl
    rw [text] at mem
    rcases List.mem_cons.1 mem with absurd_ | mem
    · exact absurd absurd_ (by decide)
    · exact digits (k + 1) mem

/-- What follows the price starts no tagged line. -/
theorem productTail_untagged {p : ProductRow} (h : ∀ text, p.description = some text → ¬ TaggedLine text.toList) :
    ¬ "\n[ID:".toList <:+: productTail p := by
  intro tagged
  unfold productTail at tagged
  simp only [List.append_assoc] at tagged
  have stock : '\n' ∉ (if 0 < p.stock then " (".toList ++ ((toString p.stock).toList ++ " available)".toList) else [] : List Char) := by
    split
    · simp only [List.mem_append, not_or]
      exact ⟨by decide, no_newline_stock p.stock, by decide⟩
    · exact List.not_mem_nil
  have image : '\n' ∉ (if p.hasImage then " [HAS_IMAGE]".toList else [] : List Char) := by
    split
    · decide
    · exact List.not_mem_nil
  have described := tagged_of_line image (tagged_of_line stock tagged)
  split at described
  · exact absurd described (by decide)
  · have inner := @tagged_of_line ": ".toList _ (by decide) described
    cases has : p.description with
    | none =>
      rw [has] at inner
      exact absurd inner (by decide)
    | some text =>
      rw [has] at inner
      exact h text has (.inr (inner.trans (trim_within isJsSpace text.toList)))

theorem idField_body {body : List Char} (after : List Char) (some_ : body ≠ []) (bracket : ']' ∉ body) :
    idField ('[' :: 'I' :: 'D' :: ':' :: (body ++ ']' :: after)) = some (captured body, after) := by
  have within : ∀ c ∈ body, (c != ']') = true := by
    intro c mem
    rw [bne_iff_ne]
    rintro rfl
    exact bracket mem
  have taken : (body ++ ']' :: after).takeWhile (· != ']') = body := by
    rw [List.takeWhile_append_of_pos within]
    simp
  have dropped : (body ++ ']' :: after).dropWhile (· != ']') = ']' :: after := by
    rw [List.dropWhile_append_of_pos within]
    rfl
  unfold idField
  simp only [taken, dropped, some_, if_false]

theorem formatPrice_numeric (currency : String) {m : Money} (nonneg : 0 ≤ m.units) :
    formatPrice (some (numericText m)) currency =
      currencySymbol currency ++ amountText (m.units.natAbs / 100) (m.units.natAbs % 100) :=
  congrArg (currencySymbol currency ++ ·) (formatJSAmount_numericText nonneg)

/-- A line with the id, the name and the price of a product is read back, up to the price. -/
theorem catalogLine_priced {currency : String} {p : ProductRow} {after : List Char} (listed : Listed p) (back : ReadsBack p)
    (ends : EndsPrice after) : catalogLine ("[ID: ".toList ++ shortProductID p.id ++ "] ".toList ++ p.name.toList ++ " — ".toList ++
      formatPrice p.price currency ++ after) = some (itemOf currency p, after) := by
  obtain ⟨m, nonneg, price⟩ := listed.price
  have full := back.price m nonneg price
  have cents : m.units.natAbs % 100 < 100 := Nat.mod_lt _ (by decide)
  have whole := priceAt_whole currency (n := m.units.natAbs / 100) cents (by omega) ends
  have trimmed := trimSpace_price currency (m.units.natAbs / 100) cents
  rw [← formatPrice_numeric currency nonneg, ← price] at whole trimmed
  have field := idField_body (' ' :: (p.name.toList ++ dash (formatPrice p.price currency ++ after)))
    (List.cons_ne_nil ' ' (shortProductID p.id)) (by simp [back.bracket])
  have shape : "[ID: ".toList ++ shortProductID p.id ++ "] ".toList ++ p.name.toList ++ " — ".toList ++ formatPrice p.price currency ++
      after = '[' :: 'I' :: 'D' :: ':' :: (' ' :: shortProductID p.id ++ ']' ::
      (' ' :: (p.name.toList ++ dash (formatPrice p.price currency ++ after)))) := by
    unfold dash
    simp
  obtain ⟨first, last⟩ := ends_of_trimmed listed.name.trimmed
  have blank : (' ' :: (p.name.toList ++ dash (formatPrice p.price currency ++ after))).dropWhile reSpace =
      p.name.toList ++ dash (formatPrice p.price currency ++ after) := by
    rw [List.dropWhile_cons_of_pos (by decide)]
    obtain ⟨c, rest, name⟩ := List.exists_cons_of_ne_nil listed.name.nonempty
    rw [name, List.cons_append, List.dropWhile_cons_of_neg]
    rw [reSpace_of_isSpace (first c (by rw [name]; rfl))]
    decide
  have visible : ∀ c, (formatPrice p.price currency ++ after).head? = some c → reSpace c = false := by
    intro c h
    unfold formatPrice currencySymbol at h
    split at h
    · cases h
      decide
    · split at h
      · cases h
        decide
      · cases h
        decide
  have named := nameAndPrice_plain listed.name.oneLine last listed.name.noPrice whole visible
  unfold catalogLine
  rw [shape, field]
  simp only [blank, named]
  rw [trimSpace_captured, trimSpace_cons_blank, back.trimmed, listed.name.trimmed, trimmed, String.ofList_toList]
  rfl

/-- The line of a product is read back, up to its price. -/
theorem catalogLine_formatProduct {currency : String} {p : ProductRow} {more : List Char} (listed : Listed p) (back : ReadsBack p)
    (next : more = [] ∨ ∃ rest, more = '\n' :: rest) :
    catalogLine (formatProduct p currency ++ more) = some (itemOf currency p, productTail p ++ more) := by
  unfold formatProduct
  rw [List.append_assoc _ (productTail p)]
  exact catalogLine_priced listed back (productTail_ends p next)

/-! ## The catalog -/

/-- Every line of products that read back gives its item. -/
theorem itemsFrom_lines (currency : String) {products : List ProductRow} (listed : ∀ p ∈ products, Listed p)
    (back : ∀ p ∈ products, ReadsBack p) :
    itemsFrom true (joinLines (products.map fun p => formatProduct p currency)) = products.map (itemOf currency) := by
  induction products with
  | nil => rfl
  | cons p rest ih =>
    have here := listed p List.mem_cons_self
    have untagged := productTail_untagged here.description
    have inner := ih (fun q mem => listed q (List.mem_cons_of_mem p mem)) fun q mem => back q (List.mem_cons_of_mem p mem)
    cases rest with
    | nil =>
      have read := @catalogLine_formatProduct currency p [] here (back p List.mem_cons_self) (.inl rfl)
      rw [List.append_nil, List.append_nil] at read
      show itemsFrom true (formatProduct p currency) = [itemOf currency p]
      rw [itemsFrom_item read, itemsFrom_end (fun on => absurd on Bool.false_ne_true) untagged]
    | cons q rest =>
      have read := @catalogLine_formatProduct currency p _ here (back p List.mem_cons_self)
        (.inr ⟨joinLines ((q :: rest).map fun p => formatProduct p currency), rfl⟩)
      show itemsFrom true (formatProduct p currency ++ '\n' :: joinLines ((q :: rest).map fun p => formatProduct p currency)) = _
      rw [itemsFrom_item read, itemsFrom_junk _ (fun on => absurd on Bool.false_ne_true) untagged, inner]
      rfl

/-! ## What an item looks like -/

/-- What the expression can read: an id without brackets, trimmed, and a price with two decimals after a point. -/
structure Legible (item : CatalogItem) : Prop where
  bracket : ']' ∉ item.id.toList
  trimmed : trimSpace item.id.toList = item.id.toList
  price : '.' ∈ item.price.toList → ∃ front a b, item.price.toList = front ++ ['.', a, b] ∧ a.isDigit = true

theorem mem_trimSpace {c : Char} {text : List Char} (h : c ∈ trimSpace text) : c ∈ text := by
  unfold trimSpace at h
  have inner := (List.dropWhile_suffix _).mem (List.mem_reverse.1 h)
  exact (List.dropWhile_suffix _).mem (List.mem_reverse.1 inner)

theorem mem_captured {c : Char} {body : List Char} (h : c ∈ captured body) : c ∈ body := by
  unfold captured at h
  split at h
  · exact List.mem_of_mem_drop h
  · exact (List.dropWhile_suffix _).mem h

theorem decimals_two (text : List Char) :
    (decimals text).1 = [] ∨ ∃ a b, (decimals text).1 = ['.', a, b] ∧ a.isDigit = true ∧ b.isDigit = true := by
  unfold decimals
  split
  · split
    · rename_i a b rest digits
      rw [Bool.and_eq_true] at digits
      exact .inr ⟨a, b, rfl, digits⟩
    · exact .inl rfl
  · exact .inl rfl

/-- A price has no blank at its ends, and its point stands before two digits. -/
theorem priceAt_shape {text price after : List Char} (h : priceAt text = some (price, after)) :
    trimSpace price = price ∧ ('.' ∈ price → ∃ front a b, price = front ++ ['.', a, b] ∧ a.isDigit = true) := by
  unfold priceAt at h
  split at h
  · cases h
  · rename_i symbol rest found
    simp only at h
    split at h
    · cases h
    · rename_i some_
      cases h
      have first : ∀ c, symbol.head? = some c → isSpace c = false := by
        unfold symbolAt at found
        split at found <;> first | (cases found; rintro c ⟨⟩; decide) | cases found
      have noPoint : '.' ∉ symbol := by
        unfold symbolAt at found
        split at found <;> first | (cases found; decide) | cases found
      have amountChar : ∀ c ∈ (rest.dropWhile reSpace).takeWhile isAmountChar, isAmountChar c = true :=
        fun c mem => List.mem_takeWhile_imp mem
      have visible : ∀ c, isAmountChar c = true → isSpace c = false ∧ c ≠ '.' := by
        intro c amount
        unfold isAmountChar at amount
        rcases (Bool.or_eq_true _ _).mp amount with digit | comma
        · exact ⟨(digit_visible digit).1, (digit_visible digit).2.1⟩
        · rw [beq_iff_eq.1 comma]
          decide
      have blanks : '.' ∉ rest.takeWhile reSpace := by
        intro mem
        exact absurd (List.mem_takeWhile_imp mem) (by decide)
      generalize (rest.dropWhile reSpace).takeWhile isAmountChar = amount at some_ amountChar
      constructor
      · refine trimSpace_of_trimmed (fun c h => ?_) fun c h => ?_
        · obtain ⟨d, tail, rfl⟩ := List.exists_cons_of_ne_nil (symbolAt_eq found).2
          exact first c (by simpa using h)
        · rcases decimals_two ((rest.dropWhile reSpace).dropWhile isAmountChar) with none | ⟨a, b, two, -, digit⟩
          · rw [none, List.append_nil, List.getLast?_append_of_ne_nil _ some_] at h
            exact (visible c (amountChar c (List.mem_of_mem_getLast? h))).1
          · rw [two, List.getLast?_append_of_ne_nil _ (by simp)] at h
            obtain rfl : b = c := by simpa using h
            exact (digit_visible digit).1
      · intro point
        rcases decimals_two ((rest.dropWhile reSpace).dropWhile isAmountChar) with none | ⟨a, b, two, digit, -⟩
        · rw [none, List.append_nil, List.mem_append, List.mem_append] at point
          rcases point with (point | point) | point
          · exact absurd point noPoint
          · exact absurd point blanks
          · exact absurd rfl (visible '.' (amountChar '.' point)).2
        · exact ⟨symbol ++ rest.takeWhile reSpace ++ amount, a, b, by rw [two], digit⟩

theorem separatedPrice_priceAt {text price after : List Char} (h : separatedPrice text = some (price, after)) :
    ∃ from_, priceAt from_ = some (price, after) := by
  unfold separatedPrice at h
  split at h
  · split at h
    · exact ⟨_, h⟩
    · cases h
  · cases h

theorem nameAndPrice_priceAt {text : List Char} {found : List Char × List Char × List Char} (h : nameAndPrice text = some found) :
    ∃ from_, priceAt from_ = some found.2 := by
  induction text generalizing found with
  | nil => cases h
  | cons c rest ih =>
    unfold nameAndPrice at h
    split at h
    · rename_i priced
      cases h
      exact separatedPrice_priceAt priced
    · split at h
      · cases h
      · obtain ⟨inner, later, rfl⟩ := Option.map_eq_some_iff.1 h
        obtain ⟨from_, read⟩ := ih later
        exact ⟨from_, read⟩

theorem catalogLine_legible {text after : List Char} {item : CatalogItem} (h : catalogLine text = some (item, after)) :
    Legible item := by
  unfold catalogLine at h
  split at h
  · cases h
  · rename_i id rest field
    obtain ⟨body, -, rfl, -, bracket⟩ := idField_eq field
    split at h
    · cases h
    · rename_i found
      cases h
      obtain ⟨from_, read⟩ := nameAndPrice_priceAt found
      obtain ⟨trimmed, shape⟩ := priceAt_shape read
      refine ⟨?_, ?_, ?_⟩
      · rw [String.toList_ofList]
        exact fun mem => bracket (mem_captured (mem_trimSpace mem))
      · rw [String.toList_ofList]
        exact trimSpace_of_trimmed (fun _ first => trimSpace_first first) fun _ last => trimSpace_last last
      · rw [String.toList_ofList, trimmed]
        exact shape

theorem catalogItems_legible {fuel : Nat} {lineStart : Bool} {text : List Char} :
    ∀ item ∈ catalogItems fuel lineStart text, Legible item := by
  induction fuel generalizing lineStart text with
  | zero => exact fun _ mem => absurd mem List.not_mem_nil
  | succ fuel ih =>
    cases text with
    | nil => exact fun _ mem => absurd mem List.not_mem_nil
    | cons c rest =>
      intro item mem
      unfold catalogItems at mem
      split at mem
      · rename_i read after found
        rcases List.mem_cons.1 mem with rfl | later
        · split at found
          · exact catalogLine_legible found
          · cases found
        · exact ih item later
      · exact ih item mem

/-- A product whose item can be read reads back. -/
theorem readsBack_of_legible {currency : String} {p : ProductRow} (h : Legible (itemOf currency p)) : ReadsBack p := by
  obtain ⟨bracket, trimmed, shape⟩ := h
  unfold itemOf at bracket trimmed shape
  simp only [String.toList_ofList] at bracket trimmed shape
  refine ⟨bracket, trimmed, fun m nonneg price => ?_⟩
  by_contra single
  have zero : m.units.natAbs % 100 ≠ 0 ∧ m.units.natAbs % 100 % 10 = 0 := by omega
  have one : fraction (m.units.natAbs % 100) = [Nat.digitChar (m.units.natAbs % 100 / 10)] := by
    unfold fraction
    rw [if_neg zero.1, if_pos zero.2]
  have priced : formatPrice p.price currency = currencySymbol currency ++ (grouped (m.units.natAbs / 100) ++
      ['.', Nat.digitChar (m.units.natAbs % 100 / 10)]) := by
    rw [price, formatPrice_numeric currency nonneg]
    unfold amountText
    rw [if_neg (by rw [one]; simp), one]
  rw [priced] at shape
  obtain ⟨front, a, b, same, digit⟩ := shape (by simp)
  -- the last character but one is the point on one side and a digit on the other
  have second := congrArg (fun text => text.reverse[1]?) same
  simp at second
  rw [← second] at digit
  exact absurd digit (by decide)

/-- The catalog is read back exactly when every product's line is. -/
theorem parseCatalogItems_iff (currency : String) (products : List ProductRow) (listed : ∀ p ∈ products, Listed p) :
    parseCatalogItems (joinLines (products.map fun p => formatProduct p currency)) = products.map (itemOf currency) ↔
      ∀ p ∈ products, ReadsBack p := by
  constructor
  · intro same p mem
    have item : itemOf currency p ∈ parseCatalogItems (joinLines (products.map fun p => formatProduct p currency)) := by
      rw [same]
      exact List.mem_map_of_mem mem
    exact readsBack_of_legible (catalogItems_legible _ item)
  · exact itemsFrom_lines currency listed

/-- Two products of the catalog: the first costs 25.50, the second 1500.00. -/
def cap : ProductRow := ⟨"0a1b2c3d-0000", "Cap 5-panel", some "25.50", 3, none, false⟩
def shoe : ProductRow := ⟨"9f8e7d6c-0000", "Air-Max 90", some "1500.00", 12, some "Comfortable - GH₵9", true⟩

theorem plainName_of_tails {name : List Char} (nonempty : name ≠ []) (trimmed : trimSpace name = name) (oneLine : '\n' ∉ name)
    (bracket : ']' ∉ name) (noPrice : ∀ rest ∈ name.tails, priceAt rest = none) : PlainName name :=
  ⟨nonempty, trimmed, oneLine, bracket, fun before _ same => noPrice _ ((List.mem_tails _ _).2 ⟨before, same.symm⟩)⟩

theorem cap_listed : Listed cap := by
  refine ⟨plainName_of_tails ?_ ?_ ?_ ?_ ?_, ⟨⟨2550, by decide⟩, by decide, by decide +kernel⟩, fun text h => ?_⟩
  all_goals first | decide +kernel | skip
  cases h

theorem shoe_listed : Listed shoe := by
  refine ⟨plainName_of_tails ?_ ?_ ?_ ?_ ?_, ⟨⟨150000, by decide⟩, by decide, by decide +kernel⟩, fun text h => ?_⟩
  all_goals first | decide +kernel | skip
  cases h
  rintro (first | inner)
  · exact absurd first (by decide +kernel)
  · exact absurd inner (by decide +kernel)

/-- The cents of a price, from the last two characters of its text. -/
theorem zero_cents_of_text {m : Money} (nonneg : 0 ≤ m.units) (h : ['0', '0'] <:+ (numericText m).toList) : m.units % 100 = 0 := by
  have digits : ∀ c < 100, [Nat.digitChar (c / 10), Nat.digitChar (c % 10)] = ['0', '0'] → c = 0 := by decide
  obtain ⟨front, same⟩ := h
  rw [toList_numericText nonneg] at same
  have last := List.append_inj_right' (same.trans (List.append_cons _ '.' _)) rfl
  have none := digits (m.units.natAbs % 100) (Nat.mod_lt _ (by decide)) last.symm
  omega

/-- The line of a shoe is read back. -/
theorem shoe_parsed : parseCatalogItems (joinLines ([shoe].map fun p => formatProduct p "GHS")) = [shoe].map (itemOf "GHS") := by
  refine (parseCatalogItems_iff "GHS" [shoe] fun p mem => ?_).2 fun p mem => ?_
  · rw [List.mem_singleton.1 mem]
    exact shoe_listed
  · rw [List.mem_singleton.1 mem]
    refine ⟨by decide, by decide, fun m nonneg price => ?_⟩
    have text : "1500.00" = numericText m := Option.some.inj price
    exact .inl (zero_cents_of_text nonneg ⟨"1500.".toList, by rw [← text]; decide⟩)

/-- 25.50 is written `GH₵25.5` and read as `GH₵25`. -/
theorem cap_price_truncated : Listed cap ∧ formatPrice cap.price "GHS" = "GH₵25.5".toList ∧
    parseCatalogItems (joinLines [formatProduct cap "GHS"]) = [⟨"0a1b2c3d", "Cap 5-panel", "GH₵25"⟩] ∧
    parseCatalogItems (joinLines [formatProduct cap "GHS"]) ≠ [itemOf "GHS" cap] :=
  ⟨cap_listed, by decide +kernel, by decide +kernel, by decide +kernel⟩

end NovoApex.Turns
