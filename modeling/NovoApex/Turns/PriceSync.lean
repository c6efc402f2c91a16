import NovoApex.Lib.Replacing
import NovoApex.Turns.CatalogItems
import NovoApex.Turns.History

/-!
# Live prices in the history

`syncCatalogPricesInHistory`: in what the assistant has said, the price that is quoted for
a product is replaced by the one in the catalog, and the ids of products are taken out.
The price is found by an expression that is built from the name of the product, without
regard to case, and the new price is part of the template it is replaced by. In a template
`$45,000` is the forty-fifth group, which is empty, and `,000`: a price in dollars does
not survive, and `syncCatalogPricesInHistory_synced` says when a price is replaced.

`strings.ToLower` of a character and the comparison of `(?i)` are Unicode's tables; they
are parameters here.
-/

namespace NovoApex.Turns
set_option autoImplicit false
open Lib Orchestrator

/-! ## The expressions -/

/-- `[^\n.?!]`. -/
def inSentence (c : Char) : Bool := !(c == '\n' || c == '.' || c == '?' || c == '!')

/-- The symbols of `rePricePattern`. -/
def symbols : List (List Char) := [['G', 'H', '₵'], ['G', 'H', 'S'], ['¢'], ['$'], ['₦']]

/-- The ways to read a price after its symbol, best first: all of it, without the decimals, or with fewer digits. -/
def pricesAfter (symbol rest : List Char) : List (List Char × List Char) :=
  let front := symbol ++ rest.takeWhile reSpace
  let amount := (rest.dropWhile reSpace).takeWhile isAmountChar
  let after := (rest.dropWhile reSpace).dropWhile isAmountChar
  if amount = [] then []
  else
    (front ++ amount ++ (decimals after).1, (decimals after).2) ::
      ((if (decimals after).1 = [] then [] else [(front ++ amount, after)]) ++
        (List.range (amount.length - 1)).reverse.map fun k => (front ++ amount.take (k + 1), amount.drop (k + 1) ++ after))

section

variable (lower : Char → Char) (fold : Char → Char → Bool)

/-- The prices that `(?i)(?:GH₵|GHS|¢|\$|₦)\s*[\d,]+(?:\.\d{2})?` may match at the start of a text, where at most one symbol
stands. -/
def foldedPrices (text : List Char) : List (List Char × List Char) :=
  match symbols.findSome? fun symbol => literalAt fold symbol text with
  | some (symbol, rest) => pricesAfter symbol rest
  | none => []

/-- The one it matches when nothing has to follow. -/
def foldedPrice (text : List Char) : Option (List Char × List Char) := (foldedPrices fold text).head?

/-- `reAfter`: the name, and a price later in the sentence. -/
def reAfter (productName : List Char) : Matcher := fun text =>
  (literalAt fold productName text).bind fun named =>
    (lazily inSentence (foldedPrice fold) named.2).map fun found =>
      (named.1 ++ found.1 ++ found.2.1, named.1 ++ found.1, found.2.2)

/-- `reBefore`: a price, and the name later in the sentence. -/
def reBefore (productName : List Char) : Matcher := fun text =>
  (foldedPrices fold text).findSome? fun price =>
    (lazily inSentence (literalAt fold productName) price.2).map fun found =>
      (price.1 ++ found.1 ++ found.2.1, found.1 ++ found.2.1, found.2.2)

end

/-- `rePricePattern.FindAllString`. -/
def findPrices : Nat → List Char → List (List Char)
  | 0, _ => []
  | _ + 1, [] => []
  | fuel + 1, c :: rest =>
    match priceAt (c :: rest) with
    | some (price, after) => price :: findPrices fuel after
    | none => findPrices fuel rest

/-- `strings.Replace(text, old, new, 1)`. -/
def replaceFirst (old new : List Char) : List Char → List Char
  | [] => if old = [] then new else []
  | c :: rest => if old.isPrefixOf (c :: rest) then new ++ (c :: rest).drop old.length else c :: replaceFirst old new rest

/-! ## The code -/

section

variable (lower : Char → Char) (fold : Char → Char → Bool)

/-- `updateProductPriceInText`. -/
def updateProductPriceInText (text productName livePrice : List Char) : List Char :=
  if livePrice = [] then text
  else if matchString (reAfter fold productName) text then
    replaceAllString (reAfter fold productName) (firstGroup ++ livePrice) (text.length + 1) text
  else if matchString (reBefore fold productName) text then
    replaceAllString (reBefore fold productName) (livePrice ++ firstGroup) (text.length + 1) text
  else
    match findPrices (text.length + 1) text with
    | [price] => replaceFirst price livePrice text
    | _ => text

/-- `strings.Contains(strings.ToLower(text), strings.ToLower(s))`. -/
def mentions (text s : List Char) : Bool := decide (s.map lower <:+: text.map lower)

/-- The price of one item in a text. -/
def syncItem (text : List Char) (item : CatalogItem) : List Char :=
  if mentions lower text item.name.toList || (decide (item.id ≠ "") && mentions lower text item.id.toList) then
    updateProductPriceInText fold text item.name.toList item.price.toList
  else text

/-- A part of what the assistant has said. -/
def syncPart (items : List CatalogItem) (part : History.MessagePart) : History.MessagePart :=
  if part.type ≠ "text" then part
  else { part with text := stripInternalProductIDs (String.ofList (items.foldl (syncItem lower fold) part.text.toList)) }

/-- `syncCatalogPricesInHistory`. -/
def syncCatalogPricesInHistory (history : List History.ChatMessage) (catalogContext : List Char) : List History.ChatMessage :=
  let items := parseCatalogItems catalogContext
  history.map fun msg =>
    if msg.role ≠ "assistant" then msg else { msg with parts := msg.parts.map (syncPart lower fold items) }

end

/-! ## What it is for -/

/-- The one price of a text, as `price` reads prices, and what surrounds it. -/
structure OnePrice (price : List Char → Option (List Char × List Char)) (text before token after : List Char) : Prop where
  split : text = before ++ (token ++ after)
  here : price (token ++ after) = some (token, after)
  only : ∀ x y, text = x ++ y → (price y).isSome = true → x = before

/-- A name stands beside the price, in the same sentence. -/
def SameSentence (isName : List Char → Prop) (before after : List Char) : Prop :=
  ∃ named filler, isName named ∧ (∀ c ∈ filler, inSentence c = true) ∧ (named ++ filler <:+ before ∨ filler ++ named <+: after)

section

variable (lower : Char → Char) (fold : Char → Char → Bool) (currency : String) (products : List ProductRow)

/-- A text mentions a product by its id. -/
def mentionsID (text : List Char) (p : ProductRow) : Prop := shortProductID p.id ≠ [] ∧ mentions lower text (shortProductID p.id) = true

/-- The text quotes one price for one product, mentioned by its name, and mentions no other. -/
structure Quotes (text before token after : List Char) (p : ProductRow) (others : List ProductRow) : Prop where
  name : mentions lower text p.name.toList = true
  noID : ∀ q ∈ p :: others, ¬ mentionsID lower text q
  noName : ∀ q ∈ others, mentions lower text q.name.toList = false
  price : OnePrice priceAt text before token after
  sentence : SameSentence (fun named => named.map lower = p.name.toList.map lower) before after

/-- What becomes of a text of the assistant. -/
structure SyncedText (text : String) (text' : String) : Prop where
  unmentioned : (∀ p ∈ products, mentions lower text.toList p.name.toList = false ∧ ¬ mentionsID lower text.toList p) →
    text' = stripInternalProductIDs text
  quoted : ∀ front p back before token after, products = front ++ p :: back →
    Quotes lower text.toList before token after p (front ++ back) →
      text' = stripInternalProductIDs (String.ofList (before ++ (formatPrice p.price currency ++ after)))

/-- What becomes of a message. -/
structure SyncedMessage (msg msg' : History.ChatMessage) : Prop where
  role : msg'.role = msg.role
  others : msg.role ≠ "assistant" → msg' = msg
  parts : List.Forall₂ (fun part part' : History.MessagePart =>
    part'.type = part.type ∧ part'.imageURL = part.imageURL ∧ (part.type ≠ "text" → part' = part) ∧
      (msg.role = "assistant" → part.type = "text" → SyncedText lower currency products part.text part'.text)) msg.parts msg'.parts

/-- Every message has one of its own, with the same parts. -/
def SyncedHistory (history history' : List History.ChatMessage) : Prop :=
  List.Forall₂ (SyncedMessage lower currency products) history history'

/-- How the price of a text is found: before it stands what the group holds, or after it, or neither expression matches. No further
match follows. The match and its group are given, where there is one. -/
inductive Hit (name text before after : List Char) : Option (List Char × List Char) → Prop
  | after {x whole group : List Char} (found : findFirst (reAfter fold name) text = some (x, whole, group, after)) (place : x ++ group = before)
      (alone : matchString (reAfter fold name) after = false) : Hit name text before after (some (whole, group))
  | before {whole group rest : List Char} (later : matchString (reAfter fold name) text = false)
      (found : findFirst (reBefore fold name) text = some (before, whole, group, rest)) (place : group ++ rest = after)
      (alone : matchString (reBefore fold name) rest = false) : Hit name text before after (some (whole, group))
  | only (later : matchString (reAfter fold name) text = false) (earlier : matchString (reBefore fold name) text = false) :
      Hit name text before after none

/-- What is written for the price: after a match the price is a template. -/
def written (price : List Char) : Option (List Char × List Char) → List Char
  | some (whole, group) => expandTemplate whole group price
  | none => price

/-- An item that a text does not mention, or mentions without a price that could be its own. -/
inductive Leaves (text : List Char) (item : CatalogItem) : Prop
  | unmentioned (name : mentions lower text item.name.toList = false) (id : item.id = "" ∨ mentions lower text item.id.toList = false)
  | unpriced (later : matchString (reAfter fold item.name.toList) text = false)
      (earlier : matchString (reBefore fold item.name.toList) text = false) (prices : (findPrices (text.length + 1) text).length ≠ 1)

/-- The item is mentioned, its price goes where the quote stands, and the other items leave the text alone. -/
structure Aimed (items : List CatalogItem) (text before after : List Char) (item : CatalogItem) (way : Option (List Char × List Char)) :
    Prop where
  mentioned : mentions lower text item.name.toList = true
  priced : item.price ≠ ""
  hit : Hit fold item.name.toList text before after way
  read : ∃ earlier later, items = earlier ++ item :: later ∧ (∀ other ∈ earlier, Leaves lower fold text other) ∧
    ∀ other ∈ later, Leaves lower fold (before ++ (written item.price.toList way ++ after)) other

/-- The line is read with the live price, and a price in dollars is not used as a template. -/
def Survives (p : ProductRow) (item : CatalogItem) (way : Option (List Char × List Char)) : Prop :=
  item.price.toList = formatPrice p.price currency ∧ ('$' ∈ formatPrice p.price currency → way = none)

/-- What the items do to a text: nothing, where it mentions no product; where it quotes one, its price is put in. -/
structure SettledText (items : List CatalogItem) (text : List Char) : Prop where
  unmentioned : (∀ p ∈ products, mentions lower text p.name.toList = false ∧ ¬ mentionsID lower text p) →
    ∀ item ∈ items, Leaves lower fold text item
  quoted : ∀ front p back before token after, products = front ++ p :: back → Quotes lower text before token after p (front ++ back) →
    ∃ item way, Aimed lower fold items text before after item way ∧ Survives currency p item way

/-- A text of the assistant. -/
def Said (history : List History.ChatMessage) (text : String) : Prop :=
  ∃ msg ∈ history, msg.role = "assistant" ∧ ∃ part ∈ msg.parts, part.type = "text" ∧ part.text = text

/-- A wrong price in the place of this one can be seen: nothing is stripped but white space, the price that was read is as
`FormatProduct` writes prices, and the group, in which the name stands, has a character that the live price has not. -/
structure Telling (text : List Char) (p : ProductRow) (item : CatalogItem) (way : Option (List Char × List Char)) : Prop where
  untagged : '[' ∉ text
  numeric : ∃ m : Money, 0 ≤ m.units ∧ p.price = some (numericText m)
  printed : ∀ c ∈ item.price.toList, isSpace c = false ∧ c ≠ '['
  dollars : '$' ∈ item.price.toList → '$' ∈ formatPrice p.price currency ∧
    ∃ c tail, item.price.toList = '$' :: c :: tail ∧ c.isDigit = true ∧ '$' ∉ tail
  named : ∀ whole group, way = some (whole, group) → ∃ d ∈ group, isSpace d = false ∧ d ∉ formatPrice p.price currency

end

/-! ## Prices -/

section Prices

variable {fold : Char → Char → Bool} {text before token after : List Char}

theorem mem_pricesAfter {symbol rest : List Char} {found : List Char × List Char} (h : found ∈ pricesAfter symbol rest) :
    ∃ whole u, (pricesAfter symbol rest).head? = some whole ∧ whole.1 = found.1 ++ u ∧ found.2 = u ++ whole.2 ∧
      symbol ++ rest = found.1 ++ found.2 ∧ symbol <+: found.1 := by
  unfold pricesAfter at h ⊢
  simp only at h ⊢
  split at h
  · cases h
  · rename_i some_
    rw [if_neg some_]
    generalize amount_ : (rest.dropWhile reSpace).takeWhile isAmountChar = amount at h some_
    generalize after_ : (rest.dropWhile reSpace).dropWhile isAmountChar = after at h
    have whole : symbol ++ rest = symbol ++ rest.takeWhile reSpace ++ amount ++ after := by
      rw [← amount_, ← after_, List.append_assoc, List.append_assoc, List.takeWhile_append_dropWhile, List.takeWhile_append_dropWhile]
    refine ⟨(symbol ++ rest.takeWhile reSpace ++ amount ++ (decimals after).1, (decimals after).2), ?_⟩
    rcases List.mem_cons.1 h with rfl | h
    · refine ⟨[], rfl, (List.append_nil _).symm, rfl, ?_, by simp⟩
      rw [whole, List.append_assoc (_ ++ amount), decimals_eq]
    · rcases List.mem_append.1 h with h | h
      · split at h
        · cases h
        · obtain rfl := List.mem_singleton.1 h
          exact ⟨(decimals after).1, rfl, rfl, (decimals_eq after).symm, whole, by simp⟩
      · obtain ⟨k, -, rfl⟩ := List.mem_map.1 h
        refine ⟨amount.drop (k + 1) ++ (decimals after).1, rfl, ?_, ?_, ?_, by simp⟩
        · simp only [List.append_assoc]
          rw [← List.append_assoc (amount.take (k + 1)), List.take_append_drop]
        · simp only [List.append_assoc, decimals_eq]
        · rw [whole]
          simp only [List.append_assoc]
          rw [← List.append_assoc (amount.take (k + 1)), List.take_append_drop]

theorem symbols_ne_nil : ∀ symbol ∈ symbols, symbol ≠ [] := by decide

/-- Any reading of a price is part of the best one, and what follows is longer by the rest. -/
theorem mem_foldedPrices {found : List Char × List Char} (h : found ∈ foldedPrices fold text) :
    ∃ whole u, foldedPrice fold text = some whole ∧ whole.1 = found.1 ++ u ∧ found.2 = u ++ whole.2 ∧
      text = found.1 ++ found.2 ∧ found.1 ≠ [] := by
  unfold foldedPrice
  unfold foldedPrices at h ⊢
  split at h
  · rename_i symbol rest read
    obtain ⟨whole, u, head, first, second, same, front⟩ := mem_pricesAfter h
    obtain ⟨literal, mem, found_⟩ := List.exists_of_findSome?_eq_some read
    refine ⟨whole, u, head, first, second, (literalAt_eq found_).trans same, ?_⟩
    intro none
    rw [none] at front
    have length := literalAt_length found_
    rw [List.prefix_nil.1 front] at length
    exact symbols_ne_nil literal mem (List.eq_nil_of_length_eq_zero length.symm)
  · cases h

theorem foldedPrice_eq {price rest : List Char} (h : foldedPrice fold text = some (price, rest)) : text = price ++ rest ∧ price ≠ [] := by
  obtain ⟨-, -, -, -, -, same, some_⟩ := mem_foldedPrices (List.mem_of_mem_head? h)
  exact ⟨same, some_⟩

end Prices

/-! ## One price -/

section One

variable {fold : Char → Char → Bool} {text before token after name live : List Char}

/-- Nothing after the price is one. -/
theorem OnePrice.none_after (one : OnePrice (foldedPrice fold) text before token after) {u v : List Char} (cut : after = u ++ v) :
    foldedPrice fold v = none := by
  cases read : foldedPrice fold v with
  | none => rfl
  | some found =>
    have place := one.only (before ++ (token ++ u)) v (by rw [one.split, cut]; simp only [List.append_assoc]) (by rw [read]; rfl)
    have none := List.append_eq_nil_iff.1 (List.append_right_eq_self.1 place)
    exact absurd none.1 (foldedPrice_eq one.here).2

theorem reAfter_eq {whole group rest : List Char} (h : reAfter fold name text = some (whole, group, rest)) :
    ∃ price, whole = group ++ price ∧ text = group ++ (price ++ rest) ∧ foldedPrice fold (price ++ rest) = some (price, rest) := by
  obtain ⟨⟨named, more⟩, first, h⟩ := Option.bind_eq_some_iff.1 h
  obtain ⟨⟨filler, price, tail⟩, later, same⟩ := Option.map_eq_some_iff.1 h
  cases same
  obtain ⟨from_, cut, read⟩ := lazily_eq later
  obtain ⟨same, -⟩ := foldedPrice_eq read
  refine ⟨price, rfl, ?_, same ▸ read⟩
  rw [literalAt_eq first, ← same, List.append_assoc, ← cut]

theorem reBefore_eq {whole group rest : List Char} (h : reBefore fold name text = some (whole, group, rest)) :
    ∃ price, whole = price ++ group ∧ text = price ++ (group ++ rest) := by
  obtain ⟨price, mem, found⟩ := List.exists_of_findSome?_eq_some h
  obtain ⟨⟨filler, named, tail⟩, later, same⟩ := Option.map_eq_some_iff.1 found
  cases same
  obtain ⟨from_, cut, read⟩ := lazily_eq later
  obtain ⟨-, -, -, -, -, same, -⟩ := mem_foldedPrices mem
  refine ⟨price.1, List.append_assoc _ _ _, ?_⟩
  rw [same, cut, literalAt_eq read, List.append_assoc]

/-- The name and later the price: what the expression matches ends with the price. -/
theorem reAfter_once (one : OnePrice (foldedPrice fold) text before token after) {x y whole group rest : List Char}
    (cut : text = x ++ y) (read : reAfter fold name y = some (whole, group, rest)) : x ++ group = before ∧ rest = after := by
  obtain ⟨price, -, same, priced⟩ := reAfter_eq read
  have place := one.only (x ++ group) (price ++ rest) (by rw [cut, same, List.append_assoc]) (by rw [priced]; rfl)
  have whole_ : before ++ (token ++ after) = before ++ (price ++ rest) := by
    rw [← one.split, cut, same, ← List.append_assoc, place]
  have tail := List.append_cancel_left whole_
  have here := one.here
  rw [tail, priced] at here
  exact ⟨place, congrArg (fun found => (found.getD default).2) here⟩

theorem reAfter_none (none : ∀ u v, text = u ++ v → foldedPrice fold v = none) : reAfter fold name text = Option.none := by
  cases read : reAfter fold name text with
  | none => rfl
  | some found =>
    obtain ⟨whole, group, rest⟩ := found
    obtain ⟨price, -, same, priced⟩ := reAfter_eq read
    rw [none group _ same] at priced
    cases priced

/-- A name beside the price is found before it, or after it. -/
theorem matches_of_sameSentence (one : OnePrice (foldedPrice fold) text before token after)
    (beside : SameSentence (fun named => List.Forall₂ (fun c d => fold c d = true) name named) before after) :
    matchString (reAfter fold name) text = true ∨ (lazily inSentence (literalAt fold name) after).isSome = true := by
  obtain ⟨named, filler, isName, clear, ⟨x, rfl⟩ | ⟨rest, rfl⟩⟩ := beside
  · refine .inl (matchString_iff.2 ⟨x, named ++ (filler ++ (token ++ after)), ?_, ?_⟩)
    · rw [one.split]
      simp only [List.append_assoc]
    · have priced : (lazily inSentence (foldedPrice fold) (filler ++ (token ++ after))).isSome = true :=
        lazily_isSome clear (by rw [one.here]; rfl)
      unfold reAfter
      rw [literalAt_of_forall₂ isName]
      simpa using priced
  · right
    rw [List.append_assoc]
    exact lazily_isSome clear (by rw [literalAt_of_forall₂ isName]; rfl)

/-- The price and later the name: what the expression matches begins with the price. -/
theorem reBefore_once (one : OnePrice (foldedPrice fold) text before token after)
    (apart : (lazily inSentence (literalAt fold name) after).isSome = true ∨
      ∀ u v, token = u ++ v → u ≠ [] → v ≠ [] → literalAt fold name (v ++ after) = none)
    {x y whole group rest : List Char} (cut : text = x ++ y) (read : reBefore fold name y = some (whole, group, rest)) :
    x = before ∧ group ++ rest = after := by
  obtain ⟨earlier, price, later, all, found, failed⟩ := List.findSome?_eq_some_iff.1 read
  obtain ⟨⟨filler, named, tail⟩, second, same⟩ := Option.map_eq_some_iff.1 found
  cases same
  have mem : price ∈ foldedPrices fold y := by
    rw [all]
    exact List.mem_append_right _ List.mem_cons_self
  obtain ⟨best, u, isBest, first, remains, whole_, some_⟩ := mem_foldedPrices mem
  have place := one.only x y cut (by rw [isBest]; rfl)
  have here : y = token ++ after := by
    apply List.append_cancel_left
    rw [← one.split, cut, place]
  have best_ : best = (token, after) := by
    have := one.here
    rw [← here, isBest] at this
    exact Option.some.inj this
  subst best_
  obtain ⟨from_, behind, namedAt⟩ := lazily_eq second
  have named_ := literalAt_eq namedAt
  refine ⟨place, ?_⟩
  -- a shorter reading is only tried when the name does not follow the whole price
  have follows : (lazily inSentence (literalAt fold name) after).isSome = true := by
    rcases apart with beside | apart
    · exact beside
    · refine lazily_append (u := u) (fun x v same nonempty => apart (price.1 ++ x) v ?_ (by simp [some_]) nonempty) ?_
      · rw [List.append_assoc, ← same]
        exact first
      · have remains : price.2 = u ++ after := remains
        rw [← remains, second]
        rfl
  have atBest : earlier = [] := by
    cases earlier with
    | nil => rfl
    | cons e earlier =>
      have head : foldedPrice fold y = some e := by
        unfold foldedPrice
        rw [all]
        rfl
      rw [isBest] at head
      have missed := failed e List.mem_cons_self
      rw [← Option.some.inj head, Option.map_eq_none_iff] at missed
      rw [missed] at follows
      cases follows
  have isToken : price = (token, after) := by
    unfold foldedPrice at isBest
    rw [all, atBest] at isBest
    exact Option.some.inj isBest
  rw [isToken] at behind
  have behind : after = filler ++ from_ := behind
  rw [behind, named_, List.append_assoc]

theorem reBefore_none (none : foldedPrice fold text = none) : reBefore fold name text = Option.none := by
  unfold reBefore
  rw [List.head?_eq_none_iff.1 none]
  rfl

/-! ## The only price -/

theorem symbolAt_symbol {symbol rest : List Char} (h : symbolAt text = some (symbol, rest)) (more : List Char) :
    symbolAt (symbol ++ more) = some (symbol, more) := by
  unfold symbolAt at h
  split at h <;> first | (cases h; rfl) | cases h

/-- A price is one wherever it stands, though more may belong to it. -/
theorem priceAt_again (h : priceAt (token ++ after) = some (token, after)) (more : List Char) : (priceAt (token ++ more)).isSome = true := by
  unfold priceAt at h
  split at h
  · cases h
  · rename_i symbol rest found
    simp only at h
    split at h
    · cases h
    · rename_i some_
      have token_ := congrArg Prod.fst (Option.some.inj h)
      simp only at token_
      generalize amount_ : (rest.dropWhile reSpace).takeWhile isAmountChar = amount at some_ token_
      obtain ⟨c, digits, rfl⟩ := List.exists_cons_of_ne_nil some_
      have amountChar : isAmountChar c = true := by
        refine List.mem_takeWhile_imp (l := rest.dropWhile reSpace) ?_
        rw [amount_]
        exact List.mem_cons_self
      have visible : reSpace c = false := not_reSpace_of_amount (by simpa [isAmountChar] using amountChar)
      have blanks : ((rest.takeWhile reSpace ++ (c :: digits ++ ((decimals ((rest.dropWhile reSpace).dropWhile isAmountChar)).1 ++ more)))).dropWhile
          reSpace = c :: (digits ++ ((decimals ((rest.dropWhile reSpace).dropWhile isAmountChar)).1 ++ more)) := by
        rw [List.dropWhile_append_of_pos fun d mem => List.mem_takeWhile_imp mem, List.cons_append,
          List.dropWhile_cons_of_neg (by rw [visible]; decide)]
      rw [← token_]
      simp only [List.append_assoc]
      unfold priceAt
      rw [symbolAt_symbol found]
      simp only [blanks, List.takeWhile_cons_of_pos amountChar, List.cons_ne_nil, if_false]
      rfl

theorem findPrices_none (none : ∀ u v, text = u ++ v → priceAt v = none) (fuel : Nat) : findPrices fuel text = [] := by
  induction fuel generalizing text with
  | zero => rfl
  | succ fuel ih =>
    cases text with
    | nil => rfl
    | cons c rest =>
      unfold findPrices
      rw [none [] (c :: rest) rfl]
      exact ih fun u v same => none (c :: u) v (by rw [same]; rfl)

theorem findPrices_one {fuel : Nat} (enough : (before ++ (token ++ after)).length < fuel) (here : priceAt (token ++ after) = some (token, after))
    (some_ : token ≠ []) (earlier : ∀ u v, before = u ++ v → v ≠ [] → priceAt (v ++ (token ++ after)) = none)
    (later : ∀ u v, after = u ++ v → priceAt v = none) : findPrices fuel (before ++ (token ++ after)) = [token] := by
  induction before generalizing fuel with
  | nil =>
    obtain ⟨fuel, rfl⟩ := Nat.exists_eq_succ_of_ne_zero (Nat.ne_zero_of_lt enough)
    obtain ⟨c, rest, rfl⟩ := List.exists_cons_of_ne_nil some_
    rw [List.nil_append, List.cons_append]
    unfold findPrices
    rw [List.cons_append] at here
    rw [here]
    exact congrArg ((c :: rest) :: ·) (findPrices_none later fuel)
  | cons c before ih =>
    obtain ⟨fuel, rfl⟩ := Nat.exists_eq_succ_of_ne_zero (Nat.ne_zero_of_lt enough)
    have none := earlier [] (c :: before) rfl (List.cons_ne_nil _ _)
    rw [List.cons_append] at none ⊢
    unfold findPrices
    rw [none]
    exact ih (Nat.lt_of_succ_lt_succ enough) fun u v same => earlier (c :: u) v (by rw [same]; rfl)

theorem replaceFirst_one (some_ : token ≠ []) (earlier : ∀ u v, before = u ++ v → v ≠ [] → ¬ token <+: v ++ (token ++ after)) :
    replaceFirst token live (before ++ (token ++ after)) = before ++ (live ++ after) := by
  induction before with
  | nil =>
    obtain ⟨c, rest, rfl⟩ := List.exists_cons_of_ne_nil some_
    rw [List.nil_append, List.nil_append, List.cons_append]
    have first : (c :: rest).isPrefixOf (c :: (rest ++ after)) = true := List.isPrefixOf_iff_prefix.2 ⟨after, rfl⟩
    unfold replaceFirst
    rw [if_pos first, List.length_cons, List.drop_succ_cons, List.drop_left]
  | cons c before ih =>
    have other := earlier [] (c :: before) rfl (List.cons_ne_nil _ _)
    rw [List.cons_append] at other ⊢
    unfold replaceFirst
    rw [if_neg fun found => other (List.isPrefixOf_iff_prefix.1 found),
      ih fun u v same => earlier (c :: u) v (by rw [same]; rfl), List.cons_append]

theorem priceAt_ne_nil (h : priceAt (token ++ after) = some (token, after)) : token ≠ [] := by
  rintro rfl
  have some_ := priceAt_again h []
  rw [List.nil_append] at some_
  cases some_

/-- The third way, by the only price. -/
theorem replaceFirst_findPrices (one : OnePrice priceAt text before token after) :
    findPrices (text.length + 1) text = [token] ∧ replaceFirst token live text = before ++ (live ++ after) := by
  have some_ := priceAt_ne_nil one.here
  have earlier : ∀ u v, before = u ++ v → v ≠ [] → priceAt (v ++ (token ++ after)) = none := by
    intro u v cut nonempty
    cases read : priceAt (v ++ (token ++ after)) with
    | none => rfl
    | some found =>
      have place := one.only u (v ++ (token ++ after)) (by rw [one.split, cut, List.append_assoc]) (by rw [read]; rfl)
      rw [cut] at place
      exact absurd (List.append_right_eq_self.1 place.symm) nonempty
  have later : ∀ u v, after = u ++ v → priceAt v = none := by
    intro u v cut
    cases read : priceAt v with
    | none => rfl
    | some found =>
      have place := one.only (before ++ (token ++ u)) v (by rw [one.split, cut]; simp only [List.append_assoc]) (by rw [read]; rfl)
      exact absurd (List.append_eq_nil_iff.1 (List.append_right_eq_self.1 place)).1 some_
  rw [one.split]
  refine ⟨findPrices_one (Nat.lt_succ_self _) one.here some_ earlier later, replaceFirst_one some_ fun u v cut nonempty prefix_ => ?_⟩
  obtain ⟨more, same⟩ := prefix_
  have found := priceAt_again one.here more
  rw [same, earlier u v cut nonempty] at found
  cases found

theorem reAfter_nil (name : List Char) : reAfter fold name [] = none := reAfter_none fun u v cut => by
  obtain ⟨-, rfl⟩ := List.append_eq_nil_iff.1 cut.symm
  rfl

theorem reBefore_nil (name : List Char) : reBefore fold name [] = none := reBefore_none rfl

/-- Where no other price stands, case disregarded, and the name does not begin inside the price, the price is found. -/
theorem hit_of_onePrice (folded : OnePrice (foldedPrice fold) text before token after)
    (apart : SameSentence (fun named => List.Forall₂ (fun c d => fold c d = true) name named) before after ∨
      ∀ u v, token = u ++ v → u ≠ [] → v ≠ [] → literalAt fold name (v ++ after) = none) : ∃ way, Hit fold name text before after way := by
  cases later : matchString (reAfter fold name) text with
  | true =>
    obtain ⟨x, whole, group, rest, found⟩ := findFirst_of_matchString later
    obtain ⟨y, cut, read⟩ := lazily_eq found
    obtain ⟨place, rfl⟩ := reAfter_once folded cut read
    refine ⟨_, .after found place (matchString_false.2 fun u v cut => reAfter_none fun u' v' cut' => ?_)⟩
    exact folded.none_after (u := u ++ u') (by rw [cut, cut', List.append_assoc])
  | false =>
    cases earlier : matchString (reBefore fold name) text with
    | true =>
      have apart' : (lazily inSentence (literalAt fold name) after).isSome = true ∨
          ∀ u v, token = u ++ v → u ≠ [] → v ≠ [] → literalAt fold name (v ++ after) = none := by
        rcases apart with beside | apart
        · rcases matches_of_sameSentence folded beside with matched | follows
          · rw [later] at matched
            cases matched
          · exact .inl follows
        · exact .inr apart
      obtain ⟨x, whole, group, rest, found⟩ := findFirst_of_matchString earlier
      obtain ⟨y, cut, read⟩ := lazily_eq found
      obtain ⟨rfl, place⟩ := reBefore_once folded apart' cut read
      refine ⟨_, .before later found place (matchString_false.2 fun u v cut => reBefore_none (folded.none_after (u := group ++ u) ?_))⟩
      rw [← place, cut, List.append_assoc]
    | false => exact ⟨none, .only later earlier⟩

/-! ## The price as a template -/

/-- No `$`, or one in front of a number. -/
def IsTemplate (price : List Char) : Prop := '$' ∉ price ∨ ∃ c tail, price = '$' :: c :: tail ∧ c.isDigit = true ∧ '$' ∉ tail

theorem expandTemplate_price {whole group price : List Char} (template : IsTemplate price) :
    expandTemplate whole group (price ++ firstGroup) = expandTemplate whole group price ++ group := by
  have last : expandTemplate whole group firstGroup = group := by
    have alone := expandTemplate_group whole group []
    rwa [List.append_nil, show expandTemplate whole group [] = [] from rfl, List.append_nil] at alone
  rcases template with plain | ⟨c, tail, rfl, digit, plain⟩
  · rw [expandTemplate_append plain, expandTemplate_plain plain, last]
  · have behind := @expandTemplate_number whole group c digit tail plain firstGroup fun d head => by
      cases head
      decide
    have alone := @expandTemplate_number whole group c digit tail plain [] fun d head => by cases head
    rw [List.append_nil] at alone
    rw [List.cons_append, behind, last, alone]
    simp only [show expandTemplate whole group [] = [] from rfl, List.append_nil, List.append_assoc]

/-- The price is replaced where it is hit. -/
theorem updateProductPriceInText_hit {way : Option (List Char × List Char)} (one : OnePrice priceAt text before token after)
    (hit : Hit fold name text before after way) (some_ : live ≠ []) (template : way ≠ none → IsTemplate live) :
    updateProductPriceInText fold text name live = before ++ (written live way ++ after) := by
  unfold updateProductPriceInText
  rw [if_neg some_]
  cases hit with
  | after found place alone =>
    obtain ⟨y, cut, read⟩ := lazily_eq found
    rw [if_pos (matchString_iff.2 ⟨_, y, cut, by rw [read]; rfl⟩),
      replaceAllString_first (Nat.lt_succ_self _) (reAfter_nil name) found alone, expandTemplate_group, ← place]
    simp only [written, List.append_assoc]
  | before later found place alone =>
    obtain ⟨y, cut, read⟩ := lazily_eq found
    rw [if_neg (by rw [later]; decide), if_pos (matchString_iff.2 ⟨_, y, cut, by rw [read]; rfl⟩),
      replaceAllString_first (Nat.lt_succ_self _) (reBefore_nil name) found alone, expandTemplate_price (template (by simp)), ← place]
    simp only [written, List.append_assoc]
  | only later earlier =>
    obtain ⟨found, replaced⟩ := @replaceFirst_findPrices text before token after live one
    rw [if_neg (by rw [later]; decide), if_neg (by rw [earlier]; decide), found]
    exact replaced

/-- The group is part of the match, and the match of the text. -/
theorem Hit.within {whole group : List Char} (hit : Hit fold name text before after (some (whole, group))) :
    group ⊆ whole ∧ whole ⊆ text := by
  have found_within : ∀ {x y rest}, text = x ++ y → y = whole ++ rest → whole ⊆ text := by
    rintro x y rest rfl rfl d mem
    exact List.mem_append_right x (List.mem_append_left rest mem)
  cases hit with
  | after found place alone =>
    obtain ⟨y, cut, read⟩ := lazily_eq found
    obtain ⟨price, rfl, same, -⟩ := reAfter_eq read
    exact ⟨List.subset_append_left _ _, found_within cut (by rw [same, List.append_assoc])⟩
  | before later found place alone =>
    obtain ⟨y, cut, read⟩ := lazily_eq found
    obtain ⟨price, rfl, same⟩ := reBefore_eq read
    exact ⟨List.subset_append_right _ _, found_within cut (by rw [same, List.append_assoc])⟩

/-- Of a price in dollars that is a template the number is replaced by the match, its group or nothing. -/
theorem written_dollars (whole group : List Char) {tail : List Char} {c : Char} (digit : c.isDigit = true) (plain : '$' ∉ tail) :
    ∃ instead rest, written ('$' :: c :: tail) (some (whole, group)) = instead ++ rest ∧
      (instead = whole ∨ instead = group ∨ instead = []) ∧ ∀ d ∈ rest, d ∈ c :: tail ∧ d ≠ '$' := by
  have spelled := @expandTemplate_number whole group c digit tail plain [] fun d head => by cases head
  rw [List.append_nil, show expandTemplate whole group [] = [] from rfl, List.append_nil] at spelled
  refine ⟨_, _, spelled, ?_, fun d mem => ?_⟩
  · unfold submatch
    split
    · exact .inl rfl
    · split
      · exact .inr (.inl rfl)
      · exact .inr (.inr rfl)
  · have within := (List.dropWhile_suffix isNameChar).mem mem
    refine ⟨within, ?_⟩
    rintro rfl
    rcases List.mem_cons.1 within with point | mem
    · rw [← point] at digit
      exact absurd digit (by decide)
    · exact plain mem

theorem written_plain {price : List Char} (plain : '$' ∉ price) (way : Option (List Char × List Char)) : written price way = price := by
  cases way with
  | none => rfl
  | some found => exact expandTemplate_plain plain

end One

/-! ## The items of a text -/

section Items

variable {lower : Char → Char} {fold : Char → Char → Bool} {currency : String} {items : List CatalogItem} {text before token after : List Char}

theorem syncItem_leaves {item : CatalogItem} (leaves : Leaves lower fold text item) : syncItem lower fold text item = text := by
  unfold syncItem
  cases leaves with
  | unmentioned name id =>
    rw [name, Bool.false_or, if_neg]
    rw [Bool.and_eq_true, decide_eq_true_eq]
    rintro ⟨some_, mentioned⟩
    rcases id with none | unmentioned
    · exact some_ none
    · rw [unmentioned] at mentioned
      cases mentioned
  | unpriced later earlier prices =>
    split
    · unfold updateProductPriceInText
      split
      · rfl
      · rw [if_neg (by rw [later]; decide), if_neg (by rw [earlier]; decide)]
        split
        · rename_i price single
          exact absurd (by rw [single]; rfl) prices
        · rfl
    · rfl

/-- Items that leave a text alone do so one after another. -/
theorem foldl_leaves (leaves : ∀ item ∈ items, Leaves lower fold text item) : items.foldl (syncItem lower fold) text = text := by
  induction items with
  | nil => rfl
  | cons item rest ih =>
    rw [List.foldl_cons, syncItem_leaves (leaves item List.mem_cons_self)]
    exact ih fun other mem => leaves other (List.mem_cons_of_mem item mem)

/-- The item that is aimed at the quote writes its price there. -/
theorem foldl_aimed {p : ProductRow} {others : List ProductRow} {item : CatalogItem} {way : Option (List Char × List Char)}
    (quotes : Quotes lower text before token after p others) (aimed : Aimed lower fold items text before after item way)
    (template : way ≠ none → IsTemplate item.price.toList) :
    items.foldl (syncItem lower fold) text = before ++ (written item.price.toList way ++ after) := by
  obtain ⟨earlier, later, rfl, calm, settled⟩ := aimed.read
  have some_ : item.price.toList ≠ [] := fun none => aimed.priced (String.toList_injective none)
  have here : syncItem lower fold text item = before ++ (written item.price.toList way ++ after) := by
    unfold syncItem
    rw [aimed.mentioned, Bool.true_or, if_pos rfl]
    exact updateProductPriceInText_hit quotes.price aimed.hit some_ template
  rw [List.foldl_append, foldl_leaves calm, List.foldl_cons, here]
  exact foldl_leaves settled

theorem foldl_survives {p : ProductRow} {others : List ProductRow} {item : CatalogItem} {way : Option (List Char × List Char)}
    (quotes : Quotes lower text before token after p others) (aimed : Aimed lower fold items text before after item way)
    (survives : Survives currency p item way) :
    items.foldl (syncItem lower fold) text = before ++ (formatPrice p.price currency ++ after) := by
  obtain ⟨live, literal⟩ := survives
  by_cases dollars : '$' ∈ formatPrice p.price currency
  · obtain rfl := literal dollars
    rw [foldl_aimed quotes aimed fun some_ => absurd rfl some_, ← live]
    rfl
  · rw [foldl_aimed quotes aimed fun _ => .inl (live ▸ dollars), written_plain (live ▸ dollars), live]

theorem chars_of_all {text : List Char} (h : (text.all fun c => !isSpace c && c != '[') = true) : ∀ c ∈ text, isSpace c = false ∧ c ≠ '[' :=
  fun c mem => by simpa using List.all_eq_true.1 h c mem

theorem currencySymbol_chars (currency : String) : ∀ c ∈ currencySymbol currency, isSpace c = false ∧ c ≠ '[' := by
  refine chars_of_all ?_
  unfold currencySymbol
  split
  · decide
  · split <;> decide

/-- A price is written with a symbol and in digits. -/
theorem formatPrice_chars {m : Money} (nonneg : 0 ≤ m.units) :
    ∀ c ∈ formatPrice (some (numericText m)) currency, isSpace c = false ∧ c ≠ '[' := by
  have fine : ∀ c : Char, c.isDigit = true ∨ c = ',' ∨ c = '.' → isSpace c = false ∧ c ≠ '[' := by
    rintro c (digit | rfl | rfl)
    · refine ⟨(digit_visible digit).1, ?_⟩
      rintro rfl
      exact absurd digit (by decide)
    · decide
    · decide
  have cents : ∀ n < 100, (fraction n).all Char.isDigit = true := by decide
  have bound := Nat.mod_lt m.units.natAbs (by decide : 100 > 0)
  intro c mem
  rw [formatPrice_numeric currency nonneg] at mem
  rcases List.mem_append.1 mem with mem | mem
  · exact currencySymbol_chars currency c mem
  · refine fine c ?_
    have front : c ∈ grouped (m.units.natAbs / 100) → c.isDigit = true ∨ c = ',' ∨ c = '.' := fun mem =>
      (grouped_chars _ c mem).imp_right .inl
    unfold amountText at mem
    split at mem
    · exact front mem
    · rcases List.mem_append.1 mem with mem | mem
      · exact front mem
      · rcases List.mem_cons.1 mem with point | mem
        · exact .inr (.inr point)
        · exact .inl (List.all_eq_true.1 (cents _ bound) c mem)

theorem visible_of_visible {price : List Char} (h : ∀ c ∈ price, isSpace c = false) : visible price = price :=
  List.filter_eq_self.2 fun c mem => by rw [h c mem]; rfl

/-- Two texts that differ in their price only, and are the same when they are stripped. -/
theorem visible_of_strip {price live : List Char} (left : '[' ∉ before ++ (price ++ after)) (right : '[' ∉ before ++ (live ++ after))
    (same : stripInternalProductIDs (String.ofList (before ++ (price ++ after))) =
      stripInternalProductIDs (String.ofList (before ++ (live ++ after)))) : visible price = visible live := by
  have both := congrArg (fun s => visible (String.toList s)) same
  simp only [visible_strip left, visible_strip right, visible_append] at both
  exact List.append_cancel_right (List.append_cancel_left both)

theorem bracket_between {price : List Char} (split : text = before ++ (token ++ after)) (untagged : '[' ∉ text)
    (clear : ∀ c ∈ price, c ≠ '[') : '[' ∉ before ++ (price ++ after) := by
  intro mem
  rw [split] at untagged
  rcases List.mem_append.1 mem with mem | mem
  · exact untagged (List.mem_append_left _ mem)
  · rcases List.mem_append.1 mem with mem | mem
    · exact clear _ mem rfl
    · exact untagged (List.mem_append_right _ (List.mem_append_right _ mem))

theorem formatPrice_visible {p : ProductRow} (numeric : ∃ m : Money, 0 ≤ m.units ∧ p.price = some (numericText m)) :
    ∀ c ∈ formatPrice p.price currency, isSpace c = false ∧ c ≠ '[' := by
  obtain ⟨m, nonneg, price⟩ := numeric
  rw [price]
  exact formatPrice_chars nonneg

/-- A quote that no item touches is right only if it was right before. -/
theorem price_of_untouched {p : ProductRow} {others : List ProductRow} (quotes : Quotes lower text before token after p others)
    (leaves : ∀ item ∈ items, Leaves lower fold text item) (numeric : ∃ m : Money, 0 ≤ m.units ∧ p.price = some (numericText m))
    (untagged : '[' ∉ text)
    (same : stripInternalProductIDs (String.ofList (items.foldl (syncItem lower fold) text)) =
      stripInternalProductIDs (String.ofList (before ++ (formatPrice p.price currency ++ after)))) :
    visible token = formatPrice p.price currency := by
  have live : ∀ c ∈ formatPrice p.price currency, isSpace c = false ∧ c ≠ '[' := formatPrice_visible numeric
  have split := quotes.price.split
  rw [foldl_leaves leaves, split] at same
  rw [visible_of_strip (split ▸ untagged) (bracket_between split untagged fun c mem => (live c mem).2) same,
    visible_of_visible fun c mem => (live c mem).1]

section Told

variable {p : ProductRow} {item : CatalogItem} {way : Option (List Char × List Char)}

theorem Telling.template (telling : Telling currency text p item way) : IsTemplate item.price.toList := by
  by_cases dollars : '$' ∈ item.price.toList
  · obtain ⟨-, c, tail, spelled, digit, plain⟩ := telling.dollars dollars
    exact .inr ⟨c, tail, spelled, digit, plain⟩
  · exact .inl dollars

/-- No bracket is written. -/
theorem Telling.unbracketed (telling : Telling currency text p item way) (hit : Hit fold item.name.toList text before after way) :
    ∀ d ∈ written item.price.toList way, d ≠ '[' := by
  intro d mem
  by_cases dollars : '$' ∈ item.price.toList
  · cases way with
    | none => exact (telling.printed d mem).2
    | some found =>
      obtain ⟨whole, group⟩ := found
      obtain ⟨-, c, tail, spelled, digit, plain⟩ := telling.dollars dollars
      obtain ⟨instead, rest, result, part, behind⟩ := written_dollars whole group digit plain
      rw [spelled, result] at mem
      have part_ : instead ⊆ text := by
        rcases part with rfl | rfl | rfl
        · exact hit.within.2
        · exact fun d mem => hit.within.2 (hit.within.1 mem)
        · exact List.nil_subset _
      rcases List.mem_append.1 mem with mem | mem
      · rintro rfl
        exact telling.untagged (part_ mem)
      · exact (telling.printed d (by rw [spelled]; exact List.mem_cons_of_mem _ (behind d mem).1)).2
  · rw [written_plain dollars] at mem
    exact (telling.printed d mem).2

/-- A price in dollars that is used as a template is not written as it is. -/
theorem Telling.way_none (telling : Telling currency text p item way) (hit : Hit fold item.name.toList text before after way)
    (dollars : '$' ∈ item.price.toList) (seen : visible (written item.price.toList way) = formatPrice p.price currency) : way = none := by
  cases way with
  | none => rfl
  | some found =>
    obtain ⟨whole, group⟩ := found
    obtain ⟨symbol, c, tail, spelled, digit, plain⟩ := telling.dollars dollars
    obtain ⟨instead, rest, result, part, behind⟩ := written_dollars whole group digit plain
    obtain ⟨d, inGroup, shown, foreign⟩ := telling.named whole group rfl
    rw [spelled, result] at seen
    rw [← seen] at symbol foreign
    have kept : ∀ more, d ∈ more → d ∈ visible (more ++ rest) := fun more mem =>
      List.mem_filter.2 ⟨List.mem_append_left rest mem, by rw [shown]; rfl⟩
    rcases part with rfl | rfl | rfl
    · exact absurd (kept _ (hit.within.1 inGroup)) foreign
    · exact absurd (kept _ inGroup) foreign
    · exact absurd rfl (behind _ (List.mem_filter.1 symbol).1).2

/-- What is written for a price is seen, and it is the live price only if that was read and was no template. -/
theorem survives_of_written {others : List ProductRow} (quotes : Quotes lower text before token after p others)
    (aimed : Aimed lower fold items text before after item way) (telling : Telling currency text p item way)
    (same : stripInternalProductIDs (String.ofList (items.foldl (syncItem lower fold) text)) =
      stripInternalProductIDs (String.ofList (before ++ (formatPrice p.price currency ++ after)))) : Survives currency p item way := by
  have live : ∀ c ∈ formatPrice p.price currency, isSpace c = false ∧ c ≠ '[' := formatPrice_visible telling.numeric
  have split := quotes.price.split
  rw [foldl_aimed quotes aimed fun _ => telling.template] at same
  have seen : visible (written item.price.toList way) = formatPrice p.price currency := by
    rw [visible_of_strip (bracket_between split telling.untagged (telling.unbracketed aimed.hit))
      (bracket_between split telling.untagged fun c mem => (live c mem).2) same, visible_of_visible fun c mem => (live c mem).1]
  have own := visible_of_visible fun c mem => (telling.printed c mem).1
  by_cases dollars : '$' ∈ item.price.toList
  · obtain rfl := telling.way_none aimed.hit dollars seen
    exact ⟨own.symm.trans seen, fun _ => rfl⟩
  · rw [written_plain dollars, own] at seen
    exact ⟨seen, fun symbol => absurd (seen ▸ symbol) dollars⟩

end Told

end Items

/-! ## The history -/

section History

variable {lower : Char → Char} {fold : Char → Char → Bool} {currency : String} {products : List ProductRow}
  {history : List History.ChatMessage}

/-- Everything but the texts of the assistant is as it was. -/
theorem syncedHistory_iff {context : List Char} :
    SyncedHistory lower currency products history (syncCatalogPricesInHistory lower fold history context) ↔
      ∀ text, Said history text → SyncedText lower currency products text
        (stripInternalProductIDs (String.ofList ((parseCatalogItems context).foldl (syncItem lower fold) text.toList))) := by
  unfold SyncedHistory syncCatalogPricesInHistory
  simp only
  rw [List.forall₂_map_right_iff, List.forall₂_same]
  constructor
  · rintro synced text ⟨msg, mem, assistant, part, here, isText, rfl⟩
    have parts := (synced msg mem).parts
    rw [if_neg (not_not_intro assistant)] at parts
    simp only at parts
    rw [List.forall₂_map_right_iff, List.forall₂_same] at parts
    have own := (parts part here).2.2.2 assistant isText
    unfold syncPart at own
    rwa [if_neg (not_not_intro isText)] at own
  · intro synced msg mem
    by_cases assistant : msg.role = "assistant"
    · rw [if_neg (not_not_intro assistant)]
      refine ⟨rfl, fun other => absurd assistant other, ?_⟩
      simp only
      rw [List.forall₂_map_right_iff, List.forall₂_same]
      intro part here
      unfold syncPart
      by_cases isText : part.type = "text"
      · rw [if_neg (not_not_intro isText)]
        exact ⟨rfl, rfl, fun other => absurd isText other, fun _ _ => synced part.text ⟨msg, mem, assistant, part, here, isText, rfl⟩⟩
      · rw [if_pos isText]
        exact ⟨rfl, rfl, fun _ => rfl, fun _ absurd_ => absurd absurd_ isText⟩
    · rw [if_pos assistant]
      refine ⟨rfl, fun _ => rfl, ?_⟩
      rw [List.forall₂_same]
      exact fun part _ => ⟨rfl, rfl, fun _ => rfl, fun absurd_ => absurd absurd_ assistant⟩

/-- A history is synchronized when each quote is aimed at by an item whose price survives. Where an item is aimed at a quote and a wrong
price can be seen, only then; and where none is, only if the quoted price is the live one already. -/
theorem syncCatalogPricesInHistory_synced :
    ((∀ text, Said history text → SettledText lower fold currency products
        (parseCatalogItems (joinLines (products.map fun p => formatProduct p currency))) text.toList) →
      SyncedHistory lower currency products history
        (syncCatalogPricesInHistory lower fold history (joinLines (products.map fun p => formatProduct p currency)))) ∧
    (SyncedHistory lower currency products history
        (syncCatalogPricesInHistory lower fold history (joinLines (products.map fun p => formatProduct p currency))) →
      ∀ text, Said history text → ∀ front p back before token after, products = front ++ p :: back →
        Quotes lower text.toList before token after p (front ++ back) →
          (∀ item way, Aimed lower fold (parseCatalogItems (joinLines (products.map fun p => formatProduct p currency))) text.toList
            before after item way → Telling currency text.toList p item way → Survives currency p item way) ∧
          ((∀ item ∈ parseCatalogItems (joinLines (products.map fun p => formatProduct p currency)), Leaves lower fold text.toList item) →
            (∃ m : Money, 0 ≤ m.units ∧ p.price = some (numericText m)) → '[' ∉ text.toList →
              visible token = formatPrice p.price currency)) := by
  rw [syncedHistory_iff]
  constructor
  · intro settled text said
    refine ⟨fun none => ?_, fun front p back before token after cut quotes => ?_⟩
    · rw [foldl_leaves ((settled text said).unmentioned none), String.ofList_toList]
    · obtain ⟨item, way, aimed, survives⟩ := (settled text said).quoted front p back before token after cut quotes
      rw [foldl_survives quotes aimed survives]
  · intro synced text said front p back before token after cut quotes
    have right := (synced text said).quoted front p back before token after cut quotes
    exact ⟨fun item way aimed telling => survives_of_written quotes aimed telling right,
      fun leaves numeric noBracket => price_of_untouched quotes leaves numeric noBracket right⟩

end History

theorem onePrice_of_tails {price : List Char → Option (List Char × List Char)} {text before token after : List Char}
    (split : text = before ++ (token ++ after)) (here : price (token ++ after) = some (token, after))
    (only : ∀ y ∈ text.tails, (price y).isSome = true → y = token ++ after) : OnePrice price text before token after := by
  refine ⟨split, here, fun x y cut found => ?_⟩
  have same := only y ((List.mem_tails _ _).2 ⟨x, cut.symm⟩) found
  rw [split, same] at cut
  exact (List.append_cancel_right cut).symm

/-- A text has one price in one way. -/
theorem OnePrice.unique {price : List Char → Option (List Char × List Char)} {text before token after before' token' after' : List Char}
    (one : OnePrice price text before token after) (other : OnePrice price text before' token' after') :
    before' = before ∧ token' = token ∧ after' = after := by
  have place := one.only before' (token' ++ after') other.split (by rw [other.here]; rfl)
  have rest : before ++ (token' ++ after') = before ++ (token ++ after) := by
    rw [← one.split, other.split, place]
  have here := other.here
  rw [List.append_cancel_left rest, one.here] at here
  have same := Option.some.inj here
  exact ⟨place, (congrArg Prod.fst same).symm, (congrArg Prod.snd same).symm⟩

/-- The comparison of `(?i)`, of letters without accents. -/
def foldCase (c d : Char) : Bool := c.toLower == d.toLower

/-- One message of the assistant. -/
def saying (text : List Char) : List History.ChatMessage := [⟨"assistant", [⟨"text", String.ofList text, ""⟩]⟩]

theorem said_saying {text : List Char} {t : String} (said : Said (saying text) t) : t = String.ofList text := by
  obtain ⟨msg, mem, -, part, here, -, rfl⟩ := said
  obtain rfl := List.mem_singleton.1 mem
  obtain rfl := List.mem_singleton.1 here
  rfl

/-- A lamp costs $45,000 now. -/
def lamp : ProductRow := ⟨"5a5b5c5d-0000", "Lamp", some "45000.00", 1, none, false⟩

/-- A quote of the shoe, beside a cap at 25.50, and a lamp in dollars without a quote are synchronized; a quote of the cap is not. -/
theorem shoe_synced :
    SyncedHistory Char.toLower "GHS" [cap, shoe] (saying "The air-max 90 is GH₵9 now.".toList)
      (syncCatalogPricesInHistory Char.toLower foldCase (saying "The air-max 90 is GH₵9 now.".toList)
        (joinLines ([cap, shoe].map fun p => formatProduct p "GHS"))) ∧
    SyncedHistory Char.toLower "USD" [lamp] (saying "We have one Lamp left.".toList)
      (syncCatalogPricesInHistory Char.toLower foldCase (saying "We have one Lamp left.".toList)
        (joinLines ([lamp].map fun p => formatProduct p "USD"))) ∧
    ¬ SyncedHistory Char.toLower "GHS" [cap] (saying "The Cap 5-panel is GH₵9 now.".toList)
      (syncCatalogPricesInHistory Char.toLower foldCase (saying "The Cap 5-panel is GH₵9 now.".toList)
        (joinLines ([cap].map fun p => formatProduct p "GHS"))) := by
  refine ⟨syncCatalogPricesInHistory_synced.1 fun text said => ?_, syncCatalogPricesInHistory_synced.1 fun text said => ?_, fun synced => ?_⟩
  · obtain rfl := said_saying said
    refine ⟨fun none => ?_, fun front p back before token after cut quotes => ?_⟩
    · exact absurd (none shoe (by simp)).1 (by decide +kernel)
    · obtain ⟨rfl, rfl⟩ : front = [cap] ∧ p = shoe := by
        match front, cut with
        | [], cut =>
          obtain ⟨rfl, -⟩ := List.cons.inj cut
          have mentioned := quotes.name
          revert mentioned
          decide +kernel
        | [q], cut =>
          obtain ⟨first, rest⟩ := List.cons.inj cut
          exact ⟨by rw [first], (List.cons.inj rest).1.symm⟩
        | q :: r :: front, cut => simp at cut
      have only : OnePrice priceAt (String.ofList "The air-max 90 is GH₵9 now.".toList).toList "The air-max 90 is ".toList "GH₵9".toList
          " now.".toList := onePrice_of_tails (by decide +kernel) (by decide +kernel) (by decide +kernel)
      obtain ⟨rfl, rfl, rfl⟩ := only.unique quotes.price
      have folded : OnePrice (foldedPrice foldCase) (String.ofList "The air-max 90 is GH₵9 now.".toList).toList "The air-max 90 is ".toList
          "GH₵9".toList " now.".toList := onePrice_of_tails (by decide +kernel) (by decide +kernel) (by decide +kernel)
      obtain ⟨way, hit⟩ := @hit_of_onePrice foldCase _ _ _ _ shoe.name.toList folded
        (.inl ⟨"air-max 90".toList, " is ".toList, by decide +kernel, List.all_eq_true.1 (by decide), .inl ⟨"The ".toList, by decide +kernel⟩⟩)
      refine ⟨itemOf "GHS" shoe, way, ⟨by decide +kernel, by decide +kernel, hit, [⟨"0a1b2c3d", "Cap 5-panel", "GH₵25"⟩], [], by decide +kernel,
        fun other mem => ?_, fun other mem => absurd mem List.not_mem_nil⟩, by decide +kernel, fun dollars => absurd dollars (by decide +kernel)⟩
      rw [List.mem_singleton.1 mem]
      exact .unmentioned (by decide +kernel) (.inr (by decide +kernel))
  · obtain rfl := said_saying said
    refine ⟨fun none => ?_, fun front p back before token after cut quotes => ?_⟩
    · exact absurd (none lamp (by simp)).1 (by decide +kernel)
    · have unpriced : ∀ y ∈ (String.ofList "We have one Lamp left.".toList).toList.tails, priceAt y = none := by decide +kernel
      have here := quotes.price.here
      rw [unpriced _ ((List.mem_tails _ _).2 ⟨before, quotes.price.split.symm⟩)] at here
      cases here
  · have only : OnePrice priceAt (String.ofList "The Cap 5-panel is GH₵9 now.".toList).toList "The Cap 5-panel is ".toList "GH₵9".toList
        " now.".toList := onePrice_of_tails (by decide +kernel) (by decide +kernel) (by decide +kernel)
    have quotes : Quotes Char.toLower (String.ofList "The Cap 5-panel is GH₵9 now.".toList).toList "The Cap 5-panel is ".toList "GH₵9".toList
        " now.".toList cap ([] ++ []) := by
      refine ⟨by decide +kernel, fun q mem => ?_, fun q mem => absurd mem List.not_mem_nil, only, "Cap 5-panel".toList, " is ".toList, rfl,
        List.all_eq_true.1 (by decide), .inl ⟨"The ".toList, by decide +kernel⟩⟩
      rw [List.mem_singleton.1 mem]
      rintro ⟨-, mentioned⟩
      revert mentioned
      decide +kernel
    have hit : Hit foldCase "Cap 5-panel".toList (String.ofList "The Cap 5-panel is GH₵9 now.".toList).toList "The Cap 5-panel is ".toList
        " now.".toList (some ("Cap 5-panel is GH₵9".toList, "Cap 5-panel is ".toList)) :=
      .after (x := "The ".toList) (by decide +kernel) (by decide +kernel) (by decide +kernel)
    have survives := (syncCatalogPricesInHistory_synced.2 synced _ ⟨_, List.mem_cons_self, rfl, _, List.mem_cons_self, rfl, rfl⟩ [] cap [] _ _ _
      rfl quotes).1 ⟨"0a1b2c3d", "Cap 5-panel", "GH₵25"⟩ _
      ⟨by decide +kernel, by decide, hit, [], [], by decide +kernel, fun other mem => absurd mem List.not_mem_nil,
        fun other mem => absurd mem List.not_mem_nil⟩
      ⟨by decide +kernel, ⟨⟨2550, by decide⟩, by decide, by decide +kernel⟩, chars_of_all (by decide),
        fun dollars => absurd dollars (by decide), fun whole group same => ?_⟩
    · have live := survives.1
      revert live
      decide +kernel
    · cases same
      exact ⟨'C', by decide, by decide, by decide +kernel⟩

/-- The quote of a lamp that used to cost four dollars loses its price. -/
theorem lamp_price_lost : syncCatalogPricesInHistory Char.toLower foldCase (saying "The Lamp is $4 now.".toList)
      (joinLines ([lamp].map fun p => formatProduct p "USD")) = saying "The Lamp is ,000 now.".toList ∧
    ¬ SyncedHistory Char.toLower "USD" [lamp] (saying "The Lamp is $4 now.".toList)
      (syncCatalogPricesInHistory Char.toLower foldCase (saying "The Lamp is $4 now.".toList)
        (joinLines ([lamp].map fun p => formatProduct p "USD"))) := by
  have lost : syncCatalogPricesInHistory Char.toLower foldCase (saying "The Lamp is $4 now.".toList)
      (joinLines ([lamp].map fun p => formatProduct p "USD")) = saying "The Lamp is ,000 now.".toList := by decide +kernel
  refine ⟨lost, fun synced => ?_⟩
  rw [lost] at synced
  obtain ⟨message, -⟩ := List.forall₂_cons.1 synced
  obtain ⟨⟨-, -, -, text⟩, -⟩ := List.forall₂_cons.1 message.parts
  have quotes : Quotes Char.toLower (String.ofList "The Lamp is $4 now.".toList).toList "The Lamp is ".toList "$4".toList " now.".toList
      lamp ([] ++ []) := by
    refine ⟨by decide +kernel, fun q mem => ?_, fun q mem => absurd mem List.not_mem_nil,
      onePrice_of_tails (by decide +kernel) (by decide +kernel) (by decide +kernel),
      "Lamp".toList, " is ".toList, rfl, List.all_eq_true.1 (by decide), .inl ⟨"The ".toList, by decide +kernel⟩⟩
    rw [List.mem_singleton.1 mem]
    rintro ⟨-, mentioned⟩
    revert mentioned
    decide +kernel
  have right := (text rfl rfl).quoted [] lamp [] _ _ _ rfl quotes
  revert right
  decide +kernel

end NovoApex.Turns
