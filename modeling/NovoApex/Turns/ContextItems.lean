import NovoApex.Orchestrator.Context
import NovoApex.Turns.CatalogItems

/-!
# Reading a whole context back

The prices in the history are synced against the whole context of a turn, not against its
products alone (`syncCatalogPricesInHistory`). The context is lines under lines, so what is
read of it is what is read of its parts (`Yields.append`): the products and the matched
images give their items, and the headers, the questions, the locations and the notices give
none, unless one of their texts has a line that starts like a product's.
-/

namespace NovoApex.Turns
set_option autoImplicit false
open Lib Aggregates Orchestrator Program

/-! ## Parts of a text -/

/-- No line of the text but its first starts like a product's. -/
def Untagged (text : List Char) : Prop := ¬ "\n[ID:".toList <:+: text

instance (text : List Char) : Decidable (Untagged text) := inferInstanceAs (Decidable (¬ _))

theorem untagged_of_oneLine {text : List Char} (oneLine : '\n' ∉ text) : Untagged text := by
  intro tagged
  have mem : '\n' ∈ "\n[ID:".toList := by decide
  exact oneLine (tagged.subset mem)

/-- A character that does not go on a tag keeps two texts apart. -/
theorem untagged_join {a b : List Char} {c : Char} (other : c ∉ "[ID:".toList) (first : Untagged a) (second : Untagged (c :: b)) :
    Untagged (a ++ c :: b) := by
  intro tagged
  rcases List.infix_append_iff_ne_nil.1 tagged with here | here | ⟨front, back, some_, some', same, -, starts⟩
  · exact first here
  · exact second here
  · have shape : "\n[ID:".toList = '\n' :: "[ID:".toList := by decide
    obtain ⟨x, front, rfl⟩ := List.exists_cons_of_ne_nil some_
    obtain ⟨y, back, rfl⟩ := List.exists_cons_of_ne_nil some'
    obtain ⟨rfl, -⟩ := List.cons_prefix_cons.1 starts
    rw [shape, List.cons_append] at same
    rw [(List.cons.inj same).2] at other
    exact other (List.mem_append_right front List.mem_cons_self)

/-- So does one that is in no tag, before a text. -/
theorem untagged_after {a b : List Char} {c : Char} (other : c ∉ "\n[ID:".toList) (first : Untagged (a ++ [c])) (second : Untagged b) :
    Untagged (a ++ [c] ++ b) := by
  intro tagged
  rcases List.infix_append_iff_ne_nil.1 tagged with here | here | ⟨front, back, some_, some', same, ends, -⟩
  · exact first here
  · exact second here
  · obtain ⟨rest, same'⟩ := ends
    have last := congrArg List.getLast? same'
    rw [List.getLast?_append_of_ne_nil _ some_, List.getLast?_append_of_ne_nil _ (List.cons_ne_nil c [])] at last
    have mem : c ∈ front := List.mem_of_getLast? last
    rw [same] at other
    exact other (List.mem_append_left back mem)

/-- A text between others that keep it apart. -/
theorem untagged_between {front text rest : List Char} (before : Untagged front)
    (last : ∃ c, front.getLast? = some c ∧ c ∉ "\n[ID:".toList) (here : Untagged text) (after : Untagged rest)
    (head : ∀ c, rest.head? = some c → c ∉ "[ID:".toList) : Untagged (front ++ (text ++ rest)) := by
  have onward : Untagged (text ++ rest) := by
    cases rest with
    | nil =>
      rw [List.append_nil]
      exact here
    | cons c rest => exact untagged_join (head c rfl) here after
  obtain ⟨c, last, other⟩ := last
  obtain ⟨front, rfl⟩ := List.getLast?_eq_some_iff.1 last
  exact untagged_after other before onward

/-- A text of whole lines, and the items that are read of it wherever a line starts. -/
def Yields (text : List Char) (items : List CatalogItem) : Prop := ∀ more, itemsFrom true (text ++ more) = items ++ itemsFrom true more

theorem yields_nil : Yields [] [] := fun _ => rfl

/-- What is read of a text is what is read of its parts. -/
theorem Yields.append {a b : List Char} {xs ys : List CatalogItem} (first : Yields a xs) (second : Yields b ys) :
    Yields (a ++ b) (xs ++ ys) := by
  intro more
  rw [List.append_assoc, first, second, List.append_assoc]

theorem Yields.parse {text : List Char} {items : List CatalogItem} (h : Yields text items) : parseCatalogItems text = items := by
  have whole := h []
  rw [List.append_nil] at whole
  unfold parseCatalogItems
  rw [whole]
  exact List.append_nil items

theorem yields_junk {junk : List Char} (start : ¬ "[ID:".toList <+: junk) (inner : Untagged junk) : Yields (junk ++ ['\n']) [] := by
  intro more
  rw [List.append_assoc]
  exact itemsFrom_junk more (fun _ => start) inner

/-- A line that starts otherwise. -/
theorem yields_line {line : List Char} (oneLine : '\n' ∉ line) (start : line.head? ≠ some '[') : Yields (line ++ ['\n']) [] := by
  refine yields_junk (fun tagged => ?_) (untagged_of_oneLine oneLine)
  obtain ⟨rest, rfl⟩ := tagged
  exact start rfl

/-- A line with a product's id, name and price. -/
theorem yields_priced {currency : String} {p : ProductRow} {tail : List Char} (listed : Listed p) (back : ReadsBack p)
    (ends : EndsPrice (tail ++ ['\n'])) (untagged : Untagged tail) :
    Yields ("[ID: ".toList ++ shortProductID p.id ++ "] ".toList ++ p.name.toList ++ " — ".toList ++ formatPrice p.price currency ++ tail ++ ['\n'])
      [itemOf currency p] := by
  intro more
  have ends' : EndsPrice (tail ++ '\n' :: more) := by
    intro c head
    apply ends c
    cases tail with
    | nil => exact head
    | cons d tail => exact head
  rw [List.append_assoc _ ['\n'], List.append_assoc _ tail]
  show itemsFrom true (_ ++ (tail ++ '\n' :: more)) = _
  rw [itemsFrom_item (catalogLine_priced listed back ends'), itemsFrom_junk more (fun off => absurd off Bool.false_ne_true) untagged]
  rfl

theorem yields_product {currency : String} {p : ProductRow} (listed : Listed p) (back : ReadsBack p) :
    Yields (formatProduct p currency ++ ['\n']) [itemOf currency p] := by
  unfold formatProduct
  exact yields_priced listed back (productTail_ends p (.inr ⟨[], rfl⟩)) (productTail_untagged listed.description)

/-- Parts that give an item each. -/
theorem yields_flatten {R : Type} {rows : List R} {text : R → List Char} {item : R → CatalogItem}
    (each : ∀ r ∈ rows, Yields (text r) [item r]) : Yields (rows.map text).flatten (rows.map item) := by
  induction rows with
  | nil => exact yields_nil
  | cons r rest ih =>
    have later := ih fun u mem => each u (List.mem_cons_of_mem r mem)
    exact (each r List.mem_cons_self).append later

/-- Parts that give none. -/
theorem yields_nothing {R : Type} {rows : List R} {text : R → List Char} (each : ∀ r ∈ rows, Yields (text r) []) :
    Yields (rows.map text).flatten [] := by
  induction rows with
  | nil => exact yields_nil
  | cons r rest ih =>
    have later := ih fun u mem => each u (List.mem_cons_of_mem r mem)
    exact (each r List.mem_cons_self).append later

/-- Joined lines, and the newline after the last. -/
theorem joinLines_newline (lines : List (List Char)) (some_ : lines ≠ []) :
    joinLines lines ++ ['\n'] = (lines.map (· ++ ['\n'])).flatten := by
  induction lines with
  | nil => exact absurd rfl some_
  | cons line rest ih =>
    cases rest with
    | nil => simp [joinLines]
    | cons next rest =>
      have later := ih (List.cons_ne_nil next rest)
      simp only [joinLines, List.map_cons, List.flatten_cons, List.append_assoc, List.cons_append, List.nil_append] at later ⊢
      rw [later]

/-! ## The sections -/

theorem no_newline_nat (n : Nat) : '\n' ∉ (toString n).toList := no_newline_stock (Int.ofNat n)

/-- A header of one line, and the products. -/
theorem yields_products {header : List Char} {currency : String} {products : List ProductRow} (some_ : products ≠ [])
    (head : Yields header []) (listed : ∀ p ∈ products, Listed p ∧ ReadsBack p) :
    Yields (productSection header products currency) (products.map (itemOf currency)) := by
  have lines : Yields ((products.map fun p => formatProduct p currency ++ ['\n']).flatten) (products.map (itemOf currency)) :=
    yields_flatten fun p mem => yields_product (listed p mem).1 (listed p mem).2
  have joined := joinLines_newline (products.map fun p => formatProduct p currency) (by simpa using some_)
  rw [List.map_map] at joined
  unfold productSection
  rw [List.append_assoc, joined]
  exact head.append lines

theorem yields_fullCatalog {currency : String} {products : List ProductRow} (listed : ∀ p ∈ products, Listed p ∧ ReadsBack p) :
    Yields (formatFullCatalog products currency) (products.map (itemOf currency)) := by
  unfold formatFullCatalog
  split
  · rename_i none
    have shape : "=== CATALOG (0 products) ===\nNo products available.\n".toList =
        ("=== CATALOG (0 products) ===".toList ++ ['\n']) ++ ("No products available.".toList ++ ['\n']) := by decide +kernel
    rw [none, shape]
    exact (yields_line (by decide) (by decide)).append (yields_line (by decide) (by decide))
  · rename_i some_
    have shape : " products — showing all) ===\n".toList = " products — showing all) ===".toList ++ ['\n'] := by decide +kernel
    refine yields_products some_ ?_ listed
    rw [shape, ← List.append_assoc]
    refine yields_line ?_ (by simp)
    simp only [List.mem_append, not_or]
    exact ⟨⟨by decide, no_newline_nat products.length⟩, by decide⟩

theorem yields_semanticCatalog {currency : String} {products : List ProductRow} {totalCount : Nat}
    (listed : ∀ p ∈ products, Listed p ∧ ReadsBack p) :
    Yields (formatSemanticCatalog products totalCount currency) (products.map (itemOf currency)) := by
  unfold formatSemanticCatalog
  split
  · rename_i none
    have shape : "=== CATALOG ===\nNo products matched your query. Try describing what you're looking for.\n".toList =
        ("=== CATALOG ===".toList ++ ['\n']) ++
          ("No products matched your query. Try describing what you're looking for.".toList ++ ['\n']) := by decide +kernel
    rw [none, shape]
    exact (yields_line (by decide) (by decide)).append (yields_line (by decide) (by decide))
  · rename_i some_
    have shape : "+ products) ===\n".toList = "+ products) ===".toList ++ ['\n'] := by decide +kernel
    refine yields_products some_ ?_ listed
    rw [shape, ← List.append_assoc]
    refine yields_line ?_ (by simp)
    simp only [List.mem_append, not_or]
    exact ⟨⟨⟨⟨by decide, no_newline_nat products.length⟩, by decide⟩, no_newline_nat totalCount⟩, by decide⟩

/-- A question and its answer start no line like a product's. -/
structure PlainFaq (f : FAQHit) : Prop where
  question : Untagged f.question.toList
  answer : Untagged f.answer.toList

theorem yields_faqs {faqs : List FAQHit} (plain : ∀ f ∈ faqs, PlainFaq f) : Yields (formatFaqs faqs) [] := by
  have head : Yields "\n=== POLICIES & FAQs ===\n".toList [] := by
    have shape : "\n=== POLICIES & FAQs ===\n".toList = ([] ++ ['\n']) ++ ("=== POLICIES & FAQs ===".toList ++ ['\n']) := by decide +kernel
    rw [shape]
    exact (yields_line (by decide) (by decide)).append (yields_line (by decide) (by decide))
  unfold formatFaqs
  simp only
  split
  · have shape : "No policies found.\n".toList = "No policies found.".toList ++ ['\n'] := by decide +kernel
    rw [shape]
    exact head.append (yields_line (by decide) (by decide))
  · refine head.append (yields_nothing fun f mem => ?_)
    obtain ⟨question, answer⟩ := plain f mem
    have shape : "Q: ".toList ++ f.question.toList ++ "\nA: ".toList ++ f.answer.toList ++ "\n\n".toList =
        (("Q:".toList ++ [' '] ++ f.question.toList) ++ '\n' :: (("A:".toList ++ [' '] ++ f.answer.toList) ++ '\n' :: [])) ++ ['\n'] := by
      simp
    rw [shape]
    refine yields_junk (by simp) ?_
    have answered : Untagged (('\n' :: "A:".toList ++ [' '] ++ f.answer.toList) ++ '\n' :: []) :=
      untagged_join (by decide) (untagged_after (by decide) (by decide) answer) (by decide)
    exact untagged_join (by decide) (untagged_after (by decide) (by decide) question) answered

/-- No text of a location starts a line like a product's. -/
structure PlainLocation (l : Db.Location) : Prop where
  id : Untagged (shortProductID l.id)
  name : Untagged l.name.toList
  address : Untagged l.address.toList
  landmark : ∀ text, l.landmark = some text → Untagged text.toList
  openingTime : Untagged l.openingTime.toList
  closingTime : Untagged l.closingTime.toList

theorem untagged_landmark {l : Db.Location} {rest : List Char} (plain : PlainLocation l) (after : Untagged rest)
    (head : ∀ c, rest.head? = some c → c ∉ "[ID:".toList) :
    Untagged (formatLandmark l ++ rest) ∧ ∀ c, (formatLandmark l ++ rest).head? = some c → c ∉ "[ID:".toList := by
  unfold formatLandmark
  cases landmark : l.landmark with
  | none => exact ⟨after, head⟩
  | some text =>
    simp only
    split
    · exact ⟨after, head⟩
    · rw [List.append_assoc, List.append_assoc]
      constructor
      · have closed : Untagged ([')'] ++ rest) := by
          have whole := untagged_between (by decide : Untagged [')']) ⟨')', by decide, by decide⟩ (by decide : Untagged []) after head
          rwa [List.nil_append] at whole
        refine untagged_between (by decide) ⟨' ', by decide, by decide⟩ (plain.landmark text landmark) closed fun c first => ?_
        cases first
        decide
      · intro c first
        cases first
        decide

theorem yields_location {l : Db.Location} (plain : PlainLocation l) : Yields (formatLocation l ++ ['\n']) [] := by
  have closing : Untagged (['–'] ++ (l.closingTime.toList ++ [])) :=
    untagged_between (by decide) ⟨'–', by decide, by decide⟩ plain.closingTime (by decide) (by simp)
  rw [List.append_nil] at closing
  have hours : Untagged (", open ".toList ++ (l.openingTime.toList ++ (['–'] ++ l.closingTime.toList))) := by
    refine untagged_between (by decide) ⟨' ', by decide, by decide⟩ plain.openingTime closing fun c first => ?_
    cases first
    decide
  obtain ⟨landmark, first⟩ := untagged_landmark plain hours fun c first => by
    cases first
    decide
  have address := untagged_between (by decide : Untagged " — ".toList) ⟨' ', by decide, by decide⟩ plain.address landmark first
  have named := untagged_between (by decide : Untagged "] ".toList) ⟨' ', by decide, by decide⟩ plain.name address fun c first => by
    cases first
    decide
  have whole := untagged_between (by decide : Untagged "[LOC: ".toList) ⟨' ', by decide, by decide⟩ plain.id named fun c first => by
    cases first
    decide
  have shape : formatLocation l = "[LOC: ".toList ++ (shortProductID l.id ++ ("] ".toList ++ (l.name.toList ++ (" — ".toList ++ (l.address.toList ++
      (formatLandmark l ++ (", open ".toList ++ (l.openingTime.toList ++ (['–'] ++ l.closingTime.toList))))))))) := by
    unfold formatLocation
    simp only [List.append_assoc]
  rw [shape]
  refine yields_junk (fun tagged => ?_) whole
  have second := congrArg (fun text => text[1]?) (List.prefix_iff_eq_append.1 tagged)
  cases second

theorem yields_locations {locations : List Db.Location} (plain : ∀ l ∈ locations, PlainLocation l) : Yields (formatLocations locations) [] := by
  unfold formatLocations
  split
  · exact yields_nil
  · rename_i some_
    have shape : "\n=== PICKUP LOCATIONS ===\n".toList = ([] ++ ['\n']) ++ ("=== PICKUP LOCATIONS ===".toList ++ ['\n']) := by decide +kernel
    have head : Yields "\n=== PICKUP LOCATIONS ===\n".toList [] := by
      rw [shape]
      exact (yields_line (by decide) (by decide)).append (yields_line (by decide) (by decide))
    have joined := joinLines_newline (locations.map formatLocation) (by simpa using some_)
    rw [List.map_map] at joined
    rw [List.append_assoc, joined]
    exact head.append (yields_nothing fun l mem => yields_location (plain l mem))

/-- A match as a row of the catalog. -/
def hitRow {D : Type} (h : ImageHit D) : ProductRow := ⟨h.id, h.name, h.price, 0, none, true⟩

theorem yields_hit {D : Type} {percent : D → Int} {currency : String} {h : ImageHit D} (listed : Listed (hitRow h)) (back : ReadsBack (hitRow h)) :
    Yields (formatImageHit percent currency h) [itemOf currency (hitRow h)] := by
  have tail : '\n' ∉ " [HAS_IMAGE] (".toList ++ (toString (percent h.distance)).toList ++ "% visual match)".toList := by
    simp only [List.mem_append, not_or]
    exact ⟨⟨by decide, no_newline_stock (percent h.distance)⟩, by decide⟩
  have ends : EndsPrice (" [HAS_IMAGE] (".toList ++ (toString (percent h.distance)).toList ++ "% visual match)".toList ++ ['\n']) := by
    intro c head
    cases head
    decide
  have line := @yields_priced currency (hitRow h) _ listed back ends (untagged_of_oneLine tail)
  have shape : "% visual match)\n".toList = "% visual match)".toList ++ ['\n'] := by decide +kernel
  unfold formatImageHit
  rw [shape]
  simpa [hitRow] using line

theorem yields_imageMatches {D : Type} {percent : D → Int} {currency : String} {hits : List (ImageHit D)}
    (listed : ∀ h ∈ hits, Listed (hitRow h) ∧ ReadsBack (hitRow h)) :
    Yields (formatImageMatches percent hits currency) (hits.map fun h => itemOf currency (hitRow h)) := by
  unfold formatImageMatches
  split
  · rename_i none
    have shape : "\n=== IMAGE MATCH ===\nNo products visually matched the customer's image.\n".toList = ([] ++ ['\n']) ++
        ("=== IMAGE MATCH ===".toList ++ ['\n']) ++ ("No products visually matched the customer's image.".toList ++ ['\n']) := by
      decide +kernel
    rw [List.isEmpty_iff.1 none, shape]
    exact ((yields_line (by decide) (by decide)).append (yields_line (by decide) (by decide))).append (yields_line (by decide) (by decide))
  · have shape : "\n=== IMAGE MATCH ===\nThe customer sent an image. The following products visually match:\n".toList = ([] ++ ['\n']) ++
        ("=== IMAGE MATCH ===".toList ++ ['\n']) ++
        ("The customer sent an image. The following products visually match:".toList ++ ['\n']) := by decide +kernel
    have head : Yields "\n=== IMAGE MATCH ===\nThe customer sent an image. The following products visually match:\n".toList [] := by
      rw [shape]
      exact ((yields_line (by decide) (by decide)).append (yields_line (by decide) (by decide))).append (yields_line (by decide) (by decide))
    exact head.append (yields_flatten fun h mem => yields_hit (listed h mem).1 (listed h mem).2)

theorem yields_unavailable : Yields imageMatchUnavailable [] := by
  have shape : imageMatchUnavailable = ([] ++ ['\n']) ++ ("=== IMAGE MATCH ===".toList ++ ['\n']) ++
      ("Image matching is unavailable. Rely on the LLM's vision capability to analyze the image.".toList ++ ['\n']) := by decide +kernel
  rw [shape]
  exact ((yields_line (by decide) (by decide)).append (yields_line (by decide) (by decide))).append (yields_line (by decide) (by decide))

theorem yields_failed : Yields retrievalFailed [] := by
  have shape : retrievalFailed = "Catalog retrieval failed.".toList ++ ['\n'] := by decide +kernel
  rw [shape]
  exact yields_line (by decide) (by decide)

/-! ## The context -/

/-- The products of a business can be read back, and no other text of it starts a line like theirs. -/
structure PlainCatalog {S : Type} (businessID : String) (w : CatalogWorld S) : Prop where
  products : ∀ p ∈ availableProducts businessID w, Listed (productRow w p) ∧ ReadsBack (productRow w p)
  faqs : ∀ f ∈ w.faqs.rows, f.businessID = businessID → PlainFaq ⟨f.question, f.answer⟩
  locations : ∀ l ∈ w.locations.rows, l.businessID = businessID → PlainLocation l

section Context

variable {S D : Type} [LinearOrder D] {similarity : Similarity S D} {found : CatalogWorld S → Prop}
  {businessID userText currency : String} {photo : Option (List UInt8)}

theorem yields_catalog {products : List ProductRow} {text : List Char} (plain : ∀ w, found w → PlainCatalog businessID w)
    (h : CatalogPart similarity found businessID userText currency products text) :
    Yields text (products.map (itemOf currency)) := by
  cases h with
  | full here all ordered =>
    refine yields_fullCatalog fun p mem => ?_
    obtain ⟨row, offered, rfl⟩ := List.mem_map.1 (all.mem_iff.1 mem)
    exact (plain _ here).products row offered
  | @semantic before w vector ranked counted here embeds top =>
    refine yields_semanticCatalog fun p mem => ?_
    obtain ⟨r, listed, rfl⟩ := List.mem_map.1 mem
    obtain ⟨row, offered, near⟩ := List.mem_filterMap.1 (top.mem listed)
    obtain ⟨d, -, near⟩ := Option.bind_eq_some_iff.1 near
    split at near
    · obtain rfl := Option.some.inj near
      exact (plain w here).products row offered
    · cases near

theorem yields_questions {text : List Char} (plain : ∀ w, found w → PlainCatalog businessID w)
    (h : FaqPart similarity found businessID userText text) : Yields text [] := by
  obtain ⟨w, vector, ranked, here, -, top, rfl⟩ := h
  refine yields_faqs fun f mem => ?_
  obtain ⟨r, listed, rfl⟩ := List.mem_map.1 mem
  obtain ⟨row, stored, rfl⟩ := List.mem_map.1 (top.mem listed)
  obtain ⟨stored, own⟩ := List.mem_filter.1 stored
  exact (plain w here).faqs row stored (of_decide_eq_true own)

theorem yields_shops {text : List Char} (plain : ∀ w, found w → PlainCatalog businessID w)
    (h : PickupPart found businessID text) : Yields text [] := by
  obtain ⟨w, locations, here, all, rfl⟩ := h
  refine yields_locations fun l mem => ?_
  obtain ⟨stored, own⟩ := List.mem_filter.1 (all.mem_iff.1 mem)
  simp only [Bool.and_eq_true, decide_eq_true_eq] at own
  exact (plain w here).locations l stored own.1.1

theorem yields_image {hits : List (ImageHit D)} {text : List Char} (plain : ∀ w, found w → PlainCatalog businessID w)
    (h : ImagePart similarity found businessID currency photo hits text) :
    Yields text (hits.map fun h => itemOf currency (hitRow h)) := by
  cases h with
  | noPhoto => exact yields_nil
  | nothing => exact yields_nil
  | unavailable => exact yields_unavailable
  | @matched image before w vector hits asked answer here best =>
    refine yields_imageMatches fun h mem => ?_
    obtain ⟨-, -, p, stored, -, own, isAvailable, e, -, -, rfl⟩ := (mem_imageCandidates similarity).1 (best.nearest h mem).1
    have offered : p ∈ availableProducts businessID w := List.mem_filter.2 ⟨stored, by simp [own, isAvailable]⟩
    obtain ⟨listed, back⟩ := (plain w here).products p offered
    exact ⟨⟨listed.name, listed.price, fun text absurd => by cases absurd⟩, ⟨back.bracket, back.trimmed, back.price⟩⟩

theorem yields_context {products : List ProductRow} {hits : List (ImageHit D)} {text : List Char}
    (plain : ∀ w, found w → PlainCatalog businessID w)
    (h : ContextText similarity found businessID userText currency photo products hits text) :
    Yields text (products.map (itemOf currency) ++ hits.map fun h => itemOf currency (hitRow h)) := by
  cases h with
  | noCatalog => exact yields_failed
  | noFaqs offers => exact (yields_catalog plain offers).append yields_failed
  | noLocations offers questions =>
    have text := ((yields_catalog plain offers).append (yields_questions plain questions)).append yields_failed
    rw [List.append_nil] at text
    exact text
  | complete offers questions shops matched =>
    have text := (((yields_catalog plain offers).append (yields_questions plain questions)).append (yields_shops plain shops)).append
      (yields_image plain matched)
    rw [List.append_nil, List.append_nil] at text
    exact text

/-- Where the texts of a business are plain in every store that is found, whatever the interleaving and whichever reads fail: what
is read of a turn's context are the products and the matches it lists, and nothing else. -/
theorem context_items (embedder : Bool) {text : List Char} (plain : ∀ w, found w → PlainCatalog businessID w)
    (ends : MayEnd (catalogExec similarity) found
      (catalogAdapter similarity.percent embedder businessID userText currency ((photo.map imageDataURL).getD [])) (.ok text)) :
    ∃ products hits, ContextText similarity found businessID userText currency photo products hits text ∧
      parseCatalogItems text = products.map (itemOf currency) ++ hits.map fun h => itemOf currency (hitRow h) := by
  obtain ⟨text', same, products, hits, context⟩ := (returns_adapter embedder).ends ends
  obtain rfl := Except.ok.inj same
  exact ⟨products, hits, context, (yields_context plain context).parse⟩

end Context

/-- A sandal at 73.00, with a picture. -/
def sandal : CatalogProduct Nat := ⟨"1a2b3c4d-0000", "biz", "Sandal", ⟨7300, by decide⟩, 4, some "Leather", true, some [1]⟩

def sandalCatalog : CatalogWorld Nat where
  products := ⟨[sandal], List.nodup_singleton _⟩
  images := ⟨[⟨"image-1", "1a2b3c4d-0000", "https://images/1.jpg", some [1]⟩], List.nodup_singleton _⟩
  faqs := ⟨[⟨"faq-1", "biz", "Where?", "Accra", none⟩], List.nodup_singleton _⟩
  locations := ⟨[], List.nodup_nil⟩
  embedText _ := [1]
  embedImage _ _ := some [1]

/-- All vectors are alike, and texts are sorted by their code points. -/
def alike : Similarity Nat Nat where
  collation := ⟨fun a b => a ≤ b, fun _ _ => inferInstance, String.le_total, fun _ _ _ => String.le_trans⟩
  distance _ _ := 0
  semanticMaxDistance := 1
  imageMaxDistance := 1
  percent _ := 100

theorem sandal_plain : PlainCatalog "biz" sandalCatalog where
  products p mem := by
    obtain ⟨mem, -⟩ := List.mem_filter.1 mem
    obtain rfl := List.mem_singleton.1 mem
    have price : (productRow sandalCatalog sandal).price = some (numericText sandal.price) := rfl
    refine ⟨⟨plainName_of_tails ?_ ?_ ?_ ?_ ?_, ⟨sandal.price, by decide, price⟩, fun text has => ?_⟩, ?_, ?_, fun m nonneg same => ?_⟩
    all_goals first | decide +kernel | skip
    · obtain rfl := Option.some.inj has
      rintro (first | inner)
      · exact absurd first (by decide +kernel)
      · exact absurd inner (by decide +kernel)
    · have text : "73.00" = numericText m := by
        rw [price] at same
        rw [← Option.some.inj same]
        decide +kernel
      exact .inl (zero_cents_of_text nonneg ⟨"73.".toList, by rw [← text]; decide⟩)
  faqs f mem _ := by
    obtain rfl := List.mem_singleton.1 mem
    exact ⟨by decide +kernel, by decide +kernel⟩
  locations l mem := absurd mem List.not_mem_nil

theorem context_items_of_sandal : ∃ text products hits, ContextText alike (· = sandalCatalog) "biz" "shoes?" "GHS" (some [1, 2]) products hits text ∧
    parseCatalogItems text = products.map (itemOf "GHS") ++ hits.map fun h => itemOf "GHS" (hitRow h) := by
  have reads : ∀ op : CatalogStmt Nat, (catalogExec alike op sandalCatalog).2 = sandalCatalog := by
    intro op
    cases op <;> rfl
  let adapter : CatalogHandler Nat Nat (List Char) := catalogAdapter alike.percent true "biz" "shoes?" "GHS"
    (((some [1, 2] : Option (List UInt8)).map imageDataURL).getD [])
  have ends : MayEnd (catalogExec alike) (· = sandalCatalog) adapter (adapter.run (catalogExec alike) sandalCatalog).1 :=
    MayEnd.of_run (by rfl) reads adapter
  obtain ⟨text, same, -⟩ := (returns_adapter true).ends ends
  rw [same] at ends
  have plain : ∀ w, w = sandalCatalog → PlainCatalog "biz" w := by
    rintro w rfl
    exact sandal_plain
  exact ⟨text, context_items true plain ends⟩

end NovoApex.Turns
