import NovoApex.Lib.Answered
import NovoApex.Orchestrator.Retrieval

/-!
# What a turn is told

The context of a turn is put together from reads that stand on their own: products come
and go between them, and any of them may fail. It is a text nevertheless, and every part
of it is what one store held: all the available products in order, or the nearest within
the distance; the nearest questions; the locations; and for the photo of a customer, which
reaches the embedding as the bytes that came in, the nearest image of each of the nearest
products (`context_in_every_interleaving`).
-/

namespace NovoApex.Orchestrator
set_option autoImplicit false
open Lib Aggregates Program

section Matches

variable {S D : Type} [LinearOrder D] (similarity : Similarity S D)

instance {R : Type} : Std.Total (nearer (R := R) (D := D)) := ⟨fun a b => le_total a.1 b.1⟩

instance {R : Type} : IsTrans (Ranked R D) nearer := ⟨fun _ _ _ first second => le_trans first second⟩

instance : Std.Total (byDistance (D := D)) := ⟨fun a b => le_total a.distance b.distance⟩

instance : IsTrans (ImageHit D) byDistance := ⟨fun _ _ _ first second => le_trans first second⟩

instance (collation : Collation) : Std.Total (byName collation) := ⟨fun a b => collation.total a.name b.name⟩

instance (collation : Collation) : IsTrans ProductRow (byName collation) := ⟨fun _ _ _ first second => collation.trans _ _ _ first second⟩

/-! ## Images -/

/-- The nearest products, each with its nearest image. -/
structure BestMatches (limit : Nat) (candidates hits : List (ImageHit D)) : Prop where
  distinct : (hits.map ImageHit.id).Nodup
  ordered : hits.Pairwise byDistance
  nearest : ∀ h ∈ hits, h ∈ candidates ∧ ∀ c ∈ candidates, c.id = h.id → h.distance ≤ c.distance
  /-- As many as there are products, up to the limit. -/
  length : hits.length = min limit (candidates.map ImageHit.id).dedup.length
  /-- No image of a product that is left out is nearer. -/
  best : ∀ c ∈ candidates, c.id ∉ hits.map ImageHit.id → ∀ h ∈ hits, h.distance ≤ c.distance

theorem mem_imageCandidates {maxDistance : D} {businessID : String} {vector : List S} {w : CatalogWorld S} {h : ImageHit D} :
    h ∈ imageCandidates similarity maxDistance businessID vector w ↔ ∃ i ∈ w.images.rows, ∃ p ∈ w.products.rows, p.id = i.productID ∧
      p.businessID = businessID ∧ p.isAvailable = true ∧ ∃ e, i.embedding = some e ∧
        similarity.distance e vector < maxDistance ∧
        h = ⟨p.id, p.name, some (numericText p.price), some i.url, similarity.distance e vector⟩ := by
  unfold imageCandidates
  rw [List.mem_filterMap]
  refine exists_congr fun i => and_congr_right fun _ => ?_
  constructor
  · intro found
    obtain ⟨p, there, found⟩ := Option.bind_eq_some_iff.1 found
    obtain ⟨mem, id⟩ := Table.find?_eq_some.1 there
    split at found
    · rename_i own
      obtain ⟨d, near, found⟩ := Option.bind_eq_some_iff.1 found
      obtain ⟨e, embedded, rfl⟩ := Option.map_eq_some_iff.1 near
      split at found
      · rename_i close
        exact ⟨p, mem, id, own.1, own.2, e, embedded, close, (Option.some.inj found).symm⟩
      · cases found
    · cases found
  · rintro ⟨p, mem, id, own, isAvailable, e, embedded, close, rfl⟩
    have there : w.products.find? i.productID = some p := Table.find?_eq_some.2 ⟨mem, id⟩
    simp [there, own, isAvailable, embedded, close]

theorem similarProducts_best (maxDistance : D) (limit : Nat) (businessID : String) (vector : List S) (w : CatalogWorld S) :
    BestMatches limit (imageCandidates similarity maxDistance businessID vector w)
      (similarProducts similarity maxDistance limit businessID vector w) := by
  let candidates := imageCandidates similarity maxDistance businessID vector w
  let best := distinctOn byDistance ImageHit.id candidates
  have keys : (best.map ImageHit.id).Nodup := distinctOn_keys byDistance
  have top : TopOf byDistance limit best (similarProducts similarity maxDistance limit businessID vector w) := topOf_take byDistance limit best
  obtain ⟨rest, perm, ranked⟩ := top.best
  have listed : ((similarProducts similarity maxDistance limit businessID vector w).map ImageHit.id ++ rest.map ImageHit.id).Nodup := by
    rw [← List.map_append]
    exact (perm.map ImageHit.id).nodup_iff.2 keys
  refine ⟨(List.nodup_append.1 listed).1, top.ordered, fun h mem => ?_, ?_, fun c mem out h kept => ?_⟩
  · have own : h ∈ distinctOn byDistance ImageHit.id candidates := top.mem mem
    obtain ⟨there, first⟩ := mem_distinctOn byDistance own
    exact ⟨there, fun c candidate same => first c candidate same⟩
  · rw [top.length]
    exact congrArg (min limit) (distinctOn_length byDistance)
  · obtain ⟨r, first, same⟩ : ∃ r ∈ best, r.id = c.id := exists_distinctOn byDistance mem
    have near : r.distance ≤ c.distance := (mem_distinctOn byDistance first).2 c mem same.symm
    have later : r ∈ rest := by
      rcases List.mem_append.1 (perm.mem_iff.2 first) with early | later
      · exact absurd (List.mem_map.2 ⟨r, early, same⟩) out
      · exact later
    exact le_trans (ranked h kept r later) near

/-- For every catalog, photo, bound and limit: the search by image lists as many of the business's available products as have an image
within the bound, up to the limit, each once and with its nearest image, nearest first, and nothing it leaves out is nearer than what
it lists; and with the bound and the limit of a turn it is the match of a turn. -/
theorem image_search_is_best (businessID : String) (image : List UInt8) (mimeType : String) (maxDistance : D) (limit : Int)
    (w : CatalogWorld S) :
    (∀ hits, findSimilarProductsByImage similarity businessID image mimeType maxDistance limit w = .ok hits →
      ∃ vector, w.embedImage image (if mimeType = "" then "image/jpeg" else mimeType) = some vector ∧
        BestMatches limit.toNat (imageCandidates similarity maxDistance businessID vector w) hits ∧
        ∀ h, h ∈ imageCandidates similarity maxDistance businessID vector w ↔ ∃ i ∈ w.images.rows, ∃ p ∈ w.products.rows,
          p.id = i.productID ∧ p.businessID = businessID ∧ p.isAvailable = true ∧ ∃ e, i.embedding = some e ∧
            similarity.distance e vector < maxDistance ∧
            h = ⟨p.id, p.name, some (numericText p.price), some i.url, similarity.distance e vector⟩) ∧
    (∀ vector, w.embedImage image "image/jpeg" = some vector →
      findSimilarProductsByImage similarity businessID image "image/jpeg" similarity.imageMaxDistance imageMatchLimit w =
        .ok (imageMatches similarity businessID vector w)) := by
  constructor
  · intro hits found
    unfold findSimilarProductsByImage at found
    cases answer : w.embedImage image (if mimeType = "" then "image/jpeg" else mimeType) with
    | none =>
      rw [answer] at found
      cases found
    | some vector =>
      rw [answer] at found
      simp only at found
      split at found
      · cases found
      · obtain rfl := Except.ok.inj found
        exact ⟨vector, rfl, similarProducts_best similarity maxDistance limit.toNat businessID vector w, fun h => mem_imageCandidates similarity⟩
  · intro vector answer
    have named : (if "image/jpeg" = "" then "image/jpeg" else "image/jpeg") = "image/jpeg" := by decide
    unfold findSimilarProductsByImage
    rw [named, answer]
    rfl

end Matches

/-! ## The parts of a context -/

section Parts

variable {S D : Type} [LinearOrder D] (similarity : Similarity S D) (found : CatalogWorld S → Prop)

/-- The vector is the embedding of the turn's text. -/
def EmbedsText (userText : String) (vector : List S) : Prop :=
  ∃ w, found w ∧ vector = w.embedText (if userText = "" then "hello" else userText)

/-- The section of products. -/
inductive CatalogPart (businessID userText currency : String) : List ProductRow → List Char → Prop where
  /-- All of them, in order. -/
  | full {w : CatalogWorld S} {products : List ProductRow} (here : found w)
      (all : products.Perm ((availableProducts businessID w).map (productRow w))) (ordered : products.Pairwise (byName similarity.collation)) :
      CatalogPart businessID userText currency products (formatFullCatalog products currency)
  /-- The nearest, and how many there were a moment before. -/
  | semantic {before w : CatalogWorld S} {vector : List S} {ranked : List (Ranked ProductRow D)} (counted : found before) (here : found w)
      (embeds : EmbedsText found userText vector)
      (top : TopOf nearer semanticLimit (semanticCandidates similarity businessID vector w) ranked) :
      CatalogPart businessID userText currency (ranked.map Prod.snd)
        (formatSemanticCatalog (ranked.map Prod.snd) (countAvailableProducts businessID before) currency)

/-- The section of questions. -/
def FaqPart (businessID userText : String) (text : List Char) : Prop :=
  ∃ (w : CatalogWorld S) (vector : List S) (ranked : List (Ranked FAQHit (WithTop D))), found w ∧ EmbedsText found userText vector ∧
    TopOf nearer faqLimit (faqCandidates similarity businessID vector w) ranked ∧ text = formatFaqs (ranked.map Prod.snd)

/-- The section of locations. -/
def PickupPart (businessID : String) (text : List Char) : Prop :=
  ∃ (w : CatalogWorld S) (locations : List Db.Location), found w ∧
    locations.Perm (w.locations.rows.filter fun l => decide (l.businessID = businessID) && l.offersPickup && l.isActive) ∧
    text = formatLocations locations

/-- The section of a photo. -/
inductive ImagePart (businessID currency : String) : Option (List UInt8) → List (ImageHit D) → List Char → Prop where
  | noPhoto : ImagePart businessID currency none [] []
  /-- The service answered without a vector. -/
  | nothing {image : List UInt8} {w : CatalogWorld S} (asked : found w) (answer : w.embedImage image "image/jpeg" = none) :
      ImagePart businessID currency (some image) [] []
  | unavailable {image : List UInt8} : ImagePart businessID currency (some image) [] imageMatchUnavailable
  /-- The photo itself was embedded. -/
  | matched {image : List UInt8} {before w : CatalogWorld S} {vector : List S} {hits : List (ImageHit D)} (asked : found before)
      (answer : before.embedImage image "image/jpeg" = some vector) (here : found w)
      (best : BestMatches imageMatchLimit (imageCandidates similarity similarity.imageMaxDistance businessID vector w) hits) :
      ImagePart businessID currency (some image) hits (formatImageMatches similarity.percent hits currency)

/-- What a turn is told, with the products and the matches it lists: a part that could not be read ends it with a notice. -/
inductive ContextText (businessID userText currency : String) (photo : Option (List UInt8)) :
    List ProductRow → List (ImageHit D) → List Char → Prop where
  | noCatalog : ContextText businessID userText currency photo [] [] retrievalFailed
  | noFaqs {products catalog} (offers : CatalogPart similarity found businessID userText currency products catalog) :
      ContextText businessID userText currency photo products [] (catalog ++ retrievalFailed)
  | noLocations {products catalog faqs} (offers : CatalogPart similarity found businessID userText currency products catalog)
      (questions : FaqPart similarity found businessID userText faqs) :
      ContextText businessID userText currency photo products [] (catalog ++ faqs ++ retrievalFailed)
  | complete {products hits catalog faqs locations image}
      (offers : CatalogPart similarity found businessID userText currency products catalog)
      (questions : FaqPart similarity found businessID userText faqs) (shops : PickupPart found businessID locations)
      (matched : ImagePart similarity found businessID currency photo hits image) :
      ContextText businessID userText currency photo products hits (catalog ++ faqs ++ locations ++ image)

/-- A statement about the business, the text and the photo of the turn. -/
def AboutTurn (businessID userText : String) (photo : Option (List UInt8)) : CatalogStmt S → Prop
  | .count b | .fullCatalog b | .semanticSearch b _ | .faqs b _ | .pickupLocations b | .imageMatches b _ => b = businessID
  | .embedText value => value = if userText = "" then "hello" else userText
  | .embedImage image mimeType => photo = some image ∧ mimeType = "image/jpeg"

end Parts

/-! ## The photo -/

/-- The separator is found where its first character is. -/
theorem cut_append {mark : Char} {more front : List Char} (text : List Char) (free : mark ∉ front) :
    cut (mark :: more) (front ++ ((mark :: more) ++ text)) = some (front, text) := by
  induction front with
  | nil => simp [cut]
  | cons c rest ih =>
    have other : mark ≠ c := fun same => free (same ▸ List.mem_cons_self)
    have later := ih fun mem => free (List.mem_cons_of_mem c mem)
    have here : (mark :: more).isPrefixOf (c :: (rest ++ ((mark :: more) ++ text))) = false := by
      simp [List.isPrefixOf, other]
    rw [List.cons_append, cut, here, later]
    rfl

/-- The photo comes back. -/
theorem decodeDataURL_imageDataURL (buffer : List UInt8) : decodeDataURL (imageDataURL buffer) = some (buffer, "image/jpeg".toList) := by
  have literal : "data:image/jpeg;base64,".toList = "data:".toList ++ ("image/jpeg".toList ++ base64Mark) := by decide
  have url : imageDataURL buffer = "data:".toList ++ ("image/jpeg".toList ++ (base64Mark ++ Base64.encode buffer)) := by
    unfold imageDataURL
    rw [literal, List.append_assoc, List.append_assoc]
  have isPrefix : "data:".toList.isPrefixOf (imageDataURL buffer) = true := by
    rw [url]
    exact List.isPrefixOf_iff_prefix.2 (List.prefix_append _ _)
  have mark : base64Mark = ';' :: "base64,".toList := by decide
  have split : cut base64Mark ("image/jpeg".toList ++ (base64Mark ++ Base64.encode buffer)) =
      some ("image/jpeg".toList, Base64.encode buffer) := by
    rw [mark]
    exact cut_append _ (by decide)
  unfold decodeDataURL
  rw [if_pos isPrefix, url, List.drop_left, split]
  simp only [Base64.decode_encode, Option.map_some]

/-! ## The handlers -/

section Handlers

variable {S D : Type} [LinearOrder D] {similarity : Similarity S D} {found : CatalogWorld S → Prop}
  {businessID userText currency : String} {photo : Option (List UInt8)}

/-- What a handler issues and ends in, whatever the stores hold. -/
abbrev Tells {α : Type} (similarity : Similarity S D) (found : CatalogWorld S → Prop) (businessID userText : String)
    (photo : Option (List UInt8)) (Q : α → Prop) (p : CatalogHandler S D α) : Prop :=
  p.Finds (catalogExec similarity) found (AboutTurn businessID userText photo) fun r => ∀ a, r = .ok a → Q a

/-- One statement, and what is made of its answer. -/
theorem tells_call {o : CatalogStmt S} {β : Type} {Q : β → Prop} {f : CatalogStmt.Reply D o → CatalogHandler S D β}
    (may : AboutTurn businessID userText photo o)
    (rest : ∀ w a, found w → (catalogExec similarity o w).1 = .ok a → Tells similarity found businessID userText photo Q (f a)) :
    Tells similarity found businessID userText photo Q ((call (I := catalogStore S D) o).bind f) := by
  refine Finds.call_bind may (fun a absurd => by cases absurd) (fun w e _ answer a absurd => by cases absurd) fun w a here answer => ?_
  exact rest w a here answer

theorem tells_ret {α : Type} {Q : α → Prop} {a : α} (h : Q a) :
    Tells similarity found businessID userText photo Q (.ret (.ok a) : CatalogHandler S D α) := by
  intro b same
  obtain rfl := Except.ok.inj same
  exact h

theorem tells_fullCatalog : Tells similarity found businessID userText photo
    (fun text => ∃ products, CatalogPart similarity found businessID userText currency products text)
    (getFullCatalog businessID currency) := by
  refine tells_call (o := .fullCatalog businessID) rfl fun w products here answer => tells_ret ?_
  obtain rfl := Except.ok.inj answer
  exact ⟨_, .full here (orderBy_perm (byName similarity.collation) _) (orderBy_pairwise (byName similarity.collation) _)⟩

theorem tells_semanticCatalog : Tells similarity found businessID userText photo
    (fun text => ∃ products, CatalogPart similarity found businessID userText currency products text)
    (getSemanticCatalog businessID userText currency) := by
  refine tells_call (o := .count businessID) rfl fun before total counted answer => ?_
  obtain rfl := Except.ok.inj answer
  refine tells_call (o := .embedText _) rfl fun w vector asked answer => ?_
  have embeds : EmbedsText found userText vector := ⟨w, asked, (Except.ok.inj answer).symm⟩
  refine tells_call (o := .semanticSearch businessID vector) rfl fun w products here answer => tells_ret ?_
  obtain rfl := Except.ok.inj answer
  exact ⟨_, .semantic counted here embeds (topOf_take nearer semanticLimit _)⟩

theorem tells_faqs : Tells similarity found businessID userText photo (FaqPart similarity found businessID userText) (getFaqs businessID userText) := by
  refine tells_call (o := .embedText _) rfl fun w vector asked answer => ?_
  have embeds : EmbedsText found userText vector := ⟨w, asked, (Except.ok.inj answer).symm⟩
  refine tells_call (o := .faqs businessID vector) rfl fun w faqs here answer => tells_ret ?_
  obtain rfl := Except.ok.inj answer
  exact ⟨w, vector, _, here, embeds, topOf_take nearer faqLimit _, rfl⟩

theorem tells_locations : Tells similarity found businessID userText photo (PickupPart found businessID) (getPickupLocationsContext businessID) := by
  refine tells_call (o := .pickupLocations businessID) rfl fun w locations here answer => tells_ret ?_
  obtain rfl := Except.ok.inj answer
  exact ⟨w, _, here, List.perm_insertionSort _ _, rfl⟩

/-- What the photo of a turn is embedded as: not at all, in vain, or as the service answers to its bytes. -/
def Embedded (found : CatalogWorld S → Prop) (photo : Option (List UInt8)) (vector : Option (List S)) : Prop :=
  match photo with
  | none => vector = none
  | some image => vector = some [] ∨ ∃ w, found w ∧ w.embedImage image "image/jpeg" = vector

/-- It always returns, and with what the property says. -/
abbrev Returns {α : Type} (similarity : Similarity S D) (found : CatalogWorld S → Prop) (businessID userText : String)
    (photo : Option (List UInt8)) (Q : α → Prop) (p : CatalogHandler S D α) : Prop :=
  p.Finds (catalogExec similarity) found (AboutTurn businessID userText photo) fun r => ∃ a, r = .ok a ∧ Q a

theorem returns_ret {α : Type} {Q : α → Prop} {a : α} (h : Q a) :
    Returns similarity found businessID userText photo Q (.ret (.ok a) : CatalogHandler S D α) := ⟨a, rfl, h⟩

/-- What follows a handler that returns. -/
theorem returns_bind {α β : Type} {Q : α → Prop} {Q' : β → Prop} {p : CatalogHandler S D α} {f : α → CatalogHandler S D β}
    (first : Returns similarity found businessID userText photo Q p)
    (rest : ∀ a, Q a → Returns similarity found businessID userText photo Q' (f a)) :
    Returns similarity found businessID userText photo Q' (p.bind f) := by
  refine Finds.bind (first.mono fun r known => ?_)
  obtain ⟨a, rfl, known⟩ := known
  exact rest a known

/-- What follows an attempt: either way the handler returns. -/
theorem returns_attempt {α β : Type} {Q : α → Prop} {Q' : β → Prop} {p : CatalogHandler S D α}
    {f : Except CatalogErr α → CatalogHandler S D β} (first : Tells similarity found businessID userText photo Q p)
    (failed : ∀ e, Returns similarity found businessID userText photo Q' (f (.error e)))
    (rest : ∀ a, Q a → Returns similarity found businessID userText photo Q' (f (.ok a))) :
    Returns similarity found businessID userText photo Q' (p.attempt.bind f) := by
  refine Finds.attempt_bind first fun r known => ?_
  cases r with
  | error e => exact failed e
  | ok a => exact rest a (known a rfl)

theorem tells_of_call {o : CatalogStmt S} (may : AboutTurn businessID userText photo o) :
    Tells similarity found businessID userText photo (fun a => ∃ w, found w ∧ (catalogExec similarity o w).1 = .ok a) (call (I := catalogStore S D) o) :=
  ⟨may, fun w here a answer => ⟨w, here, answer⟩, fun a absurd => by cases absurd⟩

/-- The photo is embedded as it came in. -/
theorem returns_embedding (embedder : Bool) : Returns similarity found businessID userText photo (Embedded found photo)
    (customerImageEmbedding embedder ((photo.map imageDataURL).getD []) : CatalogHandler S D (Option (List S))) := by
  cases photo with
  | none => exact returns_ret rfl
  | some image =>
    have shape : imageDataURL image = 'd' :: ("ata:image/jpeg;base64,".toList ++ Base64.encode image) := by
      have literal : "data:image/jpeg;base64,".toList = 'd' :: "ata:image/jpeg;base64,".toList := by decide
      unfold imageDataURL
      rw [literal, List.cons_append]
    have decoded := decodeDataURL_imageDataURL image
    rw [shape] at decoded
    rw [Option.map_some, Option.getD_some, shape]
    simp only [customerImageEmbedding, decoded]
    cases embedder with
    | false => exact returns_ret (.inl rfl)
    | true =>
      refine returns_attempt (tells_of_call ⟨rfl, by decide⟩) (fun e => returns_ret (.inl rfl)) fun vector answer => returns_ret (.inr ?_)
      obtain ⟨w, asked, answer⟩ := answer
      refine ⟨w, asked, ?_⟩
      have mime : String.ofList "image/jpeg".toList = "image/jpeg" := by decide
      rw [mime] at answer
      exact Except.ok.inj answer

theorem returns_imageContext {image : List UInt8} {vector : List S} (embedded : Embedded found (some image) (some vector)) :
    Returns similarity found businessID userText (some image)
      (fun text => ∃ hits, ImagePart similarity found businessID currency (some image) hits text)
      (getImageContext similarity.percent businessID vector currency) := by
  cases vector with
  | nil => exact returns_ret ⟨[], .unavailable⟩
  | cons x rest =>
    obtain ⟨before, asked, answer⟩ : ∃ w, found w ∧ w.embedImage image "image/jpeg" = some (x :: rest) := by
      rcases embedded with absurd | embedded
      · cases absurd
      · exact embedded
    refine returns_attempt (tells_of_call rfl) (fun e => returns_ret ⟨[], .unavailable⟩) fun hits listed => returns_ret ?_
    obtain ⟨w, here, listed⟩ := listed
    obtain rfl := Except.ok.inj listed
    exact ⟨_, .matched asked answer here (similarProducts_best similarity _ imageMatchLimit businessID (x :: rest) w)⟩

theorem returns_context {vector : Option (List S)} (embedded : Embedded found photo vector) :
    Returns similarity found businessID userText photo
      (fun text => ∃ products hits, ContextText similarity found businessID userText currency photo products hits text)
      (contextForBusiness similarity.percent ⟨businessID, userText, currency, vector⟩) := by
  refine returns_attempt (tells_of_call rfl) (fun e => returns_ret ⟨[], [], .noCatalog⟩) fun count _ => ?_
  have catalog : Tells similarity found businessID userText photo
      (fun text => ∃ products, CatalogPart similarity found businessID userText currency products text)
      (if count ≤ fullCatalogThreshold then getFullCatalog businessID currency
        else getSemanticCatalog businessID userText currency : CatalogHandler S D (List Char)) := by
    split
    · exact tells_fullCatalog
    · exact tells_semanticCatalog
  refine returns_attempt catalog (fun e => returns_ret ⟨[], [], .noCatalog⟩) fun catalog offers => ?_
  obtain ⟨products, offers⟩ := offers
  refine returns_attempt tells_faqs (fun e => returns_ret ⟨products, [], .noFaqs offers⟩) fun faqs questions => ?_
  refine returns_attempt tells_locations (fun e => returns_ret ⟨products, [], .noLocations offers questions⟩) fun locations shops => ?_
  cases vector with
  | none =>
    have nothing : ImagePart similarity found businessID currency photo [] [] := by
      cases photo with
      | none => exact .noPhoto
      | some image =>
        rcases embedded with absurd | ⟨w, asked, answer⟩
        · cases absurd
        · exact .nothing asked answer
    have text := ContextText.complete offers questions shops nothing
    rw [List.append_nil] at text
    exact returns_ret ⟨products, [], text⟩
  | some vector =>
    cases photo with
    | none => cases embedded
    | some image =>
      refine returns_bind (returns_imageContext embedded) fun text part => returns_ret ?_
      obtain ⟨hits, part⟩ := part
      exact ⟨products, hits, .complete offers questions shops part⟩

/-- The whole of it. -/
theorem returns_adapter (embedder : Bool) : Returns similarity found businessID userText photo
    (fun text => ∃ products hits, ContextText similarity found businessID userText currency photo products hits text)
    (catalogAdapter similarity.percent embedder businessID userText currency ((photo.map imageDataURL).getD [])) :=
  returns_bind (returns_embedding embedder) fun _ embedded => returns_context embedded

end Handlers

/-- For every business, text and photo of a turn, whatever the stores hold that its reads find, however they change in between and
whichever reads fail: the context is a text, made of the parts that could be read, each from one of the stores that were found; and
nothing is read that is not about the business, and nothing embedded but the text and the photo as it came in. -/
theorem context_in_every_interleaving {S D : Type} [LinearOrder D] (similarity : Similarity S D) (found : CatalogWorld S → Prop)
    (embedder : Bool) (businessID userText currency : String) (photo : Option (List UInt8)) :
    (∀ r, MayEnd (catalogExec similarity) found
      (catalogAdapter similarity.percent embedder businessID userText currency ((photo.map imageDataURL).getD [])) r →
      ∃ text, r = .ok text ∧ ∃ products hits, ContextText similarity found businessID userText currency photo products hits text) ∧
    ∀ op, Issued (catalogExec similarity) found
      (catalogAdapter similarity.percent embedder businessID userText currency ((photo.map imageDataURL).getD [])) op →
      AboutTurn businessID userText photo op := by
  exact ⟨fun r ends => (returns_adapter embedder).ends ends, fun op issued => (returns_adapter embedder).issued issued⟩

end NovoApex.Orchestrator
