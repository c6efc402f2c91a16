import NovoApex.Db.Locations
import NovoApex.Lib.Aggregates
import NovoApex.Lib.Base64
import NovoApex.Lib.Program
import NovoApex.Orchestrator.Catalog

/-!
# Catalog retrieval

What a turn tells the LLM about a business: `internal/orchestrator/retrieval.go`,
`catalog.go` from `countAvailableProducts` on, and the data URL that
`orchProcessMediaPayload` makes of a photo. A vector is the list of its components, over
any type; the distance of two vectors, its bounds and the percentage it is rendered as
are those of a `Similarity`. Every read and every call of an embedding service is a
statement of its own, which may fail, and others write in between.

The columns the context does not show are left out.
-/

namespace NovoApex.Orchestrator
set_option autoImplicit false
open Lib Aggregates Program

/-- The order in which the database sorts texts: that of its collation. -/
structure Collation where
  le : String → String → Prop
  decides : DecidableRel le
  total : ∀ a b, le a b ∨ le b a
  trans : ∀ a b c, le a b → le b c → le a c

/-- What the deployment fixes: `<=>` and what the queries compare it with, and the collation. -/
structure Similarity (S D : Type) where
  collation : Collation
  distance : List S → List S → D
  /-- `semanticMaxDistance`. -/
  semanticMaxDistance : D
  /-- `1 - ImageMatchThreshold`. -/
  imageMaxDistance : D
  /-- `math.Round((1 - distance) * 100)`. -/
  percent : D → Int

/-- A row of `products`. -/
structure CatalogProduct (S : Type) where
  id : String
  businessID : String
  name : String
  price : Money
  stock : Int
  description : Option String
  isAvailable : Bool
  embedding : Option (List S)

/-- A row of `product_images`. -/
structure CatalogImage (S : Type) where
  id : String
  productID : String
  url : String
  embedding : Option (List S)

/-- A row of `faqs`. -/
structure Faq (S : Type) where
  id : String
  businessID : String
  question : String
  answer : String
  embedding : Option (List S)

/-- What the reads of a context find, and what the embedding services answer. -/
structure CatalogWorld (S : Type) where
  products : Table (@CatalogProduct.id S)
  images : Table (@CatalogImage.id S)
  faqs : Table (@Faq.id S)
  locations : Table Db.Location.id
  embedText : String → List S
  /-- `none` is a nil slice. -/
  embedImage : List UInt8 → String → Option (List S)

section Queries

variable {S D : Type} [LinearOrder D] (similarity : Similarity S D)

/-- `FAQHit`. -/
structure FAQHit where
  question : String
  answer : String
  deriving DecidableEq

/-- `ImageHit`; its similarity is kept as the distance. -/
structure ImageHit (D : Type) where
  id : String
  name : String
  price : Option String
  imageURL : Option String
  distance : D
  deriving DecidableEq

/-- `EXISTS(SELECT 1 FROM product_images pi WHERE pi.product_id = p.id)`. -/
def hasImage (w : CatalogWorld S) (productID : String) : Bool := w.images.rows.any fun i => decide (i.productID = productID)

/-- `productSelectColumns`. -/
def productRow (w : CatalogWorld S) (p : CatalogProduct S) : ProductRow :=
  ⟨p.id, p.name, some (numericText p.price), p.stock, p.description, hasImage w p.id⟩

/-- `business_id = $1 AND is_available = true`. -/
def availableProducts (businessID : String) (w : CatalogWorld S) : List (CatalogProduct S) :=
  w.products.rows.filter fun p => decide (p.businessID = businessID) && p.isAvailable

/-- `countAvailableProducts`. -/
def countAvailableProducts (businessID : String) (w : CatalogWorld S) : Nat := (availableProducts businessID w).length

/-- `ORDER BY name ASC`. -/
def byName (collation : Collation) (a b : ProductRow) : Prop := collation.le a.name b.name

instance (collation : Collation) (a b : ProductRow) : Decidable (byName collation a b) := collation.decides a.name b.name

/-- The query of `GetFullCatalog`. -/
def fullCatalog (collation : Collation) (businessID : String) (w : CatalogWorld S) : List ProductRow :=
  orderBy (byName collation) ((availableProducts businessID w).map (productRow w))

/-- A row and how far it is. -/
abbrev Ranked (R D : Type) : Type := D × R

def nearer {R : Type} (a b : Ranked R D) : Prop := a.1 ≤ b.1

instance {R : Type} (a b : Ranked R D) : Decidable (nearer a b) := inferInstanceAs (Decidable (a.1 ≤ b.1))

/-- The available products within the distance; a comparison with NULL does not hold. -/
def semanticCandidates (businessID : String) (vector : List S) (w : CatalogWorld S) : List (Ranked ProductRow D) :=
  (availableProducts businessID w).filterMap fun p =>
    (p.embedding.map (similarity.distance · vector)).bind fun d =>
      if d < similarity.semanticMaxDistance then some (d, productRow w p) else none

def semanticLimit : Nat := 5

/-- The query of `SemanticProductSearch`. -/
def semanticProductSearch (businessID : String) (vector : List S) (w : CatalogWorld S) : List ProductRow :=
  ((orderBy nearer (semanticCandidates similarity businessID vector w)).take semanticLimit).map Prod.snd

/-- The questions of a business; one without an embedding comes last. -/
def faqCandidates (businessID : String) (vector : List S) (w : CatalogWorld S) : List (Ranked FAQHit (WithTop D)) :=
  (w.faqs.rows.filter fun f => decide (f.businessID = businessID)).map fun f =>
    (f.embedding.map (similarity.distance · vector), ⟨f.question, f.answer⟩)

def faqLimit : Nat := 3

/-- The query of `SearchFaqs`. -/
def searchFaqs (businessID : String) (vector : List S) (w : CatalogWorld S) : List FAQHit :=
  ((orderBy nearer (faqCandidates similarity businessID vector w)).take faqLimit).map Prod.snd

/-- The images within the distance, of the available products. -/
def imageCandidates (maxDistance : D) (businessID : String) (vector : List S) (w : CatalogWorld S) : List (ImageHit D) :=
  w.images.rows.filterMap fun i =>
    (w.products.find? i.productID).bind fun p =>
      if p.businessID = businessID ∧ p.isAvailable = true then
        (i.embedding.map (similarity.distance · vector)).bind fun d =>
          if d < maxDistance then some ⟨p.id, p.name, some (numericText p.price), some i.url, d⟩ else none
      else none

/-- `ORDER BY distance`. -/
def byDistance (a b : ImageHit D) : Prop := a.distance ≤ b.distance

instance (a b : ImageHit D) : Decidable (byDistance a b) := inferInstanceAs (Decidable (a.distance ≤ b.distance))

/-- The query of `ImageMatches` and `FindSimilarProductsByImage`: `DISTINCT ON (p.id)` within, the limit outside. -/
def similarProducts (maxDistance : D) (limit : Nat) (businessID : String) (vector : List S) (w : CatalogWorld S) : List (ImageHit D) :=
  (orderBy byDistance (distinctOn byDistance ImageHit.id (imageCandidates similarity maxDistance businessID vector w))).take limit

def imageMatchLimit : Nat := 3

/-- `ImageMatches`. -/
def imageMatches (businessID : String) (vector : List S) (w : CatalogWorld S) : List (ImageHit D) :=
  similarProducts similarity similarity.imageMaxDistance imageMatchLimit businessID vector w

/-- The query of `GetPickupLocationsContext`. -/
def pickupLocations (businessID : String) (w : CatalogWorld S) : List Db.Location :=
  (w.locations.rows.filter fun l => decide (l.businessID = businessID) && l.offersPickup && l.isActive).insertionSort
    fun a b => a.name ≤ b.name

end Queries

/-! ## Statements -/

/-- The reads of a context, and the calls of the embedding services. -/
inductive CatalogStmt (S : Type) where
  | count (businessID : String)
  | fullCatalog (businessID : String)
  | embedText (value : String)
  | semanticSearch (businessID : String) (vector : List S)
  | faqs (businessID : String) (vector : List S)
  | pickupLocations (businessID : String)
  | embedImage (image : List UInt8) (mimeType : String)
  | imageMatches (businessID : String) (vector : List S)

/-- What a statement answers. -/
@[reducible] def CatalogStmt.Reply {S : Type} (D : Type) : CatalogStmt S → Type
  | count _ => Nat
  | fullCatalog _ => List ProductRow
  | embedText _ => List S
  | semanticSearch .. => List ProductRow
  | faqs .. => List FAQHit
  | pickupLocations _ => List Db.Location
  | embedImage .. => Option (List S)
  | imageMatches .. => List (ImageHit D)

/-- An error of the database, of a service or of a scan; nobody looks into it. -/
inductive CatalogErr where
  | failed
  deriving DecidableEq

abbrev catalogStore (S D : Type) : Interface := ⟨CatalogStmt S, CatalogStmt.Reply D, CatalogErr, .failed⟩

/-- A handler over the catalog. -/
abbrev CatalogHandler (S D α : Type) : Type := Program (catalogStore S D) α

/-- Execute a statement. -/
def catalogExec {S D : Type} [LinearOrder D] (similarity : Similarity S D) : (catalogStore S D).Exec (CatalogWorld S)
  | .count businessID, w => (.ok (countAvailableProducts businessID w), w)
  | .fullCatalog businessID, w => (.ok (fullCatalog similarity.collation businessID w), w)
  | .embedText value, w => (.ok (w.embedText value), w)
  | .semanticSearch businessID vector, w => (.ok (semanticProductSearch similarity businessID vector w), w)
  | .faqs businessID vector, w => (.ok (searchFaqs similarity businessID vector w), w)
  | .pickupLocations businessID, w => (.ok (pickupLocations businessID w), w)
  | .embedImage image mimeType, w => (.ok (w.embedImage image mimeType), w)
  | .imageMatches businessID vector, w => (.ok (imageMatches similarity businessID vector w), w)

/-- `FindSimilarProductsByImage`: the service names a photo without a type a JPEG, a search without a vector and one with a limit
below zero fail. -/
def findSimilarProductsByImage {S D : Type} [LinearOrder D] (similarity : Similarity S D) (businessID : String) (image : List UInt8)
    (mimeType : String) (maxDistance : D) (limit : Int) (w : CatalogWorld S) : Except CatalogErr (List (ImageHit D)) :=
  match w.embedImage image (if mimeType = "" then "image/jpeg" else mimeType) with
  | none => .error .failed
  | some vector => if limit < 0 then .error .failed else .ok (similarProducts similarity maxDistance limit.toNat businessID vector w)

/-! ## Sections -/

/-- A section of products: a header, and a line for each. -/
def productSection (header : List Char) (products : List ProductRow) (currency : String) : List Char :=
  header ++ joinLines (products.map fun p => formatProduct p currency) ++ ['\n']

/-- What `GetFullCatalog` makes of the products. -/
def formatFullCatalog (products : List ProductRow) (currency : String) : List Char :=
  if products = [] then "=== CATALOG (0 products) ===\nNo products available.\n".toList
  else productSection ("=== CATALOG (".toList ++ (toString products.length).toList ++ " products — showing all) ===\n".toList) products currency

/-- What `GetSemanticCatalog` makes of the products. -/
def formatSemanticCatalog (products : List ProductRow) (totalCount : Nat) (currency : String) : List Char :=
  if products = [] then "=== CATALOG ===\nNo products matched your query. Try describing what you're looking for.\n".toList
  else productSection ("=== CATALOG (showing ".toList ++ (toString products.length).toList ++ " most relevant of ".toList ++
    (toString totalCount).toList ++ "+ products) ===\n".toList) products currency

/-- `FormatFaqs`. -/
def formatFaqs (faqs : List FAQHit) : List Char :=
  let result := "\n=== POLICIES & FAQs ===\n".toList
  if faqs = [] then result ++ "No policies found.\n".toList
  else result ++ (faqs.map fun f => "Q: ".toList ++ f.question.toList ++ "\nA: ".toList ++ f.answer.toList ++ "\n\n".toList).flatten

/-- The landmark in `FormatLocation`. -/
def formatLandmark (l : Db.Location) : List Char :=
  match l.landmark with
  | some text => if text = "" then [] else " (near ".toList ++ text.toList ++ [')']
  | none => []

/-- `FormatLocation`. -/
def formatLocation (l : Db.Location) : List Char :=
  "[LOC: ".toList ++ shortProductID l.id ++ "] ".toList ++ l.name.toList ++ " — ".toList ++ l.address.toList ++ formatLandmark l ++
    ", open ".toList ++ l.openingTime.toList ++ ['–'] ++ l.closingTime.toList

/-- What `GetPickupLocationsContext` makes of the locations. -/
def formatLocations (locations : List Db.Location) : List Char :=
  if locations = [] then [] else "\n=== PICKUP LOCATIONS ===\n".toList ++ joinLines (locations.map formatLocation) ++ ['\n']

def imageMatchUnavailable : List Char :=
  "\n=== IMAGE MATCH ===\nImage matching is unavailable. Rely on the LLM's vision capability to analyze the image.\n".toList

/-- One line of `FormatImageMatches`. -/
def formatImageHit {D : Type} (percent : D → Int) (currency : String) (m : ImageHit D) : List Char :=
  "[ID: ".toList ++ shortProductID m.id ++ "] ".toList ++ m.name.toList ++ " — ".toList ++ formatPrice m.price currency ++
    " [HAS_IMAGE] (".toList ++ (toString (percent m.distance)).toList ++ "% visual match)\n".toList

/-- `FormatImageMatches`. -/
def formatImageMatches {D : Type} (percent : D → Int) (hits : List (ImageHit D)) (currency : String) : List Char :=
  if hits.isEmpty then "\n=== IMAGE MATCH ===\nNo products visually matched the customer's image.\n".toList
  else "\n=== IMAGE MATCH ===\nThe customer sent an image. The following products visually match:\n".toList ++
    (hits.map (formatImageHit percent currency)).flatten

/-! ## The context -/

section Context

variable {S D : Type} (percent : D → Int)

/-- `embedUserMessage`. -/
def embedUserMessage (userText : String) : CatalogHandler S D (List S) :=
  call (I := catalogStore S D) (.embedText (if userText = "" then "hello" else userText))

/-- `GetFullCatalog`. -/
def getFullCatalog (businessID currency : String) : CatalogHandler S D (List Char) := do
  let products ← call (I := catalogStore S D) (.fullCatalog businessID)
  return formatFullCatalog products currency

/-- `GetSemanticCatalog`. -/
def getSemanticCatalog (businessID userText currency : String) : CatalogHandler S D (List Char) := do
  let totalCount ← call (I := catalogStore S D) (.count businessID)
  let vector ← embedUserMessage userText
  let products ← call (I := catalogStore S D) (.semanticSearch businessID vector)
  return formatSemanticCatalog products totalCount currency

/-- `SearchFaqs`, formatted. -/
def getFaqs (businessID userText : String) : CatalogHandler S D (List Char) := do
  let vector ← embedUserMessage userText
  let faqs ← call (I := catalogStore S D) (.faqs businessID vector)
  return formatFaqs faqs

/-- `GetPickupLocationsContext`. -/
def getPickupLocationsContext (businessID : String) : CatalogHandler S D (List Char) := do
  let locations ← call (I := catalogStore S D) (.pickupLocations businessID)
  return formatLocations locations

/-- `GetImageContext`. -/
def getImageContext (businessID : String) (imageEmbedding : List S) (currency : String) : CatalogHandler S D (List Char) :=
  match imageEmbedding with
  | [] => return imageMatchUnavailable
  | s :: rest => do
    match ← (call (I := catalogStore S D) (.imageMatches businessID (s :: rest))).attempt with
    | .ok hits => return formatImageMatches percent hits currency
    | .error _ => return imageMatchUnavailable

/-- `ContextArgs`. -/
structure ContextArgs (S : Type) where
  businessID : String
  userText : String
  currency : String
  /-- `none` is a nil slice: no image this turn. -/
  customerImageEmbedding : Option (List S)

def retrievalFailed : List Char := "Catalog retrieval failed.\n".toList

/-- `FullCatalogThreshold`. -/
def fullCatalogThreshold : Nat := 30

/-- `ContextForBusiness`. -/
def contextForBusiness (args : ContextArgs S) : CatalogHandler S D (List Char) := do
  match ← (call (I := catalogStore S D) (.count args.businessID)).attempt with
  | .error _ => return retrievalFailed
  | .ok count =>
    match ← (if count ≤ fullCatalogThreshold then getFullCatalog args.businessID args.currency
        else getSemanticCatalog args.businessID args.userText args.currency : CatalogHandler S D (List Char)).attempt with
    | .error _ => return retrievalFailed
    | .ok catalog =>
      match ← (getFaqs args.businessID args.userText : CatalogHandler S D (List Char)).attempt with
      | .error _ => return catalog ++ retrievalFailed
      | .ok faqs =>
        match ← (getPickupLocationsContext args.businessID : CatalogHandler S D (List Char)).attempt with
        | .error _ => return catalog ++ faqs ++ retrievalFailed
        | .ok locations =>
          match args.customerImageEmbedding with
          | none => return catalog ++ faqs ++ locations
          | some vector =>
            let image ← getImageContext percent args.businessID vector args.currency
            return catalog ++ faqs ++ locations ++ image

/-! ## The customer's photo -/

/-- `strings.Cut`: the first occurrence of the separator. -/
def cut (sep : List Char) : List Char → Option (List Char × List Char)
  | [] => if sep = [] then some ([], []) else none
  | c :: rest =>
    if sep.isPrefixOf (c :: rest) then some ([], (c :: rest).drop sep.length)
    else (cut sep rest).map fun parts => (c :: parts.1, parts.2)

def base64Mark : List Char := ";base64,".toList

/-- `decodeDataURL`. -/
def decodeDataURL (dataURL : List Char) : Option (List UInt8 × List Char) :=
  if "data:".toList.isPrefixOf dataURL then
    match cut base64Mark (dataURL.drop "data:".toList.length) with
    | none => none
    | some (head, payload) => (Base64.decode payload).map fun raw => (raw, head)
  else none

/-- The `imageURL` of `orchProcessMediaPayload`. -/
def imageDataURL (buffer : List UInt8) : List Char := "data:image/jpeg;base64,".toList ++ Base64.encode buffer

/-- The `CustomerImageEmbedding` of `CatalogAdapter`; without an embedder every photo is one that could not be embedded. -/
def customerImageEmbedding (embedder : Bool) : List Char → CatalogHandler S D (Option (List S))
  | [] => pure none
  | c :: rest =>
    match decodeDataURL (c :: rest), embedder with
    | some (image, mime), true => do
      match ← (call (I := catalogStore S D) (.embedImage image (String.ofList mime))).attempt with
      | .ok vector => pure vector
      | .error _ => pure (some [])
    | _, _ => pure (some [])

/-- `CatalogAdapter`. -/
def catalogAdapter (embedder : Bool) (businessID userMessage currency : String) (latestImageDataURL : List Char) :
    CatalogHandler S D (List Char) := do
  let vector ← customerImageEmbedding embedder latestImageDataURL
  contextForBusiness percent ⟨businessID, userMessage, currency, vector⟩

end Context

end NovoApex.Orchestrator
