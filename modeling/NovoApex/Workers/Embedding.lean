import NovoApex.Lib.Aggregates
import NovoApex.Lib.Base64
import NovoApex.Lib.Refresh
import NovoApex.Vendors.Requests
import NovoApex.Workers.Orchestrator

/-!
# Embeddings

`internal/workers/embedding.go`, and who asks for it: the products endpoints publish a
task for every product they write and every image they insert
(`internal/handlers/products_write.go`, `images.go`, `publishers.go`). A worker reads the
row, has a service embed its document or the bytes behind its URL, and writes the vector,
in statements of their own.

Of a product there is what its document is made of, and of an image what is embedded; the
rest of the endpoints is in `Vendors.Requests`. A vector is the list of its components,
over any type. The queue keeps a task until it is finished or archived; a worker that
crashes is one whose statements fail until the queue takes the task back. How far a task
has come is history that no statement reads, and so are the documents there have been, the
ids that were drawn, what was downloaded, and the tasks that are still to be published.
-/

namespace NovoApex.Workers
set_option autoImplicit false
open Lib Program

/-- What a task embeds. -/
inductive EmbedTask where
  | product (id : String)
  | image (id : String)
  deriving DecidableEq

def taskEmbedProduct : String := "embedding:embed-product"

def taskEmbedProductImage : String := "embedding:embed-product-image"

/-- `PublishProductEmbed` and `PublishImageEmbed`: the type and the id in the payload. -/
def EmbedTask.message : EmbedTask → String × String
  | product id => (taskEmbedProduct, id)
  | image id => (taskEmbedProductImage, id)

/-- The columns of `products` that an embedding is made of. -/
structure EmbeddedProduct (S : Type) where
  id : String
  businessID : String
  name : String
  description : Option String
  embedding : Option (List S)

/-- The columns of `product_images`. -/
structure EmbeddedImage (S : Type) where
  id : String
  productID : String
  url : String
  position : Int
  embedding : Option (List S)

/-- The answer to a GET; an absent content type is the empty one. -/
structure Download where
  status : Nat
  contentType : String
  body : List UInt8
  deriving DecidableEq

/-- `Embedding` of OpenAI and `EmbedContent` of Gemini, of a part with a type and its data: what a service answers to one input is
the same every time. -/
structure EmbeddingServices (S : Type) where
  text : String → List S
  image : String → String → List S

/-! ## Documents -/

/-- The white space of `String.prototype.trim`. -/
def isTrimmed (c : Char) : Bool := if c = '\x85' then false else Turns.isSpace c || c == '\ufeff'

def jsTrim (s : List Char) : List Char := ((s.dropWhile isTrimmed).reverse.dropWhile isTrimmed).reverse

/-- `BuildSearchDocument`. -/
def buildSearchDocument (name : String) (description : Option String) : String :=
  match description with
  | none => name
  | some text =>
    let trimmed := jsTrim text.toList
    if trimmed = [] then name else ". ".intercalate [name, String.ofList trimmed]

def EmbeddedProduct.document {S : Type} (p : EmbeddedProduct S) : String := buildSearchDocument p.name p.description

def defaultImageMIME : String := "image/jpeg"

def maxImageBytes : Nat := 20 * 2 ^ 20

/-- The content type of a download, without its parameters. -/
def Download.mediaType (d : Download) : String :=
  if d.contentType = "" then defaultImageMIME
  else
    match d.contentType.toList.findIdx? (· == ';') with
    | some i => if i > 0 then String.ofList (Turns.trimSpace (d.contentType.toList.take i)) else d.contentType
    | none => d.contentType

/-- The part that `generateImageEmbedding` makes of an image. -/
def inlineData (image : List UInt8) (mimeType : String) : String × String :=
  (if mimeType = "" then defaultImageMIME else mimeType, String.ofList (Base64.encode image))

/-- What Gemini is asked to embed for a download. -/
def Download.part (d : Download) : String × String := inlineData (d.body.take maxImageBytes) d.mediaType

def embeddingDimensions : Nat := 768

/-! ## The store -/

/-- The parties: the requests of vendors, the runs of tasks by their numbers, and bulk runs. -/
inductive EmbedName where
  | vendor (n : Nat)
  | run (task : Nat)
  | bulk (n : Nat)
  deriving DecidableEq

structure EmbeddingWorld (S : Type) where
  products : Table (@EmbeddedProduct.id S)
  images : Table (@EmbeddedImage.id S)
  /-- The queue: the tasks by the order of their enqueueing. -/
  tasks : Nat → Stage EmbedTask String
  next : Nat
  /-- The tasks of rows that a request has written and has not published yet. -/
  owes : EmbedName → List EmbedTask
  /-- The ids of products with the documents they have had. -/
  documents : List (String × String)
  /-- The ids of images with their URLs. -/
  drawn : List (String × String)
  /-- The URLs that were downloaded with what came back. -/
  served : List (String × Download)

inductive EmbeddingStmt (S : Type) where
  | findProduct (businessID id : String)
  | createProduct (p : EmbeddedProduct S)
  | updateProduct (id : String) (sets : List Handlers.SetClause)
  | deleteProduct (businessID id : String)
  /-- The transaction of an upload: ids, URLs and positions. -/
  | insertImages (productID : String) (rows : List (String × String × Int))
  | findImage (productID imageID : String)
  | deleteImage (imageID : String)
  | publish (task : EmbedTask)
  | take (task : Nat)
  | finish (task : Nat)
  | retry (task : Nat)
  | archive (task : Nat)
  | fetchProduct (id : String)
  | embedText (document : String)
  | writeProduct (id : String) (vector : List S)
  | listProducts (businessID : String)
  | fetchImage (id : String)
  | imageEmbedded (id : String)
  | download (url : String) (answer : Download)
  | embedImage (part : String × String)
  | writeImage (id : String) (vector : List S)
  | listImages (productID : String)

/-- What a statement answers. -/
@[reducible] def EmbeddingStmt.Reply {S : Type} : EmbeddingStmt S → Type
  | findProduct .. => Bool
  | updateProduct .. => Bool
  | findImage .. => Bool
  | take _ => Option EmbedTask
  | fetchProduct _ => Option (String × String × Option String)
  | embedText _ => List S
  | listProducts _ => List String
  | fetchImage _ => Option (String × String)
  | imageEmbedded _ => Bool
  | download .. => Download
  | embedImage _ => List S
  | listImages _ => List String
  | _ => Unit

/-- The interface of the database, the queue and the services; an error is its text. -/
abbrev embeddingStore (S : Type) : Interface := ⟨EmbeddingStmt S, EmbeddingStmt.Reply, String, "unavailable"⟩

/-- A handler over it. -/
abbrev EmbeddingHandler (S α : Type) : Type := Program (embeddingStore S) α

section Exec

variable {S : Type}

/-- A column of an update, as far as it is kept here. -/
def EmbeddedProduct.set (p : EmbeddedProduct S) (clause : Handlers.SetClause) : EmbeddedProduct S :=
  match clause.val with
  | .text v =>
    if clause.col = "name" then { p with name := v }
    else if clause.col = "description" then { p with description := some v }
    else p
  | _ => p

def EmbeddedProduct.setAll (p : EmbeddedProduct S) (sets : List Handlers.SetClause) : EmbeddedProduct S := sets.foldl set p

theorem EmbeddedProduct.set_id (p : EmbeddedProduct S) (clause : Handlers.SetClause) : (p.set clause).id = p.id := by
  unfold set
  split
  · split
    · rfl
    · split <;> rfl
  · rfl

theorem EmbeddedProduct.setAll_id (sets : List Handlers.SetClause) (p : EmbeddedProduct S) : (p.setAll sets).id = p.id := by
  unfold setAll
  induction sets generalizing p with
  | nil => rfl
  | cons clause rest ih => exact (ih _).trans (p.set_id clause)

/-- Note how far a task has come. -/
def mark (i : EmbedName) (move : Stage EmbedTask String → Stage EmbedTask String) (tasks : Nat → Stage EmbedTask String) :
    Nat → Stage EmbedTask String :=
  match i with
  | .run k => Function.update tasks k (move (tasks k))
  | _ => tasks

/-- A task of the product has read its document. -/
def reads (id document : String) : Stage EmbedTask String → Stage EmbedTask String
  | .waiting task => if task = .product id then .read task document else .waiting task
  | stage => stage

/-- A task of the product has written. -/
def writes (id : String) : Stage EmbedTask String → Stage EmbedTask String
  | .read task document => if task = .product id then .done task else .read task document
  | stage => stage

/-- The queue takes a task back. -/
def waits : Stage EmbedTask String → Stage EmbedTask String
  | .read task _ => .waiting task
  | .done task => .waiting task
  | stage => stage

/-- An image that is inserted. -/
def newImage (productID : String) (row : String × String × Int) : EmbeddedImage S := ⟨row.1, productID, row.2.1, row.2.2, none⟩

/-- Rows one after the other; `none` when an id is taken. -/
def insertImageRows (images : Table (@EmbeddedImage.id S)) (rows : List (EmbeddedImage S)) : Option (Table (@EmbeddedImage.id S)) :=
  rows.foldlM Table.insert images

/-- A `vector(768)`. -/
def dimensionError (vector : List S) : Option String :=
  if vector.length = embeddingDimensions then none
  else some ("expected " ++ toString embeddingDimensions ++ " dimensions, not " ++ toString vector.length)

/-- The statement of `s4p_execUpdate`. -/
def setColumns (id : String) (sets : List Handlers.SetClause) (products : Table (@EmbeddedProduct.id S)) : Table (@EmbeddedProduct.id S) :=
  products.update (fun p => decide (p.id = id)) (fun p => p.setAll sets) (EmbeddedProduct.setAll_id sets)

/-- `UPDATE products SET embedding = $1::vector WHERE id = $2`. -/
def setProductVector (id : String) (vector : List S) (products : Table (@EmbeddedProduct.id S)) : Table (@EmbeddedProduct.id S) :=
  products.update (fun p => decide (p.id = id)) (fun p => { p with embedding := some vector }) fun _ => rfl

/-- `UPDATE product_images SET embedding = $1::vector WHERE id = $2`. -/
def setImageVector (id : String) (vector : List S) (images : Table (@EmbeddedImage.id S)) : Table (@EmbeddedImage.id S) :=
  images.update (fun i => decide (i.id = id)) (fun i => { i with embedding := some vector }) fun _ => rfl

/-- The order of `ORDER BY position ASC`. -/
def byPosition (a b : EmbeddedImage S) : Prop := a.position ≤ b.position

instance (a b : EmbeddedImage S) : Decidable (byPosition a b) := inferInstanceAs (Decidable (a.position ≤ b.position))

/-- Execute one statement. -/
def embeddingExec (services : EmbeddingServices S) : ((embeddingStore S).signed EmbedName).Exec (EmbeddingWorld S)
  | (_, .findProduct businessID id), w => (.ok ((w.products.find? id).any fun p => decide (p.businessID = businessID)), w)
  | (i, .createProduct p), w =>
    match w.products.insert { p with embedding := none } with
    | some products => (.ok (), { w with
        products := products
        documents := (p.id, p.document) :: w.documents
        owes := Function.update w.owes i [.product p.id] })
    | none => (.error "duplicate key value violates unique constraint \"products_pkey\"", w)
  | (i, .updateProduct id sets), w =>
    if sets = [] then (.error "syntax error at or near \",\"", w)
    else
      match w.products.find? id with
      | none => (.ok false, w)
      | some p => (.ok true, { w with
          products := setColumns id sets w.products
          documents := (id, (p.setAll sets).document) :: w.documents
          owes := Function.update w.owes i [.product id] })
  | (_, .deleteProduct businessID id), w =>
    if (w.products.find? id).any fun p => decide (p.businessID = businessID) then
      (.ok (), { w with
        products := w.products.delete fun p => decide (p.id = id)
        images := w.images.delete fun i => decide (i.productID = id) })
    else (.ok (), w)
  | (i, .insertImages productID rows), w =>
    if w.products.rows.any fun p => decide (p.id = productID) then
      match insertImageRows w.images (rows.map (newImage productID)) with
      | some images => (.ok (), { w with
          images := images
          drawn := rows.map (fun row => (row.1, row.2.1)) ++ w.drawn
          owes := Function.update w.owes i (rows.map fun row => .image row.1) })
      | none => (.error "duplicate key value violates unique constraint \"product_images_pkey\"", w)
    else (.error "insert or update on table \"product_images\" violates foreign key constraint", w)
  | (_, .findImage productID imageID), w => (.ok ((w.images.find? imageID).any fun i => decide (i.productID = productID)), w)
  | (_, .deleteImage imageID), w => (.ok (), { w with images := w.images.delete fun i => decide (i.id = imageID) })
  | (i, .publish task), w =>
    (.ok (), { w with
      tasks := Function.update w.tasks w.next (.waiting task)
      next := w.next + 1
      owes := Function.update w.owes i ((w.owes i).erase task) })
  | (_, .take k), w => (.ok (w.tasks k).key?, w)
  | (_, .finish k), w => (.ok (), { w with tasks := Function.update w.tasks k .absent })
  | (_, .retry k), w => (.ok (), { w with tasks := Function.update w.tasks k (waits (w.tasks k)) })
  | (_, .archive k), w => (.ok (), { w with tasks := Function.update w.tasks k .absent })
  | (i, .fetchProduct id), w =>
    match w.products.find? id with
    | none => (.ok none, w)
    | some p => (.ok (some (p.id, p.name, p.description)), { w with tasks := mark i (reads id p.document) w.tasks })
  | (_, .embedText document), w => (.ok (services.text document), w)
  | (i, .writeProduct id vector), w =>
    match dimensionError vector with
    | some e => (.error e, w)
    | none => (.ok (), { w with products := setProductVector id vector w.products, tasks := mark i (writes id) w.tasks })
  | (_, .listProducts businessID), w =>
    (.ok ((w.products.rows.filter fun p => decide (p.businessID = businessID)).map EmbeddedProduct.id), w)
  | (_, .fetchImage id), w =>
    (.ok (((w.images.find? id).filter fun i => w.products.rows.any fun p => decide (p.id = i.productID)).map fun i => (i.id, i.url)), w)
  | (_, .imageEmbedded id), w =>
    match w.images.find? id with
    | none => (.error "no rows in result set", w)
    | some i => (.ok i.embedding.isSome, w)
  | (_, .download url answer), w => (.ok answer, { w with served := (url, answer) :: w.served })
  | (_, .embedImage part), w => (.ok (services.image part.1 part.2), w)
  | (_, .writeImage id vector), w =>
    match dimensionError vector with
    | some e => (.error e, w)
    | none => (.ok (), { w with images := setImageVector id vector w.images })
  | (_, .listImages productID), w =>
    (.ok ((Aggregates.orderBy byPosition (w.images.rows.filter fun i => decide (i.productID = productID))).map EmbeddedImage.id), w)

end Exec

/-! ## The worker -/

section Worker

variable {S : Type}

/-- `fmt.Errorf` with `%w` at its end. -/
def wrapped {α : Type} (text : String) (p : EmbeddingHandler S α) : EmbeddingHandler S α :=
  mapErr (I := embeddingStore S) (fun e => text ++ ": " ++ e) p

/-- `EmbedProduct`. -/
def embedProduct (productID : String) : EmbeddingHandler S Unit := do
  let row : Option (String × String × Option String) ←
    wrapped ("embedding: fetch product " ++ productID) (call (I := embeddingStore S) (.fetchProduct productID))
  match row with
  | none => raise (I := embeddingStore S) ("Product not found: " ++ productID)
  | some (id, name, description) => do
    let vector : List S ← wrapped ("embedding: generate for product " ++ id)
      (call (I := embeddingStore S) (.embedText (buildSearchDocument name description)))
    wrapped ("embedding: write vector for product " ++ id) (call (I := embeddingStore S) (.writeProduct id vector))

/-- `generateImageEmbeddingFromURL`. -/
def generateImageEmbeddingFromURL (imageURL : String) (answer : Download) : EmbeddingHandler S (List S) := do
  let got : Download ← wrapped ("embedding: download image " ++ imageURL) (call (I := embeddingStore S) (.download imageURL answer))
  if got.status = 200 then call (I := embeddingStore S) (.embedImage got.part)
  else raise (I := embeddingStore S) ("Failed to download image from " ++ imageURL ++ ": " ++ toString got.status)

/-- The rest of `EmbedProductImageRow`, from the download on. -/
def embedImageFromURL (id url : String) (answer : Download) : EmbeddingHandler S Unit := do
  let vector : List S ← wrapped ("embedding: generate for image " ++ id) (generateImageEmbeddingFromURL url answer)
  wrapped ("embedding: write vector for image " ++ id) (call (I := embeddingStore S) (.writeImage id vector))

/-- `EmbedProductImageRow`. -/
def embedProductImageRow (productImageID : String) (force : Bool) (answer : Download) : EmbeddingHandler S Unit := do
  let row : Option (String × String) ←
    wrapped ("embedding: fetch product image " ++ productImageID) (call (I := embeddingStore S) (.fetchImage productImageID))
  match row with
  | none => raise (I := embeddingStore S) ("Product image not found: " ++ productImageID)
  | some (id, url) =>
    if force then embedImageFromURL id url answer
    else do
      let embedded : Bool ← wrapped ("embedding: check embedded state for image " ++ productImageID)
        (call (I := embeddingStore S) (.imageEmbedded productImageID))
      if embedded then pure () else embedImageFromURL id url answer

/-- `DispatchTask`, with the id of the payload, if it decodes. -/
def dispatchTask (taskType : String) (payload : Option String) (answer : Download) : EmbeddingHandler S Unit :=
  if taskType = taskEmbedProductImage then
    match payload with
    | some id =>
      if id = "" then raise (I := embeddingStore S) "embedding: payload missing productImageId" else embedProductImageRow id false answer
    | none => raise (I := embeddingStore S) "embedding: payload missing productImageId"
  else if taskType = taskEmbedProduct then
    match payload with
    | some id => if id = "" then raise (I := embeddingStore S) "embedding: payload missing productId" else embedProduct id
    | none => raise (I := embeddingStore S) "embedding: payload missing productId"
  else raise (I := embeddingStore S) ("Unknown embedding job type: " ++ (if taskType.startsWith "embedding:" then (taskType.drop 10).toString else taskType))

/-- The run of a task: the handler, after which the queue forgets the task, takes it back or, out of retries, archives it. -/
def embeddingRun (k : Nat) (answer : Download) (retried : Bool) : EmbeddingHandler S Unit := do
  let task : Option EmbedTask ← call (I := embeddingStore S) (.take k)
  match task with
  | none => pure ()
  | some task => do
    let result ← attempt (dispatchTask task.message.1 (some task.message.2) answer)
    match result with
    | .ok _ => call (I := embeddingStore S) (.finish k)
    | .error _ => if retried then call (I := embeddingStore S) (.retry k) else call (I := embeddingStore S) (.archive k)

/-- `BulkEmbedResult`; an error has its product. -/
structure BulkEmbedResult where
  total : Nat
  succeeded : Nat
  failed : Nat
  errors : List (String × String)
  deriving DecidableEq

/-- The loop of `EmbedAllForBusiness`. -/
def embedEach (result : BulkEmbedResult) : List String → EmbeddingHandler S BulkEmbedResult
  | [] => pure result
  | pid :: rest => do
    let outcome ← attempt (embedProduct pid)
    match outcome with
    | .error e => embedEach { result with failed := result.failed + 1, errors := result.errors ++ [(pid, e)] } rest
    | .ok _ => embedEach { result with succeeded := result.succeeded + 1 } rest

/-- `EmbedAllForBusiness`. -/
def embedAllForBusiness (businessID : String) : EmbeddingHandler S BulkEmbedResult := do
  let productIDs : List String ← wrapped ("embedding: list products for business " ++ businessID)
    (call (I := embeddingStore S) (.listProducts businessID))
  embedEach ⟨productIDs.length, 0, 0, []⟩ productIDs

/-- The loop of `EmbedProductImages`. -/
def embedImages (force : Bool) (answers : String → Download) : List String → EmbeddingHandler S Unit
  | [] => pure ()
  | imageID :: rest => do
    let _ ← attempt (embedProductImageRow imageID force (answers imageID))
    embedImages force answers rest

/-- `EmbedProductImages`. -/
def embedProductImages (productID : String) (force : Bool) (answers : String → Download) : EmbeddingHandler S Unit := do
  let imageIDs : List String ← wrapped ("embedding: list images for product " ++ productID)
    (call (I := embeddingStore S) (.listImages productID))
  embedImages force answers imageIDs

/-! ## The vendor -/

/-- `s4p_publishProductEmbed` and `s4p_publishImageEmbed`: a failure is logged. -/
def publishEmbed (task : EmbedTask) : EmbeddingHandler S Unit := do
  let _ ← attempt (call (I := embeddingStore S) (.publish task))

/-- The loop over inserted images. -/
def publishEach : List EmbedTask → EmbeddingHandler S Unit
  | [] => pure ()
  | task :: rest => do
    publishEmbed task
    publishEach rest

/-- `s4p_productCreate`, from the statement on. -/
def productCreate (p : EmbeddedProduct S) : EmbeddingHandler S Unit := do
  call (I := embeddingStore S) (.createProduct p)
  publishEmbed (.product p.id)

/-- `s4p_writeFindOne`: what follows runs only for a product of the business. -/
def withOwnProduct (businessID id : String) (next : EmbeddingHandler S Unit) : EmbeddingHandler S Unit := do
  let found : Bool ← call (I := embeddingStore S) (.findProduct businessID id)
  if found then next else pure ()

/-- `s4p_productPatch` and `s4p_productOutOfStock`, with the columns that they set. -/
def productUpdate (businessID id : String) (sets : List Handlers.SetClause) : EmbeddingHandler S Unit :=
  withOwnProduct businessID id do
    let updated : Bool ← call (I := embeddingStore S) (.updateProduct id sets)
    if updated then publishEmbed (.product id) else pure ()

/-- `s4p_productDelete`. -/
def productDelete (businessID id : String) : EmbeddingHandler S Unit :=
  withOwnProduct businessID id (call (I := embeddingStore S) (.deleteProduct businessID id))

/-- `s4p_uploadImages`, of the files that are new and stored. -/
def imageUpload (businessID id : String) (rows : List (String × String × Int)) : EmbeddingHandler S Unit :=
  withOwnProduct businessID id do
    call (I := embeddingStore S) (.insertImages id rows)
    publishEach (rows.map fun row => .image row.1)

/-- `s4p_imageRemove`, up to the deletion: the images that are left keep their positions here. `s4p_redensify`, which moves them up in
the same transaction, is that of `Handlers.Images`. -/
def imageRemove (businessID id imageID : String) : EmbeddingHandler S Unit :=
  withOwnProduct businessID id do
    let found : Bool ← call (I := embeddingStore S) (.findImage id imageID)
    if found then call (I := embeddingStore S) (.deleteImage imageID) else pure ()

end Worker

end NovoApex.Workers
