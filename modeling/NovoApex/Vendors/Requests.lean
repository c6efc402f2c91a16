import NovoApex.Handlers.ImageRequests
import NovoApex.Handlers.Reply
import NovoApex.Handlers.StoredProducts
import NovoApex.Lib.Pool

/-!
# The vendor's requests

Every write endpoint of an authenticated vendor over one store: the products endpoints
(`internal/handlers/products_write.go`, `images.go`) with the guard of ownership in front,
and the handlers of orders, conversations, replies and locations as they are, each as
part of the whole.

The products are the rows of `products`; no statement here touches the few columns of them
that the order pipeline's tables hold. The storage and the embeddings are left out.
-/

namespace NovoApex.Vendors
set_option autoImplicit false
open Lib Program Db Handlers

/-! ## The store -/

/-- The tables that vendors write, with the history and the sessions of the parts. -/
structure VendorWorld where
  db : Database
  products : List ProductCells
  images : Images.ImageWorld
  locations : Table Location.id
  created : List String
  read : Nat → Option Location
  outbound : OutboundWorld
  responses : List ReplyResponse

/-- The tables of the locations endpoints. -/
def VendorWorld.locationWorld (w : VendorWorld) : LocationWorld := ⟨w.db.businesses, w.locations, w.created, w.read⟩

/-- The tables of a reply. -/
def VendorWorld.replyWorld (w : VendorWorld) : ReplyWorld := ⟨w.outbound, w.db.conversations, w.responses⟩

inductive VendorStmt where
  | orders (op : Stmt)
  | locations (request : Nat) (op : LocationStmt)
  | replies (op : ReplyStmt)
  | images (request : Nat) (productID : String) (op : Images.ImageStmt)
  /-- The row of `findOne`. -/
  | findProduct (businessID id : String)
  | listProductImages (productID : String)
  | createProduct (p : CreateProductParams) (now : Nat)
  | updateProduct (id : String) (sets : List SetClause) (now : Nat)
  | deleteProductByIDAndBusiness (id businessID : String)

/-- What a statement answers. -/
@[reducible] def VendorStmt.Reply : VendorStmt → Type
  | orders op => op.Reply
  | locations _ op => op.Reply
  | replies op => op.Reply
  | images _ _ op => op.Reply
  | findProduct .. => Option ProductCells
  | listProductImages .. => List Images.ImageRow
  | createProduct .. => List Cell
  | updateProduct .. => List (List Cell)
  | deleteProductByIDAndBusiness .. => Unit

/-- The errors of the parts; a statement on products only fails. -/
inductive VendorError where
  | orders (e : Err)
  | locations (e : VendorErr)
  | replies (e : OutboundErr)
  | images (e : Images.ImageErr)
  | statement

/-- The interface of the vendor's endpoints. -/
abbrev vendorStore : Interface := ⟨VendorStmt, VendorStmt.Reply, VendorError, .orders .transient⟩

/-- A program over it. -/
abbrev VendorHandler (α : Type) : Type := Program vendorStore α

/-- `ListProductImagesForProducts`, of one product. -/
def listProductImages (productID : String) (w : VendorWorld) : List Images.ImageRow :=
  Images.listImageIDPositions w.images.images productID

/-- `DELETE FROM products WHERE id = $1 AND business_id = $2`: order items restrict it, images go with their product. -/
def deleteProduct (id businessID : String) (w : VendorWorld) : Except VendorError VendorWorld :=
  let selected : ProductCells → Bool := fun row => decide (row "id".toList = .text id) && decide (row "business_id".toList = .text businessID)
  if w.products.all fun row => !selected row then .ok w
  else if w.db.orderItems.rows.any fun item => decide (item.productID = id) then .error .statement
  else .ok { w with
    products := w.products.filter fun row => !selected row
    images := { w.images with images := w.images.images.delete fun r => decide (r.productID = id) } }

/-- What a write on products answers and leaves. -/
def writeProducts {α : Type} (w : VendorWorld) : Option (α × List ProductCells) → Except VendorError α × VendorWorld
  | some (returned, products) => (.ok returned, { w with products := products })
  | none => (.error .statement, w)

/-- Execute one statement. -/
def vendorExec : vendorStore.Exec VendorWorld
  | .orders op, w => ((exec op w.db).1.mapError .orders, { w with db := (exec op w.db).2 })
  | .locations i op, w =>
    let after := (locationExec (i, op) w.locationWorld).2
    ((locationExec (i, op) w.locationWorld).1.mapError .locations,
      { w with locations := after.locations, created := after.created, read := after.read })
  | .replies op, w =>
    let after := (replyExec op w.replyWorld).2
    ((replyExec op w.replyWorld).1.mapError .replies, { w with outbound := after.outbound, responses := after.responses })
  | .images i productID op, w =>
    ((Images.imageExec productID (i, op) w.images).1.mapError .images, { w with images := (Images.imageExec productID (i, op) w.images).2 })
  | .findProduct businessID id, w => ((findOne businessID id w.products).elim (.error .statement) .ok, w)
  | .listProductImages productID, w => (.ok (listProductImages productID w), w)
  | .createProduct p now, w => writeProducts w (createProduct (w.db.businesses.rows.map Business.id) p now w.products)
  | .updateProduct id sets now, w => writeProducts w ((runProductUpdate id sets now w.products).map Prod.swap)
  | .deleteProductByIDAndBusiness id businessID, w =>
    ((deleteProduct id businessID w).map fun _ => (), (deleteProduct id businessID w).toOption.getD w)

/-! ## The parts -/

/-- What a part makes of an error that is not its own. -/
def VendorError.toOrders : VendorError → Err
  | .orders e => e
  | _ => .transient

def VendorError.toLocations : VendorError → VendorErr
  | .locations e => e
  | _ => .db .transient

def VendorError.toReplies : VendorError → OutboundErr
  | .replies e => e
  | _ => .db .transient

def VendorError.toImages : VendorError → Images.ImageErr
  | .images e => e
  | _ => .unavailable

/-- The order pipeline's statements as part of the whole. -/
def orderStatements : store.Embedding vendorStore where
  op := .orders
  reply _ r := r.mapError VendorError.toOrders
  err := .orders

/-- The statements of the locations endpoints, issued by a request. -/
def locationStatements (request : Nat) : locationStore.Embedding vendorStore where
  op := .locations request
  reply _ r := r.mapError VendorError.toLocations
  err := .locations

def replyStatements : replyStore.Embedding vendorStore where
  op := .replies
  reply _ r := r.mapError VendorError.toReplies
  err := .replies

/-- The statements on the images of a product, issued by a request. -/
def imageStatements (request : Nat) (productID : String) : Images.imageStore.Embedding vendorStore where
  op := .images request productID
  reply _ r := r.mapError VendorError.toImages
  err := .images

/-! ## Products -/

/-- The payload of a product: its columns and its images. -/
abbrev ProductAnswer : Type := Answer (List Cell × List Images.ImageRow)

/-- An answer to an error. -/
def errorAnswer {α : Type} : Answer α := .refused 500 "Internal server error"

/-- `findOne`: the row and its images. -/
def findOwned (businessID id : String) : VendorHandler (Option (ProductCells × List Images.ImageRow)) := do
  let row : Option ProductCells ← call (I := vendorStore) (.findProduct businessID id)
  match row with
  | none => pure none
  | some row => do
    let images : List Images.ImageRow ← call (I := vendorStore) (.listProductImages id)
    pure (some (row, images))

/-- `s4p_writeFindOne`: what follows runs only for a product of the business. -/
def writeFindOne {α : Type} (businessID id : String) (next : ProductCells × List Images.ImageRow → VendorHandler (Answer α)) :
    VendorHandler (Answer α) := do
  let found ← attempt (findOwned businessID id)
  match found with
  | .error _ => pure errorAnswer
  | .ok none => pure (.refused 404 "Product not found")
  | .ok (some product) => next product

/-- `s4p_respondFoundProductStatus`. -/
def respondFoundProduct (businessID id : String) (status : Nat) : VendorHandler ProductAnswer :=
  writeFindOne businessID id fun product => pure (.found status (returnedCells product.1, product.2))

/-- The images of a row that was written, and the answer. -/
def respondWritten (id : String) (status : Nat) (returned : List Cell) : VendorHandler ProductAnswer := do
  let images ← attempt (call (I := vendorStore) (.listProductImages id))
  match images with
  | .error _ => pure errorAnswer
  | .ok images => pure (.found status (returned, images))

/-- `s4p_productCreate`. -/
def productCreate (businessID id : String) (body : Body) (now : Nat) : VendorHandler ProductAnswer :=
  match body with
  | none => pure (.refused 400 "Unexpected token in JSON")
  | some m =>
    match validateProduct m true with
    | .error issues => pure (.invalid issues)
    | .ok i =>
      match createParams id businessID i with
      | none => pure errorAnswer
      | some p => do
        let created ← attempt (call (I := vendorStore) (.createProduct p now))
        match created with
        | .error _ => pure errorAnswer
        | .ok returned => respondWritten id 201 returned

/-- `s4p_execUpdate` with what its callers make of it. -/
def updateProduct (id : String) (sets : List SetClause) (now status : Nat) : VendorHandler ProductAnswer := do
  let updated ← attempt (call (I := vendorStore) (.updateProduct id sets now))
  match updated with
  | .ok (returned :: _) => respondWritten id status returned
  | _ => pure errorAnswer

/-- `s4p_productPatch`. -/
def productPatch (businessID id : String) (body : Body) (now : Nat) : VendorHandler ProductAnswer :=
  match body with
  | none => pure (.refused 400 "Unexpected token in JSON")
  | some m =>
    match validateProduct m false with
    | .error issues => pure (.invalid issues)
    | .ok i => writeFindOne businessID id fun _ => updateProduct id i.sets now 200

/-- The columns of `s4p_productOutOfStock`. -/
def outOfStockSets : List SetClause := [⟨"stock", .int4 0⟩, ⟨"is_available", .boolean false⟩]

/-- `s4p_productOutOfStock`. -/
def productOutOfStock (businessID id : String) (now : Nat) : VendorHandler ProductAnswer :=
  writeFindOne businessID id fun _ => updateProduct id outOfStockSets now 201

/-- `s4p_productDelete`. -/
def productDelete (businessID id : String) : VendorHandler (Answer String) :=
  writeFindOne businessID id fun _ => do
    let deleted ← attempt (call (I := vendorStore) (.deleteProductByIDAndBusiness id businessID))
    match deleted with
    | .error _ => pure errorAnswer
    | .ok _ => pure (.found 200 "Product deleted successfully")

/-! ## Images -/

/-- The text of the limit. -/
def tooManyImages (has added : Nat) : String :=
  "A product can have at most " ++ toString Images.s4pMaxImages ++ " images (has " ++ toString has ++ ", tried to add " ++ toString added ++ ")."

/-- The text of an incomplete order. -/
def notEveryImage (has received : Nat) : String :=
  "imageIds must list every image of this product exactly once (product has " ++ toString has ++ ", received " ++ toString received ++ ")."

/-- The issue that `s4p_validateReorder` finds, of strings. -/
def reorderIssue (imageIDs : List String) : Option FieldIssue :=
  if imageIDs.length < 1 then some ⟨"too_small", "imageIds", "Too small: expected array to have >=1 items"⟩
  else if imageIDs.length > Images.s4pMaxImages then some ⟨"too_big", "imageIds", "Too big: expected array to have <=5 items"⟩
  else
    match imageIDs.zipIdx.find? fun x => !Images.isUUID x.1 with
    | some (_, i) => some ⟨"invalid_format", "imageIds." ++ toString i, "Invalid UUID"⟩
    | none => if imageIDs.Nodup then none else some ⟨"custom", "imageIds", "imageIds must not contain duplicates"⟩

/-- How a request on images answers what it ended in. -/
def imageAnswer (businessID id : String) (status : Nat) : Except VendorError Unit → VendorHandler ProductAnswer
  | .ok _ => respondFoundProduct businessID id status
  | .error (.images (.tooManyImages has added)) => pure (.refused 400 (tooManyImages has added))
  | .error (.images .imageNotFound) => pure (.refused 404 "Product image not found")
  | .error (.images (.notEveryImage has received)) => pure (.refused 400 (notEveryImage has received))
  | .error _ => pure errorAnswer

/-- A request on the images of a product, behind the guard, and its answer. -/
def imageRequest (businessID id : String) (request status : Nat) (p : Program Images.imageStore Unit) : VendorHandler ProductAnswer := do
  let result ← attempt (p.embed (imageStatements request id))
  imageAnswer businessID id status result

/-- `s4p_uploadImages`. -/
def imageUpload (businessID id : String) (request : Nat) (files : List Images.UploadFile) (uploaded : Bool) : VendorHandler ProductAnswer :=
  writeFindOne businessID id fun _ => imageRequest businessID id request 201 (Images.s4pUploadImages id files uploaded)

/-- `s4p_imageRemove`. -/
def imageRemove (businessID id imageID : String) (request : Nat) : VendorHandler ProductAnswer :=
  writeFindOne businessID id fun _ => imageRequest businessID id request 200 (Images.s4pImageRemove imageID)

/-- `s4p_imageReorder`. -/
def imageReorder (businessID id : String) (request : Nat) (imageIDs : List String) : VendorHandler ProductAnswer :=
  writeFindOne businessID id fun _ =>
    match reorderIssue imageIDs with
    | some issue => pure (.invalid [issue])
    | none => imageRequest businessID id request 200 (Images.s4pImageReorder imageIDs)

/-! ## All of them -/

/-- A request, with its path, its body, the ids drawn for it and its clock. -/
inductive VendorRequest where
  | productCreate (id : String) (body : Body) (now : Nat)
  | productPatch (id : String) (body : Body) (now : Nat)
  | productOutOfStock (id : String) (now : Nat)
  | productDelete (id : String)
  | imageUpload (id : String) (files : List Images.UploadFile) (uploaded : Bool)
  | imageRemove (id imageID : String)
  | imageReorder (id : String) (imageIDs : List String)
  | ordersFulfillment (id : String) (status : OrderStatus) (followUpID : String) (now : Nat)
  | ordersEscalate (id : String)
  | conversationTakeover (id : String)
  | conversationRelease (id : String)
  | conversationReply (id : String) (text : Option String) (message : OutboundCall) (seq createdAt : Int) (wa : Option Outbound.Sender)
  | locationCreate (id : String) (body : Body)
  | locationPatch (id : String) (body : Body)
  | locationDelete (id : String)

/-- The program of a request, with the business of its token and its number. -/
def VendorRequest.program (businessID : String) (request : Nat) : VendorRequest → Program vendorStore Unit
  | productCreate id body now => ignore (Vendors.productCreate businessID id body now)
  | productPatch id body now => ignore (Vendors.productPatch businessID id body now)
  | productOutOfStock id now => ignore (Vendors.productOutOfStock businessID id now)
  | productDelete id => ignore (Vendors.productDelete businessID id)
  | imageUpload id files uploaded => ignore (Vendors.imageUpload businessID id request files uploaded)
  | imageRemove id imageID => ignore (Vendors.imageRemove businessID id imageID request)
  | imageReorder id imageIDs => ignore (Vendors.imageReorder businessID id request imageIDs)
  | ordersFulfillment id status followUpID now =>
    ignore ((Handlers.ordersFulfillment businessID id status followUpID now).embed orderStatements)
  | ordersEscalate id => ignore ((Handlers.ordersEscalate businessID id).embed orderStatements)
  | conversationTakeover id => ignore ((Handlers.conversationTakeover businessID id).embed orderStatements)
  | conversationRelease id => ignore ((Handlers.conversationRelease businessID id).embed orderStatements)
  | conversationReply id text message seq createdAt wa =>
    (Handlers.conversationReply ⟨businessID, id, text, message, seq, createdAt⟩ wa).embed replyStatements
  | locationCreate id body => ignore ((Handlers.locationCreate businessID id body).embed (locationStatements request))
  | locationPatch id body => ignore ((Handlers.locationPatch businessID id body).embed (locationStatements request))
  | locationDelete id => ignore ((Handlers.locationDelete businessID id).embed (locationStatements request))

/-- Any number of requests of one business, in flight together; a request may fail or end anywhere. -/
def vendorSystem (businessID : String) : System vendorStore VendorWorld where
  exec := vendorExec
  job _ p := ∃ (request : Nat) (r : VendorRequest), p = r.program businessID request
  allow _ _ := True

end NovoApex.Vendors
