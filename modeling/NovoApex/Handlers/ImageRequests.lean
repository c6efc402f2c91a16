import NovoApex.Handlers.Images
import NovoApex.Lib.Distinct
import NovoApex.Lib.Program
import Mathlib.Logic.Function.Basic

/-!
# Requests on the images of a product

`s4p_uploadImages`, `s4p_imageRemove` and `s4p_imageReorder` (`internal/handlers/images.go`)
as statements at READ COMMITTED. A statement of a transaction sees what is committed when
it starts, and the transaction's own writes; the writes reach the table when it commits.
The row locks of `SELECT … FOR UPDATE`, of an update and of a delete last until the
transaction ends, and rows that are inserted meanwhile are not locked. The unique indexes
make a statement fail whose write collides with what it sees; a write that collides with
one of a transaction in flight waits for it in the database, and here cannot commit.

The guard of ownership, the storage and the embeddings are left out; whether the storage
took the files is an argument.
-/

namespace NovoApex.Images
set_option autoImplicit false
open Lib Program

/-- The unique index on `(product_id, content_hash)`, in which nulls are distinct. -/
def UniqueHashes (t : ImageTable) : Prop :=
  t.rows.Pairwise fun a b => a.productID = b.productID → a.contentHash ≠ none → a.contentHash ≠ b.contentHash

instance (t : ImageTable) : Decidable (UniqueHashes t) := inferInstanceAs (Decidable (t.rows.Pairwise _))

/-! ## Transactions -/

/-- One row written. -/
inductive ImageWrite where
  | insert (row : ImageRow)
  | delete (id : String)
  | setPosition (id : String) (position : Int32)
  deriving DecidableEq

/-- The table after a write; `none` is a violation of the primary key. -/
def ImageWrite.apply (t : ImageTable) : ImageWrite → Option ImageTable
  | insert row => Table.insert t row
  | delete id => some (Table.delete t fun r => decide (r.id = id))
  | setPosition id position => some (Images.setPosition t id position)

/-- The table after the writes of a transaction. -/
def applyWrites (writes : List ImageWrite) (t : ImageTable) : Option ImageTable := writes.foldlM ImageWrite.apply t

/-- What a transaction rests on: the aggregate that it has read, the images beside the removed one, or the submitted order. It is
named at the commit; no statement reads it. -/
inductive Basis where
  | aggregate (total : Nat) (maxPosition : Int32)
  | remaining (imageID : String) (rows : List ImageRow)
  | submitted (imageIDs : List String)

/-- The committed rows, the writes of the transactions in flight and the row locks. A request has a number of its own. -/
structure ImageWorld where
  images : ImageTable
  tx : Nat → Option (List ImageWrite)
  lockedBy : String → Option Nat

inductive ImageStmt where
  | findStoredImageHashes (hashes : List String)
  | findImageByIDAndProduct (imageID : String)
  | listImageIDPositions
  | begin
  | aggregateProductImages
  | insertProductImage (row : ImageRow)
  | lockImageRowsByProduct
  | deleteImageByID (imageID : String)
  | updateImagePosition (imageID : String) (position : Int32)
  | parkImagePositions (offset : Int32)
  | commit (basis : Basis)
  | rollback

/-- What a statement answers. -/
@[reducible] def ImageStmt.Reply : ImageStmt → Type
  | findStoredImageHashes _ => List String
  | findImageByIDAndProduct _ => Option ImageRow
  | listImageIDPositions => List ImageRow
  | aggregateProductImages => Nat × Int32
  | _ => Unit

inductive ImageErr where
  | unavailable
  | uniqueViolation
  | outOfRange
  | tooManyImages (has added : Nat)
  | storage
  | imageNotFound
  | notEveryImage (has received : Nat)
  | invalidOrder
  deriving DecidableEq

/-- The interface of the database. -/
abbrev imageStore : Interface := ⟨ImageStmt, ImageStmt.Reply, ImageErr, .unavailable⟩

/-- What the statements of a request see. -/
def visible (i : Nat) (w : ImageWorld) : Option ImageTable := applyWrites ((w.tx i).getD []) w.images

/-- The unique indexes. -/
def Indexed (t : ImageTable) : Prop := UniquePositions t ∧ UniqueHashes t

instance (t : ImageTable) : Decidable (Indexed t) := inferInstanceAs (Decidable (_ ∧ _))

/-- Write rows within a transaction, unless they collide. -/
def writeRows (i : Nat) (writes : List ImageWrite) (w : ImageWorld) : Except ImageErr Unit × ImageWorld :=
  match w.tx i with
  | none => (.error .unavailable, w)
  | some before =>
    match applyWrites (before ++ writes) w.images with
    | none => (.error .uniqueViolation, w)
    | some t =>
      if Indexed t then (.ok (), { w with tx := Function.update w.tx i (some (before ++ writes)) }) else (.error .uniqueViolation, w)

/-- Take the locks of rows. -/
def lockRows (i : Nat) (ids : List String) (w : ImageWorld) : ImageWorld :=
  { w with lockedBy := fun id => if id ∈ ids then some i else w.lockedBy id }

/-- The end of a transaction. -/
def endTx (i : Nat) (images : ImageTable) (w : ImageWorld) : ImageWorld where
  images := images
  tx := Function.update w.tx i none
  lockedBy id := if w.lockedBy id = some i then none else w.lockedBy id

/-- `COALESCE(MAX(position), -1)`. -/
def maxPosition (t : ImageTable) (productID : String) : Int32 :=
  match ((imagesOf t productID).map fun r => r.position.toInt).max? with
  | some position => Int32.ofInt position
  | none => -1

/-- The rows of `ParkImagePositions`. -/
def parkWrites (t : ImageTable) (productID : String) (offset : Int32) : Option (List ImageWrite) :=
  (imagesOf t productID).mapM fun r => (integerAdd r.position offset).map (ImageWrite.setPosition r.id)

/-- Execute one statement, on the images of a product. -/
def imageExec (productID : String) : (imageStore.signed Nat).Exec ImageWorld
  | (_, .findStoredImageHashes hashes), w =>
    (.ok (((imagesOf w.images productID).filterMap ImageRow.contentHash).filter fun h => h ∈ hashes), w)
  | (_, .findImageByIDAndProduct imageID), w => (.ok ((imagesOf w.images productID).find? fun r => decide (r.id = imageID)), w)
  | (i, .listImageIDPositions), w =>
    match visible i w with
    | some t => (.ok (listImageIDPositions t productID), w)
    | none => (.error .unavailable, w)
  | (i, .begin), w => (.ok (), { w with tx := Function.update w.tx i (some []) })
  | (i, .aggregateProductImages), w =>
    match visible i w with
    | some t => (.ok ((imagesOf t productID).length, maxPosition t productID), w)
    | none => (.error .unavailable, w)
  | (i, .insertProductImage row), w => writeRows i [.insert row] w
  | (i, .lockImageRowsByProduct), w => (.ok (), lockRows i ((imagesOf w.images productID).map ImageRow.id) w)
  | (i, .deleteImageByID imageID), w => writeRows i [.delete imageID] (lockRows i [imageID] w)
  | (i, .updateImagePosition imageID position), w => writeRows i [.setPosition imageID position] (lockRows i [imageID] w)
  | (i, .parkImagePositions offset), w =>
    match visible i w with
    | some t =>
      match parkWrites t productID offset with
      | some writes => writeRows i writes (lockRows i ((imagesOf t productID).map ImageRow.id) w)
      | none => (.error .outOfRange, w)
    | none => (.error .unavailable, w)
  | (i, .commit _), w =>
    match w.tx i, visible i w with
    | some _, some t => (.ok (), endTx i t w)
    | _, _ => (.error .unavailable, w)
  | (i, .rollback), w => (.ok (), endTx i w.images w)

/-! ## The handlers -/

/-- `s4p_inTx`, and the transaction of `s4p_insertImageRows`: what is not committed is rolled back. -/
def s4pInTx (fn : Program imageStore Basis) : Program imageStore Unit := do
  let _ ← call (I := imageStore) .begin
  let result ← attempt (fn >>= fun basis => call (I := imageStore) (.commit basis))
  let _ ← attempt (call (I := imageStore) .rollback)
  match result with
  | .error e => raise e
  | .ok _ => pure ()

/-- `s4pMaxImages`. -/
def s4pMaxImages : Nat := 5

/-- A file of an upload: the id drawn for its row, and the hash of its bytes. -/
structure UploadFile where
  id : String
  contentHash : String
  deriving DecidableEq

/-- The loop of `s4p_insertImageRows`. -/
def insertRows (productID : String) (nextPosition : Int32) : Nat → List UploadFile → Program imageStore Unit
  | _, [] => pure ()
  | i, h :: rest => do
    let _ ← call (I := imageStore) (.insertProductImage ⟨h.id, productID, nextPosition + Int32.ofNat i, some h.contentHash⟩)
    insertRows productID nextPosition (i + 1) rest

/-- `s4p_insertImageRows`. -/
def s4pInsertImageRows (productID : String) (fresh : List UploadFile) : Program imageStore Unit :=
  s4pInTx do
    let agg : Nat × Int32 ← call (I := imageStore) .aggregateProductImages
    if agg.1 + fresh.length > s4pMaxImages then raise (.tooManyImages agg.1 fresh.length)
    else do
      let _ ← insertRows productID (agg.2 + 1) 0 fresh
      pure (.aggregate agg.1 agg.2)

/-- `s4p_uploadImages`: files that the product holds already are skipped, and so are all of them when another request was faster. -/
def s4pUploadImages (productID : String) (files : List UploadFile) (uploaded : Bool) : Program imageStore Unit := do
  let distinct := distinctBy UploadFile.contentHash files
  let stored : List String ← call (I := imageStore) (.findStoredImageHashes (distinct.map UploadFile.contentHash))
  let fresh := distinct.filter fun h => decide (h.contentHash ∉ stored.filter (· ≠ ""))
  if fresh = [] then pure ()
  else if !uploaded then raise .storage
  else do
    let inserted ← attempt (s4pInsertImageRows productID fresh)
    match inserted with
    | .error .uniqueViolation => pure ()
    | .error e => raise e
    | .ok _ => pure ()

/-- The loop of `s4p_redensify`. -/
def redensifyRows : List (ImageRow × Nat) → Program imageStore Unit
  | [] => pure ()
  | (row, index) :: rest => do
    let _ ← if row.position ≠ Int32.ofNat index then call (I := imageStore) (.updateImagePosition row.id (Int32.ofNat index)) else pure ()
    redensifyRows rest

/-- `s4p_imageRemove`. -/
def s4pImageRemove (imageID : String) : Program imageStore Unit := do
  let img ← call (I := imageStore) (.findImageByIDAndProduct imageID)
  match img with
  | none => raise .imageNotFound
  | some _ =>
    s4pInTx do
      let _ ← call (I := imageStore) .lockImageRowsByProduct
      let _ ← call (I := imageStore) (.deleteImageByID imageID)
      let remaining : List ImageRow ← call (I := imageStore) .listImageIDPositions
      let _ ← redensifyRows remaining.zipIdx
      pure (.remaining imageID remaining)

/-- `s4pUUIDRe`. -/
def isUUID (s : String) : Bool :=
  decide (s.toList.length = 36) && s.toList.zipIdx.all fun x =>
    if x.2 = 8 ∨ x.2 = 13 ∨ x.2 = 18 ∨ x.2 = 23 then x.1 == '-'
    else x.1.isDigit || decide ('a' ≤ x.1 ∧ x.1 ≤ 'f') || decide ('A' ≤ x.1 ∧ x.1 ≤ 'F')

/-- `s4p_validateReorder`, of strings. -/
def s4pValidateReorder (imageIDs : List String) : Bool :=
  decide (1 ≤ imageIDs.length) && decide (imageIDs.length ≤ s4pMaxImages) && imageIDs.all isUUID && decide imageIDs.Nodup

/-- The last loop of `s4p_imageReorder`. -/
def placeRows : List (String × Nat) → Program imageStore Unit
  | [] => pure ()
  | (imageID, index) :: rest => do
    let _ ← call (I := imageStore) (.updateImagePosition imageID (Int32.ofNat index))
    placeRows rest

/-- `s4p_imageReorder`. -/
def s4pImageReorder (imageIDs : List String) : Program imageStore Unit :=
  if !s4pValidateReorder imageIDs then raise .invalidOrder
  else do
    let current : List ImageRow ← call (I := imageStore) .listImageIDPositions
    let currentSet := (current.map ImageRow.id).dedup
    if currentSet.length ≠ imageIDs.dedup.length ∨ ¬ ∀ id ∈ currentSet, id ∈ imageIDs then
      raise (.notEveryImage currentSet.length imageIDs.dedup.length)
    else
      s4pInTx do
        let _ ← call (I := imageStore) .lockImageRowsByProduct
        let _ ← call (I := imageStore) (.parkImagePositions s4pReorderOffset)
        let _ ← placeRows imageIDs.zipIdx
        pure (.submitted imageIDs)

end NovoApex.Images
