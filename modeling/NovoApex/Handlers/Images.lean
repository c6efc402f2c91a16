import NovoApex.Lib.Table
import Mathlib.Data.List.Sort

/-!
# Image rows and their positions

`product_images` and the statements of `products_writes.sql` that move its rows. The
index on `(product_id, position)` is checked for every row that is written, so a
statement that would let two rows of a product share a position fails.

`s4p_redensify` and the transaction of `s4p_imageReorder` (`internal/handlers/images.go`)
write one row after another.
-/

namespace NovoApex.Images
set_option autoImplicit false
open Lib

/-- A row of `product_images`. -/
structure ImageRow where
  id : String
  productID : String
  position : Int32
  contentHash : Option String
  deriving DecidableEq

/-- `product_images`, under its primary key. -/
abbrev ImageTable : Type := Table ImageRow.id

/-- The unique index on `(product_id, position)`. -/
def UniquePositions (t : ImageTable) : Prop := t.rows.Pairwise fun a b => a.productID = b.productID → a.position ≠ b.position

instance (t : ImageTable) : Decidable (UniquePositions t) := inferInstanceAs (Decidable (t.rows.Pairwise _))

/-- The images of a product. -/
def imagesOf (t : ImageTable) (productID : String) : List ImageRow := t.rows.filter fun r => decide (r.productID = productID)

/-- `ListImageIDPositions`. -/
def listImageIDPositions (t : ImageTable) (productID : String) : List ImageRow :=
  (imagesOf t productID).insertionSort fun a b => a.position.toInt ≤ b.position.toInt

/-- The table after `UPDATE product_images SET position = $2 WHERE id = $1`. -/
def setPosition (t : ImageTable) (id : String) (position : Int32) : ImageTable :=
  t.update (fun r => decide (r.id = id)) (fun r => { r with position := position }) fun _ => rfl

/-- `UpdateImagePosition`; `none` is a violation of the index. -/
def updateImagePosition (t : ImageTable) (id : String) (position : Int32) : Option ImageTable :=
  if UniquePositions (setPosition t id position) then some (setPosition t id position) else none

/-- The sum of two `INTEGER`s; `none` is `integer out of range`. -/
def integerAdd (a b : Int32) : Option Int32 :=
  if -2147483648 ≤ a.toInt + b.toInt ∧ a.toInt + b.toInt < 2147483648 then some (a + b) else none

/-- One row of `ParkImagePositions`. -/
def parkImagePosition (offset : Int32) (t : ImageTable) (id : String) : Option ImageTable :=
  match t.find? id with
  | none => some t
  | some r => (integerAdd r.position offset).bind (updateImagePosition t id)

/-- `s4pReorderOffset`. -/
def s4pReorderOffset : Int32 := 1000

/-- An iteration of `s4p_redensify`. -/
def redensifyRow (t : ImageTable) (row : ImageRow × Nat) : Option ImageTable :=
  if row.1.position ≠ Int32.ofNat row.2 then updateImagePosition t row.1.id (Int32.ofNat row.2) else some t

/-- `s4p_redensify`. -/
def s4pRedensify (t : ImageTable) (productID : String) : Option ImageTable :=
  (listImageIDPositions t productID).zipIdx.foldlM redensifyRow t

/-- An iteration of the last loop of `s4p_imageReorder`. -/
def placeImage (t : ImageTable) (image : String × Nat) : Option ImageTable := updateImagePosition t image.1 (Int32.ofNat image.2)

/-- The writes of `s4p_imageReorder`: the rows are parked in the order `scan`, then placed in the submitted order. -/
def s4pReorderWrites (t : ImageTable) (scan imageIDs : List String) : Option ImageTable :=
  (scan.foldlM (parkImagePosition s4pReorderOffset) t).bind fun parked => imageIDs.zipIdx.foldlM placeImage parked

end NovoApex.Images
