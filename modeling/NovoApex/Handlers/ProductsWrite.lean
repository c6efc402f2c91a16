import NovoApex.Handlers.LocationsWrite

/-!
# POST and PATCH /products

`internal/handlers/products_write.go`, and the statement that `locations_write.go` builds
the same way: a partial update sets the columns of the fields that the body has, numbers
its placeholders by the arguments so far, and always moves `updated_at`.
-/

namespace NovoApex.Handlers
set_option autoImplicit false
open Db Lib

/-- An argument of a statement. -/
inductive SqlValue where
  | text (s : String)
  | numeric (q : ℚ)
  | int4 (n : Int32)
  | boolean (b : Bool)
  deriving DecidableEq

/-- `s4p_set`. -/
structure SetClause where
  col : String
  val : SqlValue
  deriving DecidableEq

/-- `s4p_productInput`. -/
structure ProductInput where
  name : Option String
  description : Option String
  price : Option ℚ
  stock : Option ℚ
  sku : Option String
  isAvailable : Option Bool
  category : Option String
  stockNote : Option String
  deliveryNote : Option String
  deriving DecidableEq

/-- `s4p_validateProduct`: all issues, in the order of the fields. -/
def validateProduct (m : String → Option RawValue) (required : Bool) : Except (List FieldIssue) ProductInput :=
  let name := checkString "name" (m "name") required 2
  let description := checkString "description" (m "description") false 0
  let price := checkNumber "price" (m "price") required true false false
  let stock := checkNumber "stock" (m "stock") required false true true
  let sku := checkString "sku" (m "sku") false 0
  let isAvailable := checkBool "isAvailable" (m "isAvailable") false
  let category := checkString "category" (m "category") false 0
  let stockNote := checkString "stockNote" (m "stockNote") false 0
  let deliveryNote := checkString "deliveryNote" (m "deliveryNote") false 0
  let issues := name.2 ++ description.2 ++ price.2 ++ stock.2 ++ sku.2 ++ isAvailable.2 ++ category.2 ++ stockNote.2 ++ deliveryNote.2
  if issues.isEmpty then
    .ok ⟨name.1, description.1, price.1, stock.1, sku.1, isAvailable.1, category.1, stockNote.1, deliveryNote.1⟩
  else .error issues

/-- `int32(d.IntPart())`. -/
def int32Part (d : ℚ) : Int32 := (intPart d).toInt32

/-- The columns a patch sets, in their order. -/
def ProductInput.sets (i : ProductInput) : List SetClause :=
  (i.name.map fun v => ⟨"name", .text v⟩).toList ++ (i.description.map fun v => ⟨"description", .text v⟩).toList ++
    (i.price.map fun v => ⟨"price", .numeric v⟩).toList ++ (i.stock.map fun v => ⟨"stock", .int4 (int32Part v)⟩).toList ++
    (i.sku.map fun v => ⟨"sku", .text v⟩).toList ++ (i.isAvailable.map fun v => ⟨"is_available", .boolean v⟩).toList ++
    (i.category.map fun v => ⟨"category", .text v⟩).toList ++ (i.stockNote.map fun v => ⟨"stock_note", .text v⟩).toList ++
    (i.deliveryNote.map fun v => ⟨"delivery_note", .text v⟩).toList

/-- The loop over the columns: the query so far and its arguments. -/
def setLoop : Nat → List SetClause → String × List SqlValue → String × List SqlValue
  | _, [], built => built
  | i, s :: rest, (query, args) =>
    let query := if i > 0 then query ++ ", " else query
    let args := args ++ [s.val]
    setLoop (i + 1) rest (query ++ (s.col ++ " = $" ++ toString args.length), args)

/-- The body that `s4p_execUpdate` and `s4l_execUpdate` share. -/
def execUpdate (table returning id : String) (sets : List SetClause) : String × List SqlValue :=
  let (query, args) := setLoop 0 sets ("UPDATE " ++ table ++ " SET ", [])
  let query := query ++ (", updated_at = CURRENT_TIMESTAMP WHERE id = $" ++ toString (args.length + 1))
  (query ++ returning, args ++ [.text id])

/-- `s4p_productCols`. -/
def productCols : String :=
  "id, business_id, name, description, category, request_count,\nstock_note, delivery_note, price, stock, sku, is_available, created_at, updated_at"

/-- `s4p_execUpdate`. -/
def productExecUpdate (id : String) (sets : List SetClause) : String × List SqlValue :=
  execUpdate "products" (" RETURNING " ++ productCols) id sets

end NovoApex.Handlers
