import NovoApex.Handlers.PartialUpdate
import NovoApex.Workers.CheckoutSpec

/-!
# What a product's row holds

`s4p_productCreate` and `s4p_productPatch` down to the cells of `products`. The stock is
cut to 32 bits on its way, and the price is rounded to two digits by its column, so an
accepted body is stored as submitted exactly when its stock is below 2^31 and its price
is at least half a hundredth.
-/

namespace NovoApex.Handlers
set_option autoImplicit false
open Db Lib

/-! ## The table -/

/-- A row of `products`, by its columns. -/
abbrev ProductCells : Type := List Char → Cell

/-- The row under an id. -/
def storedRow (rows : List ProductCells) (id : String) : Option ProductCells :=
  rows.find? fun row => decide (row "id".toList = .text id)

/-! ## POST -/

/-- `gen.CreateProductParams`. -/
structure CreateProductParams where
  id : String
  businessID : String
  name : String
  description : Option String
  price : ℚ
  stock : Int32
  sku : Option String
  isAvailable : Bool
  category : Option String
  stockNote : Option String
  deliveryNote : Option String

/-- What `s4p_productCreate` inserts; it would dereference a missing price or stock. -/
def createParams (id businessID : String) (i : ProductInput) : Option CreateProductParams :=
  match i.price, i.stock with
  | some price, some stock => some ⟨id, businessID, i.name.getD "", i.description, price, int32Part stock, i.sku, i.isAvailable.getD true,
      i.category, i.stockNote, i.deliveryNote⟩
  | _, _ => none

/-- The columns of `CreateProduct` and their arguments; `none` is NULL. -/
def CreateProductParams.values (p : CreateProductParams) : List (String × Option SqlValue) :=
  [("id", some (.text p.id)), ("business_id", some (.text p.businessID)), ("name", some (.text p.name)),
    ("description", p.description.map .text), ("price", some (.numeric p.price)), ("stock", some (.int4 p.stock)), ("sku", p.sku.map .text),
    ("is_available", some (.boolean p.isAvailable)), ("category", p.category.map .text), ("stock_note", p.stockNote.map .text),
    ("delivery_note", p.deliveryNote.map .text)]

/-- What the other columns of a new row hold. -/
def productDefault (now : Nat) (column : List Char) : Cell :=
  if column = "request_count".toList then .int4 0
  else if column = "created_at".toList ∨ column = "updated_at".toList then .time now
  else .null

/-- The row of the INSERT. -/
def CreateProductParams.row (p : CreateProductParams) (now : Nat) : ProductCells := fun column =>
  match p.values.find? fun v => decide (v.1.toList = column) with
  | some (_, value) => (value.bind (productConvert column)).getD .null
  | none => productDefault now column

/-- Every argument has a place in its column. -/
def CreateProductParams.converts (p : CreateProductParams) : Bool :=
  p.values.all fun v => v.2.all fun value => (productConvert v.1.toList value).isSome

/-- The columns that `CreateProduct` returns. -/
def returnedCells (row : ProductCells) : List Cell := productColumns.map fun column => row column.toList

/-- `CreateProduct`: it fails where an argument has no place in its column, the id is taken or the business is missing. -/
def createProduct (businesses : List String) (p : CreateProductParams) (now : Nat) (rows : List ProductCells) :
    Option (List Cell × List ProductCells) :=
  if p.converts ∧ storedRow rows p.id = none ∧ p.businessID ∈ businesses then some (returnedCells (p.row now), rows ++ [p.row now]) else none

/-- An answer to a body that cannot be read. -/
def unreadable : Answer (List Cell) := .refused 400 "Unexpected token in JSON"

/-- An error of the database. -/
def failure : Answer (List Cell) := .refused 500 "Internal server error"

/-- `s4p_productCreate`, of the business that the token claims. -/
def productCreate (businesses : List String) (businessID id : String) (body : Body) (now : Nat) (rows : List ProductCells) :
    Answer (List Cell) × List ProductCells :=
  match body with
  | none => (unreadable, rows)
  | some m =>
    match validateProduct m true with
    | .error issues => (.invalid issues, rows)
    | .ok i =>
      match (createParams id businessID i).bind fun p => createProduct businesses p now rows with
      | some (returned, rows) => (.found 201 returned, rows)
      | none => (failure, rows)

/-! ## PATCH -/

/-- `findOne`, of the row: `none` is an error of the statement. -/
def findOne (businessID id : String) (rows : List ProductCells) : Option (Option ProductCells) :=
  (productConvert "id".toList (.text id)).bind fun key => (productConvert "business_id".toList (.text businessID)).map fun owner =>
    rows.find? fun row => decide (row "id".toList = key ∧ row "business_id".toList = owner)

/-- The text of `s4p_execUpdate`, parsed and run. -/
def runProductUpdate (id : String) (sets : List SetClause) (now : Nat) (rows : List ProductCells) :
    Option (List ProductCells × List (List Cell)) :=
  (Sql.parse (productExecUpdate id sets).1).bind fun u => u.run productConvert (.time now) (productExecUpdate id sets).2 rows

/-- `s4p_productPatch`: `found` are the rows that the ownership check sees, `rows` those that the update finds. -/
def productPatch (businessID id : String) (body : Body) (now : Nat) (found rows : List ProductCells) :
    Answer (List Cell) × List ProductCells :=
  match body with
  | none => (unreadable, rows)
  | some m =>
    match validateProduct m false with
    | .error issues => (.invalid issues, rows)
    | .ok i =>
      match findOne businessID id found with
      | none => (failure, rows)
      | some none => (.refused 404 "Product not found", rows)
      | some (some _) =>
        match runProductUpdate id i.sets now rows with
        | some (rows', returned :: _) => (.found 200 returned, rows')
        | some (rows', []) => (failure, rows')
        | none => (failure, rows)

/-- The write has succeeded. -/
def Answer.succeeded {α : Type} : Answer α → Bool
  | .found _ _ => true
  | _ => false

/-! ## What is accepted -/

theorem checkNumber_issue {key : String} {raw : Option RawValue} {required positive integer nonnegative : Bool} {n : ℚ}
    (checked : (checkNumber key raw required positive integer nonnegative).1 = some n) : numberIssue key positive integer nonnegative n = none := by
  revert checked
  unfold checkNumber
  split
  · intro checked
    cases checked
  · split
    · intro checked
      cases checked
    · rename_i sound
      intro checked
      obtain rfl := Option.some.inj checked
      exact sound
  · intro checked
    cases checked

theorem checkNumber_present {key : String} {raw : Option RawValue} {positive integer nonnegative : Bool}
    (sound : (checkNumber key raw true positive integer nonnegative).2 = []) :
    ∃ n, (checkNumber key raw true positive integer nonnegative).1 = some n := by
  revert sound
  unfold checkNumber
  split
  · intro issues
    cases issues
  · rename_i n
    split
    · intro issues
      cases issues
    · exact fun _ => ⟨n, rfl⟩
  · intro issues
    cases issues

/-- What a price and a stock that pass their checks are. -/
structure ProductInput.Sound (i : ProductInput) : Prop where
  price : ∀ p, i.price = some p → 0 < p
  stock : ∀ s, i.stock = some s → s.den = 1 ∧ 0 ≤ s ∧ s ≤ safeIntMax

/-- What is accepted is sound. -/
theorem validateProduct_sound {m : String → Option RawValue} {required : Bool} {i : ProductInput} (accepted : validateProduct m required = .ok i) :
    i.Sound := by
  unfold validateProduct at accepted
  simp only at accepted
  split at accepted
  · obtain rfl := Except.ok.inj accepted
    constructor
    · intro p checked
      have passed := checkNumber_issue checked
      simp only [numberIssue, Bool.false_eq_true, false_and, if_false, true_and, ite_eq_right_iff, reduceCtorEq, imp_false, not_le] at passed
      exact passed
    · intro s checked
      have passed := checkNumber_issue checked
      unfold numberIssue at passed
      split at passed
      · cases passed
      · rename_i integer
        split at passed
        · cases passed
        · split at passed
          · cases passed
          · rename_i nonneg
            split at passed
            · cases passed
            · rename_i small
              exact ⟨by simpa using integer, by simpa using nonneg, by simpa using small⟩
  · cases accepted

/-- A new product has a price and a stock. -/
theorem validateProduct_present {m : String → Option RawValue} {i : ProductInput} (accepted : validateProduct m true = .ok i) :
    (∃ p, i.price = some p) ∧ ∃ s, i.stock = some s := by
  unfold validateProduct at accepted
  simp only at accepted
  split at accepted
  · rename_i none
    obtain rfl := Except.ok.inj accepted
    simp only [List.isEmpty_iff, List.append_eq_nil_iff] at none
    obtain ⟨⟨⟨⟨⟨⟨⟨-, price⟩, stock⟩, -⟩, -⟩, -⟩, -⟩, -⟩ := none
    exact ⟨checkNumber_present price, checkNumber_present stock⟩
  · cases accepted

/-! ## What its columns hold of it -/

/-- An accepted stock survives the cut to 32 bits exactly when it fits. -/
theorem int32Part_eq_iff {s : ℚ} (integer : s.den = 1) (nonneg : 0 ≤ s) : ((int32Part s).toInt : ℚ) = s ↔ s < 2147483648 := by
  obtain ⟨n, rfl⟩ : ∃ n : Int, s = n := ⟨s.num, (Rat.coe_int_num_of_den_eq_one integer).symm⟩
  have positive : 0 ≤ n := by exact_mod_cast nonneg
  have cut : int32Part (n : ℚ) = Int32.ofInt n := by rw [int32Part, intPart, truncate_intCast, Int64.toInt32_ofInt]
  have fits := Workers.toInt_ofInt_iff n
  simp only [Workers.fitsInt32, Bool.and_eq_true, decide_eq_true_eq] at fits
  rw [cut, Int.cast_inj, fits]
  constructor
  · intro bounds
    exact_mod_cast bounds.2
  · intro small
    have below : n < 2147483648 := by exact_mod_cast small
    omega

/-- A positive price is positive in its column exactly from half a hundredth on. -/
theorem stored_price_iff {p : ℚ} {stored : Money} (positive : 0 < p) (stores : Numeric.ofDecimal p = some stored) :
    0 < stored.toDecimal ↔ 1 / 200 ≤ p := by
  have units := Numeric.ofDecimal_units stores
  have grid : p * 10 ^ 2 = p * 100 := by norm_num
  rw [grid] at units
  have something : 0 < roundHalfAway (p * 100) ↔ 1 / 2 ≤ p * 100 := roundHalfAway_pos_iff (by linarith)
  rw [Money.toDecimal_eq, div_pos_iff_of_pos_right (by norm_num), Int.cast_pos, units, something]
  constructor <;> intro h <;> linarith

/-- The row holds the submitted stock and a price above zero. -/
def StoredAsSubmitted (i : ProductInput) (row : ProductCells) : Prop :=
  (∀ s, i.stock = some s → ∃ n : Int32, row "stock".toList = .int4 n ∧ (n.toInt : ℚ) = s ∧ 0 ≤ n.toInt) ∧
    ∃ price : Money, row "price".toList = .numeric price ∧ 0 < price.toDecimal

/-- The stock is below 2^31 and the price at least half a hundredth; without a price, the row has one above zero already. -/
def Storable (i : ProductInput) (before : Option ProductCells) : Prop :=
  (∀ s, i.stock = some s → s < 2147483648) ∧
    match i.price with
    | some p => 1 / 200 ≤ p
    | none => ∃ row, before = some row ∧ ∃ price : Money, row "price".toList = .numeric price ∧ 0 < price.toDecimal

theorem convert_stock (n : Int32) : productConvert "stock".toList (.int4 n) = some (.int4 n) := rfl

theorem convert_price {p : ℚ} {cell : Cell} (converts : productConvert "price".toList (.numeric p) = some cell) :
    ∃ stored : Money, Numeric.ofDecimal p = some stored ∧ cell = .numeric stored := by
  have column : productConvert "price".toList (.numeric p) = (Numeric.ofDecimal p).map Cell.numeric := rfl
  rw [column] at converts
  obtain ⟨stored, stores, same⟩ := Option.map_eq_some_iff.1 converts
  exact ⟨stored, stores, same.symm⟩

/-- A row with the cells of what was submitted; the price may be that of the row before. -/
theorem storedAsSubmitted_iff {i : ProductInput} {row : ProductCells} {before : Option ProductCells} (sound : i.Sound)
    (stock : ∀ s, i.stock = some s → row "stock".toList = .int4 (int32Part s))
    (price : ∀ p, i.price = some p → productConvert "price".toList (.numeric p) = some (row "price".toList))
    (kept : i.price = none → ∃ old, before = some old ∧ row "price".toList = old "price".toList) :
    StoredAsSubmitted i row ↔ Storable i before := by
  refine and_congr (forall₂_congr fun s submitted => ?_) ?_
  · obtain ⟨integer, nonneg, -⟩ := sound.stock s submitted
    rw [stock s submitted, ← int32Part_eq_iff integer nonneg]
    constructor
    · rintro ⟨n, cell, exact', -⟩
      obtain rfl := Cell.int4.inj cell
      exact exact'
    · intro exact'
      exact ⟨_, rfl, exact', by rw [← exact'] at nonneg; exact_mod_cast nonneg⟩
  · cases submitted : i.price with
    | some p =>
      obtain ⟨stored, stores, cell⟩ := convert_price (price p submitted)
      rw [cell]
      show (∃ q : Money, Cell.numeric stored = .numeric q ∧ 0 < q.toDecimal) ↔ 1 / 200 ≤ p
      rw [← stored_price_iff (sound.price p submitted) stores]
      constructor
      · rintro ⟨q, same, positive⟩
        obtain rfl := Cell.numeric.inj same
        exact positive
      · exact fun positive => ⟨stored, rfl, positive⟩
    | none =>
      obtain ⟨old, rfl, same⟩ := kept submitted
      rw [same]
      constructor
      · exact fun positive => ⟨old, rfl, positive⟩
      · rintro ⟨row', there, positive⟩
        obtain rfl := Option.some.inj there
        exact positive

/-! ## A create -/

section Create

variable {p : CreateProductParams} {now : Nat}

/-- An argument of the INSERT is in its column. -/
theorem CreateProductParams.row_value (converts : p.converts = true) {column : String} {value : SqlValue}
    (mem : (column, some value) ∈ p.values) : productConvert column.toList value = some (p.row now column.toList) := by
  have names : p.values.map (fun v => v.1.toList) = (p.values.map Prod.fst).map String.toList := by rw [List.map_map]; rfl
  have injective : Function.Injective String.toList := fun a b same => String.toList_inj.1 same
  have distinct : (p.values.map (fun v => v.1.toList)).Nodup := by
    rw [names]
    exact (by decide : ["id", "business_id", "name", "description", "price", "stock", "sku", "is_available", "category", "stock_note",
      "delivery_note"].Nodup).map injective
  have found : (p.values.find? fun v => decide (v.1.toList = column.toList)) = some (column, some value) := Sql.find?_key distinct mem
  have converts := List.all_eq_true.1 converts _ mem
  obtain ⟨cell, converted⟩ := Option.isSome_iff_exists.1 converts
  simp only [CreateProductParams.row, found, Option.bind_some, converted, Option.getD_some]

/-- A text is stored as it is. -/
theorem convert_text {column : String} (textual : (productTypes.find? fun c => decide (c.1.toList = column.toList)) = some (column, .text))
    {s : String} {cell : Cell} (converts : productConvert column.toList (.text s) = some cell) : cell = .text s := by
  simp only [productConvert, convertOf, textual, Option.bind_some, ColumnType.store] at converts
  split at converts
  · cases converts
  · exact (Option.some.inj converts).symm

theorem convert_id {id : String} {cell : Cell} (converts : productConvert "id".toList (.text id) = some cell) : cell = .text id :=
  convert_text rfl converts

/-- The new row is there, with the submitted price and the stock that is left of the submitted one. -/
theorem createProduct_row {businesses : List String} {rows rows' : List ProductCells} {returned : List Cell}
    (created : createProduct businesses p now rows = some (returned, rows')) :
    storedRow rows' p.id = some (p.row now) ∧ p.row now "stock".toList = .int4 p.stock ∧
      productConvert "price".toList (.numeric p.price) = some (p.row now "price".toList) := by
  unfold createProduct at created
  split at created
  · rename_i sound
    obtain ⟨converts, fresh, -⟩ := sound
    obtain ⟨-, rfl⟩ := Prod.mk.inj (Option.some.inj created)
    have key : productConvert "id".toList (.text p.id) = some (p.row now "id".toList) := p.row_value converts (by simp [CreateProductParams.values])
    have stock : productConvert "stock".toList (.int4 p.stock) = some (p.row now "stock".toList) :=
      p.row_value converts (by simp [CreateProductParams.values])
    rw [convert_stock] at stock
    refine ⟨?_, (Option.some.inj stock).symm, p.row_value converts (by simp [CreateProductParams.values])⟩
    unfold storedRow at fresh ⊢
    rw [List.find?_append, fresh, Option.none_or]
    simp only [List.find?_cons, convert_id key, decide_true]
  · cases created

end Create

/-- A create that succeeds. -/
theorem productCreate_iff {businesses : List String} {businessID id : String} {m : String → Option RawValue} {i : ProductInput} {now : Nat}
    {rows : List ProductCells} (accepted : validateProduct m true = .ok i)
    (succeeded : (productCreate businesses businessID id (some m) now rows).1.succeeded = true) :
    ∃ row, storedRow (productCreate businesses businessID id (some m) now rows).2 id = some row ∧
      (StoredAsSubmitted i row ↔ Storable i (storedRow rows id)) := by
  obtain ⟨⟨price, priced⟩, ⟨stock, stocked⟩⟩ := validateProduct_present accepted
  have params : createParams id businessID i = some ⟨id, businessID, i.name.getD "", i.description, price, int32Part stock, i.sku,
      i.isAvailable.getD true, i.category, i.stockNote, i.deliveryNote⟩ := by
    simp only [createParams, priced, stocked]
  simp only [productCreate, accepted, params, Option.bind_some] at succeeded ⊢
  split at succeeded
  · rename_i returned rows' created
    obtain ⟨found, stockCell, priceCell⟩ := createProduct_row created
    refine ⟨_, found, storedAsSubmitted_iff (validateProduct_sound accepted) (fun s submitted => ?_) (fun p submitted => ?_) fun none => ?_⟩
    · obtain rfl := Option.some.inj (stocked.symm.trans submitted)
      exact stockCell
    · obtain rfl := Option.some.inj (priced.symm.trans submitted)
      exact priceCell
    · rw [priced] at none
      cases none
  · cases succeeded

/-! ## A patch -/

theorem mem_sets_stock {i : ProductInput} {s : ℚ} (submitted : i.stock = some s) : ⟨"stock", .int4 (int32Part s)⟩ ∈ i.sets := by
  simp [ProductInput.sets, submitted]

theorem mem_sets_price {i : ProductInput} {p : ℚ} (submitted : i.price = some p) : ⟨"price", .numeric p⟩ ∈ i.sets := by
  simp [ProductInput.sets, submitted]

theorem unset_price {i : ProductInput} (absent : i.price = none) : "price" ∉ i.sets.map SetClause.col := by
  cases available : i.isAvailable <;> simp [ProductInput.sets, absent, available]

/-- The row of a patch that succeeds. -/
theorem runProductUpdate_row {id : String} {i : ProductInput} {now : Nat} {rows rows' : List ProductCells} {returned : List Cell}
    {more : List (List Cell)} (ran : runProductUpdate id i.sets now rows = some (rows', returned :: more)) :
    ∃ old row, storedRow rows id = some old ∧ storedRow rows' id = some row ∧
      (∀ s ∈ i.sets, productConvert s.col.toList s.val = some (row s.col.toList)) ∧
      ∀ column, column ∉ i.sets.map SetClause.col → column ≠ "updated_at" → row column.toList = old column.toList := by
  obtain ⟨u, parsed, ran⟩ := Option.bind_eq_some_iff.1 ran
  have some' : i.sets ≠ [] := by
    intro none
    rw [none] at parsed
    exact absurd ((parse_execUpdate_nil productTemplate id).symm.trans parsed) (by simp)
  obtain ⟨u', parsed', writes⟩ := execUpdate_writes productTemplate productSettable_columns (productSets_columns i) id some'
  obtain rfl : u = u' := Option.some.inj (parsed.symm.trans parsed')
  have injective : Function.Injective String.toList := fun a b same => String.toList_inj.1 same
  obtain ⟨k, write, key, rfl, set, unset, returns⟩ := writes.ran (nodup_pairs (productSets_columns i) productSettable_columns.distinct) ran
  rw [pair_columns] at unset
  have unset' : ∀ row column, column ∉ i.sets.map SetClause.col → column ≠ "updated_at" → write row column.toList = row column.toList :=
    fun row column free other => unset row _ (fun mem => free ((List.mem_map_of_injective injective).1 mem)) fun same => other (injective same)
  obtain rfl := convert_id key
  have keeps : ∀ row, write row "id".toList = row "id".toList := fun row =>
    unset' row "id" (fun mem => absurd ((productSets_columns i).subset mem) (by decide)) (by decide)
  obtain ⟨old, there⟩ : ∃ old, storedRow rows id = some old := by
    obtain ⟨row, mem, named⟩ := returns (List.cons_ne_nil _ _)
    cases found : storedRow rows id with
    | some old => exact ⟨old, rfl⟩
    | none => exact absurd (decide_eq_true named) (List.find?_eq_none.1 found row mem)
  have named : old "id".toList = .text id := by simpa using List.find?_some there
  refine ⟨old, write old, there, ?_, fun s mem => set _ (List.mem_map_of_mem mem) old, unset' old⟩
  unfold storedRow at there ⊢
  have same : ((fun row : ProductCells => decide (row "id".toList = .text id)) ∘ fun row => if row "id".toList = .text id then write row else row) =
      fun row => decide (row "id".toList = .text id) := by
    funext row
    by_cases here : row "id".toList = .text id
    · simp only [Function.comp_apply, if_pos here, keeps row]
    · simp only [Function.comp_apply, if_neg here]
  rw [List.find?_map, same, there, Option.map_some, if_pos named]

/-- A patch that succeeds. -/
theorem productPatch_iff {businessID id : String} {m : String → Option RawValue} {i : ProductInput} {now : Nat} {found rows : List ProductCells}
    (accepted : validateProduct m false = .ok i) (succeeded : (productPatch businessID id (some m) now found rows).1.succeeded = true) :
    ∃ row, storedRow (productPatch businessID id (some m) now found rows).2 id = some row ∧
      (StoredAsSubmitted i row ↔ Storable i (storedRow rows id)) := by
  simp only [productPatch, accepted] at succeeded ⊢
  split at succeeded
  · cases succeeded
  · cases succeeded
  · rename_i owned
    split at succeeded
    · rename_i rows' returned more ran
      obtain ⟨old, row, there, stored, set, unset⟩ := runProductUpdate_row ran
      rw [there]
      refine ⟨row, stored, storedAsSubmitted_iff (validateProduct_sound accepted) (fun s submitted => ?_) (fun p submitted => ?_) fun none => ?_⟩
      · have cell : productConvert "stock".toList (.int4 (int32Part s)) = some (row "stock".toList) := set _ (mem_sets_stock submitted)
        rw [convert_stock] at cell
        exact (Option.some.inj cell).symm
      · exact set _ (mem_sets_price submitted)
      · exact ⟨old, rfl, unset "price" (unset_price none) (by decide)⟩
    · cases succeeded
    · cases succeeded

/-- Whatever body is accepted, a write that succeeds leaves the row with the submitted stock and a price above zero if and only if the
stock is below 2^31 and the price at least half a hundredth, or none is given and the row's was above zero. -/
theorem stored_iff_storable (businessID id : String) (m : String → Option RawValue) (i : ProductInput) (now : Nat) (rows : List ProductCells) :
    (∀ businesses : List String, validateProduct m true = .ok i →
      (productCreate businesses businessID id (some m) now rows).1.succeeded = true →
      ∃ row, storedRow (productCreate businesses businessID id (some m) now rows).2 id = some row ∧
        (StoredAsSubmitted i row ↔ Storable i (storedRow rows id))) ∧
    ∀ found : List ProductCells, validateProduct m false = .ok i →
      (productPatch businessID id (some m) now found rows).1.succeeded = true →
      ∃ row, storedRow (productPatch businessID id (some m) now found rows).2 id = some row ∧
        (StoredAsSubmitted i row ↔ Storable i (storedRow rows id)) :=
  ⟨fun _ accepted succeeded => productCreate_iff accepted succeeded, fun _ accepted succeeded => productPatch_iff accepted succeeded⟩

/-- A body of a new product. -/
def productBody (price stock : ℚ) (field : String) : Option RawValue :=
  if field = "name" then some (.string "Tea")
  else if field = "price" then some (.number (some price))
  else if field = "stock" then some (.number (some stock))
  else none

/-- What it is checked to. -/
def productOf (price stock : ℚ) : ProductInput := ⟨some "Tea", none, some price, some stock, none, none, none, none, none⟩

/-- The table after such a create. -/
def createdWith (price stock : ℚ) : Answer (List Cell) × List ProductCells :=
  productCreate ["b1"] "b1" "p1" (some (productBody price stock)) 0 []

/-- A create, and a patch of its stock, are stored as submitted. -/
theorem fitting_bodies_stored :
    (∃ row, storedRow (createdWith (9 / 2) 5).2 "p1" = some row ∧ StoredAsSubmitted (productOf (9 / 2) 5) row) ∧
    ∃ row, storedRow (productPatch "b1" "p1" (some stockBody) 1 (createdWith (9 / 2) 5).2 (createdWith (9 / 2) 5).2).2 "p1" = some row ∧
      StoredAsSubmitted ⟨none, none, none, some 7, none, none, none, none, none⟩ row := by
  have accepted : validateProduct (productBody (9 / 2) 5) true = .ok (productOf (9 / 2) 5) := by decide +kernel
  have patched : validateProduct stockBody false = .ok ⟨none, none, none, some 7, none, none, none, none, none⟩ := by decide +kernel
  have created : (createdWith (9 / 2) 5).1.succeeded = true := by decide +kernel
  have updated : (productPatch "b1" "p1" (some stockBody) 1 (createdWith (9 / 2) 5).2 (createdWith (9 / 2) 5).2).1.succeeded = true := by
    decide +kernel
  obtain ⟨row, there, exact'⟩ := (stored_iff_storable "b1" "p1" _ _ 0 []).1 ["b1"] accepted created
  obtain ⟨row', there', exact''⟩ := (stored_iff_storable "b1" "p1" _ _ 1 (createdWith (9 / 2) 5).2).2 (createdWith (9 / 2) 5).2 patched updated
  have sound : StoredAsSubmitted (productOf (9 / 2) 5) row := by
    refine exact'.2 ⟨fun s submitted => ?_, by norm_num [productOf]⟩
    obtain rfl := Option.some.inj submitted
    norm_num
  refine ⟨⟨row, there, sound⟩, row', there', exact''.2 ⟨fun s submitted => ?_, row, there, sound.2⟩⟩
  obtain rfl := Option.some.inj submitted
  norm_num

/-- A stock of 2^31 is accepted and written, and what is stored is not what was submitted. -/
theorem big_stock_wraps : ¬ ∀ (businesses : List String) (businessID id : String) (m : String → Option RawValue) (i : ProductInput) (now : Nat)
    (rows : List ProductCells), validateProduct m true = .ok i →
    (productCreate businesses businessID id (some m) now rows).1.succeeded = true →
    ∃ row, storedRow (productCreate businesses businessID id (some m) now rows).2 id = some row ∧ StoredAsSubmitted i row := by
  intro always
  have accepted : validateProduct (productBody (9 / 2) 2147483648) true = .ok (productOf (9 / 2) 2147483648) := by decide +kernel
  have created : (createdWith (9 / 2) 2147483648).1.succeeded = true := by decide +kernel
  obtain ⟨row, there, stored⟩ := always ["b1"] "b1" "p1" _ _ 0 [] accepted created
  obtain ⟨row', there', exact'⟩ := @productCreate_iff ["b1"] "b1" "p1" _ _ 0 [] accepted created
  obtain rfl := Option.some.inj (there.symm.trans there')
  exact absurd ((exact'.1 stored).1 2147483648 rfl) (by norm_num)

end NovoApex.Handlers
