import NovoApex.Vendors.OwnImages

/-!
# What a vendor's requests leave alone

Several of the last statements of a vendor's request name their row by its id alone, and
rely on an earlier read: a product on the guard of ownership, an image on a lookup under
its product or on the set of the product's images, a location on the row that was read,
and a conversation on the order that names it, whose conversation is one of the order's
business. So no request writes a row of another business, however the requests of one
business are interleaved, and wherever they stop.
-/

namespace NovoApex.Vendors
set_option autoImplicit false
open Lib Program Db Handlers

/-! ## Rows of others -/

def productOfOthers (businessID : String) (row : ProductCells) : Bool := decide (row "business_id".toList ≠ .text businessID)

theorem productOfOthers_iff {businessID : String} {row : ProductCells} :
    productOfOthers businessID row = true ↔ row "business_id".toList ≠ .text businessID := decide_eq_true_iff

/-- An image belongs to the business of its product. -/
def imageOfOthers (businessID : String) (products : List ProductCells) (r : Images.ImageRow) : Bool :=
  products.any fun row => productOfOthers businessID row && decide (row "id".toList = .text r.productID)

def orderOfOthers (businessID : String) (o : Order) : Bool := decide (o.businessID ≠ businessID)

def conversationOfOthers (businessID : String) (c : Conversation) : Bool := decide (c.businessID ≠ businessID)

def locationOfOthers (businessID : String) (l : Location) : Bool := decide (l.businessID ≠ businessID)

/-- The rows of other businesses are the same, in the same order, and no more. -/
structure OthersUnchanged (businessID : String) (before after : VendorWorld) : Prop where
  products : after.products.filter (productOfOthers businessID) = before.products.filter (productOfOthers businessID)
  images : after.images.images.share (imageOfOthers businessID after.products) =
    before.images.images.share (imageOfOthers businessID before.products)
  orders : after.db.orders.share (orderOfOthers businessID) = before.db.orders.share (orderOfOthers businessID)
  conversations : after.db.conversations.share (conversationOfOthers businessID) =
    before.db.conversations.share (conversationOfOthers businessID)
  locations : after.locations.share (locationOfOthers businessID) = before.locations.share (locationOfOthers businessID)

/-- The conversation of an order is one of the order's business. -/
def OrdersLinked (db : Database) : Prop :=
  ∀ o ∈ db.orders.rows, ∀ c ∈ db.conversations.rows, o.conversationID = some c.id → c.businessID = o.businessID

instance (db : Database) : Decidable (OrdersLinked db) := inferInstanceAs (Decidable (∀ o ∈ db.orders.rows, ∀ c ∈ db.conversations.rows, _))

/-- `products_pkey`. -/
def UniqueProducts (products : List ProductCells) : Prop := (products.map fun row => row "id".toList).Nodup

instance (products : List ProductCells) : Decidable (UniqueProducts products) := inferInstanceAs (Decidable (List.Nodup _))

/-! ## The invariant -/

section Invariant

variable (businessID : String) (start : VendorWorld)

/-- No product of another business has the id. -/
def OwnProduct (id : String) : Prop := ∀ row ∈ start.products, productOfOthers businessID row = true → row "id".toList ≠ .text id

/-- No location of another business has the id. -/
def OwnLocation (id : String) : Prop := ∀ l ∈ start.locations.share (locationOfOthers businessID), l.id ≠ id

/-- No conversation of another business has the id. -/
def OwnConversation (id : String) : Prop := ∀ c ∈ start.db.conversations.share (conversationOfOthers businessID), c.id ≠ id

/-- The images of the others. -/
abbrev imagesOfOthers : List Images.ImageRow := start.images.images.share (imageOfOthers businessID start.products)

/-- The rows of the order pipeline. -/
structure OrdersKept (db : Database) : Prop where
  orders : db.orders.share (orderOfOthers businessID) = start.db.orders.share (orderOfOthers businessID)
  conversations : db.conversations.share (conversationOfOthers businessID) = start.db.conversations.share (conversationOfOthers businessID)
  linked : OrdersLinked db

structure ProductsKept (products : List ProductCells) : Prop where
  share : products.filter (productOfOthers businessID) = start.products.filter (productOfOthers businessID)
  unique : UniqueProducts products

def LocationsKept (w : LocationWorld) : Prop :=
  w.locations.share (locationOfOthers businessID) = start.locations.share (locationOfOthers businessID)

/-- The store while requests of the business run. -/
structure Isolated (w : VendorWorld) : Prop where
  orders : OrdersKept businessID start w.db
  products : ProductsKept businessID start w.products
  images : ImagesKept (imageOfOthers businessID start.products) (imagesOfOthers businessID start) w.images
  locations : LocationsKept businessID start w.locationWorld

/-- What a request may issue on orders and conversations. -/
def OrderAble : Stmt → Prop
  | .getOrderByIDAndBusiness .. => True
  | .updateOrderFulfillment _ _ b _ => b = businessID
  | .insertScheduledFollowUp _ => True
  | .escalateConversationByID id => OwnConversation businessID start id
  | .takeoverConversation _ b => b = businessID
  | .releaseConversation _ b => b = businessID
  | _ => False

/-- What it may issue on locations. -/
def LocationAble : LocationStmt → Prop
  | .createLocation row => row.businessID = businessID
  | .getLocationByIDAndBusiness .. => True
  | .updateLocation id _ => OwnLocation businessID start id
  | .deleteLocationByIDAndBusiness _ b => b = businessID

/-- What it may issue at all. -/
def Able : VendorStmt → Prop
  | .orders op => OrderAble businessID start op
  | .locations _ op => LocationAble businessID start op
  | .replies _ => True
  | .images _ productID op => ImageAble (imageOfOthers businessID start.products) (imagesOfOthers businessID start) productID op
  | .findProduct .. => True
  | .listProductImages _ => True
  | .createProduct p _ => p.businessID = businessID
  | .updateProduct id sets _ => (∃ i : ProductInput, sets = i.sets) ∧ OwnProduct businessID start id
  | .deleteProductByIDAndBusiness _ b => b = businessID

end Invariant

variable {businessID : String} {start : VendorWorld}

/-! ## Orders and conversations -/

/-- A write on conversations of the business that leaves their business alone. -/
theorem OrdersKept.setConversation {db : Database} (inv : OrdersKept businessID start db) {sel : Conversation → Bool}
    {state : ConversationState} {escalated : Bool} (own : ∀ c ∈ db.conversations.rows, sel c = true → c.businessID = businessID) :
    OrdersKept businessID start (Db.setConversation sel state escalated db).2 where
  orders := inv.orders
  conversations := by
    refine (Table.filter_rewrite fun c mem selected => ?_).trans inv.conversations
    have mine := own c mem selected
    simp [conversationOfOthers, mine]
  linked := by
    intro o mem c mem' same
    obtain ⟨old, there, rfl⟩ := List.mem_map.1 mem'
    have written : ∀ c : Conversation, (Table.rewrite sel (fun c => { c with state := state, isEscalatedToHuman := escalated }) c).id = c.id ∧
        (Table.rewrite sel (fun c => { c with state := state, isEscalatedToHuman := escalated }) c).businessID = c.businessID := by
      intro c
      unfold Table.rewrite
      split <;> exact ⟨rfl, rfl⟩
    rw [(written old).1] at same
    rw [(written old).2]
    exact inv.linked o mem old there same

/-- An able statement keeps the orders and conversations of the others. -/
theorem OrdersKept.exec {db : Database} (inv : OrdersKept businessID start db) {op : Stmt} (able : OrderAble businessID start op) :
    OrdersKept businessID start (NovoApex.exec op db).2 := by
  cases op with
  | getOrderByIDAndBusiness id b => exact inv
  | updateOrderFulfillment status id b now =>
    obtain rfl : b = businessID := able
    refine ⟨?_, inv.conversations, ?_⟩
    · refine (Table.filter_rewrite fun o mem selected => ?_).trans inv.orders
      simp only [Bool.and_eq_true, decide_eq_true_eq] at selected
      simp [orderOfOthers, selected.2]
    · intro o mem c mem' same
      rcases mem_setStatus.1 mem with ⟨there, -⟩ | ⟨old, there, -, rfl⟩
      · exact inv.linked o there c mem' same
      · exact inv.linked old there c mem' same
  | insertScheduledFollowUp f =>
    simp only [NovoApex.exec, Db.insertScheduledFollowUp]
    split
    · exact inv
    · split
      · exact inv
      · split
        · exact inv
        · exact ⟨inv.orders, inv.conversations, inv.linked⟩
  | escalateConversationByID id =>
    refine inv.setConversation fun c mem selected => ?_
    by_contra foreign
    have there : c ∈ start.db.conversations.share (conversationOfOthers businessID) := by
      rw [← inv.conversations]
      exact Table.mem_share.2 ⟨mem, by simpa [conversationOfOthers] using foreign⟩
    exact able c there (of_decide_eq_true selected)
  | takeoverConversation id b =>
    obtain rfl : b = businessID := able
    refine inv.setConversation fun c mem selected => ?_
    simp only [Bool.and_eq_true, decide_eq_true_eq] at selected
    exact selected.2
  | releaseConversation id b =>
    obtain rfl : b = businessID := able
    refine inv.setConversation fun c mem selected => ?_
    simp only [Bool.and_eq_true, decide_eq_true_eq] at selected
    exact selected.2
  | _ => exact able.elim

/-- The conversation of an order of the business is none of the others'. -/
theorem OrdersKept.conversation {db : Database} (inv : OrdersKept businessID start db) {id c : String} {o : Order}
    (found : getOrderByIDAndBusiness id businessID db = some o) (named : o.conversationID = some c) :
    OwnConversation businessID start c := by
  intro conv there same
  rw [← inv.conversations] at there
  obtain ⟨mem, foreign⟩ := Table.mem_share.1 there
  obtain ⟨stored, mine⟩ := Option.filter_eq_some_iff.1 found
  have linked := inv.linked o (Table.find?_eq_some.1 stored).1 conv mem (by rw [same]; exact named)
  simp only [conversationOfOthers, decide_eq_true_eq] at foreign mine
  exact foreign (linked.trans mine)

/-! ## Locations -/

theorem LocationsKept.exec {w : LocationWorld} (inv : LocationsKept businessID start w) (i : Nat) {op : LocationStmt}
    (able : LocationAble businessID start op) : LocationsKept businessID start (locationExec (i, op) w).2 := by
  cases op with
  | createLocation row =>
    obtain rfl : row.businessID = businessID := able
    simp only [locationExec]
    split
    · rename_i w' created
      unfold createLocation at created
      split at created
      · cases created
      · split at created
        · rename_i rows inserted
          obtain rfl := Except.ok.inj created
          exact (Table.share_insert inserted (by simp [locationOfOthers])).trans inv
        · cases created
    · exact inv
  | getLocationByIDAndBusiness id b => exact inv
  | updateLocation id sets =>
    simp only [locationExec]
    split
    · exact inv
    · refine (Table.filter_rewrite fun l mem selected => ?_).trans inv
      have mine : l.businessID = businessID := by
        by_contra foreign
        have there : l ∈ start.locations.share (locationOfOthers businessID) := by
          rw [← (show _ = _ from inv)]
          exact Table.mem_share.2 ⟨mem, by simpa [locationOfOthers] using foreign⟩
        exact able l there (of_decide_eq_true selected)
      simp [locationOfOthers, (l.write_owner sets).2, mine]
  | deleteLocationByIDAndBusiness id b =>
    obtain rfl : b = businessID := able
    refine (Table.filter_kept fun l mem foreign => ?_).trans inv
    simp only [locationOfOthers, decide_eq_true_eq] at foreign
    simp [foreign]

/-- A location that was read is none of the others'. -/
theorem LocationsKept.found {w : LocationWorld} (inv : LocationsKept businessID start w) {id : String} {l : Location}
    (found : getLocation id businessID w = some l) : OwnLocation businessID start id := by
  obtain ⟨stored, mine⟩ := Option.filter_eq_some_iff.1 found
  obtain ⟨mem, rfl⟩ := Table.find?_eq_some.1 stored
  intro other there same
  rw [← (show _ = _ from inv)] at there
  obtain ⟨mem', foreign⟩ := Table.mem_share.1 there
  simp only [locationOfOthers, decide_eq_true_eq] at foreign mine
  rw [w.locations.eq_of_key mem' mem same] at foreign
  exact foreign mine

/-! ## Products -/

/-- A product of the business, as some statement finds it, has an id that no product of another business has. -/
theorem ProductsKept.own {products : List ProductCells} (inv : ProductsKept businessID start products) {row : ProductCells} {id : String}
    (mem : row ∈ products) (named : row "id".toList = .text id) (mine : row "business_id".toList = .text businessID) :
    OwnProduct businessID start id := by
  intro other there foreign same
  have there' : other ∈ products.filter (productOfOthers businessID) := by
    rw [inv.share]
    exact List.mem_filter.2 ⟨there, foreign⟩
  have one : other = row := List.inj_on_of_nodup_map inv.unique (List.mem_filter.1 there').1 mem (same.trans named.symm)
  rw [one, productOfOthers_iff] at foreign
  exact foreign mine

/-- `findOne` finds a product of the business. -/
theorem ProductsKept.found {products : List ProductCells} (inv : ProductsKept businessID start products) {id : String} {row : ProductCells}
    (found : findOne businessID id products = some (some row)) : OwnProduct businessID start id := by
  obtain ⟨key, converted, found⟩ := Option.bind_eq_some_iff.1 found
  obtain ⟨owner, owned, found⟩ := Option.map_eq_some_iff.1 found
  have selected := List.find?_some found
  simp only [decide_eq_true_eq] at selected
  refine inv.own (List.mem_of_find?_eq_some found) (selected.1.trans (convert_id converted)) (selected.2.trans ?_)
  exact convert_text rfl owned

/-- The cells of a new product's id and business. -/
theorem row_named {p : CreateProductParams} (converts : p.converts = true) (now : Nat) :
    p.row now "id".toList = .text p.id ∧ p.row now "business_id".toList = .text p.businessID :=
  have id : ("id", some (SqlValue.text p.id)) ∈ p.values := List.mem_cons_self
  have business : ("business_id", some (SqlValue.text p.businessID)) ∈ p.values := List.mem_cons_of_mem _ List.mem_cons_self
  ⟨convert_id (p.row_value converts id), convert_text rfl (p.row_value converts business)⟩

theorem ProductsKept.created {products products' : List ProductCells} {businesses : List String} {p : CreateProductParams} {now : Nat}
    {returned : List Cell} (inv : ProductsKept businessID start products) (mine : p.businessID = businessID)
    (created : createProduct businesses p now products = some (returned, products')) : ProductsKept businessID start products' := by
  unfold createProduct at created
  split at created
  · rename_i sound
    obtain ⟨converts, fresh, -⟩ := sound
    obtain ⟨-, rfl⟩ := Prod.mk.inj (Option.some.inj created)
    obtain ⟨id, business⟩ := row_named converts now
    constructor
    · have own : ¬ productOfOthers businessID (p.row now) = true := by
        rw [productOfOthers_iff, not_not, business, mine]
      rw [List.filter_append, List.filter_cons_of_neg own, List.filter_nil, List.append_nil]
      exact inv.share
    · unfold UniqueProducts
      rw [List.map_append]
      refine List.nodup_append.2 ⟨inv.unique, List.nodup_singleton _, fun key mem key' mem' same => ?_⟩
      obtain ⟨row, there, rfl⟩ := List.mem_map.1 mem
      rw [List.map_singleton, List.mem_singleton, id] at mem'
      exact absurd (decide_eq_true (same.trans mem')) (List.find?_eq_none.1 fresh row there)
  · cases created

/-- The columns that a body sets are neither the id nor the business. -/
theorem runProductUpdate_written {id : String} {i : ProductInput} {now : Nat} {products products' : List ProductCells} {out : List (List Cell)}
    (ran : runProductUpdate id i.sets now products = some (products', out)) :
    ∃ write : ProductCells → ProductCells, products' = products.map (Table.rewrite (fun row => decide (row "id".toList = .text id)) write) ∧
      ∀ row, write row "id".toList = row "id".toList ∧ write row "business_id".toList = row "business_id".toList := by
  obtain ⟨u, parsed, ran⟩ := Option.bind_eq_some_iff.1 ran
  have some' : i.sets ≠ [] := by
    intro none
    rw [none] at parsed
    exact absurd ((parse_execUpdate_nil productTemplate id).symm.trans parsed) (by simp)
  obtain ⟨u', parsed', writes⟩ := execUpdate_writes productTemplate productSettable_columns (productSets_columns i) id some'
  obtain rfl : u = u' := Option.some.inj (parsed.symm.trans parsed')
  have injective : Function.Injective String.toList := fun a b same => String.toList_inj.1 same
  obtain ⟨k, write, key, rfl, -, unset, -⟩ := writes.ran (nodup_pairs (productSets_columns i) productSettable_columns.distinct) ran
  rw [pair_columns] at unset
  obtain rfl := convert_id key
  have kept : ∀ column, column ∉ productSettable → column ≠ "updated_at" → ∀ row, write row column.toList = row column.toList := by
    intro column free other row
    refine unset row _ (fun mem => free ?_) fun same => other (injective same)
    exact (productSets_columns i).subset ((List.mem_map_of_injective injective).1 mem)
  refine ⟨write, List.map_congr_left fun row _ => ?_, fun row => ⟨kept "id" (by decide) (by decide) row, kept "business_id" (by decide) (by decide) row⟩⟩
  simp only [Table.rewrite, decide_eq_true_eq]

theorem ProductsKept.updated {products products' : List ProductCells} {id : String} {i : ProductInput} {now : Nat} {out : List (List Cell)}
    (inv : ProductsKept businessID start products) (own : OwnProduct businessID start id)
    (ran : runProductUpdate id i.sets now products = some (products', out)) : ProductsKept businessID start products' := by
  obtain ⟨write, rfl, kept⟩ := runProductUpdate_written ran
  constructor
  · refine (Table.filter_rewrite fun row mem selected => ?_).trans inv.share
    have mine : productOfOthers businessID row = false := by
      cases foreign : productOfOthers businessID row with
      | false => rfl
      | true =>
        have there : row ∈ start.products.filter (productOfOthers businessID) := by
          rw [← inv.share]
          exact List.mem_filter.2 ⟨mem, foreign⟩
        exact absurd (of_decide_eq_true selected) (own row (List.mem_filter.1 there).1 foreign)
    refine ⟨mine, ?_⟩
    unfold productOfOthers at mine ⊢
    rw [(kept row).2]
    exact mine
  · unfold UniqueProducts
    have same : (products.map (Table.rewrite (fun row => decide (row "id".toList = .text id)) write)).map (fun row => row "id".toList) =
        products.map fun row => row "id".toList := by
      rw [List.map_map]
      refine List.map_congr_left fun row _ => ?_
      unfold Function.comp Table.rewrite
      split
      · exact (kept row).1
      · rfl
    rw [same]
    exact inv.unique

/-! ## All statements -/

theorem imageOfOthers_iff {products : List ProductCells} {r : Images.ImageRow} : imageOfOthers businessID products r = true ↔
    ∃ row ∈ products, productOfOthers businessID row = true ∧ row "id".toList = .text r.productID := by
  unfold imageOfOthers
  rw [List.any_eq_true]
  exact exists_congr fun row => and_congr_right fun _ => by rw [Bool.and_eq_true, decide_eq_true_iff]

/-- Whose an image is depends on the products of the others only. -/
theorem ProductsKept.imageOfOthers {products : List ProductCells} (inv : ProductsKept businessID start products) :
    imageOfOthers businessID products = imageOfOthers businessID start.products := by
  funext r
  have both : ∀ rows : List ProductCells, Vendors.imageOfOthers businessID rows r =
      (rows.filter (productOfOthers businessID)).any fun row => decide (row "id".toList = .text r.productID) := by
    intro rows
    rw [List.any_filter]
    rfl
  rw [both, both, inv.share]

theorem sameProduct (products : List ProductCells) (r s : Images.ImageRow) (same : r.productID = s.productID) :
    imageOfOthers businessID products r = imageOfOthers businessID products s := by
  unfold imageOfOthers
  rw [same]

/-- The images of a product that is not one of the others'. -/
theorem OwnProduct.images {id : String} (own : OwnProduct businessID start id) (r : Images.ImageRow) (of : r.productID = id) :
    imageOfOthers businessID start.products r = false := by
  cases foreign : imageOfOthers businessID start.products r with
  | false => rfl
  | true =>
    obtain ⟨row, mem, other, named⟩ := imageOfOthers_iff.1 foreign
    rw [of] at named
    exact absurd named (own row mem other)

/-- A product that is deleted takes no image of the others along. -/
theorem Isolated.deleted {w w' : VendorWorld} {id : String} (inv : Isolated businessID start w)
    (deleted : deleteProduct id businessID w = .ok w') : Isolated businessID start w' := by
  unfold deleteProduct at deleted
  simp only at deleted
  split at deleted
  · obtain rfl := Except.ok.inj deleted
    exact inv
  · rename_i selected
    split at deleted
    · cases deleted
    · obtain rfl := Except.ok.inj deleted
      obtain ⟨row, mem, here⟩ : ∃ row ∈ w.products, row "id".toList = .text id ∧ row "business_id".toList = .text businessID := by
        rw [List.all_eq_true] at selected
        push Not at selected
        obtain ⟨row, mem, found⟩ := selected
        refine ⟨row, mem, ?_⟩
        rw [ne_eq, Bool.not_eq_true', Bool.not_eq_false, Bool.and_eq_true, decide_eq_true_iff, decide_eq_true_iff] at found
        exact found
      have own := inv.products.own mem here.1 here.2
      refine ⟨inv.orders, ⟨?_, ?_⟩, ⟨?_, inv.images.pending⟩, inv.locations⟩
      · refine (Table.filter_kept fun r mem' foreign => ?_).trans inv.products.share
        rw [productOfOthers_iff] at foreign
        rw [Bool.not_eq_true', Bool.and_eq_false_iff]
        exact .inr (decide_eq_false foreign)
      · exact (List.filter_sublist.map _).nodup inv.products.unique
      · refine (Table.share_delete fun r mem' selected' => ?_).trans inv.images.share
        exact own.images r (of_decide_eq_true selected')

/-- A write on products. -/
theorem Isolated.wrote {α : Type} {w : VendorWorld} (inv : Isolated businessID start w) {result : Option (α × List ProductCells)}
    (kept : ∀ returned products, result = some (returned, products) → ProductsKept businessID start products) :
    Isolated businessID start (writeProducts w result).2 := by
  cases result with
  | none => exact inv
  | some written => exact ⟨inv.orders, kept _ _ rfl, inv.images, inv.locations⟩

/-- An able statement keeps the rows of the others. -/
theorem Isolated.exec {w : VendorWorld} (inv : Isolated businessID start w) {op : VendorStmt} (able : Able businessID start op) :
    Isolated businessID start (vendorExec op w).2 := by
  cases op with
  | orders op => exact ⟨inv.orders.exec able, inv.products, inv.images, inv.locations⟩
  | locations i op => exact ⟨inv.orders, inv.products, inv.images, LocationsKept.exec inv.locations i able⟩
  | replies op => exact ⟨inv.orders, inv.products, inv.images, inv.locations⟩
  | images i productID op => exact ⟨inv.orders, inv.products, inv.images.exec (sameProduct start.products) able, inv.locations⟩
  | findProduct b id => exact inv
  | listProductImages productID => exact inv
  | createProduct p now =>
    show Isolated businessID start (writeProducts w (createProduct (w.db.businesses.rows.map Business.id) p now w.products)).2
    refine inv.wrote fun returned products created => ?_
    exact inv.products.created able created
  | updateProduct id sets now =>
    obtain ⟨⟨i, rfl⟩, own⟩ := able
    show Isolated businessID start (writeProducts w ((runProductUpdate id i.sets now w.products).map Prod.swap)).2
    refine inv.wrote fun returned products updated => ?_
    obtain ⟨⟨products', returned'⟩, ran, same⟩ := Option.map_eq_some_iff.1 updated
    obtain ⟨rfl, rfl⟩ := Prod.mk.inj same
    exact inv.products.updated own ran
  | deleteProductByIDAndBusiness id b =>
    obtain rfl : b = businessID := able
    show Isolated b start ((deleteProduct id b w).toOption.getD w)
    cases deleted : deleteProduct id b w with
    | ok w' => exact inv.deleted deleted
    | error e => exact inv

/-- The rows of the others, as an isolated store has them. -/
theorem Isolated.unchanged {w : VendorWorld} (inv : Isolated businessID start w) : OthersUnchanged businessID start w where
  products := inv.products.share
  images := by
    rw [inv.products.imageOfOthers]
    exact inv.images.share
  orders := inv.orders.orders
  conversations := inv.orders.conversations
  locations := inv.locations

/-! ## The requests -/

/-- A program that, answered by isolated stores, issues able statements only. -/
abbrev OwnHandler (businessID : String) (start : VendorWorld) {α : Type} (p : VendorHandler α) : Prop :=
  p.Finds vendorExec (Isolated businessID start) (Able businessID start) fun _ => True

theorem own_ignore {α : Type} {p : VendorHandler α} (own : OwnHandler businessID start p) : OwnHandler businessID start (ignore p) :=
  Finds.bind_any own fun _ => trivial

/-- What follows the guard runs for a product of the business. -/
theorem own_writeFindOne {α : Type} {id : String} {next : ProductCells × List Images.ImageRow → VendorHandler (Answer α)}
    (rest : OwnProduct businessID start id → ∀ product, OwnHandler businessID start (next product)) :
    OwnHandler businessID start (writeFindOne businessID id next) := by
  have found : (findOwned businessID id).Finds vendorExec (Isolated businessID start) (Able businessID start)
      fun r => ∀ product, r = .ok (some product) → OwnProduct businessID start id := by
    refine Finds.call_bind trivial (fun _ h => by cases h) (fun _ _ _ _ _ h => by cases h) fun w row inv answered => ?_
    cases row with
    | none => exact fun _ h => by cases h
    | some row =>
      have own : OwnProduct businessID start id := by
        have answered : (findOne businessID id w.products).elim (Except.error VendorError.statement) Except.ok = Except.ok (some row) := answered
        cases looked : findOne businessID id w.products with
        | none =>
          rw [looked] at answered
          cases answered
        | some found =>
          rw [looked] at answered
          obtain rfl := Except.ok.inj answered
          exact inv.products.found looked
      exact Finds.call_bind trivial (fun _ _ => own) (fun _ _ _ _ _ _ => own) fun _ _ _ _ _ _ => own
  refine Finds.attempt_bind found fun result known => ?_
  match result with
  | .error _ => trivial
  | .ok none => trivial
  | .ok (some product) => exact rest (known product rfl) product

theorem own_respondWritten (id : String) (status : Nat) (returned : List Cell) :
    OwnHandler businessID start (respondWritten id status returned) := by
  have listed : OwnHandler businessID start (call (I := vendorStore) (.listProductImages id)) := ⟨trivial, fun _ _ => trivial, trivial⟩
  refine Finds.attempt_bind listed fun images _ => ?_
  cases images <;> trivial

theorem own_updateProduct {id : String} {sets : List SetClause} {now status : Nat} (fields : ∃ i : ProductInput, sets = i.sets)
    (own : OwnProduct businessID start id) : OwnHandler businessID start (updateProduct id sets now status) := by
  have updated : OwnHandler businessID start (call (I := vendorStore) (.updateProduct id sets now)) :=
    ⟨⟨fields, own⟩, fun _ _ => trivial, trivial⟩
  refine Finds.attempt_bind updated fun result _ => ?_
  match result with
  | .error _ => trivial
  | .ok [] => trivial
  | .ok (returned :: _) => exact own_respondWritten id status returned

theorem own_productCreate (id : String) (body : Body) (now : Nat) : OwnHandler businessID start (productCreate businessID id body now) := by
  unfold productCreate
  split
  · trivial
  · split
    · trivial
    · split
      · trivial
      · rename_i p params
        have mine : p.businessID = businessID := by
          unfold createParams at params
          split at params
          · obtain rfl := Option.some.inj params
            rfl
          · cases params
        have created : OwnHandler businessID start (call (I := vendorStore) (.createProduct p now)) := ⟨mine, fun _ _ => trivial, trivial⟩
        refine Finds.attempt_bind created fun result _ => ?_
        cases result with
        | error e => trivial
        | ok returned => exact own_respondWritten id 201 returned

theorem own_productPatch (id : String) (body : Body) (now : Nat) : OwnHandler businessID start (productPatch businessID id body now) := by
  unfold productPatch
  split
  · trivial
  · split
    · trivial
    · exact own_writeFindOne fun own _ => own_updateProduct ⟨_, rfl⟩ own

/-- The columns of a product that is out of stock. -/
theorem outOfStock_fields : outOfStockSets = ProductInput.sets ⟨none, none, none, some 0, none, some false, none, none, none⟩ := by
  decide +kernel

theorem own_productOutOfStock (id : String) (now : Nat) : OwnHandler businessID start (productOutOfStock businessID id now) :=
  own_writeFindOne fun own _ => own_updateProduct ⟨_, outOfStock_fields⟩ own

theorem own_productDelete (id : String) : OwnHandler businessID start (productDelete businessID id) := by
  refine own_writeFindOne fun _ _ => ?_
  have deleted : OwnHandler businessID start (call (I := vendorStore) (.deleteProductByIDAndBusiness id businessID)) :=
    ⟨rfl, fun _ _ => trivial, trivial⟩
  refine Finds.attempt_bind deleted fun result _ => ?_
  cases result <;> trivial

/-- A request on images, behind the guard. -/
theorem own_imageRequest {id : String} {request status : Nat} {p : Program Images.imageStore Unit}
    (own : OwnRequest (imageOfOthers businessID start.products) (imagesOfOthers businessID start) request id (fun _ => True) p) :
    OwnHandler businessID start (imageRequest businessID id request status p) := by
  unfold OwnRequest at own
  have embedded : OwnHandler businessID start (p.embed (imageStatements request id)) := by
    refine (Finds.embed VendorWorld.images (fun op t => ?_) (fun _ => rfl) (fun t inv => inv.images) (fun _ able => able) own).mono
      fun _ _ => trivial
    show Except.mapError _ (Except.mapError _ _) = _
    cases (Images.imageExec id (request, op) t.images).1 <;> rfl
  refine Finds.attempt_bind embedded fun result _ => ?_
  unfold imageAnswer
  split
  · refine own_writeFindOne fun _ _ => ?_
    trivial
  all_goals trivial

theorem own_imageUpload (id : String) (request : Nat) (files : List Images.UploadFile) (uploaded : Bool) :
    OwnHandler businessID start (imageUpload businessID id request files uploaded) :=
  own_writeFindOne fun own _ => own_imageRequest (own_upload own.images files uploaded)

theorem own_imageRemove (id imageID : String) (request : Nat) : OwnHandler businessID start (imageRemove businessID id imageID request) :=
  own_writeFindOne fun own _ => own_imageRequest (own_remove (sameProduct start.products) own.images imageID)

theorem own_imageReorder (id : String) (request : Nat) (imageIDs : List String) :
    OwnHandler businessID start (imageReorder businessID id request imageIDs) := by
  refine own_writeFindOne fun own _ => ?_
  split
  · trivial
  · exact own_imageRequest (own_reorder (sameProduct start.products) own.images imageIDs)

/-- A handler of the order pipeline. -/
theorem own_orders {α : Type} {p : Handler α}
    (own : p.Finds exec (OrdersKept businessID start) (OrderAble businessID start) fun _ => True) :
    OwnHandler businessID start (p.embed orderStatements) := by
  refine (Finds.embed VendorWorld.db (fun op t => ?_) (fun _ => rfl) (fun t inv => inv.orders) (fun _ able => able) own).mono
    fun _ _ => trivial
  show Except.mapError _ (Except.mapError _ _) = _
  cases (exec op t.db).1 <;> rfl

theorem own_ordersFulfillment (id : String) (status : OrderStatus) (followUpID : String) (now : Nat) :
    OwnHandler businessID start ((ordersFulfillment businessID id status followUpID now).embed orderStatements) := by
  refine own_orders (Finds.call_bind_any trivial fun _ existing _ _ => ?_)
  cases existing with
  | none => trivial
  | some existing =>
    refine Finds.call_bind_any rfl fun _ _ _ _ => ?_
    split
    · exact Finds.call_bind_any trivial fun _ _ _ _ => trivial
    · trivial

/-- The conversation of an escalation is that of an order of the business. -/
theorem own_ordersEscalate (id : String) : OwnHandler businessID start ((ordersEscalate businessID id).embed orderStatements) := by
  refine own_orders (Finds.call_bind_any trivial fun db order inv answered => ?_)
  cases order with
  | none => trivial
  | some order =>
    have found : getOrderByIDAndBusiness id businessID db = some order := Except.ok.inj answered
    cases named : order.conversationID with
    | none =>
      simp only [named]
      trivial
    | some c =>
      simp only [named]
      exact Finds.call_bind_any (inv.conversation found named) fun _ _ _ _ => trivial

theorem own_conversationTakeover (id : String) :
    OwnHandler businessID start ((conversationTakeover businessID id).embed orderStatements) :=
  own_orders (Finds.call_bind_any rfl fun _ _ _ _ => trivial)

theorem own_conversationRelease (id : String) :
    OwnHandler businessID start ((conversationRelease businessID id).embed orderStatements) :=
  own_orders (Finds.call_bind_any rfl fun _ _ _ _ => trivial)

/-- A handler of the locations endpoints. -/
theorem own_locations {α : Type} {request : Nat} {p : LocationHandler α}
    (own : p.Finds (fun op w => locationExec (request, op) w) (LocationsKept businessID start) (LocationAble businessID start) fun _ => True) :
    OwnHandler businessID start (p.embed (locationStatements request)) := by
  refine (Finds.embed VendorWorld.locationWorld (fun op t => ?_) (fun _ => rfl) (fun t inv => inv.locations) (fun _ able => able) own).mono
    fun _ _ => trivial
  show Except.mapError _ (Except.mapError _ _) = _
  cases (locationExec (request, op) t.locationWorld).1 <;> rfl

theorem own_locationCreate (id : String) (body : Body) (request : Nat) :
    OwnHandler businessID start ((locationCreate businessID id body).embed (locationStatements request)) := by
  refine own_locations ?_
  unfold locationCreate
  split
  · trivial
  · split
    · trivial
    · split
      · exact Finds.call_bind_any rfl fun _ _ _ _ => trivial
      · trivial

theorem own_locationPatch (id : String) (body : Body) (request : Nat) :
    OwnHandler businessID start ((locationPatch businessID id body).embed (locationStatements request)) := by
  refine own_locations ?_
  unfold locationPatch
  split
  · trivial
  · split
    · trivial
    · refine Finds.call_bind_any trivial fun w existing inv answered => ?_
      cases existing with
      | none => trivial
      | some existing =>
        have own : OwnLocation businessID start id := LocationsKept.found inv (Except.ok.inj answered)
        simp only
        unfold patchExisting
        split
        · refine Finds.call_bind_any own fun _ row _ _ => ?_
          cases row <;> trivial
        · trivial

theorem own_locationDelete (id : String) (request : Nat) :
    OwnHandler businessID start ((locationDelete businessID id).embed (locationStatements request)) :=
  own_locations (Finds.call_bind_any rfl fun _ _ _ _ => trivial)

/-- Every request of a business issues able statements only. -/
theorem own_request (request : Nat) (r : VendorRequest) : OwnHandler businessID start (r.program businessID request) := by
  cases r with
  | productCreate id body now => exact own_ignore (own_productCreate id body now)
  | productPatch id body now => exact own_ignore (own_productPatch id body now)
  | productOutOfStock id now => exact own_ignore (own_productOutOfStock id now)
  | productDelete id => exact own_ignore (own_productDelete id)
  | imageUpload id files uploaded => exact own_ignore (own_imageUpload id request files uploaded)
  | imageRemove id imageID => exact own_ignore (own_imageRemove id imageID request)
  | imageReorder id imageIDs => exact own_ignore (own_imageReorder id request imageIDs)
  | ordersFulfillment id status followUpID now => exact own_ignore (own_ordersFulfillment id status followUpID now)
  | ordersEscalate id => exact own_ignore (own_ordersEscalate id)
  | conversationTakeover id => exact own_ignore (own_conversationTakeover id)
  | conversationRelease id => exact own_ignore (own_conversationRelease id)
  | conversationReply id text message seq createdAt wa => exact Finds.of_uses (Uses.embed (Uses.of_forall (fun _ => trivial) _))
  | locationCreate id body => exact own_ignore (own_locationCreate id body request)
  | locationPatch id body => exact own_ignore (own_locationPatch id body request)
  | locationDelete id => exact own_ignore (own_locationDelete id request)

/-! ## Every run -/

theorem vendorSystem_answered : (vendorSystem businessID).Answered (Isolated businessID start) (Able businessID start) where
  start := by
    rintro s p _ ⟨request, r, rfl⟩
    exact own_request request r
  keep _ _ able _ inv := inv.exec able

/-- From any store in which the conversation of an order is one of the order's business, and whatever requests of a business run over it,
interleaved statement by statement, failing or stopping anywhere: the products, images, orders, conversations and locations of other
businesses stay as they are. -/
theorem others_unchanged {businessID : String} {w : VendorWorld} {b : Pool vendorStore VendorWorld} (linked : OrdersLinked w.db)
    (unique : UniqueProducts w.products) (idle : ∀ i, w.images.tx i = none) (run : (vendorSystem businessID).Reach ⟨w, []⟩ b) :
    OthersUnchanged businessID w b.state := by
  have here : Isolated businessID w w :=
    ⟨⟨rfl, rfl, linked⟩, ⟨rfl, unique⟩, ⟨rfl, fun i writes tx => by rw [idle i] at tx; cases tx⟩, rfl⟩
  exact (vendorSystem_answered.invariant run here).unchanged

/-- An order of a business, from a conversation. -/
def orderOf (id businessID conversationID : String) : Order where
  id := id
  businessID := businessID
  customerID := "cust"
  conversationID := some conversationID
  status := .confirmed
  totalAmount := ⟨4200, by decide⟩
  currency := "GHS"
  createdAt := 0
  updatedAt := 0
  idempotencyKey := none
  fulfillmentType := .delivery
  locationID := none
  stockRestoredAt := none

/-- A product of a business. -/
def productOf (id businessID : String) : ProductCells := fun column =>
  if column = "id".toList then .text id else if column = "business_id".toList then .text businessID else .null

/-- Two vendors, each with a product, a conversation and an order. -/
def twoVendors : VendorWorld where
  db := {
    businesses := ⟨[⟨"b1", "GHS", none⟩, ⟨"b2", "GHS", none⟩], by decide⟩
    businessLocations := Table.empty
    customers := Table.empty
    customerProfiles := Table.empty
    conversations := ⟨[⟨"c1", "b1", "+233200000001", .invoicing, false⟩, ⟨"c2", "b2", "+233200000002", .invoicing, false⟩], by decide⟩
    products := Table.empty
    orders := ⟨[orderOf "o1" "b1" "c1", orderOf "o2" "b2" "c2"], by decide⟩
    orderItems := Table.empty
    orderIntents := Table.empty
    payments := Table.empty
    scheduledFollowUps := Table.empty
    domainEvents := Table.empty
    outboundMessages := Table.empty }
  products := [productOf "p1" "b1", productOf "p2" "b2"]
  images := ⟨⟨[⟨"i2", "p2", 0, none⟩], by decide⟩, fun _ => none, fun _ => none⟩
  locations := Table.empty
  created := []
  read _ := none
  outbound := ⟨Table.empty, Table.empty, Table.empty, fun _ => none, Table.empty, [], []⟩
  responses := []

/-- The first vendor escalates its own order and that of the second. -/
def escalatedBoth : VendorWorld :=
  (((VendorRequest.ordersEscalate "o2").program "b1" 1).run vendorExec
    (((VendorRequest.ordersEscalate "o1").program "b1" 0).run vendorExec twoVendors).2).2

/-- Its own conversation is escalated, and that of the second is not. -/
theorem escalates_its_own : escalatedBoth.db.conversations.rows.map Conversation.state = [.escalated, .invoicing] ∧
    OthersUnchanged "b1" twoVendors escalatedBoth := by
  have follows : ∀ p s, (vendorSystem "b1").Follows p s := System.Follows.of_forall fun _ _ => trivial
  have first := System.reach_job (S := vendorSystem "b1") ⟨0, .ordersEscalate "o1", rfl⟩ (follows _ twoVendors) []
  have second := System.reach_job (S := vendorSystem "b1") ⟨1, .ordersEscalate "o2", rfl⟩
    (follows _ (((VendorRequest.ordersEscalate "o1").program "b1" 0).run vendorExec twoVendors).2) []
  exact ⟨rfl, others_unchanged (by decide) (by decide) (fun _ => rfl) (first.trans second)⟩

end NovoApex.Vendors
