import NovoApex.Db.Retention

/-!
# The store of the new-arrivals scanner

The statements of `SweepNewArrivals`, one by one, and those that change what it reads. The
rows and the stamps of a scan become visible at its commit; until then an insert of the
same id waits.

An outbound row carries the scan that inserted it and the customer it is for, a business
the scan that stamped it, and what a scan has read of the customers stays on record; no
statement asks for any of it.
-/

namespace NovoApex.Db
set_option autoImplicit false
open Lib

/-- The columns of `businesses` that the scan reads, and the scan that stamped it. -/
structure NotifiedBusiness where
  id : String
  newArrivalsTemplateName : Option String
  lastNewArrivalsNotifiedAt : Option Int
  notifiedBy : Option String
  deriving DecidableEq

/-- The columns of `products` that the scan reads. -/
structure NewProduct where
  id : String
  businessID : String
  category : Option String
  isAvailable : Bool
  createdAt : Int
  deriving DecidableEq

/-- The columns of `customers` that the scan reads. -/
structure MarketedCustomer where
  id : String
  businessID : String
  phone : String
  marketingOptIn : Bool
  deriving DecidableEq

/-- `preferences` of `customer_profiles`: the elements of an array, with their texts; `none` is any other JSON value. -/
structure Preferences where
  customerID : String
  preferences : Option (List (Option String))
  deriving DecidableEq

/-- A template row of `outbound_messages`; those of the other senders have no scan. -/
structure TemplateRow where
  id : String
  businessID : String
  conversationID : String
  recipientPhone : String
  templateName : String
  customerID : String
  scan : Option String
  deriving DecidableEq

/-- `custRow`, before its preferences are decoded. -/
structure CustomerRow where
  id : String
  phone : String
  preferences : Option (List (Option String))
  deriving DecidableEq

/-- `businessRow`. -/
structure BusinessRow where
  id : String
  templateName : String
  lastNotifiedAt : Option Int
  deriving DecidableEq

/-- What a scan writes. -/
inductive DigestWrite where
  | row (r : TemplateRow)
  /-- `SET last_new_arrivals_notified_at = … WHERE id = …`. -/
  | notified (businessID : String) (time : Int)
  deriving DecidableEq

/-- The tables that the scan only reads. -/
structure Audience where
  products : Table NewProduct.id
  customers : Table MarketedCustomer.id
  profiles : Table Preferences.customerID
  conversations : Table Conversation.id

/-- A customer as a scan has read it. -/
structure Consent where
  scan : String
  customer : MarketedCustomer
  deriving DecidableEq

/-- The clock, the tables, the scans' transactions and what was published. -/
structure NewArrivalsWorld where
  clock : Int
  businesses : Table NotifiedBusiness.id
  audience : Audience
  outboundMessages : Table TemplateRow.id
  scans : Transactions DigestWrite
  published : List String
  consents : List Consent

inductive NewArrivalsStmt where
  | begin (tx : String)
  | lockScanner (tx : String)
  | businesses (tx : String)
  | now
  | newCategories (tx businessID : String) (since : Int)
  | optedIn (tx businessID : String)
  | conversation (tx businessID customerPhone : String)
  | insertTemplate (tx : String) (row : TemplateRow)
  | stampNotified (tx businessID : String) (time : Int)
  | commit (tx : String)
  | rollback (tx : String)
  | publishOutbound (id : String)
  | tick (later : Nat)
  | insertBusiness (id : String)
  | setTemplate (id : String) (templateName : Option String)
  | insertOutbound (row : TemplateRow)
  /-- The rest of the program writes the tables that the scan only reads. -/
  | change (audience : Audience)

/-- What a statement answers. -/
@[reducible] def NewArrivalsStmt.Reply : NewArrivalsStmt → Type
  | businesses .. => List BusinessRow
  | now => Int
  | newCategories .. => List (Option String)
  | optedIn .. => List CustomerRow
  | conversation .. => Option String
  | _ => Unit

/-- The interface of the new-arrivals scanner. -/
abbrev newArrivalsStore : Interface := ⟨NewArrivalsStmt, NewArrivalsStmt.Reply, ScanErr, .db .transient⟩

/-! ## Reading -/

/-- `WHERE new_arrivals_template_name IS NOT NULL`, of one row. -/
def businessRow (b : NotifiedBusiness) : Option BusinessRow :=
  b.newArrivalsTemplateName.map fun templateName => ⟨b.id, templateName, b.lastNewArrivalsNotifiedAt⟩

/-- The categories of the products that are new. -/
def newCategories (businessID : String) (since : Int) (w : NewArrivalsWorld) : List (Option String) :=
  (w.audience.products.rows.filter fun p => decide (p.businessID = businessID) && p.isAvailable && decide (since < p.createdAt)).map
    NewProduct.category

/-- The customers of a business that are opted in. -/
def optedIn (businessID : String) (w : NewArrivalsWorld) : List MarketedCustomer :=
  w.audience.customers.rows.filter fun c => decide (c.businessID = businessID) && c.marketingOptIn

/-- `LEFT JOIN customer_profiles`, with `COALESCE(p.preferences, '[]')`. -/
def customerRow (w : NewArrivalsWorld) (c : MarketedCustomer) : CustomerRow :=
  ⟨c.id, c.phone, match w.audience.profiles.find? c.id with
    | some p => p.preferences
    | none => some []⟩

def digestConversation (businessID customerPhone : String) (w : NewArrivalsWorld) : Option String :=
  (w.audience.conversations.rows.find? fun c => decide (c.businessID = businessID) && decide (c.customerPhone = customerPhone)).map
    Conversation.id

/-- The rows among the writes of a scan. -/
def rowsOf (writes : List DigestWrite) : List TemplateRow :=
  writes.filterMap fun
    | .row r => some r
    | .notified .. => none

/-! ## Writing -/

/-- Make one write of a scan visible. -/
def DigestWrite.apply (tx : String) (w : NewArrivalsWorld) : DigestWrite → NewArrivalsWorld
  | .row r =>
    match w.outboundMessages.insert r with
    | some messages => { w with outboundMessages := messages }
    | none => w
  | .notified businessID time =>
    { w with
      businesses := w.businesses.update (fun b => decide (b.id = businessID))
        (fun b => { b with lastNewArrivalsNotifiedAt := some time, notifiedBy := some tx }) fun _ => rfl }

/-- Make the writes of a scan visible. -/
def applyDigest (tx : String) (w : NewArrivalsWorld) (writes : List DigestWrite) : NewArrivalsWorld :=
  writes.foldl (DigestWrite.apply tx) w

/-- A statement of an open transaction. -/
def withinDigest {α : Type} (tx : String) (w : NewArrivalsWorld)
    (f : (writes : List DigestWrite) → w.scans.state tx = .active writes → Except ScanErr α × NewArrivalsWorld) :
    Except ScanErr α × NewArrivalsWorld :=
  match active : w.scans.state tx with
  | .active writes => f writes active
  | _ => (.error .txClosed, w)

theorem withinDigest_active {α : Type} {tx : String} {w : NewArrivalsWorld} {writes : List DigestWrite}
    {f : (writes : List DigestWrite) → w.scans.state tx = .active writes → Except ScanErr α × NewArrivalsWorld}
    (active : w.scans.state tx = .active writes) : withinDigest tx w f = f writes active := by
  unfold withinDigest
  split
  · rename_i others here
    obtain rfl : writes = others := TxState.active.inj (active.symm.trans here)
    rfl
  · rename_i ended
    exact (ended writes active).elim

theorem withinDigest_ended {α : Type} {tx : String} {w : NewArrivalsWorld}
    {f : (writes : List DigestWrite) → w.scans.state tx = .active writes → Except ScanErr α × NewArrivalsWorld}
    (ended : ∀ writes, w.scans.state tx ≠ .active writes) : withinDigest tx w f = (.error .txClosed, w) := by
  unfold withinDigest
  split
  · rename_i writes active
    exact (ended writes active).elim
  · rfl

/-- End a transaction that is still open. -/
def rollbackDigest (tx : String) (w : NewArrivalsWorld) : NewArrivalsWorld :=
  match w.scans.state tx with
  | .active _ => { w with scans := w.scans.finish tx .rolledBack }
  | _ => w

/-- Execute one statement. -/
def newArrivalsExec : newArrivalsStore.Exec NewArrivalsWorld
  | .begin tx, w =>
    if unused : w.scans.state tx = .unused then (.ok (), { w with scans := w.scans.start tx unused })
    else (.error .txClosed, w)
  | .lockScanner tx, w => withinDigest tx w fun _ active => (.ok (), { w with scans := w.scans.acquire tx active })
  | .businesses tx, w => withinDigest tx w fun _ _ => (.ok (w.businesses.rows.filterMap businessRow), w)
  | .now, w => (.ok w.clock, w)
  | .newCategories tx businessID since, w => withinDigest tx w fun _ _ => (.ok (newCategories businessID since w), w)
  | .optedIn tx businessID, w =>
    withinDigest tx w fun _ _ =>
      (.ok ((optedIn businessID w).map (customerRow w)),
        { w with consents := w.consents ++ (optedIn businessID w).map (Consent.mk tx) })
  | .conversation tx businessID customerPhone, w =>
    withinDigest tx w fun _ _ => (.ok (digestConversation businessID customerPhone w), w)
  | .insertTemplate tx row, w =>
    withinDigest tx w fun writes _ =>
      if row.id ∈ w.outboundMessages.rows.map TemplateRow.id ∨ row.id ∈ (rowsOf writes).map TemplateRow.id then
        (.error (.db (.uniqueViolation "outbound_messages_pkey")), w)
      else (.ok (), { w with scans := w.scans.write tx writes (.row { row with scan := some tx }) })
  | .stampNotified tx businessID time, w =>
    withinDigest tx w fun writes _ => (.ok (), { w with scans := w.scans.write tx writes (.notified businessID time) })
  | .commit tx, w =>
    withinDigest tx w fun writes _ => (.ok (), { applyDigest tx w writes with scans := w.scans.finish tx (.committed writes) })
  | .rollback tx, w => (.ok (), rollbackDigest tx w)
  | .publishOutbound id, w => (.ok (), { w with published := w.published ++ [id] })
  | .tick later, w => (.ok (), { w with clock := w.clock + later })
  | .insertBusiness id, w =>
    match w.businesses.insert ⟨id, none, none, none⟩ with
    | some businesses => (.ok (), { w with businesses := businesses })
    | none => (.error (.db (.uniqueViolation "businesses_pkey")), w)
  | .setTemplate id templateName, w =>
    (.ok (), { w with
      businesses := w.businesses.update (fun b => decide (b.id = id))
        (fun b => { b with newArrivalsTemplateName := templateName }) fun _ => rfl })
  | .insertOutbound row, w =>
    match w.outboundMessages.insert { row with scan := none } with
    | some messages => (.ok (), { w with outboundMessages := messages })
    | none => (.error (.db (.uniqueViolation "outbound_messages_pkey")), w)
  | .change audience, w => (.ok (), { w with audience := audience })

/-- No open scan has inserted the id. -/
def uninserted (w : NewArrivalsWorld) (id : String) : Prop :=
  ∀ tx, w.scans.holder = some tx → ∀ writes, w.scans.state tx = .active writes → id ∉ (rowsOf writes).map TemplateRow.id

/-- When a statement proceeds: the advisory lock waits for its holder, an insert for the scan that has inserted its id. -/
def newArrivalsProceeds (w : NewArrivalsWorld) : NewArrivalsStmt → Prop
  | .lockScanner tx => w.scans.holder = none ∨ w.scans.holder = some tx
  | .insertOutbound row => uninserted w row.id
  | _ => True

end NovoApex.Db
