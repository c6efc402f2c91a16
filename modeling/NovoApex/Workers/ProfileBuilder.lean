import NovoApex.Lib.Json
import NovoApex.Lib.Program
import NovoApex.Lib.Table
import NovoApex.Workers.Orchestrator

/-!
# crmHandleProfileBuilder

`internal/workers/crm_handlers.go`: what a turn told about a customer is written to the
profile. Preferences are accumulated without repetition, up to case, and capped; the
latest delivery area wins; the sentiment is written when it changes. Every statement is a
transaction of its own. The profile's other columns are left out.
-/

namespace NovoApex.Profiles
set_option autoImplicit false
open Lib Program

/-- The columns of `customer_profiles` that are read or written here. -/
structure CustomerProfile where
  id : String
  customerID : String
  preferences : Json
  deliveryArea : Option String
  sentiment : Option String

/-- The signals of a turn, as far as the profile is concerned. -/
structure CrmSignals where
  detectedPreferences : List String
  deliveryArea : Option String
  sentiment : Option String

/-- `CRMSignalJob`. -/
structure CRMSignalJob where
  customerID : String
  crmSignals : CrmSignals

/-- The errors of the handler. -/
inductive ProfileErr where
  | transient
  | foreignKeyViolation
  | uniqueViolation
  /-- A text with a NUL, which neither `TEXT` nor `JSONB` holds. -/
  | untranslatable
  deriving DecidableEq, Repr

/-- The statements of the handler; a list of preferences is written as a JSON array. -/
inductive ProfileStmt where
  | getCustomerProfileByCustomerID (customerID : String)
  | createCustomerProfileIfMissing (id customerID : String)
  | updateProfilePreferences (preferences : List String) (customerID : String)
  | updateProfileDeliveryArea (deliveryArea customerID : String)
  | updateProfileSentiment (sentiment customerID : String)

/-- What a statement answers; the writes, how many rows they changed. -/
@[reducible] def ProfileStmt.Reply : ProfileStmt → Type
  | getCustomerProfileByCustomerID _ => Option CustomerProfile
  | _ => Nat

/-- The interface of the handler. -/
abbrev profileStore : Interface := ⟨ProfileStmt, ProfileStmt.Reply, ProfileErr, .transient⟩

/-- A handler of the profiles. -/
abbrev ProfileHandler (α : Type) : Type := Program profileStore α

/-- The profiles, one for each customer, and the customers there are. -/
structure ProfileWorld where
  profiles : Table CustomerProfile.customerID
  customers : List String

/-- Whether Postgres holds the text. -/
def storable (s : String) : Bool := !s.toList.contains '\x00'

/-- Rewrite the profile of a customer, if every text can be held. -/
def updateProfile (texts : List String) (customerID : String) (f : CustomerProfile → CustomerProfile)
    (keeps : ∀ p, (f p).customerID = p.customerID) (w : ProfileWorld) : Except ProfileErr Nat × ProfileWorld :=
  if texts.all storable then
    (.ok (w.profiles.affected fun p => decide (p.customerID = customerID)),
      { w with profiles := w.profiles.update (fun p => decide (p.customerID = customerID)) f keeps })
  else (.error .untranslatable, w)

/-- `INSERT INTO customer_profiles ... ON CONFLICT (customer_id) DO NOTHING`. -/
def createProfileIfMissing (row : CustomerProfile) (w : ProfileWorld) : Except ProfileErr Nat × ProfileWorld :=
  match w.profiles.insert row with
  | none => (.ok 0, w)
  | some profiles =>
    if w.profiles.rows.any fun p => decide (p.id = row.id) then (.error .uniqueViolation, w)
    else if row.customerID ∈ w.customers then (.ok 1, { w with profiles := profiles })
    else (.error .foreignKeyViolation, w)

/-- Execute one statement. -/
def profileExec : profileStore.Exec ProfileWorld
  | .getCustomerProfileByCustomerID customerID, w => (.ok (w.profiles.find? customerID), w)
  | .createCustomerProfileIfMissing id customerID, w => createProfileIfMissing ⟨id, customerID, .array [], none, none⟩ w
  | .updateProfilePreferences preferences customerID, w =>
    updateProfile preferences customerID (fun p => { p with preferences := .array (preferences.map .string) }) (fun _ => rfl) w
  | .updateProfileDeliveryArea deliveryArea customerID, w =>
    updateProfile [deliveryArea] customerID (fun p => { p with deliveryArea := some deliveryArea }) (fun _ => rfl) w
  | .updateProfileSentiment sentiment customerID, w =>
    updateProfile [sentiment] customerID (fun p => { p with sentiment := some sentiment }) (fun _ => rfl) w

/-! ## The handler -/

/-- `crmMaxPreferences`. -/
def crmMaxPreferences : Nat := 50

/-- `strings.TrimSpace`. -/
def trimText (s : String) : String := String.ofList (Turns.trimSpace s.toList)

/-- What `json.Unmarshal` leaves in a `[]string`: an element of another kind is the empty string, and what is no array leaves none. -/
def decodePreferences : Json → List String
  | .array items => items.map fun item =>
    match item with
    | .string s => s
    | _ => ""
  | _ => []

/-- The loop over the detected preferences; `seen` are those that are there, in lower case. -/
def newPreferences (toLower : String → String) : List String → List String → List String
  | _, [] => []
  | seen, p :: rest =>
    let trimmed := trimText p
    if trimmed = "" then newPreferences toLower seen rest
    else if toLower trimmed ∈ seen then newPreferences toLower seen rest
    else trimmed :: newPreferences toLower (toLower trimmed :: seen) rest

/-- Accumulate preferences. -/
def accumulatePreferences (toLower : String → String) (profile : CustomerProfile) (job : CRMSignalJob) : ProfileHandler Unit :=
  let existing := decodePreferences profile.preferences
  let newPrefs := newPreferences toLower (existing.map toLower) job.crmSignals.detectedPreferences
  if newPrefs = [] then pure ()
  else ignore (call (I := profileStore) (.updateProfilePreferences ((existing ++ newPrefs).take crmMaxPreferences) job.customerID))

/-- The latest delivery area wins. -/
def updateDeliveryArea (job : CRMSignalJob) : ProfileHandler Unit :=
  match job.crmSignals.deliveryArea with
  | some area =>
    if area ≠ "" then ignore (call (I := profileStore) (.updateProfileDeliveryArea (trimText area) job.customerID)) else pure ()
  | none => pure ()

/-- The sentiment, when it changes. -/
def updateSentiment (profile : CustomerProfile) (job : CRMSignalJob) : ProfileHandler Unit :=
  match job.crmSignals.sentiment with
  | some sentiment =>
    if sentiment ≠ profile.sentiment.getD "" then
      ignore (call (I := profileStore) (.updateProfileSentiment sentiment job.customerID))
    else pure ()
  | none => pure ()

/-- `crmHandleProfileBuilder`; `newID` is what `crmNewID` returns, `toLower` is `strings.ToLower`. -/
def crmHandleProfileBuilder (toLower : String → String) (newID : String) (job : CRMSignalJob) : ProfileHandler Unit := do
  let found : Option CustomerProfile ← call (I := profileStore) (.getCustomerProfileByCustomerID job.customerID)
  match found with
  | none => ignore (call (I := profileStore) (.createCustomerProfileIfMissing newID job.customerID))
  | some profile => do
    accumulatePreferences toLower profile job
    updateDeliveryArea job
    updateSentiment profile job

end NovoApex.Profiles
