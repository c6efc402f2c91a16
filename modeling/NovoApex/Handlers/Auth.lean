import NovoApex.Auth.Otp
import NovoApex.Handlers.PayoutsWrite

/-!
# POST /auth/request-otp and POST /auth/verify-otp

`internal/handlers/auth.go`: the validators of the two bodies and the handlers. A
request for a code stores it under the phone and sends it over the channel that the
body names; a verification that matches it mints a token for the phone.
-/

namespace NovoApex.Handlers
set_option autoImplicit false
open Lib Program Db Auth

/-! ## Bodies -/

/-- A decoded body: an object, or any other JSON value. -/
inductive AuthBody where
  | object (fields : String → Option JsonValue)
  | value (v : JsonValue)

/-- `auth_jsonTypeName`, of a field that may be absent. -/
def authJsonTypeName : Option JsonValue → String
  | none => "undefined"
  | some v => jsonTypeName v

/-- `auth_stringField`. -/
def authStringField (v : Option JsonValue) (field : String) : Except FieldIssue String :=
  match v with
  | some (.string s) => .ok s
  | v => .error ⟨"invalid_type", field, "Invalid input: expected string, received " ++ authJsonTypeName v⟩

/-- `auth_checkPhone`: the phone and the issue it has, if any. The length is in bytes. -/
def authCheckPhone (v : Option JsonValue) : String × Option FieldIssue :=
  match authStringField v "phone" with
  | .error issue => ("", some issue)
  | .ok s =>
    if s.utf8ByteSize < 10 then (s, some ⟨"too_small", "phone", "Too small: expected string to have >=10 characters"⟩)
    else (s, none)

/-- `isASCIIAlphaNumeric`. -/
def isASCIIAlphaNumeric (c : Char) : Bool := c.isAlpha || c.isDigit

/-- `auth_emailLocalRune`. -/
def authEmailLocalRune (c : Char) : Bool :=
  isASCIIAlphaNumeric c || c == '_' || c == '\'' || c == '+' || c == '-' || c == '.'

/-- Two dots in a row. -/
def hasDoubleDot : List Char → Bool
  | '.' :: '.' :: _ => true
  | _ :: rest => hasDoubleDot rest
  | [] => false

/-- A label of the domain. -/
def authEmailLabel (label : List Char) : Bool :=
  label.head?.any isASCIIAlphaNumeric && label.all fun c => isASCIIAlphaNumeric c || c == '-' || c == '_'

/-- `auth_isEmail`; the address splits at its last `@`. -/
def authIsEmail (s : String) : Bool :=
  let reversed := s.toList.reverse
  let domain := (reversed.takeWhile (· != '@')).reverse
  let before := ((reversed.dropWhile (· != '@')).drop 1).reverse
  let labels := domain.splitOn '.'
  s.toList.contains '@' && !before.isEmpty && !domain.isEmpty &&
  before.head? != some '.' && !hasDoubleDot before && before.getLast? != some '.' &&
  !before.contains '@' && !before.contains ' ' && before.all authEmailLocalRune &&
  decide (2 ≤ labels.length) && labels.all authEmailLabel &&
  labels.getLast?.any fun tld => decide (2 ≤ tld.length) && tld.all Char.isAlpha

/-- `deliveryMethod`. -/
inductive DeliveryMethod where
  | email | whatsapp
  deriving DecidableEq, Repr

/-- `requestOtpDTO`; a method that is none of the options is left out. -/
structure RequestOtpDTO where
  phone : String
  email : String
  deliveryMethod : Option DeliveryMethod
  deriving DecidableEq, Repr

/-- `verifyOtpDTO`. -/
structure VerifyOtpDTO where
  phone : String
  code : String
  deriving DecidableEq, Repr

/-- `authMsgEmailRequired`. -/
def authMsgEmailRequired : String := "Email is required when deliveryMethod is email"

/-- `auth_objectIssues`, of a body that is no object. -/
def authObjectIssues (v : JsonValue) : List FieldIssue :=
  [⟨"invalid_type", "", "Invalid input: expected object, received " ++ jsonTypeName v⟩]

/-- The email of the body: what is kept of it, its issue and whether the issue is a hard one. -/
def requestOtpEmail (v : Option JsonValue) : String × Option FieldIssue × Bool :=
  match v with
  | none | some .null => ("", none, false)
  | some v =>
    match authStringField (some v) "email" with
    | .error issue => ("", some issue, true)
    | .ok s => if authIsEmail s then (s, none, false) else (s, some ⟨"invalid_format", "email", "Invalid email address"⟩, false)

/-- The delivery method of the body; without one it is `email`. -/
def requestOtpMethod (v : Option JsonValue) : Option DeliveryMethod × Option FieldIssue :=
  match v with
  | none | some .null => (some .email, none)
  | some (.string "email") => (some .email, none)
  | some (.string "whatsapp") => (some .whatsapp, none)
  | some _ => (none, some ⟨"invalid_value", "deliveryMethod", "Invalid option: expected one of \"email\"|\"whatsapp\""⟩)

/-- `validateRequestOtp`: the issues in field order, the missing email last and only when no field has the
wrong type or value. -/
def validateRequestOtp (raw : AuthBody) : RequestOtpDTO × List FieldIssue :=
  match raw with
  | .value v => (⟨"", "", none⟩, authObjectIssues v)
  | .object obj =>
    let phone := authCheckPhone (obj "phone")
    let email := requestOtpEmail (obj "email")
    let method := requestOtpMethod (obj "deliveryMethod")
    let hardFailure := phone.2.any (fun issue => issue.code == "invalid_type") || email.2.2 || method.2.isSome
    let required := if !hardFailure && method.1 == some .email && email.1 == "" then
      [⟨"custom", "email", authMsgEmailRequired⟩] else []
    (⟨phone.1, email.1, method.1⟩, phone.2.toList ++ email.2.1.toList ++ method.2.toList ++ required)

/-- The code of a body: six bytes. -/
def verifyOtpCode (v : Option JsonValue) : String × Option FieldIssue :=
  match authStringField v "code" with
  | .error issue => ("", some issue)
  | .ok c =>
    if c.utf8ByteSize < 6 then ("", some ⟨"too_small", "code", "Too small: expected string to have >=6 characters"⟩)
    else if 6 < c.utf8ByteSize then ("", some ⟨"too_big", "code", "Too big: expected string to have <=6 characters"⟩)
    else (c, none)

/-- `validateVerifyOtp`. -/
def validateVerifyOtp (raw : AuthBody) : VerifyOtpDTO × List FieldIssue :=
  match raw with
  | .value v => (⟨"", ""⟩, authObjectIssues v)
  | .object obj =>
    let phone := authCheckPhone (obj "phone")
    let code := verifyOtpCode (obj "code")
    (⟨phone.1, code.1⟩, phone.2.toList ++ code.2.toList)

/-! ## Handlers -/

/-- What a request is answered with. -/
inductive AuthResponse where
  | badRequest (message : String)
  | zodValidation (issues : List FieldIssue)
  | error (e : AuthErr)
  | unauthorized (message : String)
  | otpSent (message : String)
  | verified (claims : Claims) (isNewUser : Bool)
  deriving DecidableEq

/-- `authWhatsAppTemplate` with a code in it. -/
def authWhatsAppText (code : String) : String := "Your NovoApex login code is: *" ++ code ++ "*. It will expire in 5 minutes."

/-- Send the code over the channel of the request. -/
def sendOtp (whatsAppID : String) (dto : RequestOtpDTO) (code : String) : Program authStore Unit :=
  if dto.deliveryMethod = some .email ∧ dto.email ≠ "" then
    call (I := authStore) (.sendOtpEmail dto.email code)
  else
    call (I := authStore) (.sendTextMessage whatsAppID dto.phone (authWhatsAppText code))

/-- The rest of `authRequestOTP`, for a body without issues. -/
def requestOtp (whatsAppID : String) (dto : RequestOtpDTO) (drawn : Option (Fin 900000)) : Program authStore AuthResponse := do
  match ← (generate dto.phone drawn).attempt with
  | .error e => pure (.error e)
  | .ok code =>
    match ← (sendOtp whatsAppID dto code).attempt with
    | .error e => pure (.error e)
    | .ok _ => pure (.otpSent "OTP sent successfully")

/-- `authRequestOTP`; `none` is a body that is no JSON. -/
def authRequestOTP (whatsAppID : String) (body : Option AuthBody) (drawn : Option (Fin 900000)) : Program authStore AuthResponse :=
  match body with
  | none => pure (.badRequest "Invalid JSON body")
  | some raw =>
    if (validateRequestOtp raw).2 ≠ [] then pure (.zodValidation (validateRequestOtp raw).2)
    else requestOtp whatsAppID (validateRequestOtp raw).1 drawn

/-- The login of a phone whose code was accepted. -/
def login (phone : String) : Program authStore AuthResponse := do
  match ← (call (I := authStore) (.listBusinessesByOwnerPhone phone)).attempt with
  | .error e => pure (.error e)
  | .ok business =>
    let claims : Claims := ⟨phone, business.getD ""⟩
    match ← (wrapping "auth: mint token" (call (I := authStore) (.mint claims))).attempt with
    | .error e => pure (.error e)
    | .ok _ => pure (.verified claims business.isNone)

/-- The rest of `authVerifyOTP`, for a body without issues. -/
def verifyOtp (dto : VerifyOtpDTO) : Program authStore AuthResponse := do
  match ← (verify dto.phone dto.code).attempt with
  | .error e => pure (.error e)
  | .ok false => pure (.unauthorized "Invalid or expired OTP")
  | .ok true => login dto.phone

/-- `authVerifyOTP`. -/
def authVerifyOTP (body : Option AuthBody) : Program authStore AuthResponse :=
  match body with
  | none => pure (.badRequest "Invalid JSON body")
  | some raw =>
    if (validateVerifyOtp raw).2 ≠ [] then pure (.zodValidation (validateVerifyOtp raw).2)
    else verifyOtp (validateVerifyOtp raw).1

end NovoApex.Handlers
