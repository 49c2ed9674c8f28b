import TokenRevoker.Core.Manager

/-! The two request handlers. Both close over one manager, and what they answer depends on
the request and on what that manager covers when the request comes. -/
namespace TokenRevoker

open Text

/-- A literal of the source, all of them ASCII. -/
def literal (text : String) : JsString := text.toList.map fun c => UInt16.ofNat c.toNat

/-- A property of a payload: `undefined` or `null`, a value by its string form, or a value
that has none. -/
inductive ClaimValue where
  | absent
  | value (text : JsString)
  | unprintable
  deriving DecidableEq

abbrev JWTPayload := JsString → ClaimValue

inductive HeaderValue where
  | one (value : JsString)
  | many (values : List JsString)
  deriving DecidableEq

/-- What the handlers read of a request. Its headers are looked up by their lowercase names. -/
structure Request where
  properties : JsString → Option JWTPayload
  headers : JsString → Option HeaderValue

/-- What a handler does with a request. The words of an answer are those of the source; what is
logged is left out. -/
inductive Outcome where
  | next
  | response (status : Nat) (error : String) (message : JsString)
  deriving DecidableEq

/-- What the body of a handler throws: a `ValidationError` or anything else. -/
inductive RequestError where
  | validation (message : JsString)
  | unexpected
  deriving DecidableEq

def RequestError.of : RevokerError → RequestError
  | .validationError message => .validation (literal message)
  | .internalError _ => .unexpected

/-- The `catch` of both handlers. -/
def RequestError.outcome : RequestError → Outcome
  | .validation message => .response 400 "validation_error" message
  | .unexpected => .response 500 "internal_error" (literal "An unexpected error occurred")

/-- How both handlers end. -/
def outcomeOf : Except RequestError Bool → Outcome
  | .ok true => .next
  | .ok false => .response 401 "invalid_token" (literal "Invalid token!")
  | .error error => error.outcome

/-- The item a claim is revoked by. -/
def claimItem (claim value : JsString) : JsString := claim ++ 0x2D :: value

variable {g : Geometry}

/-- `bloomFilterManager.has` as the handlers use it. -/
def Manager.passes (manager : Manager g) (item : JsString) : Manager g × Except RequestError Bool :=
  match manager.has item with
  | (manager, .error error) => (manager, .error (.of error))
  | (manager, .ok found) => (manager, .ok (!found))

/-- `validateClaim`. -/
def validateClaim (payload : JWTPayload) (manager : Manager g) (claim : JsString) :
    Manager g × Except RequestError Bool :=
  match payload claim with
  | .absent =>
      (manager, .error (.validation (literal "Missing " ++ claim ++ literal " claim in JWT Payload")))
  | .unprintable => (manager, .error .unexpected)
  | .value value => manager.passes (claimItem claim value)

/-- `validateAllClaims`: `every` stops at the first claim that fails. -/
def validateAllClaims (payload : JWTPayload) (manager : Manager g) :
    List JsString → Manager g × Except RequestError Bool
  | [] => (manager, .ok true)
  | claim :: rest =>
      match validateClaim payload manager claim with
      | (manager, .ok true) => validateAllClaims payload manager rest
      | failed => failed

/-- The handler of `createJWTMiddleware`. -/
def createJWTMiddleware (claimsToCheck : List JsString) (payloadKey : JsString) (manager : Manager g)
    (request : Request) : Manager g × Outcome :=
  match request.properties payloadKey with
  | none => (manager, (RequestError.validation (literal "Missing JWT payload in request")).outcome)
  | some payload =>
      let validated := validateAllClaims payload manager claimsToCheck
      (validated.1, outcomeOf validated.2)

/-- `headerValue[0]`, or the value itself; `none` is `undefined`. -/
def HeaderValue.first : HeaderValue → Option JsString
  | .one value => some value
  | .many values => values.head?

/-- The token of `type token`, `none` where the format is refused. -/
def bearerToken (toLowerCase : JsString → JsString) (authHeader : JsString) : Option JsString :=
  match authHeader.dropWhile (· ≠ 0x20) with
  | [] => none
  | _ :: rest =>
      let token := rest.takeWhile (· ≠ 0x20)
      if token = [] ∨ toLowerCase (authHeader.takeWhile (· ≠ 0x20)) ≠ literal "bearer" then none
      else some token

/-- `extractToken`; `none` is `undefined`. -/
def extractToken (toLowerCase : JsString → JsString) (request : Request) (normalizedHeader : JsString) :
    Except RequestError (Option JsString) :=
  match request.headers normalizedHeader with
  | none | some (.one []) => .error (.validation (literal "Missing header: " ++ normalizedHeader))
  | some headerValue =>
      if normalizedHeader = literal "authorization" then
        match headerValue.first with
        | none => .error .unexpected
        | some authHeader =>
            match bearerToken toLowerCase authHeader with
            | none => .error (.validation
                (literal "Invalid authorization header format. Expected \"Bearer <token>\""))
            | some token => .ok (some token)
      else .ok headerValue.first

/-- `validateToken`: a token that is missing or empty is not looked up. -/
def validateToken (manager : Manager g) : Option JsString → Manager g × Except RequestError Bool
  | none | some [] => (manager, .ok true)
  | some token => manager.passes token

/-- The handler of `createOpaqueMiddleware`. -/
def createOpaqueMiddleware (toLowerCase : JsString → JsString) (header : JsString) (manager : Manager g)
    (request : Request) : Manager g × Outcome :=
  match extractToken toLowerCase request (toLowerCase header) with
  | .error error => (manager, error.outcome)
  | .ok token =>
      let validated := validateToken manager token
      (validated.1, outcomeOf validated.2)

/-- The configured handler. -/
inductive Middleware where
  | claims (claimsToCheck : List JsString) (payloadKey : JsString)
  | opaqueHeader (header : JsString)
  deriving DecidableEq

namespace Middleware

variable (toLowerCase : JsString → JsString)

def handle (middleware : Middleware) (manager : Manager g) (request : Request) : Manager g × Outcome :=
  match middleware with
  | .claims claimsToCheck payloadKey => createJWTMiddleware claimsToCheck payloadKey manager request
  | .opaqueHeader header => createOpaqueMiddleware toLowerCase header manager request

/-- The request has all that is checked, be it revoked or not. What is incomplete is never
passed on. -/
def Complete (middleware : Middleware) (request : Request) : Prop :=
  match middleware with
  | .claims claimsToCheck payloadKey => ∃ payload, request.properties payloadKey = some payload ∧
      ∀ claim ∈ claimsToCheck, ∃ value, payload claim = .value value
  | .opaqueHeader header => ∃ token, extractToken toLowerCase request (toLowerCase header) = .ok token ∧
      ∀ item, token = some item → item = [] ∨ isBlank item = false

end Middleware

section Answers

variable {manager : Manager g} {item : JsString} {payload : JWTPayload} {request : Request}

theorem Manager.SameFilters.covers {after : Manager g} (h : Manager.SameFilters manager after)
    (value : JsString) : after.covers value = manager.covers value := by
  rw [Manager.covers, Manager.covers, h.current, h.previous]

/-- What `has` keeps, a look-up keeps. -/
theorem passes_invariant {P : Manager g → Prop} (hHas : ∀ manager item, P manager → P (manager.has item).1)
    (h : P manager) (item : JsString) : P (manager.passes item).1 := by
  have hNext := hHas manager item h
  unfold Manager.passes
  split <;> simpa only [*] using hNext

theorem validateClaim_invariant {P : Manager g → Prop}
    (hHas : ∀ manager item, P manager → P (manager.has item).1) (h : P manager) (payload : JWTPayload)
    (claim : JsString) : P (validateClaim payload manager claim).1 := by
  unfold validateClaim
  split
  · exact h
  · exact h
  · exact passes_invariant hHas h _

theorem validateAllClaims_invariant {P : Manager g → Prop}
    (hHas : ∀ manager item, P manager → P (manager.has item).1) (h : P manager) (payload : JWTPayload)
    (claims : List JsString) : P (validateAllClaims payload manager claims).1 := by
  induction claims generalizing manager with
  | nil => exact h
  | cons claim rest ih =>
      have hClaim := validateClaim_invariant hHas h payload claim
      unfold validateAllClaims
      split
      · rename_i later hValid
        rw [hValid] at hClaim
        exact ih hClaim
      · exact hClaim

namespace Middleware

variable {toLowerCase : JsString → JsString} {middleware : Middleware}

/-- A handler asks its manager with `has`, and does nothing else to it. So what holds of a
manager under calls of `has` holds under requests. -/
theorem handle_invariant {P : Manager g → Prop} (hHas : ∀ manager item, P manager → P (manager.has item).1)
    (h : P manager) (middleware : Middleware) (request : Request) :
    P (middleware.handle toLowerCase manager request).1 := by
  cases middleware with
  | claims claimsToCheck payloadKey =>
      simp only [handle, createJWTMiddleware]
      split
      · exact h
      · exact validateAllClaims_invariant hHas h _ claimsToCheck
  | opaqueHeader header =>
      simp only [handle, createOpaqueMiddleware]
      split
      · exact h
      · unfold validateToken
        split
        · exact h
        · exact h
        · exact passes_invariant hHas h _

end Middleware

end Answers

end TokenRevoker
