import Mathlib.Data.List.Basic

/-!
# Scopes, proof keys and secrets

The pure part of the identity provider: the scopes of a grant, the check of a PKCE verifier and the
shape of the tokens that a client may present.  The two digests are parameters, `hash` for
`sha256_hex` and `s256` for the unpadded base64url of SHA-256.
-/

namespace FloatCtf.Oidc

/-! ## Scopes -/

/-- The scopes of the platform, in canonical order. -/
def supported : List String := ["openid", "profile", "email"]

/-- `scope-token = 1*NQCHAR`. -/
def isScopeToken (token : String) : Bool :=
  !token.isEmpty && token.toList.all fun c =>
    c.toNat = 0x21 ∨ (0x23 ≤ c.toNat ∧ c.toNat ≤ 0x5B) ∨ (0x5D ≤ c.toNat ∧ c.toNat ≤ 0x7E)

/-- The tokens of a scope parameter, `none` when one of them is not well formed. -/
def parse (raw : String) : Option (List String) :=
  let tokens := (raw.splitOn " ").filter fun t => !t.isEmpty
  if tokens.all isScopeToken then some tokens else none

/-- What was requested and is supported and allowed for the client. -/
def grantable (requested clientAllowed : List String) : List String :=
  supported.filter fun s => s ∈ requested ∧ s ∈ clientAllowed

/-- Whether a grant covers a request. -/
def covers (granted requested : List String) : Bool := requested.all (· ∈ granted)

/-- The scopes of either list, in the order of the supported ones. -/
def union (a b : List String) : List String := supported.filter fun s => s ∈ a ∨ s ∈ b

/-- What a user grants on the consent page: `openid`, and of the rest what was requested and
selected. -/
def grantedFromSelection (requested selected : List String) : List String :=
  requested.filter fun s => s = "openid" ∨ s ∈ selected

theorem covers_iff {granted requested : List String} :
    covers granted requested = true ↔ ∀ s ∈ requested, s ∈ granted := by
  simp [covers]

theorem covers_trans {a b c : List String} (hab : covers a b = true) (hbc : covers b c = true) :
    covers a c = true := by
  rw [covers_iff] at hab hbc ⊢
  exact fun s hs => hab s (hbc s hs)

theorem mem_union {a b : List String} {s : String} :
    s ∈ union a b ↔ s ∈ supported ∧ (s ∈ a ∨ s ∈ b) := by
  simp [union]

/-! ## Proof keys -/

/-- The characters that RFC 3986 does not reserve. -/
def isUnreserved (c : Char) : Bool := c.isAlphanum ∨ c ∈ ['-', '.', '_', '~']

/-- `is_valid_code_verifier`: 43 to 128 unreserved characters. -/
def isValidCodeVerifier (verifier : String) : Bool :=
  43 ≤ verifier.utf8ByteSize ∧ verifier.utf8ByteSize ≤ 128 ∧ verifier.toList.all isUnreserved

/-- The form of a challenge by S256. -/
def isValidS256Challenge (challenge : String) : Bool :=
  challenge.utf8ByteSize = 43 ∧
    challenge.toList.all fun c => c.isAlphanum ∨ c = '-' ∨ c = '_'

/-- The verifier belongs to the challenge. -/
def verifyS256 (s256 : String → String) (verifier challenge : String) : Bool :=
  if !isValidCodeVerifier verifier ∨ !isValidS256Challenge challenge then false
  else s256 verifier = challenge

/-! ## Secrets -/

/-- The shape of a token that comes from outside. -/
def isPlausibleToken (value : String) : Bool :=
  !value.isEmpty ∧ value.utf8ByteSize ≤ 512 ∧ value.toList.all isUnreserved

/-! ## Requests -/

/-- The parameters of a request, with repetitions. -/
abbrev RawParams := List (String × String)

/-- A parameter that may stand once; an empty one counts as missing, a repeated one is an error. -/
def RawParams.single (params : RawParams) (name : String) : Except Unit (Option String) :=
  match (params.filter (·.1 = name)).map (·.2) with
  | [] => .ok none
  | [v] => .ok (if v = "" then none else some v)
  | _ => .error ()

/-- The errors of the protocol. -/
inductive OAuthError where
  | invalidRequest (description : String)
  | accessDenied (description : String)
  | unsupportedResponseType (description : String)
  | invalidScope (description : String)
  | loginRequired (description : String)
  | consentRequired (description : String)
  | accountSelectionRequired (description : String)
  | requestNotSupported (description : String)
  | requestUriNotSupported (description : String)
  | registrationNotSupported (description : String)
  | invalidClient (description : String)
  | invalidGrant (description : String)
  | unsupportedGrantType (description : String)
  | serverError (description : String)
  deriving DecidableEq

/-- The code of an error. -/
def OAuthError.error : OAuthError → String
  | .invalidRequest _ => "invalid_request"
  | .accessDenied _ => "access_denied"
  | .unsupportedResponseType _ => "unsupported_response_type"
  | .invalidScope _ => "invalid_scope"
  | .loginRequired _ => "login_required"
  | .consentRequired _ => "consent_required"
  | .accountSelectionRequired _ => "account_selection_required"
  | .requestNotSupported _ => "request_not_supported"
  | .requestUriNotSupported _ => "request_uri_not_supported"
  | .registrationNotSupported _ => "registration_not_supported"
  | .invalidClient _ => "invalid_client"
  | .invalidGrant _ => "invalid_grant"
  | .unsupportedGrantType _ => "unsupported_grant_type"
  | .serverError _ => "server_error"

/-- What the syntax of a URL, of JSON and of a header allows in a description. -/
def sanitize (description : String) : String :=
  String.ofList ((description.toList.filter fun c =>
    (0x20 ≤ c.toNat ∧ c.toNat ≤ 0x21) ∨ (0x23 ≤ c.toNat ∧ c.toNat ≤ 0x5B) ∨
      (0x5D ≤ c.toNat ∧ c.toNat ≤ 0x7E)).take 200)

/-- The description that goes with an error. -/
def OAuthError.description : OAuthError → String
  | .invalidRequest d | .accessDenied d | .unsupportedResponseType d | .invalidScope d
  | .loginRequired d | .consentRequired d | .accountSelectionRequired d | .requestNotSupported d
  | .requestUriNotSupported d | .registrationNotSupported d | .invalidClient d | .invalidGrant d
  | .unsupportedGrantType d | .serverError d => sanitize d

/-- The errors of the requests. -/
inductive OidcError where
  | token (error : OAuthError) (status : Nat)
  | database (message : String)
  deriving DecidableEq

/-- `TokenFailure::new`. -/
def tokenFailure (error : OAuthError) : OidcError :=
  .token error (match error with
    | .invalidClient _ => 401
    | _ => 400)

/-- The one answer to every code that cannot be exchanged. -/
def invalidGrant : OidcError := tokenFailure (.invalidGrant "invalid authorization code")

/-- What the token endpoint makes of a database error. -/
def unavailable : OidcError := .token (.serverError "temporarily unavailable") 500

/-- The error of a failed statement. -/
def dbError : OidcError := .database "database error"

end FloatCtf.Oidc
