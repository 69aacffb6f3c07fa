import FloatCtf.Oidc.Store

/-!
# The flows of the identity provider

`exchange_code` of the token endpoint, `issue_code` and the decision of the consent page, and the
token lookup of the user info endpoint.  The signature of the identity token and the hash of the
access token in it are parameters of the provider.
-/

namespace FloatCtf.Oidc

open Process

/-! ## The token endpoint -/

/-- The claims of an ID token. -/
structure IdTokenClaims where
  iss : String
  sub : Nat
  aud : String
  azp : String
  exp : Int
  iat : Int
  authTime : Int
  nonce : Option String
  atHash : Option String
  sid : Option String
  deriving DecidableEq

/-- The part of the provider that signs identity tokens. -/
structure Signer where
  issuer : String
  idTokenTtlSecs : Int
  atHash : String → String
  sign : IdTokenClaims → Option String

/-- The answer of the token endpoint. -/
structure TokenResponse where
  accessToken : String
  tokenType : String
  expiresIn : Int
  idToken : String
  scope : String
  deriving DecidableEq

/-- A request that has authenticated its client. -/
structure TokenRequest where
  client : OidcClient
  params : RawParams
  draw : Draw
  deriving DecidableEq

/-- A parameter of the token endpoint. -/
def RawParams.tokenParam (params : RawParams) (name : String) : Except OidcError (Option String) :=
  match params.single name with
  | .ok v => .ok v
  | .error _ => .error (tokenFailure (.invalidRequest s!"duplicate parameter: {name}"))

/-- The parameters of an exchange. -/
structure TokenParams where
  code : String
  redirect : Option String
  verifier : Option String

/-- The parameters of an exchange, in the order in which they are read. -/
def RawParams.exchange (params : RawParams) : Except OidcError TokenParams := do
  match ← params.tokenParam "grant_type" with
  | none => throw (tokenFailure (.invalidRequest "missing grant_type"))
  | some g =>
    if g ≠ "authorization_code" then
      throw (tokenFailure (.unsupportedGrantType "only authorization_code is supported"))
    match ← params.tokenParam "code" with
    | none => throw (tokenFailure (.invalidRequest "missing code"))
    | some code =>
      let redirect ← params.tokenParam "redirect_uri"
      let verifier ← params.tokenParam "code_verifier"
      .ok ⟨code, redirect, verifier⟩

/-- The redirect is the one of the code. -/
def checkRedirect (code : AuthorizationCode) : Option String → Except OidcError Unit
  | none => .error (tokenFailure (.invalidRequest "missing redirect_uri"))
  | some r => if r ≠ code.redirectUri then .error invalidGrant else .ok ()

/-- The verifier belongs to the challenge of the code. -/
def checkPkce (p : Provider) (code : AuthorizationCode) (verifier : Option String) :
    Except OidcError Unit :=
  match code.codeChallenge, verifier with
  | some challenge, some v =>
    if !verifyS256 p.s256 v challenge then
      .error (tokenFailure (.invalidGrant "PKCE verification failed"))
    else .ok ()
  | some _, none => .error (tokenFailure (.invalidGrant "code_verifier required"))
  | none, some _ =>
    .error (tokenFailure (.invalidGrant "code_verifier sent but no code_challenge was used"))
  | none, none => .ok ()

/-- The note that the session has a token of the client, which may fail, and the `sid` for the
identity token. -/
def bindSession (p : Provider) (client : OidcClient) (code : AuthorizationCode) :
    OidcM (Option String) :=
  match code.sessionId with
  | none => pure none
  | some sessionId => do
    let _ ← (recordSessionClient unavailable code sessionId client.id).attempt
    if p.backchannelLogout then do
      match ← (sessionSid unavailable sessionId).attempt with
      | .ok sid => pure sid
      | .error _ => pure none
    else pure none

/-- The claims for a code. -/
def Signer.claims (k : Signer) (client : OidcClient) (code : AuthorizationCode) (userId : Nat)
    (accessToken : String) (sid : Option String) (now : Int) : IdTokenClaims where
  iss := k.issuer
  sub := userId
  aud := client.clientId
  azp := client.clientId
  exp := now + k.idTokenTtlSecs
  iat := now
  authTime := code.authTime
  nonce := code.nonce
  atHash := some (k.atHash accessToken)
  sid := sid

/-- The answer to the request that has consumed its code. -/
def respondToken (p : Provider) (k : Signer) (client : OidcClient) (code : AuthorizationCode)
    (userId : Nat) (accessToken : String) : OidcM TokenResponse := do
  let sid ← bindSession p client code
  let now ← utcNow
  match k.sign (k.claims client code userId accessToken sid now) with
  | none => .fail (.token (.serverError "token signing unavailable") 500)
  | some idToken => pure {
      accessToken := accessToken, tokenType := "Bearer", expiresIn := p.accessTokenTtlSecs
      idToken := idToken, scope := " ".intercalate code.scopes }

/-- The request that has passed every check consumes the code; one that comes too late counts as a
replay. -/
def redeemCode (p : Provider) (k : Signer) (r : TokenRequest) (code : AuthorizationCode)
    (userId : Nat) : OidcM TokenResponse := do
  match ← consumeCodeAndIssueToken p unavailable code r.draw with
  | none => do
    let _ ← (revokeTokensOfCode unavailable code).attempt
    .fail invalidGrant
  | some (accessToken, _) => respondToken p k r.client code userId accessToken

/-- The checks of a code that was not consumed when it was read. -/
def checkCode (p : Provider) (k : Signer) (r : TokenRequest) (q : TokenParams)
    (code : AuthorizationCode) : OidcM TokenResponse := do
  let now ← utcNow
  if code.expiresAt ≤ now then .fail invalidGrant
  else do
    ofExcept (checkRedirect code q.redirect)
    ofExcept (checkPkce p code q.verifier)
    let user ← select unavailable fun db => db.users.find? (· = code.userId)
    match user with
    | none => .fail invalidGrant
    | some userId => do
      let consent ← findActiveConsent unavailable userId r.client.id
      if consent.any fun c => covers c.scopes code.scopes then redeemCode p k r code userId
      else .fail invalidGrant

/-- `exchange_code`. -/
def exchangeCode (p : Provider) (k : Signer) (r : TokenRequest) : OidcM TokenResponse := do
  let q ← ofExcept r.params.exchange
  match ← findCode p unavailable q.code with
  | none => .fail invalidGrant
  | some code =>
    if code.clientId ≠ r.client.id then .fail invalidGrant
    else if code.consumedAt.isSome then do
      let _ ← revokeTokensOfCode unavailable code
      .fail invalidGrant
    else checkCode p k r q code

/-! ## The consent page -/

/-- `issue_code`; `none` when the transaction was completed before. -/
def issueCode (p : Provider) (txn : AuthTransaction) (clientPk userId : Nat)
    (session : BrowserSession) (granted : List String) (draw : Draw) : OidcM (Option String) := do
  if ← completeTransaction dbError txn.id then do
    let code ← insertCode p dbError {
      clientPk := clientPk, userId := userId, sessionId := some session.id
      redirectUri := txn.redirectUri, scopes := granted, nonce := txn.nonce
      codeChallenge := txn.codeChallenge, authTime := session.authTime } draw
    touchSession dbError session.id
    pure (some code)
  else pure none

/-- The user allows a transaction: the grant of what was selected, and a code for it. -/
def allowConsent (p : Provider) (txn : AuthTransaction) (clientPk userId : Nat)
    (session : BrowserSession) (selected : List String) (consentId : Nat) (draw : Draw) :
    OidcM (Option String) := do
  let granted := grantedFromSelection txn.scopes selected
  let _ ← grantConsent userId clientPk granted consentId
  issueCode p txn clientPk userId session granted draw

/-- A transaction whose scopes an active consent covers gets a code without a page. -/
def advanceIssue (p : Provider) (txn : AuthTransaction) (clientPk userId : Nat)
    (session : BrowserSession) (draw : Draw) : OidcM (Option String) := do
  let consent ← findActiveConsent dbError userId clientPk
  if consent.any fun c => covers c.scopes txn.scopes then
    issueCode p txn clientPk userId session txn.scopes draw
  else pure none

end FloatCtf.Oidc
