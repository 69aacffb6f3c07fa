import FloatCtf.Oidc.Domain
import FloatCtf.Process.Prog

/-!
# The tables of the identity provider

`Db` has the rows that the token endpoint, the consent page and the user info endpoint read and
write.  Every store function is one statement, except for `revokeConsent`: its transaction marks the
consent, then the tokens and then the codes, and other statements run in between.  While it is open
its writes stand in `revoking`, where they lock their rows, and they apply when it commits; `xids`
has the transaction identifiers that were given out.  An
`UPDATE` finds its rows when it starts and checks its filter again on each row when it gets the
lock, so the two sweeps of a revocation are two statements each.  A statement that would have to
wait for a lock is made later, or fails.

The values that the source draws at random come with the request, `Draw`, and the unique indexes
are checked by the inserts.  A store function takes the error that its caller makes of an error of
the database.
-/

namespace FloatCtf.Oidc

open Process

/-! ## Rows -/

/-- A client. -/
structure OidcClient where
  id : Nat
  clientId : String
  active : Bool
  deriving DecidableEq

/-- A session of a user. -/
structure BrowserSession where
  id : Nat
  sid : String
  authTime : Int
  lastSeenAt : Int
  deriving DecidableEq

/-- A client that a session has signed in to. -/
structure SessionClient where
  sessionId : Nat
  clientId : Nat
  firstIssuedAt : Int
  lastIssuedAt : Int
  deriving DecidableEq

/-- An authorization transaction. -/
structure AuthTransaction where
  id : Nat
  redirectUri : String
  scopes : List String
  state : Option String
  nonce : Option String
  codeChallenge : Option String
  completedAt : Option Int
  deriving DecidableEq

/-- An authorization code. -/
structure AuthorizationCode where
  id : Nat
  codeHash : String
  clientId : Nat
  userId : Nat
  sessionId : Option Nat
  redirectUri : String
  scopes : List String
  nonce : Option String
  codeChallenge : Option String
  authTime : Int
  createdAt : Int
  expiresAt : Int
  consumedAt : Option Int
  deriving DecidableEq

/-- An access token. -/
structure AccessToken where
  id : Nat
  tokenHash : String
  clientId : Nat
  userId : Nat
  authorizationCodeId : Option Nat
  scopes : List String
  createdAt : Int
  expiresAt : Int
  revokedAt : Option Int
  deriving DecidableEq

/-- A consent of a user to a client. -/
structure Consent where
  id : Nat
  userId : Nat
  clientId : Nat
  scopes : List String
  grantedAt : Int
  updatedAt : Int
  lastUsedAt : Option Int
  revokedAt : Option Int
  deriving DecidableEq

/-- An open `revoke_consent` transaction: what each sweep found when it started, and the rows whose
locks it holds. -/
structure Revocation where
  id : Nat
  userId : Nat
  clientId : Nat
  now : Int
  consent : Option Nat
  foundTokens : Option (List Nat)
  tokens : Option (List Nat)
  foundCodes : Option (List Nat)
  codes : Option (List Nat)
  deriving DecidableEq

/-- The clock, the tables and the open revocations. -/
structure Db where
  now : Int
  clients : List OidcClient
  users : List Nat
  sessions : List BrowserSession
  sessionClients : List SessionClient
  transactions : List AuthTransaction
  codes : List AuthorizationCode
  tokens : List AccessToken
  consents : List Consent
  revoking : List Revocation
  xids : List Nat

/-- A fresh identifier and a fresh secret. -/
structure Draw where
  id : Nat
  value : String
  deriving DecidableEq

/-- The digests and the configuration of the provider. -/
structure Provider where
  hash : String → String
  s256 : String → String
  accessTokenTtlSecs : Int
  authorizationCodeTtlSecs : Int
  backchannelLogout : Bool

/-- The statements. -/
inductive Stmt where
  | clock
  | select
  | findCode (codeHash : String)
  | findActiveConsent (userId clientId : Nat)
  | consumeCode (code : AuthorizationCode) (draw : Draw)
  | revokeTokensOfCode (code : AuthorizationCode)
  | recordSessionClient (code : AuthorizationCode)
  | completeTransaction (id : Nat)
  | insertCode (userId clientId : Nat)
  | touchSession
  | grantConsent (userId clientId : Nat) (existing : Option Consent) (scopes : List String) (id : Nat)
  | findToken (tokenHash : String)
  | acceptToken (token : AccessToken)
  | revokeConsentRow (id userId clientId : Nat)
  | findTokens (id : Nat)
  | revokeTokens (id : Nat)
  | findCodes (id : Nat)
  | consumeCodes (id : Nat)
  | commitRevocation (id : Nat)
  deriving DecidableEq

/-- A request, statement by statement. -/
abbrev OidcM := Prog Stmt Db OidcError

/-- A read that can fail. -/
def select {α : Type} (e : OidcError) (f : Db → α) : OidcM α := Prog.query .select e f

/-- Reads the clock. -/
def utcNow : OidcM Int := Prog.look .clock (·.now)

/-- A check whose error ends the request. -/
def ofExcept {α : Type} : Except OidcError α → OidcM α
  | .ok a => pure a
  | .error e => .fail e

/-! ## Locks -/

/-- An open revocation has locked the code. -/
def Db.codeLocked (db : Db) (id : Nat) : Bool :=
  db.revoking.any fun r => r.codes.any (id ∈ ·)

/-- An open revocation has locked the token. -/
def Db.tokenLocked (db : Db) (id : Nat) : Bool :=
  db.revoking.any fun r => r.tokens.any (id ∈ ·)

/-- An open revocation has locked the consent. -/
def Db.consentLocked (db : Db) (id : Nat) : Bool :=
  db.revoking.any fun r => r.consent = some id

/-! ## Sessions and transactions of the browser -/

/-- `touch_session`. -/
def touchSession (e : OidcError) (id : Nat) : OidcM Unit :=
  Prog.exec .touchSession e fun db => .ok ({ db with
    sessions := db.sessions.map fun s => if s.id = id then { s with lastSeenAt := db.now } else s },
    ())

/-- Notes that the session has signed in to the client. -/
def Db.recordSessionClient (db : Db) (sessionId clientId : Nat) : Db :=
  if db.sessionClients.any fun s => s.sessionId = sessionId ∧ s.clientId = clientId then
    { db with sessionClients := db.sessionClients.map fun s =>
        if s.sessionId = sessionId ∧ s.clientId = clientId then { s with lastIssuedAt := db.now }
        else s }
  else
    { db with sessionClients := db.sessionClients ++ [{
        sessionId := sessionId, clientId := clientId, firstIssuedAt := db.now
        lastIssuedAt := db.now }] }

/-- `record_session_client`, for the session of a code. -/
def recordSessionClient (e : OidcError) (code : AuthorizationCode) (sessionId clientId : Nat) :
    OidcM Unit :=
  Prog.exec (.recordSessionClient code) e fun db =>
    .ok (db.recordSessionClient sessionId clientId, ())

/-- The public name of a session. -/
def sessionSid (e : OidcError) (id : Nat) : OidcM (Option String) :=
  select e fun db => (db.sessions.find? (·.id = id)).map (·.sid)

/-- `complete_transaction`: only the first caller completes it. -/
def completeTransaction (e : OidcError) (id : Nat) : OidcM Bool :=
  Prog.exec (.completeTransaction id) e fun db =>
    .ok ({ db with transactions := db.transactions.map fun t =>
        if t.id = id ∧ t.completedAt = none then { t with completedAt := some db.now } else t },
      db.transactions.any fun t => t.id = id ∧ t.completedAt = none)

/-! ## Authorization codes -/

/-- What a code is issued for. -/
structure NewCode where
  clientPk : Nat
  userId : Nat
  sessionId : Option Nat
  redirectUri : String
  scopes : List String
  nonce : Option String
  codeChallenge : Option String
  authTime : Int

/-- The row of a new code. -/
def NewCode.row (p : Provider) (n : NewCode) (draw : Draw) (now : Int) : AuthorizationCode where
  id := draw.id
  codeHash := p.hash draw.value
  clientId := n.clientPk
  userId := n.userId
  sessionId := n.sessionId
  redirectUri := n.redirectUri
  scopes := n.scopes
  nonce := n.nonce
  codeChallenge := n.codeChallenge
  authTime := n.authTime
  createdAt := now
  expiresAt := now + p.authorizationCodeTtlSecs
  consumedAt := none

/-- The id or the digest is taken. -/
def AuthorizationCode.clashes (c : AuthorizationCode) (db : Db) : Bool :=
  db.codes.any fun k => k.id = c.id ∨ k.codeHash = c.codeHash

/-- `insert_code`. -/
def insertCode (p : Provider) (e : OidcError) (n : NewCode) (draw : Draw) : OidcM String :=
  Prog.exec (.insertCode n.userId n.clientPk) e fun db =>
    let row := n.row p draw db.now
    if row.clashes db then .error e
    else .ok ({ db with codes := db.codes ++ [row] }, draw.value)

/-- `find_code`. -/
def findCode (p : Provider) (e : OidcError) (code : String) :
    OidcM (Option AuthorizationCode) :=
  if isPlausibleToken code then
    Prog.query (.findCode (p.hash code)) e fun db => db.codes.find? (·.codeHash = p.hash code)
  else pure none

/-- The token belongs to the code and is not revoked. -/
def AccessToken.liveOf (t : AccessToken) (codeId : Nat) : Bool :=
  t.authorizationCodeId = some codeId ∧ t.revokedAt = none

/-- The token as revoked. -/
def AccessToken.revoked (t : AccessToken) (now : Int) : AccessToken := { t with revokedAt := some now }

/-- Revokes the live tokens of a code. -/
def Db.revokeTokensOf (db : Db) (id : Nat) : Db :=
  { db with tokens := db.tokens.map fun t => if t.liveOf id then t.revoked db.now else t }

/-- `revoke_tokens_of_code`. -/
def revokeTokensOfCode (e : OidcError) (code : AuthorizationCode) : OidcM Nat :=
  Prog.exec (.revokeTokensOfCode code) e fun db =>
    if db.tokens.any fun t => t.liveOf code.id ∧ db.tokenLocked t.id then .error e
    else .ok (db.revokeTokensOf code.id, db.tokens.countP (·.liveOf code.id))

/-- The code as consumed. -/
def AuthorizationCode.consumed (c : AuthorizationCode) (now : Int) : AuthorizationCode :=
  { c with consumedAt := some now }

/-- The filter of the conditional update: the code is not consumed and has not expired. -/
def AuthorizationCode.consumable (c : AuthorizationCode) (id : Nat) (now : Int) : Bool :=
  c.id = id ∧ c.consumedAt = none ∧ now < c.expiresAt

/-- The token for a code. -/
def AuthorizationCode.token (p : Provider) (code : AuthorizationCode) (draw : Draw) (now : Int) :
    AccessToken where
  id := draw.id
  tokenHash := p.hash draw.value
  clientId := code.clientId
  userId := code.userId
  authorizationCodeId := some code.id
  scopes := code.scopes
  createdAt := now
  expiresAt := now + p.accessTokenTtlSecs
  revokedAt := none

/-- The id or the digest is taken. -/
def AccessToken.clashes (t : AccessToken) (db : Db) : Bool :=
  db.tokens.any fun k => k.id = t.id ∨ k.tokenHash = t.tokenHash

/-- The consent as used. -/
def Consent.touched (c : Consent) (now : Int) : Consent := { c with lastUsedAt := some now }

/-- The consumption of a code that is there to be consumed. -/
def Db.consume (db : Db) (p : Provider) (code : AuthorizationCode) (draw : Draw) : Db :=
  { db with
    codes := db.codes.map fun c => if c.consumable code.id db.now then c.consumed db.now else c
    tokens := db.tokens ++ [code.token p draw db.now]
    consents := db.consents.map fun c =>
      if c.userId = code.userId ∧ c.clientId = code.clientId then c.touched db.now else c }

/-- The transaction waits for a row that a revocation has locked. -/
def Db.consumeWaits (db : Db) (code : AuthorizationCode) : Bool :=
  db.codeLocked code.id || db.consents.any fun c =>
    c.userId = code.userId ∧ c.clientId = code.clientId ∧ db.consentLocked c.id

/-- `consume_code_and_issue_token`; `none` when the code is not there to be consumed. -/
def consumeCodeAndIssueToken (p : Provider) (e : OidcError) (code : AuthorizationCode)
    (draw : Draw) : OidcM (Option (String × Int)) :=
  Prog.exec (.consumeCode code draw) e fun db =>
    if db.consumeWaits code then .error e
    else if db.codes.any (·.consumable code.id db.now) then
      if (code.token p draw db.now).clashes db then .error e
      else .ok (db.consume p code draw, some (draw.value, db.now + p.accessTokenTtlSecs))
    else .ok (db, none)

/-! ## Consents -/

/-- The row is the active consent of the user to the client. -/
def Consent.activeFor (c : Consent) (userId clientId : Nat) : Bool :=
  c.userId = userId ∧ c.clientId = clientId ∧ c.revokedAt = none

/-- The active consent of the user to the client. -/
def Db.activeConsent (db : Db) (userId clientId : Nat) : Option Consent :=
  db.consents.find? (·.activeFor userId clientId)

/-- An active consent covers the scopes. -/
def Db.consented (db : Db) (userId clientId : Nat) (scopes : List String) : Bool :=
  (db.activeConsent userId clientId).any fun c => covers c.scopes scopes

/-- `find_active_consent`. -/
def findActiveConsent (e : OidcError) (userId clientId : Nat) : OidcM (Option Consent) :=
  Prog.query (.findActiveConsent userId clientId) e fun db => db.activeConsent userId clientId

/-- The update of the row that `grant_consent` has read. -/
def Consent.regranted (c : Consent) (seen : Consent) (merged : List String) (now : Int) : Consent :=
  if seen.revokedAt.isSome then
    { c with scopes := merged, updatedAt := now, revokedAt := none, grantedAt := now }
  else { c with scopes := merged, updatedAt := now }

/-- The scopes that a grant starts from: those of an active row. -/
def seenScopes : Option Consent → List String
  | some c => if c.revokedAt.isSome then [] else c.scopes
  | none => []

/-- The write of `grant_consent`, of the row it has read, or of a new one that gives way to the row
of a concurrent first grant. -/
def Db.grant (db : Db) (userId clientId : Nat) (existing : Option Consent) (scopes : List String)
    (id : Nat) : Except OidcError Db :=
  let merged := union (seenScopes existing) scopes
  match existing with
  | some row =>
    if db.consentLocked row.id then .error dbError
    else if db.consents.any (·.id = row.id) then
      .ok { db with
        consents := db.consents.map fun c =>
          if c.id = row.id then c.regranted row merged db.now else c }
    else .error dbError
  | none =>
    if db.consents.any fun c => c.userId = userId ∧ c.clientId = clientId then
      if db.consents.any fun c => c.userId = userId ∧ c.clientId = clientId ∧
          db.consentLocked c.id then .error dbError
      else .ok { db with consents := db.consents.map fun c =>
        if c.userId = userId ∧ c.clientId = clientId then
          { c with scopes := merged, updatedAt := db.now }
        else c }
    else if db.consents.any (·.id = id) then .error dbError
    else .ok { db with consents := db.consents ++ [{
        id := id, userId := userId, clientId := clientId, scopes := merged, grantedAt := db.now
        updatedAt := db.now, lastUsedAt := none, revokedAt := none }] }

/-- `grant_consent`. -/
def grantConsent (userId clientId : Nat) (scopes : List String) (id : Nat) :
    OidcM (List String) := do
  let existing ← select dbError fun db =>
    db.consents.find? fun c => c.userId = userId ∧ c.clientId = clientId
  Prog.exec (.grantConsent userId clientId existing scopes id) dbError fun db => do
    .ok (← db.grant userId clientId existing scopes id, union (seenScopes existing) scopes)

/-! ## Tokens -/

/-- A token with its client and its user. -/
structure TokenContext where
  token : AccessToken
  client : OidcClient
  user : Nat

/-- `find_usable_token`: a token that is neither expired nor revoked, of an active client, with an
active consent and a user. -/
def findUsableToken (p : Provider) (token : String) : OidcM (Option TokenContext) :=
  if isPlausibleToken token then do
    let row ← Prog.query (.findToken (p.hash token)) dbError fun db =>
      (db.tokens.find? fun t =>
        t.tokenHash = p.hash token ∧ t.revokedAt = none ∧ db.now < t.expiresAt).map fun t =>
          (t, db.clients.find? (·.id = t.clientId))
    match row with
    | some (t, some client) =>
      if client.active then do
        let consent ← findActiveConsent dbError t.userId client.id
        if consent.isSome then
          Prog.query (.acceptToken t) dbError fun db =>
            if t.userId ∈ db.users then some ⟨t, client, t.userId⟩ else none
        else pure none
      else pure none
    | _ => pure none
  else pure none

/-! ## Revocation -/

/-- Changes one open revocation. -/
def Db.editRevocation (db : Db) (id : Nat) (f : Revocation → Revocation) : Db :=
  { db with revoking := db.revoking.map fun r => if r.id = id then f r else r }

/-- The first statement of `revoke_consent`: it takes the active row, if there is one. -/
def Db.revokeConsentRow (db : Db) (id userId clientId : Nat) : Except OidcError (Db × Bool) :=
  let row := db.activeConsent userId clientId
  if row.any fun c => db.consentLocked c.id then .error dbError
  else if id ∈ db.xids then .error dbError
  else .ok ({ db with
      revoking := db.revoking ++ [{
        id := id, userId := userId, clientId := clientId, now := db.now
        consent := row.map (·.id), foundTokens := none, tokens := none, foundCodes := none
        codes := none }]
      xids := id :: db.xids }, row.isSome)

/-- The revocation takes the token. -/
def AccessToken.sweeps (t : AccessToken) (r : Revocation) : Bool :=
  t.userId = r.userId ∧ t.clientId = r.clientId ∧ t.revokedAt = none

/-- The revocation takes the code. -/
def AuthorizationCode.sweeps (c : AuthorizationCode) (r : Revocation) : Bool :=
  c.userId = r.userId ∧ c.clientId = r.clientId ∧ c.consumedAt = none

/-- The revocation finds the tokens it is to revoke. -/
def Revocation.findTokens (r : Revocation) (db : Db) : Revocation :=
  { r with foundTokens := some ((db.tokens.filter (·.sweeps r)).map (·.id)) }

/-- It locks those that are still to be revoked. -/
def Revocation.lockTokens (r : Revocation) (db : Db) : Revocation :=
  { r with tokens := r.foundTokens.map fun ids =>
      ((db.tokens.filter fun t => t.sweeps r ∧ t.id ∈ ids)).map (·.id) }

/-- The revocation finds the codes it is to consume. -/
def Revocation.findCodes (r : Revocation) (db : Db) : Revocation :=
  { r with foundCodes := some ((db.codes.filter (·.sweeps r)).map (·.id)) }

/-- It locks those that are still to be consumed. -/
def Revocation.lockCodes (r : Revocation) (db : Db) : Revocation :=
  { r with codes := r.foundCodes.map fun ids =>
      ((db.codes.filter fun c => c.sweeps r ∧ c.id ∈ ids)).map (·.id) }

/-- A statement of the open transaction; it fails when the connection was lost. -/
def inRevocation (l : Stmt) (id : Nat) (f : Revocation → Db → Revocation)
    (waits : Revocation → Db → Bool) : OidcM Unit :=
  Prog.exec l dbError fun db =>
    match db.revoking.find? (·.id = id) with
    | none => .error dbError
    | some r => if waits r db then .error dbError else .ok (db.editRevocation id (f · db), ())

/-- The writes of a revocation. -/
def Db.applyRevocation (db : Db) (r : Revocation) : Db :=
  { db with
    consents := db.consents.map fun c =>
      if r.consent = some c.id then { c with revokedAt := some r.now } else c
    tokens := db.tokens.map fun t =>
      if r.tokens.any (t.id ∈ ·) then t.revoked r.now else t
    codes := db.codes.map fun c =>
      if r.codes.any (c.id ∈ ·) then c.consumed r.now else c
    revoking := db.revoking.filter (·.id ≠ r.id) }

/-- The revocation commits everything it has locked. -/
def commitRevocation (id : Nat) : OidcM Unit :=
  Prog.exec (.commitRevocation id) dbError fun db =>
    match db.revoking.find? (·.id = id) with
    | none => .error dbError
    | some r => .ok (db.applyRevocation r, ())

/-- `revoke_user_client_grants`, in the transaction `id`. -/
def revokeUserClientGrants (id : Nat) : OidcM Unit := do
  inRevocation (.findTokens id) id Revocation.findTokens fun _ _ => false
  inRevocation (.revokeTokens id) id Revocation.lockTokens fun r db =>
    db.tokens.any fun t => t.sweeps r ∧ r.foundTokens.any (t.id ∈ ·) ∧ db.tokenLocked t.id
  inRevocation (.findCodes id) id Revocation.findCodes fun _ _ => false
  inRevocation (.consumeCodes id) id Revocation.lockCodes fun r db =>
    db.codes.any fun c => c.sweeps r ∧ r.foundCodes.any (c.id ∈ ·) ∧ db.codeLocked c.id

/-- `revoke_consent`. -/
def revokeConsent (id userId clientId : Nat) : OidcM Bool := do
  let matched ← Prog.exec (.revokeConsentRow id userId clientId) dbError fun db =>
    db.revokeConsentRow id userId clientId
  revokeUserClientGrants id
  commitRevocation id
  pure matched

end FloatCtf.Oidc
