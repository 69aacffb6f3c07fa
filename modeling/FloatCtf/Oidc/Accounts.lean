import FloatCtf.Oidc.Domain
import FloatCtf.Process.Prog
import Mathlib.Data.List.Sort

/-!
# The accounts of a browser

A browser holds the secret of a container, in which every account that has signed in has a session;
`webSessionId` of the container is the account that the main site uses.  A request loads its view of
the container once, `Browser`, decides on it, and then writes row by row.

The tables of the back-channel logout are in the same `Db`.  The values that the source draws at
random come with the request, and `hash` is `sha256_hex`.
-/

namespace FloatCtf.Oidc.Accounts

open Process

/-! ## Rows -/

/-- Why a session was revoked. -/
inductive RevokeReason where
  | logout
  | logoutBrowser
  | globalLogout
  | replaced
  | evicted
  deriving DecidableEq

/-- The container of the accounts of a browser. -/
structure Container where
  id : Nat
  secretHash : String
  webSessionId : Option Nat
  webSignedOutAt : Option Int
  lastSeenAt : Int
  expiresAt : Int
  revokedAt : Option Int
  deriving DecidableEq

/-- A session of an account. -/
structure Session where
  id : Nat
  sessionHash : String
  userId : Nat
  authTime : Int
  createdAt : Int
  lastSeenAt : Int
  expiresAt : Int
  revokedAt : Option Int
  revokedReason : Option RevokeReason
  containerId : Option Nat
  sid : String
  deriving DecidableEq

/-- A client, with the address for logouts. -/
structure Client where
  id : Nat
  active : Bool
  backchannelLogoutUri : Option String
  deriving DecidableEq

/-- A client that a session has signed in to. -/
structure SessionClient where
  sessionId : Nat
  clientId : Nat
  deriving DecidableEq

/-- How far a delivery has come. -/
inductive DeliveryStatus where
  | pending
  | delivered
  | failed
  deriving DecidableEq

/-- The delivery of a logout to a client. -/
structure Delivery where
  id : Nat
  batchId : Nat
  issuer : String
  clientId : Nat
  userId : Nat
  sid : String
  status : DeliveryStatus
  attempts : Nat
  nextAttemptAt : Int
  lastError : Option String
  lastHttpStatus : Option Nat
  lastJti : Option String
  createdAt : Int
  deliveredAt : Option Int
  deriving DecidableEq

/-- The clock and the tables of the accounts. -/
structure Db where
  now : Int
  users : List Nat
  containers : List Container
  sessions : List Session
  clients : List Client
  sessionClients : List SessionClient
  deliveries : List Delivery
  /-- The identifier of the next delivery. -/
  nextDelivery : Nat

/-- The configuration of the provider. -/
structure Provider where
  hash : String → String
  issuer : String
  multiAccount : Bool
  maxBrowserAccounts : Nat
  browserContainerTtlSecs : Int
  sessionTtlSecs : Int

/-- The errors of the requests. -/
inductive AppError where
  | validation (message : String)
  | unauthorized
  | forbidden (message : String)
  | notFound (message : String)
  | conflict (message : String)
  | database
  deriving DecidableEq

/-! ## The view of a request -/

/-- The cookies of a request. -/
structure Cookies where
  accounts : Option String
  sso : Option String

/-- What a request has loaded; the accounts come with the latest used one first. -/
structure Browser where
  container : Option Container := none
  secret : Option String := none
  accounts : List Session := []
  deriving DecidableEq

/-- The account of a session in the browser. -/
def Browser.find (b : Browser) (sessionId : Nat) : Option Session :=
  b.accounts.find? (·.id = sessionId)

/-- The account that the web interface is signed in with. -/
def Browser.webAccount (b : Browser) : Option Session :=
  (b.container.bind (·.webSessionId)).bind b.find

/-- The sessions that are younger than the last explicit sign-out of the main site. -/
def Browser.restorable (b : Browser) : List Session :=
  let signedOut := b.container.bind (·.webSignedOutAt)
  b.accounts.filter fun s => signedOut.all fun t => t < s.createdAt

/-! ## Statements -/

/-- How a client answers a delivery. -/
inductive PostResult where
  | signingFailed
  | status (code : Nat)
  | refused (reason : String)
  | transient (reason : String)
  deriving DecidableEq

/-- How an attempt to notify an application goes: the identifier of its token, and what comes
back. -/
structure Attempt where
  jti : String
  result : PostResult
  deriving DecidableEq

/-- A statement carries the view of its request where it decides on it.  `clears` is the container
whose active account the request will set to null in a later statement, and `signedOut` the time at
which the main site is signed out. -/
inductive Stmt where
  | clock
  | select
  | insertContainer (hash : String)
  | renew
  | rotate (container : Nat) (hash : String)
  | move (view : Browser) (session : Nat)
  | revoke (view : Browser) (ids : List Nat) (reason : RevokeReason) (clears : Option Nat)
  | sweep (view : Browser) (container : Nat) (reason : RevokeReason)
  | insertSession (view : Browser) (session : Session) (clears : Option Nat)
  | setWeb (view : Browser) (container : Nat) (session : Option Session) (signedOut : Option Int)
    (restore : Bool)
  | revokeContainer (container : Nat)
  | bindings (session : Session)
  | insertDelivery (clientId : Nat) (sid : String)
  | findClient (row : Delivery)
  | post (row : Delivery) (attempt : Attempt)
  | mark (row : Delivery)
  | retry (row : Delivery)
  | claim
  | setClients (clients : List Client)
  | record (sessionId clientId : Nat)
  deriving DecidableEq

/-- A request on the accounts, statement by statement. -/
abbrev AccountM := Prog Stmt Db AppError

/-- A read that can fail like any statement. -/
def select {α : Type} (f : Db → α) : AccountM α := .query .select .database f

/-- Reads the clock. -/
def clock : AccountM Int := .look .clock (·.now)

/-- A write that can fail like any statement. -/
def write (l : Stmt) (f : Db → Db) : AccountM Unit :=
  .exec l .database fun db => .ok (f db, ())

/-- A pure check inside a request. -/
def check {α : Type} : Except AppError α → AccountM α
  | .ok a => pure a
  | .error e => .fail e

/-- Changes one container. -/
def editContainer (id : Nat) (f : Container → Container) (db : Db) : Db :=
  { db with containers := db.containers.map fun c => if c.id = id then f c else c }

/-- Changes the sessions that meet `p`. -/
def editSessions (p : Session → Bool) (f : Session → Session) (db : Db) : Db :=
  { db with sessions := db.sessions.map fun s => if p s then f s else s }

/-- The container is not revoked and not expired. -/
def Container.isValid (c : Container) (now : Int) : Bool :=
  c.revokedAt.isNone && decide (now < c.expiresAt)

/-- Neither revoked nor expired. -/
def Session.isLive (s : Session) (now : Int) : Bool :=
  s.revokedAt.isNone && decide (now < s.expiresAt)

/-! ## Reads -/

/-- The valid container of a secret. -/
def findContainer (p : Provider) (value : String) : AccountM (Option Container) :=
  select fun db => db.containers.find? fun c => c.secretHash = p.hash value && c.isValid db.now

/-- The live sessions of the container whose user exists. -/
def Db.containerAccounts (db : Db) (containerId : Nat) : List Session :=
  (db.sessions.filter fun s =>
    s.containerId = some containerId && s.isLive db.now && s.userId ∈ db.users).insertionSort
      fun a b => b.lastSeenAt ≤ a.lastSeenAt

/-- The live session of a token, if its user is there. -/
def findValidSession (p : Provider) (value : String) : AccountM (Option Session) :=
  if !isPlausibleToken value then pure none
  else select fun db => db.sessions.find? fun s =>
    s.sessionHash = p.hash value && s.isLive db.now && s.userId ∈ db.users

/-! ## Containers -/

/-- What a request draws at random. -/
structure Draws where
  containerId : Nat
  containerSecret : String
  rotatedSecret : String
  sessionId : Nat
  sessionSecret : String
  sid : String

/-- Inserts a container whose id and secret are new. -/
def insertContainer (c : Container) : AccountM Unit :=
  .exec (.insertContainer c.secretHash) .database fun db =>
    if db.containers.any fun c' => c'.id = c.id || c'.secretHash = c.secretHash then
      .error .database
    else .ok ({ db with containers := db.containers ++ [c] }, ())

/-- The container of the browser, made if there is none. -/
def ensureContainer (p : Provider) (draws : Draws) (b : Browser) : AccountM Browser :=
  match b.container with
  | some _ => pure b
  | none => do
    let now ← clock
    let container : Container :=
      { id := draws.containerId, secretHash := p.hash draws.containerSecret, webSessionId := none
        webSignedOutAt := none, lastSeenAt := now, expiresAt := now + p.browserContainerTtlSecs
        revokedAt := none }
    insertContainer container
    pure { b with container := some container, secret := some draws.containerSecret }

/-- The container is renewed when it was not used for an hour. -/
def renewIfStale (p : Provider) (b : Browser) : AccountM Browser :=
  match b.container with
  | none => pure b
  | some c => do
    let now ← clock
    if now - 3600 < c.lastSeenAt then pure b
    else
      let expires := now + p.browserContainerTtlSecs
      write .renew (editContainer c.id fun r => { r with lastSeenAt := now, expiresAt := expires })
      pure { b with container := some { c with lastSeenAt := now, expiresAt := expires } }

/-- Every sign-in with a password gives the container a new secret. -/
def rotateSecret (p : Provider) (draws : Draws) (b : Browser) : AccountM Browser :=
  match b.container with
  | none => pure b
  | some c => do
    let now ← clock
    let secretHash := p.hash draws.rotatedSecret
    let expiresAt := now + p.browserContainerTtlSecs
    .exec (.rotate c.id secretHash) .database fun db =>
      if db.containers.any fun c' => c'.id ≠ c.id && c'.secretHash = secretHash then .error .database
      else .ok (editContainer c.id
        (fun r => { r with secretHash, lastSeenAt := now, expiresAt }) db, ())
    pure
      { b with
        container := some { c with secretHash, lastSeenAt := now, expiresAt }
        secret := some draws.rotatedSecret }

/-- A session that was made before there were containers moves into a new one. -/
def migrateLegacy (p : Provider) (draws : Draws) (session : Session) : AccountM Browser := do
  let b ← ensureContainer p draws {}
  let containerId := b.container.map (·.id)
  write (.move b session.id)
    (editSessions (fun s => s.id = session.id) fun s => { s with containerId })
  pure { b with accounts := [{ session with containerId }] }

/-- The browser of an old session cookie. -/
def loadLegacy (p : Provider) (draws : Draws) (sso : Option String) : AccountM Browser :=
  match sso with
  | none => pure {}
  | some value => do
    let found ← findValidSession p value
    match found with
    | none => pure {}
    | some session => migrateLegacy p draws session

/-- The one session of a browser without containers. -/
def loadSingle (p : Provider) (sso : Option String) : AccountM Browser :=
  match sso with
  | none => pure {}
  | some value => do
    let found ← findValidSession p value
    pure { accounts := found.toList }

/-- The browser of a container cookie. -/
def loadContainer (p : Provider) (draws : Draws) (cookies : Cookies) (value : String) :
    AccountM Browser := do
  let found ← findContainer p value
  match found with
  | none => loadLegacy p draws cookies.sso
  | some c => do
    let accounts ← select fun db => db.containerAccounts c.id
    renewIfStale p { container := some c, secret := some value, accounts }

/-- What the cookies of a request stand for. -/
def load (p : Provider) (draws : Draws) (cookies : Cookies) : AccountM Browser :=
  if !p.multiAccount then loadSingle p cookies.sso
  else
    match cookies.accounts.filter isPlausibleToken with
    | some value => loadContainer p draws cookies value
    | none => loadLegacy p draws cookies.sso

/-! ## Sessions -/

/-- Revokes the sessions that are not yet revoked. -/
def revokeSessions (view : Browser) (ids : List Nat) (reason : RevokeReason)
    (clears : Option Nat) : AccountM Unit :=
  if ids = [] then pure ()
  else
    write (.revoke view ids reason clears) fun db =>
      editSessions (fun s => s.id ∈ ids && s.revokedAt.isNone)
        (fun s => { s with revokedAt := some db.now, revokedReason := some reason }) db

/-- Chooses the account of the web interface. -/
def setWebSession (view : Browser) (c : Container) (session : Option Session)
    (signedOut restore : Bool) : AccountM Container := do
  let now ← clock
  let webSignedOutAt (old : Option Int) : Option Int := if signedOut then some now else old
  let stamp := if signedOut then some now else none
  write (.setWeb view c.id session stamp restore) (editContainer c.id fun r =>
    { r with webSessionId := session.map (·.id), webSignedOutAt := webSignedOutAt r.webSignedOutAt })
  pure
    { c with
      webSessionId := session.map (·.id)
      webSignedOutAt := webSignedOutAt c.webSignedOutAt }

/-- Inserts a session, in the container if there is one. -/
def createSessionIn (view : Browser) (p : Provider) (draws : Draws) (userId : Nat)
    (authTime ttlSecs : Int) (clears : Option Nat) : AccountM Session := do
  let now ← clock
  let session : Session :=
    { id := draws.sessionId, sessionHash := p.hash draws.sessionSecret, userId, authTime
      createdAt := now, lastSeenAt := now, expiresAt := now + ttlSecs, revokedAt := none
      revokedReason := none, containerId := view.container.map (·.id), sid := draws.sid }
  .exec (.insertSession view session clears) .database fun db =>
    if db.sessions.any fun s => s.id = session.id || s.sessionHash = session.sessionHash ||
        s.sid = session.sid then .error .database
    else .ok ({ db with sessions := db.sessions ++ [session] }, session)

/-- The sessions of the user in the view. -/
def replacedBy (b : Browser) (userId : Nat) : List Nat :=
  (b.accounts.filter (·.userId = userId)).map (·.id)

/-- The other accounts. -/
def others (b : Browser) (userId : Nat) : List Session := b.accounts.filter (·.userId ≠ userId)

/-- Those that go when the browser is full, the least recently used ones. -/
def evictedBy (p : Provider) (b : Browser) (userId : Nat) : List Nat :=
  if p.maxBrowserAccounts ≤ (others b userId).length then
    ((others b userId).drop (p.maxBrowserAccounts - 1)).map (·.id)
  else []

/-- Those that stay. -/
def keptBy (p : Provider) (b : Browser) (userId : Nat) : List Session :=
  if p.maxBrowserAccounts ≤ (others b userId).length then
    (others b userId).take (p.maxBrowserAccounts - 1)
  else others b userId

/-- The active account of the main site does not stay. -/
def dropsPointer (p : Provider) (draws : Draws) (b : Browser) (userId : Nat) : Bool :=
  match b.container.bind (·.webSessionId) with
  | none => false
  | some id => id ∈ replacedBy b userId || id ∉ draws.sessionId :: (keptBy p b userId).map (·.id)

/-- The pointer is cleared when its session has gone. -/
def clearPointer (b : Browser) (drops : Bool) : AccountM Browser :=
  match b.container with
  | none => pure b
  | some c =>
    if drops then do
      let c' ← setWebSession b c none false false
      pure { b with container := some c' }
    else pure b

/-- The account is added to a view that has a container with a new secret. -/
def placeAccount (p : Provider) (draws : Draws) (b : Browser) (userId : Nat)
    (authTime ttlSecs : Int) : AccountM (Session × Browser) := do
  let drops := dropsPointer p draws b userId
  let clears := if drops then b.container.map (·.id) else none
  revokeSessions b (replacedBy b userId) .replaced clears
  revokeSessions b (evictedBy p b userId) .evicted clears
  let kept := { b with accounts := keptBy p b userId }
  let session ← createSessionIn kept p draws userId authTime ttlSecs clears
  let b ← clearPointer { b with accounts := session :: keptBy p b userId } drops
  pure (session, b)

/-- Signs an account in, next to those of the browser. -/
def addAccount (p : Provider) (draws : Draws) (b : Browser) (userId : Nat)
    (authTime ttlSecs : Int) : AccountM (Session × Browser) := do
  let b ← ensureContainer p draws b
  let b ← rotateSecret p draws b
  placeAccount p draws b userId authTime ttlSecs

/-- The container whose pointer the sign-out of the session will clear. -/
def clearsFor (b : Browser) (sessionId : Nat) : Option Nat :=
  (b.container.filter fun c => c.webSessionId = some sessionId).map (·.id)

/-- Signs one account out. -/
def signOutAccount (b : Browser) (sessionId : Nat) (reason : RevokeReason) : AccountM Browser :=
  match b.find sessionId with
  | none => pure b
  | some _ => do
    revokeSessions b [sessionId] reason (clearsFor b sessionId)
    let b := { b with accounts := b.accounts.filter (·.id ≠ sessionId) }
    match b.container with
    | none => pure b
    | some c =>
      if c.webSessionId = some sessionId then do
        let c' ← setWebSession b c none true false
        pure { b with container := some c' }
      else pure b

/-- The container goes with every session in it. -/
def revokeContainer (b : Browser) (c : Container) (reason : RevokeReason) : AccountM Unit := do
  write (.sweep b c.id reason) fun db =>
    editSessions (fun s => s.containerId = some c.id && s.revokedAt.isNone)
      (fun s => { s with revokedAt := some db.now, revokedReason := some reason }) db
  write (.revokeContainer c.id) fun db =>
    editContainer c.id (fun r => { r with revokedAt := some db.now, webSessionId := none }) db

/-- Signs all accounts of the browser out. -/
def signOutBrowser (b : Browser) (reason : RevokeReason) : AccountM Browser := do
  revokeSessions b (b.accounts.map (·.id)) reason (b.container.map (·.id))
  match b.container with
  | none => pure {}
  | some c => do
    revokeContainer b c reason
    pure {}

end FloatCtf.Oidc.Accounts
