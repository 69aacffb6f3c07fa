import FloatCtf.Oidc.Domain
import FloatCtf.Oidc.RedirectUri
import FloatCtf.Process.Prog

/-!
# Applications of the identity provider

The registration of an application, the fields that its owner may change, the rotation of its
secret, and the two machines that move its status, one for the owner and one for administrators.

A request reads the row, computes what it writes from the row it read, and writes by the primary
key: an `UPDATE` of the active record sets the columns of the request and no others, and it has no
condition on the status.
-/

namespace FloatCtf.Oidc.Clients

open Process
open Text (isControl trim)

/-! ## Rows -/

/-- The status of a client. -/
inductive ClientStatus where
  | pending
  | active
  | disabled
  | suspended
  | rejected
  deriving DecidableEq

/-- Whether a client can keep a secret. -/
inductive ClientType where
  | publicClient
  | confidential
  deriving DecidableEq

/-- How a client authenticates at the token endpoint. -/
inductive TokenAuthMethod where
  | clientSecretBasic
  | clientSecretPost
  | none
  deriving DecidableEq

/-- A registered client. -/
structure Client where
  id : Nat
  clientId : String
  ownerUserId : Nat
  name : String
  description : Option String
  homepageUrl : Option String
  logoUrl : Option String
  clientType : ClientType
  tokenEndpointAuthMethod : TokenAuthMethod
  redirectUris : List String
  allowedScopes : List String
  postLogoutRedirectUris : List String
  backchannelLogoutUri : Option String
  requirePkce : Bool
  secretHash : Option String
  previousSecretHash : Option String
  previousSecretExpiresAt : Option Int
  secretRotatedAt : Option Int
  status : ClientStatus
  statusReason : Option String
  reviewedBy : Option Nat
  reviewedAt : Option Int
  createdAt : Int
  updatedAt : Int
  deriving DecidableEq

/-- The clock and the clients. -/
structure Db where
  now : Int
  clients : List Client

/-- The primary key or the client identifier is taken. -/
def Db.clashes (db : Db) (id : Nat) (clientId : String) : Bool :=
  db.clients.any fun c => c.id = id ∨ c.clientId = clientId

/-- The errors of the requests. -/
inductive AppError where
  | validation (message : String)
  | notFound (message : String)
  | invalidState (message : String)
  | internal (message : String)
  | database
  deriving DecidableEq

/-! ## Input -/

/-- The longest name. -/
def maxNameChars : Nat := 64

/-- The longest description. -/
def maxDescriptionChars : Nat := 500

/-- What the owner may edit; in the last two `none` keeps what is stored. -/
structure ClientInput where
  name : String
  description : Option String
  homepageUrl : Option String
  logoUrl : Option String
  redirectUris : List String
  scopes : List String
  postLogoutRedirectUris : Option (List String)
  backchannelLogoutUri : Option String

/-- A form that has passed its checks. -/
structure NormalizedInput where
  name : String
  description : Option String
  homepageUrl : Option String
  logoUrl : Option String
  redirectUris : List String
  scopes : List String
  postLogoutRedirectUris : Option (List String)
  backchannelLogoutUri : Option (Option String)

/-- A text without blanks around it, if something is left. -/
def nonEmpty (value : Option String) : Option String := (value.map trim).filter (· ≠ "")

/-- A scheme that is allowed for this host. -/
def webScheme (scheme host : String) (allowLoopback : Bool) : Except String Unit :=
  if scheme = "https" ∨ (scheme = "http" ∧ allowLoopback ∧ isLoopbackHost host) then .ok ()
  else .error "必须使用 https"

/-- The address of a page. -/
def validateWebUrl (parse : UrlParser) (url : String) (allowLoopback : Bool) : Except String Unit :=
  if maxRedirectUriLen < url.utf8ByteSize then .error "地址过长"
  else
    match parse url with
    | .error _ => .error "不是合法的绝对 URL"
    | .ok parsed =>
      match parsed.host with
      | none => .error "缺少主机名"
      | some host => webScheme parsed.scheme host allowLoopback

/-- The address of a logout endpoint. -/
def validateBackchannelUri (parse : UrlParser) (uri : String) (allowLoopback : Bool) :
    Except String Unit :=
  if maxRedirectUriLen < uri.utf8ByteSize then .error "过长"
  else
    match parse uri with
    | .error _ => .error "不是合法的绝对 URL"
    | .ok parsed =>
      match parsed.host with
      | none => .error "缺少主机名"
      | some host =>
        if parsed.username ≠ "" ∨ parsed.password.isSome then .error "不得包含用户名或密码"
        else if parsed.fragment.isSome then .error "不得包含 #fragment"
        else webScheme parsed.scheme host allowLoopback

/-- An optional address that is checked when it is there. -/
def checkUrl (parse : UrlParser) (label : String) (url : Option String) (allowLoopback : Bool) :
    Except String Unit :=
  match url with
  | none => .ok ()
  | some url => (validateWebUrl parse url allowLoopback).mapError (label ++ ·)

/-- The trimmed addresses, each once, in the order of their first occurrence. -/
def collectUris (check : String → Except String Unit) :
    List String → List String → Except String (List String)
  | acc, [] => .ok acc
  | acc, uri :: uris => do
    check (trim uri)
    collectUris check (if trim uri ∈ acc then acc else acc ++ [trim uri]) uris

/-- The scopes of a client, `openid` among them. -/
def normalizeClientScopes (input : List String) : Except String (List String) :=
  match input.find? (· ∉ supported) with
  | some s => .error s!"不支持的 scope：{s}（只允许 openid / profile / email）"
  | none =>
    let normalized := union input []
    if "openid" ∈ normalized then .ok normalized else .error "scope 必须包含 openid"

/-- The length and the characters of a name. -/
def checkName (name : String) : Except String Unit :=
  if name = "" ∨ maxNameChars < name.length then
    .error s!"应用名称长度必须在 1..={maxNameChars} 个字符之间"
  else if name.toList.any isControl then .error "应用名称不得包含控制字符"
  else .ok ()

/-- The length of a description. -/
def checkDescription (description : Option String) : Except String Unit :=
  if description.any fun d => decide (maxDescriptionChars < d.length) then
    .error s!"应用简介最长 {maxDescriptionChars} 个字符"
  else .ok ()

/-- The redirects of a form, at least one and without repetition. -/
def normalizeRedirectUris (parse : UrlParser) (input : ClientInput) (allowLoopback : Bool) :
    Except String (List String) := do
  let uris ← collectUris (validateRegistration parse · allowLoopback) [] input.redirectUris
  if uris = [] then throw "至少需要一个回调地址"
  else if maxRedirectUris < uris.length then throw s!"回调地址最多 {maxRedirectUris} 个"
  else return uris

/-- The addresses after a logout, where they are given. -/
def normalizePostLogoutUris (parse : UrlParser) (input : ClientInput) (allowLoopback : Bool) :
    Except String (Option (List String)) :=
  match input.postLogoutRedirectUris with
  | none => .ok none
  | some list => do
    let check uri := (validateRegistration parse uri allowLoopback).mapError ("退出后回跳地址：" ++ ·)
    let uris ← collectUris check [] list
    if maxRedirectUris < uris.length then throw s!"退出后回跳地址最多 {maxRedirectUris} 个"
    else return some uris

/-- The address for logouts; an empty one takes it away. -/
def normalizeBackchannelUri (parse : UrlParser) (input : ClientInput) (allowLoopback : Bool) :
    Except String (Option (Option String)) :=
  match input.backchannelLogoutUri.map trim with
  | none => .ok none
  | some uri =>
    if uri = "" then .ok (some none)
    else do
      (validateBackchannelUri parse uri allowLoopback).mapError ("后端退出通知地址" ++ ·)
      return some (some uri)

/-- `validate_input`: the checks of a form in their order. -/
def validateInput (parse : UrlParser) (input : ClientInput) (allowLoopback : Bool) :
    Except String NormalizedInput := do
  let name := trim input.name
  checkName name
  let description := nonEmpty input.description
  checkDescription description
  let homepageUrl := nonEmpty input.homepageUrl
  checkUrl parse "应用主页" homepageUrl allowLoopback
  let logoUrl := nonEmpty input.logoUrl
  checkUrl parse "应用图标" logoUrl false
  let redirectUris ← normalizeRedirectUris parse input allowLoopback
  let scopes ← normalizeClientScopes input.scopes
  let postLogoutRedirectUris ← normalizePostLogoutUris parse input allowLoopback
  let backchannelLogoutUri ← normalizeBackchannelUri parse input allowLoopback
  return {
    name, description, homepageUrl, logoUrl, redirectUris, scopes, postLogoutRedirectUris
    backchannelLogoutUri }

/-- The authentication method that goes with the type of the client. -/
def resolveAuthMethod (clientType : ClientType) (requested : Option TokenAuthMethod) :
    Except String TokenAuthMethod :=
  match clientType, requested with
  | .publicClient, none | .publicClient, some .none => .ok .none
  | .publicClient, some _ => .error "公开客户端只能使用 none（不持有 secret）"
  | .confidential, none => .ok .clientSecretBasic
  | .confidential, some .none =>
    .error "机密客户端必须使用 client_secret_basic 或 client_secret_post"
  | .confidential, some method => .ok method

/-! ## Status machines -/

/-- What an owner does to a status. -/
inductive OwnerAction where
  | disable
  | enable
  deriving DecidableEq

/-- What an administrator does to a status. -/
inductive AdminAction where
  | approve
  | reject
  | suspend
  | reinstate
  deriving DecidableEq

/-- Where an owner's action leads. -/
def ownerTransition (status : ClientStatus) (action : OwnerAction) : Except String ClientStatus :=
  match status, action with
  | .active, .disable => .ok .disabled
  | .disabled, .enable => .ok .active
  | .suspended, _ => .error "应用已被管理员封禁，只能由管理员恢复"
  | .pending, _ => .error "应用仍在等待管理员审批"
  | .rejected, _ => .error "应用审批未通过"
  | _, _ => .error "当前状态不支持该操作"

/-- Where an administrator's action leads. -/
def adminTransition (status : ClientStatus) (action : AdminAction) : Except String ClientStatus :=
  match status, action with
  | .pending, .approve | .rejected, .approve => .ok .active
  | .pending, .reject => .ok .rejected
  | .pending, .suspend | .active, .suspend | .disabled, .suspend => .ok .suspended
  | .suspended, .reinstate => .ok .active
  | _, _ => .error "当前状态不支持该操作"

/-- A request that moves the status, of the owner or of an administrator. -/
inductive StatusAction where
  | owner (action : OwnerAction)
  | admin (action : AdminAction)
  deriving DecidableEq

/-- The step that the machine of the request allows. -/
def StatusAction.transition (status : ClientStatus) : StatusAction → Except String ClientStatus
  | owner action => ownerTransition status action
  | admin action => adminTransition status action

/-! ## Statements -/

/-- The configuration, and the hash of secrets. -/
structure Config where
  requireClientApproval : Bool
  allowLoopbackRedirectUris : Bool
  secretRotationGraceSecs : Int
  parse : UrlParser
  hashSecret : String → String

/-- What the provider draws for a new application. -/
structure NewClient where
  id : Nat
  clientId : String
  secret : String

/-- The statements of the requests. -/
inductive Stmt where
  | select
  | insertClient (id : Nat) (clientId : String) (status : ClientStatus)
  | updateClient (id : Nat)
  | rotateSecret (id : Nat)
  | setStatus (id : Nat) (read next : ClientStatus) (action : StatusAction)
  deriving DecidableEq

/-- A request on clients, statement by statement. -/
abbrev ClientM := Prog Stmt Db AppError

/-- A form that does not pass. -/
def invalid (message : String) : AppError := .validation message

/-- A pure check inside a request. -/
def ensure {α : Type} (f : String → AppError) : Except String α → ClientM α
  | .ok a => pure a
  | .error e => .fail (f e)

/-- The client with this public identifier. -/
def findByClientId (clientId : String) : ClientM (Option Client) :=
  .query .select .database fun db => db.clients.find? (·.clientId = clientId)

/-- The client, if the user owns it. -/
def findOwned (userId : Nat) (clientId : String) : ClientM (Option Client) :=
  .query .select .database fun db =>
    db.clients.find? fun c => c.clientId = clientId ∧ c.ownerUserId = userId

/-- A client that is missing is not found. -/
def orNotFound (found : Option Client) : ClientM Client :=
  match found with
  | some c => pure c
  | none => .fail (.notFound "应用不存在")

/-- `UPDATE … WHERE id = …` of an active record; without a row it is an error. -/
def updateRow (l : Stmt) (id : Nat) (f : Int → Client → Client) : ClientM Unit :=
  .exec l .database fun db =>
    if db.clients.any (·.id = id) then
      .ok ({ db with clients := db.clients.map fun c => if c.id = id then f db.now c else c }, ())
    else .error .database

/-! ## Operations -/

/-- The status of a new application. -/
def Config.newStatus (cfg : Config) : ClientStatus :=
  if cfg.requireClientApproval then .pending else .active

/-- The row of a new client. -/
def newRow (cfg : Config) (draw : NewClient) (owner : Nat) (clientType : ClientType)
    (method : TokenAuthMethod) (n : NormalizedInput) (now : Int) : Client where
  id := draw.id
  clientId := draw.clientId
  ownerUserId := owner
  name := n.name
  description := n.description
  homepageUrl := n.homepageUrl
  logoUrl := n.logoUrl
  clientType := clientType
  tokenEndpointAuthMethod := method
  redirectUris := n.redirectUris
  allowedScopes := n.scopes
  postLogoutRedirectUris := n.postLogoutRedirectUris.getD []
  backchannelLogoutUri := n.backchannelLogoutUri.join
  requirePkce := true
  secretHash := if clientType = .confidential then some (cfg.hashSecret draw.secret) else none
  previousSecretHash := none
  previousSecretExpiresAt := none
  secretRotatedAt := none
  status := cfg.newStatus
  statusReason := none
  reviewedBy := none
  reviewedAt := none
  createdAt := now
  updatedAt := now

/-- Registers a client. -/
def create (cfg : Config) (draw : NewClient) (owner : Nat) (clientType : ClientType)
    (method : Option TokenAuthMethod) (input : ClientInput) : ClientM Unit := do
  let n ← ensure invalid (validateInput cfg.parse input cfg.allowLoopbackRedirectUris)
  let method ← ensure invalid (resolveAuthMethod clientType method)
  .exec (.insertClient draw.id draw.clientId cfg.newStatus) .database fun db =>
    if db.clashes draw.id draw.clientId then .error .database
    else .ok ({ db with
      clients := db.clients ++ [newRow cfg draw owner clientType method n db.now] }, ())

/-- The row after an update. -/
def applyInput (n : NormalizedInput) (now : Int) (c : Client) : Client :=
  { c with
    name := n.name
    description := n.description
    homepageUrl := n.homepageUrl
    logoUrl := n.logoUrl
    redirectUris := n.redirectUris
    allowedScopes := n.scopes
    postLogoutRedirectUris := n.postLogoutRedirectUris.getD c.postLogoutRedirectUris
    backchannelLogoutUri := n.backchannelLogoutUri.getD c.backchannelLogoutUri
    updatedAt := now }

/-- Updates a client. -/
def update (cfg : Config) (client : Client) (input : ClientInput) : ClientM Unit := do
  let n ← ensure invalid (validateInput cfg.parse input cfg.allowLoopbackRedirectUris)
  updateRow (.updateClient client.id) client.id (applyInput n)

/-- The old secret, as it was read, keeps working for the grace period. -/
def applyRotation (previous : Option String) (hash : String) (graceSecs now : Int) (c : Client) :
    Client :=
  let graced := decide (0 < graceSecs) && previous.isSome
  { c with
    previousSecretHash := if graced then previous else none
    previousSecretExpiresAt := if graced then some (now + graceSecs) else none
    secretHash := some hash
    secretRotatedAt := some now
    updatedAt := now }

/-- Gives a confidential client a new secret, the old one with a time of grace. -/
def rotateSecret (cfg : Config) (client : Client) (secret : String) (graceSecs : Int) :
    ClientM Unit :=
  if client.clientType ≠ .confidential then .fail (.validation "公开客户端没有 client secret")
  else
    updateRow (.rotateSecret client.id) client.id
      (applyRotation client.secretHash (cfg.hashSecret secret) graceSecs)

/-- The row in a new status, with its reviewer if there is one. -/
def applyStatus (status : ClientStatus) (reviewer : Option Nat) (reason : Option String)
    (now : Int) (c : Client) : Client :=
  match reviewer with
  | none => { c with status, updatedAt := now }
  | some reviewer =>
    { c with
      status
      reviewedBy := some reviewer
      reviewedAt := some now
      statusReason := reason.map fun r => .ofList ((trim r).toList.take 500)
      updatedAt := now }

/-- The action stands in the label only. -/
def setStatus (client : Client) (status : ClientStatus) (reviewer : Option Nat)
    (reason : Option String) (action : StatusAction) : ClientM Unit :=
  updateRow (.setStatus client.id client.status status action) client.id
    (applyStatus status reviewer reason)

/-! ## Requests -/

/-- `create_client`: the request of a user. -/
def createClient (cfg : Config) (draw : NewClient) (user : Nat) (clientType : ClientType)
    (method : Option TokenAuthMethod) (input : ClientInput) : ClientM Unit :=
  create cfg draw user clientType method input

/-- `update_my_client`: the owner's update. -/
def updateMyClient (cfg : Config) (user : Nat) (clientId : String) (input : ClientInput) :
    ClientM Unit := do
  let m ← findOwned user clientId
  let m ← orNotFound m
  update cfg m input

/-- `rotate_my_secret`: the owner's new secret. -/
def rotateMySecret (cfg : Config) (user : Nat) (clientId secret : String) (revokePrevious : Bool) :
    ClientM Unit := do
  let m ← findOwned user clientId
  let m ← orNotFound m
  rotateSecret cfg m secret (if revokePrevious then 0 else cfg.secretRotationGraceSecs)

/-- An owner changes the status. -/
def ownerRequest (user : Nat) (clientId : String) (action : OwnerAction) : ClientM Unit := do
  let m ← findOwned user clientId
  let m ← orNotFound m
  let next ← ensure .invalidState (ownerTransition m.status action)
  setStatus m next none none (.owner action)

/-- An administrator changes the status. -/
def adminRequest (admin : Nat) (clientId : String) (action : AdminAction)
    (reason : Option String) : ClientM Unit := do
  let m ← findByClientId clientId
  let m ← orNotFound m
  let next ← ensure .invalidState (adminTransition m.status action)
  setStatus m next (some admin) reason (.admin action)

end FloatCtf.Oidc.Clients
