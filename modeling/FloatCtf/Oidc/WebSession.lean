import FloatCtf.Oidc.Backchannel

/-!
# Requests on the accounts of a browser

The requests of the main site and of the pages of the identity provider that change the accounts of
a browser: sign-in, restoring and switching the account of the main site, signing out one account or
the browser, the move of a token of the old site into a session, and the two global logouts.

Whether a password is right, and for whom, is an argument of the request.
-/

namespace FloatCtf.Oidc.Accounts

open Process

/-- A request of the web interface. -/
structure Request where
  cookies : Cookies
  firstParty : Bool
  csrf : String
  draws : Draws

/-- The token that a page has to present with a container. -/
def csrfFor (p : Provider) (secret : String) : String := p.hash ("fctf-web-csrf\x00" ++ secret)

/-- The token belongs to the secret of the container. -/
def Browser.csrfMatches (p : Provider) (b : Browser) (presented : String) : Bool :=
  match b.secret with
  | some secret => csrfFor p secret = presented
  | none => false

/-- The request comes from the interface and has its token. -/
def checkCsrf (p : Provider) (r : Request) (b : Browser) (allowWithoutContainer : Bool) :
    Except AppError Unit :=
  if !r.firstParty then .error (.forbidden "跨站请求被拒绝")
  else
    let ok := if b.container.isSome then b.csrfMatches p r.csrf
      else allowWithoutContainer && !r.csrf.isEmpty
    if ok then .ok () else .error (.forbidden "页面已过期（CSRF 校验失败），请刷新后重试")

/-- The session becomes the account of the main site. -/
def activate (b : Browser) (session : Session) (restore : Bool) : AccountM Unit :=
  match b.container with
  | none => pure ()
  | some c => do
    let _ ← setWebSession b c (some session) false restore
    pure ()

/-- `verified` is the user whose password was entered. -/
def login (p : Provider) (r : Request) (verified : Option Nat) : AccountM Unit := do
  let b ← load p r.draws r.cookies
  check (checkCsrf p r b true)
  match verified with
  | none => .fail .unauthorized
  | some userId => do
    let now ← clock
    let (session, b) ← addAccount p r.draws b userId now p.sessionTtlSecs
    activate b session false

/-- The sign-in page of the identity provider leaves the account of the main site. -/
def oidcLogin (p : Provider) (r : Request) (userId : Nat) : AccountM Unit := do
  let b ← load p r.draws r.cookies
  let now ← clock
  let _ ← addAccount p r.draws b userId now p.sessionTtlSecs
  pure ()

/-- Signs the interface in with the one account that can be restored. -/
def restore (p : Provider) (r : Request) : AccountM Unit := do
  let b ← load p r.draws r.cookies
  check (checkCsrf p r b false)
  if b.webAccount.isSome then pure ()
  else
    match b.restorable with
    | [session] => activate b session true
    | [] => .fail (.conflict "没有可恢复的登录")
    | _ => .fail (.conflict "本浏览器有多个已登录账号，请选择要使用的账号")

/-- Signs the interface in with another account of the browser. -/
def selectAccount (p : Provider) (r : Request) (accountId : Nat) : AccountM Unit := do
  let b ← load p r.draws r.cookies
  check (checkCsrf p r b false)
  match b.find accountId with
  | none => .fail (.notFound "该账号在本浏览器中的登录已失效，请重新登录")
  | some session => activate b session false

/-- Signs an account out. -/
def logoutAccount (p : Provider) (r : Request) (accountId : Option Nat) : AccountM Unit := do
  let b ← load p r.draws r.cookies
  check (checkCsrf p r b false)
  match accountId.or (b.webAccount.map (·.id)) with
  | none => pure ()
  | some id => do
    let _ ← signOutAccount b id .logout
    pure ()

/-- Signs the whole browser out. -/
def logoutBrowser (p : Provider) (r : Request) : AccountM Unit := do
  let b ← load p r.draws r.cookies
  check (checkCsrf p r b false)
  let _ ← signOutBrowser b .logoutBrowser
  pure ()

/-- The global logout of the main site is that of its account. -/
def logoutGlobal (p : Provider) (r : Request) (draws : LogoutDraws) : AccountM Unit := do
  let b ← load p r.draws r.cookies
  check (checkCsrf p r b false)
  match b.webAccount with
  | none => pure ()
  | some target => do
    let _ ← globalLogout p draws b [target]
    pure ()

/-- The accounts that a logout request of an application is about. -/
def targets (b : Browser) (hintSid : Option String) (hintSub : Option Nat) : List Session :=
  b.accounts.filter fun s =>
    match hintSid, hintSub with
    | some sid, _ => s.sid = sid
    | none, some sub => s.userId = sub
    | none, none => true

/-- The user has confirmed the logout request of an application. -/
def endSessionConfirm (p : Provider) (r : Request) (hintSid : Option String)
    (hintSub : Option Nat) (draws : LogoutDraws) : AccountM Unit := do
  let b ← load p r.draws r.cookies
  let _ ← globalLogout p draws b (targets b hintSid hintSub)
  pure ()

/-- The session that a token of the old site is exchanged for; `window` is the time of its
authentication and the rest of its life. -/
def migratedSession (p : Provider) (r : Request) (b : Browser) (userId : Nat)
    (window : Except AppError (Int × Int)) : AccountM (Session × Browser) :=
  match b.accounts.find? (·.userId = userId) with
  | some session => pure (session, b)
  | none => do
    let (authTime, ttl) ← check window
    addAccount p r.draws b userId authTime ttl

/-- Signs the interface in as the user of an older login, unless somebody is signed in. -/
def migrate (p : Provider) (r : Request) (userId : Nat) (window : Except AppError (Int × Int)) :
    AccountM Unit := do
  let b ← load p r.draws r.cookies
  check (checkCsrf p r b true)
  if b.webAccount.isSome then pure ()
  else
    let (session, b) ← migratedSession p r b userId window
    activate b session false

end FloatCtf.Oidc.Accounts
