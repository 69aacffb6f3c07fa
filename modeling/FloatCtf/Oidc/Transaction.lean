import FloatCtf.Oidc.Domain
import FloatCtf.Process.Prog
import Mathlib.Data.List.Sort

/-!
# An authorization transaction

The pages of one authorization transaction: sign-in, the choice of the account and the consent.  A
page reads the row of the transaction and the accounts of the browser once, decides on them with
`decide`, and then writes column by column; `completeTransaction` asks only that nobody was first.

`Db` has the one transaction, the sessions of the browser with their users, and the consents of the
application.  Whether a password is right, and for whom, is an argument of the request; the values
that the source draws at random come with it, and `hash` is `sha256_hex`.
-/

namespace FloatCtf.Oidc.Authorize

open Process

/-! ## Rows -/

/-- The prompts of a request. -/
structure Prompt where
  none : Bool
  login : Bool
  consent : Bool
  selectAccount : Bool
  deriving DecidableEq

/-- An authorization transaction. -/
structure Txn where
  scopes : List String
  prompt : Prompt
  maxAge : Option Int
  loginHint : Option String
  idTokenHintSub : Option String
  csrfHash : String
  userId : Option Nat
  sessionId : Option Nat
  authenticatedAt : Option Int
  expiresAt : Int
  completedAt : Option Int
  accountChoiceSessionId : Option Nat
  accountSelectedAt : Option Int
  accountSelectedSessionId : Option Nat
  accountSwitchRequestedAt : Option Int
  deriving DecidableEq

/-- A session of the browser with its user. -/
structure SessionUser where
  id : Nat
  userId : Nat
  username : String
  authTime : Int
  lastSeenAt : Int
  expiresAt : Int
  revokedAt : Option Int
  deriving DecidableEq

/-- An authorization code. -/
structure Code where
  sessionId : Nat
  userId : Nat
  scopes : List String
  authTime : Int
  createdAt : Int
  deriving DecidableEq

/-- The clock, the transaction, the sessions of the browser, the consents and the codes. -/
structure Db where
  now : Int
  txn : Txn
  sessions : List SessionUser
  /-- The active consents of the users for the application. -/
  consents : List (Nat × List String)
  codes : List Code

/-- The configuration of the provider. -/
structure Provider where
  hash : String → String
  accountChooser : Bool
  multiAccount : Bool
  maxBrowserAccounts : Nat
  sessionTtlSecs : Int

/-! ## The decision -/

/-- What the user would have to do, where no page may be shown. -/
inductive Required where
  | login
  | accountSelection
  | consent
  deriving DecidableEq

/-- Where the state machine stands. -/
inductive Step where
  | login
  | selectAccount
  | consent
  | issue
  | required (r : Required)
  deriving DecidableEq

/-- What the state machine knows of the session. -/
structure SessionFacts where
  confirmedInTxn : Bool
  freshInTxn : Bool
  authTime : Int
  consented : Bool
  deriving DecidableEq

/-- Whether the user has to enter the password again. -/
def requiresFreshLogin (prompt : Prompt) (maxAge : Option Int) (authTime now : Int) : Bool :=
  if prompt.login then true
  else
    match maxAge with
    | some maxAge => maxAge < now - authTime || maxAge = 0
    | none => false

/-- `decide_step`: where the state machine stands. -/
def decideStep (prompt : Prompt) (maxAge : Option Int) (accountChooser : Bool)
    (session : Option SessionFacts) (ambiguous : Bool) (now : Int) : Step :=
  match session with
  | none =>
    if ambiguous then if prompt.none then .required .accountSelection else .selectAccount
    else if prompt.none then .required .login else .login
  | some s =>
    if accountChooser && prompt.selectAccount && !s.confirmedInTxn then
      if prompt.none then .required .accountSelection else .selectAccount
    else if !s.freshInTxn && requiresFreshLogin prompt maxAge s.authTime now then
      if prompt.none then .required .login else .login
    else if prompt.consent || (!accountChooser && prompt.selectAccount) || !s.consented then
      if prompt.none then .required .consent else .consent
    else .issue

/-- The account was chosen in the transaction. -/
def accountConfirmed (txn : Txn) (sessionId : Nat) : Bool :=
  txn.accountSelectedAt.isSome && txn.accountSelectedSessionId = some sessionId

/-- A password was entered in the transaction for the session, as far as its columns tell. -/
def freshInTxn (txn : Txn) (sessionId : Nat) : Bool :=
  txn.authenticatedAt.isSome && txn.sessionId = some sessionId

/-- The session agrees with the hint, and with a switch that was asked for. -/
def isUsable (txn : Txn) (s : SessionUser) : Bool :=
  let hintOk := txn.idTokenHintSub.all fun sub => sub = toString s.userId
  let switchOk := txn.accountSwitchRequestedAt.isNone || accountConfirmed txn s.id
  hintOk && switchOk

/-- The sessions that may answer the transaction. -/
def candidates (txn : Txn) (accounts : List SessionUser) : List SessionUser :=
  accounts.filter (isUsable txn)

/-- The candidates whose name is the login hint. -/
def hinted (txn : Txn) (many : List SessionUser) : List SessionUser :=
  match txn.loginHint with
  | some hint => many.filter (·.username = hint)
  | none => []

/-- The session of the transaction, and whether there were several to choose from. -/
def resolveSession (txn : Txn) (candidates : List SessionUser) : Option SessionUser × Bool :=
  match candidates.find? fun s => accountConfirmed txn s.id || freshInTxn txn s.id with
  | some bound => (some bound, false)
  | none =>
    match candidates with
    | [] => (none, false)
    | [only] => (some only, false)
    | many =>
      match hinted txn many with
      | [one] => (some one, false)
      | _ => (none, true)

/-! ## Statements -/

/-- The error of a failed statement. -/
inductive AppError where
  | database
  deriving DecidableEq

/-- What a code is issued on: the row and the accounts that the request has read, the session it
has found, and the time of its decision. -/
structure Issue where
  txn : Txn
  accounts : List SessionUser
  session : SessionUser
  decidedAt : Int
  deriving DecidableEq

/-- The statements of the requests. -/
inductive Stmt where
  | clock
  | select
  | csrf
  | bind (sessionId : Nat)
  | confirm (sessionId : Nat) (explicit : Bool) (csrfHash : String)
  | switch (csrfHash : String)
  | password (sessionId : Nat)
  | sessions
  | grant
  | complete (issue : Option Issue)
  | insertCode (issue : Issue)
  | touch
  deriving DecidableEq

/-- A request on the transaction, statement by statement. -/
abbrev TxnM := Prog Stmt Db AppError

/-- A read that can fail. -/
def select {α : Type} (f : Db → α) : TxnM α := .query .select .database f

/-- Reads the clock. -/
def clock : TxnM Int := .look .clock (·.now)

/-- A write that can fail. -/
def write (l : Stmt) (f : Db → Db) : TxnM Unit := .exec l .database fun db => .ok (f db, ())

/-- Changes the transaction. -/
def editTxn (f : Txn → Txn) (db : Db) : Db := { db with txn := f db.txn }

/-- Neither completed nor expired. -/
def Txn.isLive (t : Txn) (now : Int) : Bool := t.completedAt.isNone && decide (now < t.expiresAt)

/-- The session is not revoked and not expired. -/
def SessionUser.isLive (s : SessionUser) (now : Int) : Bool :=
  s.revokedAt.isNone && decide (now < s.expiresAt)

/-! ## Store -/

/-- The transaction, if it is live. -/
def findLiveTransaction : TxnM (Option Txn) :=
  select fun db => if db.txn.isLive db.now then some db.txn else none

/-- The accounts of the browser, the latest used one first. -/
def Db.accounts (db : Db) : List SessionUser :=
  (db.sessions.filter (·.isLive db.now)).insertionSort fun a b => b.lastSeenAt ≤ a.lastSeenAt

/-- The accounts of the browser. -/
def load : TxnM (List SessionUser) := select Db.accounts

/-- The token of the form is the one of the page. -/
def csrfMatches (p : Provider) (txn : Txn) (presented : String) : Bool :=
  isPlausibleToken presented && p.hash presented = txn.csrfHash

/-- Gives the page a new token. -/
def issueCsrf (p : Provider) (token : String) : TxnM Unit :=
  write .csrf (editTxn fun t => { t with csrfHash := p.hash token })

/-- Gives the page a new token for this account. -/
def issueAccountChoiceCsrf (p : Provider) (token : String) (sessionId : Nat) : TxnM Unit :=
  write .csrf (editTxn fun t =>
    { t with csrfHash := p.hash token, accountChoiceSessionId := some sessionId })

/-- The row gets the user and the session, whatever it has become since it was read. -/
def bindTransactionUser (s : SessionUser) (freshLogin : Bool) : TxnM Txn :=
  .exec (.bind s.id) .database fun db =>
    let t := db.txn
    let txn :=
      { t with
        userId := some s.userId
        sessionId := some s.id
        authenticatedAt := if freshLogin then some db.now else t.authenticatedAt }
    .ok ({ db with txn }, txn)

/-- A conditional update of the row; the row comes back where it was hit. -/
def updateWhere (l : Stmt) (cond : Db → Bool) (f : Db → Txn → Txn) : TxnM (Option Txn) :=
  .exec l .database fun db =>
    if cond db then .ok ({ db with txn := f db db.txn }, some (f db db.txn))
    else .ok (db, none)

/-- What the confirmation of a session asks of the row; the first form asks also that the page has
shown the session. -/
def confirmable (sessionId : Nat) (explicit : Bool) (csrfHash : String) (db : Db) : Bool :=
  db.txn.isLive db.now && db.txn.accountSwitchRequestedAt.isNone &&
    db.txn.accountSelectedAt.isNone &&
    (explicit || db.txn.accountChoiceSessionId = some sessionId) && db.txn.csrfHash = csrfHash

/-- The session is confirmed and the token of the page is used up. -/
def confirmed (p : Provider) (s : SessionUser) (draw : String) (db : Db) (t : Txn) : Txn :=
  { t with
    accountSelectedAt := some db.now
    accountSelectedSessionId := some s.id
    userId := some s.userId
    sessionId := some s.id
    csrfHash := p.hash draw }

/-- Confirms the account that the page has shown. -/
def confirmAccountSelection (p : Provider) (s : SessionUser) (presented draw : String) :
    TxnM (Option Txn) :=
  updateWhere (.confirm s.id false (p.hash presented)) (confirmable s.id false (p.hash presented))
    (confirmed p s draw)

/-- Confirms an account that was clicked. -/
def confirmAccountSelectionExplicit (p : Provider) (s : SessionUser) (presented draw : String) :
    TxnM (Option Txn) :=
  updateWhere (.confirm s.id true (p.hash presented)) (confirmable s.id true (p.hash presented))
    fun db t => { confirmed p s draw db t with accountChoiceSessionId := some s.id }

/-- What a switch of the account asks of the row. -/
def switchable (csrfHash : String) (db : Db) : Bool :=
  db.txn.isLive db.now && db.txn.csrfHash = csrfHash

/-- Asks for another account. -/
def requestAccountSwitch (p : Provider) (presented draw : String) : TxnM Bool := do
  let hit ← updateWhere (.switch (p.hash presented)) (switchable (p.hash presented)) fun db t =>
      { t with
        accountSwitchRequestedAt := some db.now
        accountSelectedAt := none
        accountSelectedSessionId := none
        csrfHash := p.hash draw }
  pure hit.isSome

/-- Binds the session whose password was entered. -/
def bindPasswordLogin (s : SessionUser) : TxnM (Option Txn) :=
  updateWhere (.password s.id) (fun db => db.txn.isLive db.now) fun db t =>
    { t with
      userId := some s.userId
      sessionId := some s.id
      authenticatedAt := some db.now
      accountSelectedAt := some db.now
      accountSelectedSessionId := some s.id }

/-- Completes the transaction, once. -/
def completeTransaction (issue : Option Issue) : TxnM Bool := do
  let hit ← updateWhere (.complete issue) (fun db => db.txn.completedAt.isNone) fun db t =>
    { t with completedAt := some db.now }
  pure hit.isSome

/-- The scopes the user has consented to. -/
def findActiveConsent (userId : Nat) : TxnM (Option (List String)) :=
  select fun db => (db.consents.find? (·.1 = userId)).map (·.2)

/-- Adds the scopes to the consent. -/
def grantConsent (userId : Nat) (scopes : List String) : TxnM Unit :=
  write .grant fun db =>
    let old := ((db.consents.find? (·.1 = userId)).map (·.2)).getD []
    { db with consents := (userId, union old scopes) :: db.consents.filter (·.1 ≠ userId) }

/-- Stores a code. -/
def insertCode (i : Issue) (granted : List String) : TxnM Unit :=
  write (.insertCode i) fun db =>
    { db with
      codes := db.codes ++ [
        { sessionId := i.session.id, userId := i.session.userId, scopes := granted
          authTime := i.session.authTime, createdAt := db.now }] }

/-- Changes one session. -/
def editSession (id : Nat) (f : SessionUser → SessionUser) (db : Db) : Db :=
  { db with sessions := db.sessions.map fun s => if s.id = id then f s else s }

/-- Notes the use of a session. -/
def touchSession (id : Nat) : TxnM Unit :=
  write .touch fun db => editSession id (fun s => { s with lastSeenAt := db.now }) db

/-! ## Flow -/

/-- Where the browser goes next. -/
inductive Next where
  | loginPage
  | selectAccountPage
  | consentPage
  | client
  | clientError (error : OAuthError)
  | errorPage
  deriving DecidableEq

/-- The error for what would have to be done. -/
def Required.error : Required → OAuthError
  | login => .loginRequired "login required"
  | accountSelection => .accountSelectionRequired "account selection required"
  | consent => .consentRequired "consent required"

/-- Where the state machine stands, with the session and the candidates. -/
structure Evaluation where
  step : Step
  session : Option SessionUser
  candidates : List SessionUser
  decidedAt : Int
  deriving DecidableEq

/-- What is known of the session of the transaction. -/
def factsOf (txn : Txn) (s : SessionUser) (consent : Option (List String)) : SessionFacts where
  confirmedInTxn := accountConfirmed txn s.id
  freshInTxn := freshInTxn txn s.id
  authTime := s.authTime
  consented := consent.any fun scopes => covers scopes txn.scopes

/-- `evaluate`: reads the consent and decides. -/
def evaluate (p : Provider) (txn : Txn) (accounts : List SessionUser) : TxnM Evaluation := do
  let candidates := candidates txn accounts
  let (session, ambiguous) := resolveSession txn candidates
  let facts ← match session with
    | none => pure none
    | some s => do
      let consent ← findActiveConsent s.userId
      pure (some (factsOf txn s consent))
  let now ← clock
  let step := decideStep txn.prompt txn.maxAge p.accountChooser facts ambiguous now
  pure { step, session, candidates, decidedAt := now }

/-- Completes the transaction with an error for the client. -/
def finishWithError (error : OAuthError) : TxnM Next := do
  if ← completeTransaction none then pure (.clientError error) else pure .errorPage

/-- Completes the transaction with a code. -/
def issueCode (i : Issue) (granted : List String) : TxnM Next := do
  if ← completeTransaction (some i) then do
    insertCode i granted
    touchSession i.session.id
    pure .client
  else pure .errorPage

/-- The row of the transaction gets the session that was found, if it has another one. -/
def bindIfNeeded (txn : Txn) (s : SessionUser) : TxnM Txn :=
  if txn.userId ≠ some s.userId ∨ txn.sessionId ≠ some s.id then
    bindTransactionUser s (freshInTxn txn s.id)
  else pure txn

/-- The session stands, and the consent is missing or a code can be issued. -/
def proceed (txn : Txn) (accounts : List SessionUser) (s : SessionUser) (ev : Evaluation) :
    TxnM Next := do
  let bound ← bindIfNeeded txn s
  if ev.step = .consent then pure .consentPage
  else issueCode { txn, accounts, session := s, decidedAt := ev.decidedAt } bound.scopes

/-- `advance`: the page or the answer that the state machine asks for. -/
def advance (p : Provider) (txn : Txn) (accounts : List SessionUser) : TxnM Next := do
  let ev ← evaluate p txn accounts
  match ev.step, ev.session with
  | .required r, _ => finishWithError r.error
  | .login, _ => pure .loginPage
  | .selectAccount, _ => pure .selectAccountPage
  | .consent, some s | .issue, some s => proceed txn accounts s ev
  | .consent, none | .issue, none => .fail .database

/-- The state machine stands at the consent, and the row has the session. -/
def consentReady (p : Provider) (txn : Txn) (accounts : List SessionUser) :
    TxnM (Option (SessionUser × Evaluation)) := do
  let ev ← evaluate p txn accounts
  pure ((ev.session.filter fun s =>
    ev.step = .consent && txn.userId = some s.userId && txn.sessionId = some s.id).map (·, ev))

/-! ## Pages -/

/-- What a page posts: its token, and what the request draws at random. -/
structure Form where
  csrf : String
  draw : String
  deriving DecidableEq

/-- A page goes on with a live transaction. -/
def withTransaction (f : Txn → TxnM Next) : TxnM Next := do
  match ← findLiveTransaction with
  | none => pure .errorPage
  | some txn => f txn

/-- A form that was posted with the token of its page. -/
def withForm (p : Provider) (form : Form) (f : Txn → TxnM Next) : TxnM Next :=
  withTransaction fun txn => if csrfMatches p txn form.csrf then f txn else pure .errorPage

/-- The login page with a new token. -/
def renderLogin (p : Provider) (token : String) : TxnM Next := do
  issueCsrf p token
  pure .loginPage

/-- The request for the login page. -/
def loginPage (p : Provider) (token : String) : TxnM Next :=
  withTransaction fun _ => renderLogin p token

/-- Inserts a session whose id is new. -/
def insertSession (s : SessionUser) : TxnM Unit :=
  .exec .sessions .database fun db =>
    if db.sessions.any (·.id = s.id) then .error .database
    else .ok ({ db with sessions := db.sessions ++ [s] }, ())

/-- Revokes the sessions that are not yet revoked. -/
def revokeSessions (ids : List Nat) : TxnM Unit :=
  write .sessions fun db =>
    { db with sessions := db.sessions.map fun s =>
        if s.id ∈ ids && s.revokedAt.isNone then { s with revokedAt := some db.now } else s }

/-- The accounts that stay beside a new one of the user. -/
def keptBeside (p : Provider) (accounts : List SessionUser) (userId : Nat) : List SessionUser :=
  let others := if p.multiAccount then accounts.filter (·.userId ≠ userId) else []
  if p.maxBrowserAccounts ≤ others.length then others.take (p.maxBrowserAccounts - 1) else others

/-- The password was right: a new session, and the accounts of the browser with it. -/
def establish (p : Provider) (userId : Nat) (username : String) (sessionId : Nat) :
    TxnM (SessionUser × List SessionUser) := do
  let accounts ← load
  let now ← clock
  let kept := keptBeside p accounts userId
  revokeSessions ((accounts.filter (· ∉ kept)).map (·.id))
  let session : SessionUser :=
    { id := sessionId, userId, username, authTime := now, lastSeenAt := now
      expiresAt := now + p.sessionTtlSecs, revokedAt := none }
  insertSession session
  pure (session, session :: kept)

/-- What the login form says. -/
structure Login where
  cancel : Bool
  /-- The user whose password was entered. -/
  verified : Option (Nat × String)
  sessionId : Nat
  deriving DecidableEq

/-- The session of the password is bound to the transaction, which goes on. -/
def continueLogin (p : Provider) (session : SessionUser) (accounts : List SessionUser) :
    TxnM Next := do
  match ← bindPasswordLogin session with
  | none => pure .errorPage
  | some txn => advance p txn accounts

/-- The login form. -/
def loginSubmit (p : Provider) (form : Form) (login : Login) : TxnM Next :=
  withForm p form fun txn =>
    if login.cancel then finishWithError (.accessDenied "user cancelled login")
    else
      match login.verified with
      | none => renderLogin p form.draw
      | some (userId, username) =>
        if txn.idTokenHintSub.any fun sub => sub ≠ toString userId then renderLogin p form.draw
        else do
          let (session, accounts) ← establish p userId username login.sessionId
          continueLogin p session accounts

/-- The request for the consent page. -/
def consentPage (p : Provider) (token : String) : TxnM Next :=
  withTransaction fun txn => do
    let accounts ← load
    match ← consentReady p txn accounts with
    | none => advance p txn accounts
    | some (s, _) => do
      let _ ← findActiveConsent s.userId
      issueCsrf p token
      pure .consentPage

/-- Back to the login page, for another account. -/
def accountSwitch (p : Provider) (form : Form) : TxnM Next := do
  if ← requestAccountSwitch p form.csrf form.draw then pure .loginPage else pure .errorPage

/-- What the consent form says. -/
inductive ConsentAction where
  | allow (selected : List String)
  | deny
  | switch
  deriving DecidableEq

/-- The grant of what was selected, and a code for it. -/
def allowConsent (txn : Txn) (accounts : List SessionUser) (s : SessionUser) (decidedAt : Int)
    (selected : List String) : TxnM Next := do
  let granted := grantedFromSelection txn.scopes selected
  grantConsent s.userId granted
  issueCode { txn, accounts, session := s, decidedAt } granted

/-- The answer of the consent page, which has to be the page of the moment. -/
def answerConsent (p : Provider) (txn : Txn) (allowed : Option (List String)) : TxnM Next := do
  let accounts ← load
  match ← consentReady p txn accounts with
  | none => advance p txn accounts
  | some (s, ev) =>
    match allowed with
    | some selected => allowConsent txn accounts s ev.decidedAt selected
    | none => finishWithError (.accessDenied "user denied the request")

/-- The consent form. -/
def consentSubmit (p : Provider) (form : Form) (action : ConsentAction) : TxnM Next :=
  withForm p form fun txn =>
    match action with
    | .switch => accountSwitch p form
    | .allow selected => answerConsent p txn (some selected)
    | .deny => answerConsent p txn none

/-- The first candidate is the one that a page without a choice confirms. -/
def renderSelectAccount (p : Provider) (token : String) : List SessionUser → TxnM Next
  | [] => pure .loginPage
  | first :: _ => do
    issueAccountChoiceCsrf p token first.id
    pure .selectAccountPage

/-- The request for the page with the accounts. -/
def selectAccountPage (p : Provider) (token : String) : TxnM Next :=
  withTransaction fun txn => do
    let accounts ← load
    let ev ← evaluate p txn accounts
    match ev.step with
    | .selectAccount | .issue =>
      if ev.candidates = [] then pure .errorPage else renderSelectAccount p token ev.candidates
    | .login => pure .loginPage
    | .consent => pure .consentPage
    | .required _ => pure .errorPage

/-- What the form with the accounts says. -/
inductive ChooserAction where
  | cancel
  | other
  | choose (account : Option Nat)
  | logout (account : Option Nat)
  | logoutAll
  deriving DecidableEq

/-- Confirms the account that was chosen, in the way it was chosen. -/
def confirmChoice (p : Provider) (form : Form) (explicit : Bool) (s : SessionUser) :
    TxnM (Option Txn) :=
  if explicit then confirmAccountSelectionExplicit p s form.csrf form.draw
  else confirmAccountSelection p s form.csrf form.draw

/-- The transaction goes on with the account that was confirmed. -/
def continueAs (p : Provider) (form : Form) (accounts : List SessionUser) (explicit : Bool)
    (s : SessionUser) : TxnM Next := do
  match ← confirmChoice p form explicit s with
  | none => pure .errorPage
  | some txn => advance p txn accounts

/-- Goes on with the chosen account. -/
def chooseAccount (p : Provider) (form : Form) (txn : Txn) (account : Option Nat) :
    TxnM Next := do
  let accounts ← load
  let usable := candidates txn accounts
  match (account.or txn.accountChoiceSessionId).bind fun id => usable.find? (·.id = id) with
  | some s => continueAs p form accounts account.isSome s
  | none =>
    if usable = [] then advance p txn []
    else renderSelectAccount p form.draw usable

/-- The sessions go, and the page is shown for those that are left. -/
def chooserSignOut (p : Provider) (form : Form) (txn : Txn) (gone : SessionUser → Bool) :
    TxnM Next := do
  let accounts ← load
  revokeSessions ((accounts.filter gone).map (·.id))
  match candidates txn (accounts.filter fun s => !gone s) with
  | [] => renderLogin p form.draw
  | usable => renderSelectAccount p form.draw usable

/-- The form with the accounts. -/
def selectAccountSubmit (p : Provider) (form : Form) (action : ChooserAction) : TxnM Next :=
  withForm p form fun txn =>
    match action with
    | .cancel => finishWithError (.accessDenied "user cancelled account selection")
    | .other => accountSwitch p form
    | .choose account => chooseAccount p form txn account
    | .logout account => chooserSignOut p form txn fun s =>
        if p.multiAccount then account = some s.id else account.all (· = s.id)
    | .logoutAll => chooserSignOut p form txn fun _ => true

end FloatCtf.Oidc.Authorize
