import FloatCtf.Oidc.AuthorizeRequest
import FloatCtf.Oidc.Clients
import Mathlib.Algebra.Group.Int.Defs

/-!
# The authorization endpoint

`start` looks up the client, compares the redirect URI, checks the rest of the request, makes the
transaction and goes on with it.  Whatever goes back to the application goes through
`clientRedirect`, which adds the issuer and appends the parameters to the query of the redirect URI.

`start_spec` says where an answer can go and what a transaction has.  In the query of an answer a
parameter of the response stands once just when the redirect URI has no parameter of its name, and
the registration does not look at the query.
-/

namespace FloatCtf.Oidc.Authorize

open Process
open Clients (Client)

/-! ## The endpoint -/

/-- The configuration of the endpoint. -/
structure Endpoint where
  provider : Provider
  issuer : String
  parse : UrlParser
  /-- The subject of an ID token that the provider has signed. -/
  verifyHint : String → Option String
  transactionTtlSecs : Int

/-- A transaction with what its request has asked for. -/
structure AuthTransaction where
  clientPk : Nat
  redirectUri : String
  state : Option String
  nonce : Option String
  codeChallenge : Option String
  row : Txn
  deriving DecidableEq

/-- The tables of the endpoint; `flow` is what the transaction of the request works on. -/
structure EndpointDb where
  clients : List Client
  transactions : List AuthTransaction
  flow : Db

/-- The statements of the endpoint: its own and those of the flow. -/
inductive EndpointStmt where
  | findClient
  | create
  | flow (s : Stmt)
  deriving DecidableEq

/-- A request at the endpoint, statement by statement. -/
abbrev EndpointM := Prog EndpointStmt EndpointDb AppError

/-- What the browser is answered: the client, a page of the provider, or an error that stays
here. -/
inductive Answer where
  | redirectToClient (url : Form.Bytes)
  | redirectLocal (page : Next)
  | errorPage (status : Nat) (message : String)
  deriving DecidableEq

/-- The message for a transaction that is over. -/
def txnExpiredMessage : String :=
  "授权请求已过期或无效（可能已完成、已超时，或不是在本浏览器中发起）。请返回应用重新登录。"

/-- What goes back to an application. -/
inductive Response where
  | code (code : String)
  | error (err : OAuthError)

/-- The parameter that makes the response what it is. -/
def Response.main : Response → String × String
  | code c => ("code", c)
  | error err => ("error", OAuthError.error err)

/-- All parameters of a response. -/
def Response.params (r : Response) (state : Option String) : List (String × String) :=
  r.main :: (match r with
    | code _ => []
    | error err => [("error_description", OAuthError.description err)]) ++
  (state.map fun s => ("state", s)).toList

/-- The response with the issuer. -/
def clientRedirect (e : Endpoint) (redirect : String) (params : List (String × String)) :
    Form.Bytes := appendQuery e.parse redirect (params ++ [("iss", e.issuer)])

/-- Sends the browser to the client with an error. -/
def errorRedirect (e : Endpoint) (redirect : String) (err : OAuthError) (state : Option String) :
    Answer := .redirectToClient (clientRedirect e redirect ((Response.error err).params state))

/-- The client of a public identifier of the right length. -/
def findByClientId (clientId : String) : EndpointM (Option Client) :=
  if clientId = "" ∨ 128 < clientId.utf8ByteSize then pure none
  else .query .findClient .database fun db => db.clients.find? (·.clientId = clientId)

/-- What the client may ask for. -/
def policyOf (c : Client) : ClientPolicy where
  allowedScopes := c.allowedScopes
  requirePkce := c.requirePkce || c.clientType = .publicClient

/-- The row of a request. -/
def rowOf (e : Endpoint) (request : AuthorizationRequest) (hintSub : Option String)
    (draw : String) (now : Int) : Txn where
  scopes := request.scopes
  prompt := request.prompt
  maxAge := request.maxAge.map (min · (2 ^ 31 - 1))
  loginHint := request.loginHint
  idTokenHintSub := hintSub
  csrfHash := e.provider.hash draw
  userId := none
  sessionId := none
  authenticatedAt := none
  expiresAt := now + e.transactionTtlSecs
  completedAt := none
  accountChoiceSessionId := none
  accountSelectedAt := none
  accountSelectedSessionId := none
  accountSwitchRequestedAt := none

/-- Stores the transaction of a request that is valid. -/
def createTransaction (e : Endpoint) (client : Client) (request : AuthorizationRequest)
    (hintSub : Option String) (draw : String) : EndpointM AuthTransaction :=
  .exec .create .database fun db =>
    let txn : AuthTransaction :=
      { clientPk := client.id
        redirectUri := request.redirectUri
        state := request.state
        nonce := request.nonce
        codeChallenge := request.codeChallenge
        row := rowOf e request hintSub draw db.flow.now }
    .ok ({ db with
      transactions := db.transactions ++ [txn]
      flow := { db.flow with txn := txn.row } }, txn)

/-- What the values are that a request draws at random. -/
structure Draws where
  csrf : String
  code : String
  deriving DecidableEq

/-- The subject of the hint, where there is one. -/
def hintSub (e : Endpoint) : Option String → Except OAuthError (Option String)
  | none => .ok none
  | some hint =>
    match e.verifyHint hint with
    | some sub => .ok (some sub)
    | none => .error (.invalidRequest "invalid id_token_hint")

/-- The answer to the next step of the flow. -/
def answer (e : Endpoint) (txn : AuthTransaction) (code : String) : Next → Answer
  | .client => .redirectToClient
      (clientRedirect e txn.redirectUri ((Response.code code).params txn.state))
  | .clientError err => errorRedirect e txn.redirectUri err txn.state
  | .errorPage => .errorPage 400 txnExpiredMessage
  | page => .redirectLocal page

/-- The redirect URI stands: a transaction, and its next page. -/
def begin (e : Endpoint) (client : Client) (request : AuthorizationRequest) (sub : Option String)
    (draws : Draws) (accounts : List SessionUser) : EndpointM Answer := do
  let txn ← createTransaction e client request sub draws.csrf
  let next ← (advance e.provider txn.row accounts).zoom EndpointStmt.flow EndpointDb.flow
    fun flow db => { db with flow }
  pure (answer e txn draws.code next)

/-- The redirect URI stands: an error goes back to the application. -/
def startAt (e : Endpoint) (params : RawParams) (client : Client) (redirect : String)
    (draws : Draws) (accounts : List SessionUser) : EndpointM Answer :=
  match validate params client.clientId redirect (policyOf client) with
  | .error err => pure (errorRedirect e redirect err (echoState params))
  | .ok request =>
    match hintSub e request.idTokenHint with
    | .error err => pure (errorRedirect e redirect err request.state)
    | .ok sub => begin e client request sub draws accounts

/-- The start of an authorization: client and redirect first, everything else is answered to the
client. -/
def start (e : Endpoint) (params : RawParams) (draws : Draws) (accounts : List SessionUser) :
    EndpointM Answer :=
  match clientAndRedirect params with
  | .error err => pure (.errorPage 400 err.message)
  | .ok (clientId, redirect) => do
    match ← findByClientId clientId with
    | none => pure (.errorPage 400 "应用不存在（client_id 无效）。")
    | some client =>
      if client.status ≠ .active then
        pure (.errorPage 400 "该应用当前未启用（待审批、已暂停或已被封禁）。")
      else if !isRegistered client.redirectUris redirect then
        pure (.errorPage 400 "回调地址（redirect_uri）与该应用登记的地址不一致。")
      else startAt e params client redirect draws accounts

/-! ## Where an answer goes -/

section Answers

variable {e : Endpoint} {params : RawParams} {client : Client} {redirect : String}
  {draws : Draws} {accounts : List SessionUser}

/-- An answer to an application goes to the redirect URI, with the state of the request. -/
def GoesTo (e : Endpoint) (params : RawParams) (redirect : String) (a : Answer) : Prop :=
  ∀ url, a = .redirectToClient url → ∃ r : Response,
    url = clientRedirect e redirect (r.params (echoState params))

theorem goesTo_errorRedirect (err : OAuthError) :
    GoesTo e params redirect (errorRedirect e redirect err (echoState params)) := by
  rintro url ⟨⟩
  exact ⟨.error err, rfl⟩

theorem goesTo_answer {txn : AuthTransaction} (hredirect : txn.redirectUri = redirect)
    (hstate : txn.state = echoState params) (code : String) (next : Next) :
    GoesTo e params redirect (answer e txn code next) := by
  intro url hurl
  unfold answer at hurl
  split at hurl
  · cases hurl
    rw [hredirect, hstate]
    exact ⟨.code code, rfl⟩
  · rw [hredirect, hstate] at hurl
    exact goesTo_errorRedirect _ url hurl
  · cases hurl
  · cases hurl

theorem returns_startAt : (startAt e params client redirect draws accounts).Returns
    (GoesTo e params redirect) := by
  unfold startAt
  split
  · exact goesTo_errorRedirect _
  · rename_i request hvalid
    obtain ⟨haccepted, -, hredirect⟩ := validate_inv hvalid
    split
    · rw [haccepted.state]
      exact goesTo_errorRedirect _
    · refine Prog.returns_bind (P := fun txn => txn.redirectUri = redirect ∧
        txn.state = echoState params) (Prog.returns_exec fun db db' txn h => ?_) fun txn htxn => ?_
      · cases h
        exact ⟨hredirect, haccepted.state⟩
      · exact Prog.returns_bind (Prog.returns_true _) fun next _ =>
          goesTo_answer htxn.1 htxn.2 draws.code next

/-! ## What a transaction has -/

/-- A transaction of the client, made for the parameters. -/
structure MadeFor (params : RawParams) (client : Client) (txn : AuthTransaction) : Prop where
  clientPk : txn.clientPk = client.id
  nodup : (params.map (·.1)).Nodup
  scopes : ScopesOk params (policyOf client) txn.row.scopes
  proof : ProofOk (policyOf client) txn.codeChallenge txn.nonce

/-- Only transactions that meet `P` are made. -/
def Makes (P : AuthTransaction → Prop) (db db' : EndpointDb) : Prop :=
  ∃ made, db'.transactions = db.transactions ++ made ∧ ∀ txn ∈ made, P txn

theorem Makes.refl {P : AuthTransaction → Prop} (db : EndpointDb) : Makes P db db :=
  ⟨[], (List.append_nil _).symm, fun _ h => absurd h List.not_mem_nil⟩

theorem Makes.trans {P : AuthTransaction → Prop} {a b c : EndpointDb} (h : Makes P a b)
    (h' : Makes P b c) : Makes P a c := by
  obtain ⟨made, heq, hmade⟩ := h
  obtain ⟨made', heq', hmade'⟩ := h'
  refine ⟨made ++ made', by rw [heq', heq, List.append_assoc], fun txn ht => ?_⟩
  rcases List.mem_append.1 ht with ht | ht
  · exact hmade txn ht
  · exact hmade' txn ht

theorem within_startAt (e : Endpoint) (params : RawParams) (client : Client) (redirect : String)
    (draws : Draws) (accounts : List SessionUser) : (startAt e params client redirect draws accounts).Within
    (Makes (MadeFor params client)) := by
  unfold startAt
  split
  · trivial
  · rename_i request hvalid
    obtain ⟨haccepted, -, -⟩ := validate_inv hvalid
    split
    · trivial
    · refine Prog.does_bind (Prog.does_exec (fun db => .refl db) fun db db' txn h => ?_) fun txn => ?_
      · cases h
        refine ⟨[_], rfl, fun txn ht => ?_⟩
        rw [List.mem_singleton.1 ht]
        exact ⟨rfl, haccepted.nodup, haccepted.scopes, haccepted.proof⟩
      · refine Prog.does_bind (Prog.does_zoom (fun _ flow db => ?_) _) fun _ => trivial
        exact ⟨[], (List.append_nil _).symm, fun _ h => absurd h List.not_mem_nil⟩

/-- The request names an active client, once, and one of the redirect URIs that are registered for
it, byte for byte. -/
structure Names (db : EndpointDb) (params : RawParams) (client : Client) (redirect : String) :
    Prop where
  mem : client ∈ db.clients
  active : client.status = .active
  clientId : values params "client_id" = [client.clientId]
  registered : redirect ∈ client.redirectUris
  redirectUri : values params "redirect_uri" = [redirect]

/-- A request gets an error page before anything is written, or it goes on at a redirect URI that
stands. -/
theorem start_run (e : Endpoint) (params : RawParams) (draws : Draws)
    (accounts : List SessionUser) (ans : EndpointStmt → Bool) (db : EndpointDb) :
    let res := (start e params draws accounts).run ans db
    (res.1 = db ∧ (res.2 = .error .database ∨ ∃ status message,
      res.2 = .ok (.errorPage status message))) ∨
    ∃ client redirect, Names db params client redirect ∧
      res = (startAt e params client redirect draws accounts).run ans db := by
  dsimp only
  unfold start
  split
  · exact .inl ⟨rfl, .inr ⟨_, _, rfl⟩⟩
  · rename_i clientId redirect hparams
    obtain ⟨hclient, hredirect⟩ := clientAndRedirect_inv hparams
    unfold findByClientId
    split_ifs with hlen
    · exact .inl ⟨rfl, .inr ⟨_, _, rfl⟩⟩
    · cases hans : ans .findClient with
      | false =>
        refine .inl ?_
        simp [Prog.run, Prog.query, hans]
      | true =>
        simp only [Prog.run_bind, Prog.run_query _ hans]
        cases hfind : db.clients.find? (·.clientId = clientId) with
        | none => exact .inl ⟨rfl, .inr ⟨_, _, rfl⟩⟩
        | some client =>
          have hid : client.clientId = clientId := by simpa using List.find?_some hfind
          dsimp only
          split_ifs with hactive hregistered
          · exact .inl ⟨rfl, .inr ⟨_, _, rfl⟩⟩
          · exact .inl ⟨rfl, .inr ⟨_, _, rfl⟩⟩
          · refine .inr ⟨client, redirect, ⟨List.mem_of_find?_eq_some hfind, not_not.1 hactive,
              hid ▸ hclient, ?_, hredirect⟩, rfl⟩
            simpa [isRegistered] using hregistered

end Answers

/-! ## The query of an answer -/

/-- The parameters of a response that an application looks at. -/
def Response.given (r : Response) (state : Option String) (issuer : String) :
    List (String × String) :=
  r.main :: (state.map fun s => ("state", s)).toList ++ [("iss", issuer)]

/-- Each parameter stands once in a response. -/
theorem filter_params (r : Response) (state : Option String) (issuer : String) :
    ∀ g ∈ r.given state issuer,
      (r.params state ++ [("iss", issuer)]).filter (·.1 = g.1) = [g] := by
  cases r with
  | code c => cases state <;> simp [Response.given, Response.params, Response.main]
  | error err => cases state <;> simp [Response.given, Response.params, Response.main]

/-- The parameters that the redirect URI has itself. -/
def ownParams (parse : UrlParser) (uri : String) : List (String × String) :=
  match parse uri with
  | .ok url => url.ownPairs
  | .error _ => []

/-- A response in the query of a redirect URI: each parameter stands once, with its value. -/
def Unambiguous (e : Endpoint) (uri : String) (r : Response) (state : Option String) : Prop :=
  ∀ g ∈ r.given state e.issuer,
    (queryPairs (clientRedirect e uri (r.params state))).filter (·.1 = g.1) = [g]

theorem queryPairs_clientRedirect {e : Endpoint} (hparse : Whatwg e.parse) {uri : String}
    {allowLoopback : Bool} (hreg : validateRegistration e.parse uri allowLoopback = .ok ())
    (params : List (String × String)) : queryPairs (clientRedirect e uri params) =
      ownParams e.parse uri ++ (params ++ [("iss", e.issuer)]) := by
  obtain ⟨u, hu⟩ := parse_of_validateRegistration hreg
  rw [clientRedirect, queryPairs_appendQuery hparse hu, ownParams, hu]

theorem unambiguous_iff {e : Endpoint} (hparse : Whatwg e.parse) {uri : String}
    {allowLoopback : Bool} (hreg : validateRegistration e.parse uri allowLoopback = .ok ())
    (r : Response) (state : Option String) : Unambiguous e uri r state ↔
      ∀ g ∈ r.given state e.issuer, g.1 ∉ (ownParams e.parse uri).map (·.1) := by
  unfold Unambiguous
  rw [queryPairs_clientRedirect hparse hreg]
  refine forall₂_congr fun g hg => ?_
  rw [List.filter_append, filter_params r state e.issuer g hg, List.append_left_eq_self,
    List.filter_eq_nil_iff]
  constructor
  · intro hnone hmem
    obtain ⟨own, hown, heq⟩ := List.mem_map.1 hmem
    exact hnone own hown (decide_eq_true heq)
  · intro hnot own hown heq
    exact hnot (List.mem_map.2 ⟨own, hown, of_decide_eq_true heq⟩)

/-- Where the answers of the endpoint go, what its transactions have, and which redirect URIs take
a response without a parameter that stands twice. -/
theorem start_spec (e : Endpoint) (hparse : Whatwg e.parse) (params : RawParams) (draws : Draws)
    (accounts : List SessionUser) (ans : EndpointStmt → Bool) (db : EndpointDb) :
    let res := (start e params draws accounts).run ans db
    (∀ url, res.2 = .ok (.redirectToClient url) → ∃ client redirect, Names db params client redirect ∧
      ∃ r : Response, url = clientRedirect e redirect (r.params (echoState params))) ∧
    ((¬ ∃ client redirect, Names db params client redirect) →
      res.2 = .error .database ∨ ∃ status message, res.2 = .ok (.errorPage status message)) ∧
    Makes (fun txn => ∃ client ∈ db.clients, MadeFor params client txn) db res.1 ∧
    ∀ uri allowLoopback, validateRegistration e.parse uri allowLoopback = .ok () →
      ∀ (r : Response) (state : Option String),
        queryPairs (clientRedirect e uri (r.params state)) =
          ownParams e.parse uri ++ (r.params state ++ [("iss", e.issuer)]) ∧
        (Unambiguous e uri r state ↔
          ∀ g ∈ r.given state e.issuer, g.1 ∉ (ownParams e.parse uri).map (·.1)) := by
  refine ⟨fun url hurl => ?_, fun hnone => ?_, ?_, fun uri allowLoopback hreg r state =>
    ⟨queryPairs_clientRedirect hparse hreg _, unambiguous_iff hparse hreg r state⟩⟩
  · rcases start_run e params draws accounts ans db with
      ⟨-, herr | ⟨status, message, hpage⟩⟩ | ⟨client, redirect, hnames, hres⟩
    · rw [herr] at hurl
      cases hurl
    · rw [hpage] at hurl
      cases hurl
    · rw [hres] at hurl
      exact ⟨client, redirect, hnames, Prog.run_returns ans returns_startAt hurl url rfl⟩
  · rcases start_run e params draws accounts ans db with
      ⟨-, h⟩ | ⟨client, redirect, hnames, -⟩
    · exact h
    · exact absurd ⟨client, redirect, hnames⟩ hnone
  · rcases start_run e params draws accounts ans db with
      ⟨hsame, -⟩ | ⟨client, redirect, hnames, hres⟩
    · rw [hsame]
      exact .refl db
    · have hmakes : Makes (MadeFor params client) db _ :=
        Prog.run_within ans Makes.refl Makes.trans
          (within_startAt e params client redirect draws accounts) db
      obtain ⟨made, heq, hmade⟩ := hmakes
      exact ⟨made, hres ▸ heq, fun txn ht => ⟨client, hnames.mem, hmade txn ht⟩⟩

/-! ## A redirect URI with a state of its own -/

/-- The parser on two redirect URIs. -/
def demoParse (uri : String) : Except String Url :=
  if uri = "https://rp.example/cb?state=x" then
    .ok { scheme := "https", username := "", password := none, host := some "rp.example"
          front := Text.encode "https://rp.example/cb", query := some (Text.encode "state=x")
          fragment := none }
  else if uri = "https://rp.example/cb?a=b" then
    .ok { scheme := "https", username := "", password := none, host := some "rp.example"
          front := Text.encode "https://rp.example/cb", query := some (Text.encode "a=b")
          fragment := none }
  else .error "relative URL without a base"

/-- An endpoint for one client. -/
def demoEndpoint : Endpoint where
  provider :=
    { hash := id, accountChooser := true, multiAccount := true, maxBrowserAccounts := 3
      sessionTtlSecs := 28800 }
  issuer := "https://op.example"
  parse := demoParse
  verifyHint := some
  transactionTtlSecs := 600

theorem demoParse_whatwg : Whatwg demoEndpoint.parse := by
  intro uri u hu
  have hu : demoParse uri = .ok u := hu
  unfold demoParse at hu
  split_ifs at hu <;> cases hu <;> decide +kernel

/-- The URI is accepted, and a response has two values of `state`. -/
theorem state_twice : validateRegistration demoEndpoint.parse "https://rp.example/cb?state=x" false =
      .ok () ∧ ¬ Unambiguous demoEndpoint "https://rp.example/cb?state=x" (.code "c") (some "s") := by
  refine ⟨by decide +kernel, fun h => ?_⟩
  have hstate := h ("state", "s") (by decide)
  revert hstate
  decide +kernel

/-- A confidential client with one redirect. -/
def demoClient : Client where
  id := 1
  clientId := "rp"
  ownerUserId := 2
  name := "rp"
  description := none
  homepageUrl := none
  logoUrl := none
  clientType := .confidential
  tokenEndpointAuthMethod := .clientSecretBasic
  redirectUris := ["https://rp.example/cb?a=b"]
  allowedScopes := ["openid", "profile"]
  postLogoutRedirectUris := []
  backchannelLogoutUri := none
  requirePkce := false
  secretHash := none
  previousSecretHash := none
  previousSecretExpiresAt := none
  secretRotatedAt := none
  status := .active
  statusReason := none
  reviewedBy := none
  reviewedAt := none
  createdAt := 0
  updatedAt := 0

/-- A request for a token, which the provider does not support. -/
def demoParams : RawParams :=
  [("client_id", "rp"), ("redirect_uri", "https://rp.example/cb?a=b"), ("response_type", "token"),
    ("scope", "openid email"), ("state", "s&t"), ("nonce", "n")]

/-- The flow before any transaction. -/
def demoFlow : Db where
  now := 0
  txn :=
    { scopes := [], prompt := ⟨false, false, false, false⟩, maxAge := none, loginHint := none
      idTokenHintSub := none, csrfHash := "", userId := none, sessionId := none
      authenticatedAt := none, expiresAt := 0, completedAt := none, accountChoiceSessionId := none
      accountSelectedAt := none, accountSelectedSessionId := none
      accountSwitchRequestedAt := none }
  sessions := []
  consents := []
  codes := []

/-- The type of the response is not supported: the error goes back with the state. -/
theorem start_spec_response_type :
    let db : EndpointDb := { clients := [demoClient], transactions := [], flow := demoFlow }
    let res := (start demoEndpoint demoParams ⟨"d", "c"⟩ []).run (fun _ => true) db
    res.2 = .ok (errorRedirect demoEndpoint "https://rp.example/cb?a=b"
      (.unsupportedResponseType "only response_type=code is supported") (some "s&t")) ∧
    Makes (fun txn => ∃ client ∈ db.clients, MadeFor demoParams client txn) db res.1 ∧
    queryPairs (clientRedirect demoEndpoint "https://rp.example/cb?a=b"
      ((Response.code "c").params (some "s&t"))) =
        [("a", "b"), ("code", "c"), ("state", "s&t"), ("iss", "https://op.example")] ∧
    Unambiguous demoEndpoint "https://rp.example/cb?a=b" (.code "c") (some "s&t") := by
  obtain ⟨-, -, hmakes, hunambiguous⟩ := start_spec demoEndpoint demoParse_whatwg demoParams
    ⟨"d", "c"⟩ [] (fun _ => true) { clients := [demoClient], transactions := [], flow := demoFlow }
  refine ⟨by decide +kernel, hmakes, by decide +kernel, ?_⟩
  exact (hunambiguous _ false (by decide +kernel) _ _).2.2 (by decide +kernel)

end FloatCtf.Oidc.Authorize
