import FloatCtf.Oidc.Transaction
import Mathlib.Data.String.Basic

/-!
# The authorization request

The parameters of a request at the authorization endpoint: the client and the redirect URI, which
are looked at before anything may go back to the application, and the rest, whose errors do.

`validate_inv` says what a request that is accepted has: no repeated parameter, scopes that were
requested and are allowed, and a proof key or a nonce.
-/

namespace FloatCtf.Oidc.Authorize

/-! ## Errors -/

/-- The client or the redirect URI is not known: nothing goes back to an application. -/
inductive PreRedirectError where
  | missingClientId
  | duplicateClientId
  | missingRedirectUri
  | duplicateRedirectUri
  deriving DecidableEq

/-- The message on the error page. -/
def PreRedirectError.message : PreRedirectError → String
  | missingClientId => "缺少 client_id 参数"
  | duplicateClientId => "client_id 参数重复"
  | missingRedirectUri => "缺少 redirect_uri 参数"
  | duplicateRedirectUri => "redirect_uri 参数重复"

/-! ## Parameters -/

/-- The longest `state`. -/
def maxStateLen : Nat := 2048

/-- The longest `nonce`. -/
def maxNonceLen : Nat := 512

/-- The longest `login_hint`. -/
def maxLoginHintLen : Nat := 256

/-- The longest `id_token_hint`. -/
def maxIdTokenHintLen : Nat := 8192

/-- The values of a parameter. -/
def values (params : RawParams) (name : String) : List String :=
  (params.filter (·.1 = name)).map (·.2)

/-- The parameter is there and not empty. -/
def has (params : RawParams) (name : String) : Bool :=
  params.any fun q => q.1 = name && q.2 ≠ ""

/-- The state that an error takes back: it stands once and is not too long. -/
def echoState (params : RawParams) : Option String :=
  match params.single "state" with
  | .ok (some s) => if s.utf8ByteSize ≤ maxStateLen then some s else none
  | _ => none

/-- A parameter that has to be there, once and not empty. -/
def mandatory {ε : Type} (params : RawParams) (name : String) (missing duplicate : ε) :
    Except ε String :=
  match params.single name with
  | .error _ => .error duplicate
  | .ok none => .error missing
  | .ok (some v) => .ok v

/-- The two parameters that decide where an error may be sent. -/
def clientAndRedirect (params : RawParams) : Except PreRedirectError (String × String) := do
  let clientId ← mandatory params "client_id" .missingClientId .duplicateClientId
  let redirectUri ← mandatory params "redirect_uri" .missingRedirectUri .duplicateRedirectUri
  pure (clientId, redirectUri)

/-! ## Validation -/

/-- One value of the `prompt` parameter. -/
def Prompt.add (prompt : Prompt) (value : String) : Except OAuthError Prompt :=
  if value = "none" then .ok { prompt with none := true }
  else if value = "login" then .ok { prompt with login := true }
  else if value = "consent" then .ok { prompt with consent := true }
  else if value = "select_account" then .ok { prompt with selectAccount := true }
  else .error (.invalidRequest "unsupported prompt value")

/-- The prompt of a request; `none` stands alone. -/
def Prompt.parse (raw : Option String) : Except OAuthError Prompt :=
  match raw with
  | .none => .ok ⟨false, false, false, false⟩
  | .some raw => do
    let tokens := (raw.splitOn " ").filter (· ≠ "")
    let prompt ← tokens.foldlM Prompt.add ⟨false, false, false, false⟩
    if prompt.none && (prompt.login || prompt.consent || prompt.selectAccount) then
      .error (.invalidRequest "prompt=none must not be combined with other values")
    else .ok prompt

/-- What a client may ask for. -/
structure ClientPolicy where
  allowedScopes : List String
  requirePkce : Bool

/-- An authorization request that is valid. -/
structure AuthorizationRequest where
  clientId : String
  redirectUri : String
  scopes : List String
  state : Option String
  nonce : Option String
  codeChallenge : Option String
  prompt : Prompt
  maxAge : Option Int
  loginHint : Option String
  idTokenHint : Option String
  deriving DecidableEq

/-- A parameter that may stand once. -/
def single (params : RawParams) (name : String) : Except OAuthError (Option String) :=
  match params.single name with
  | .ok v => .ok v
  | .error _ => .error (.invalidRequest s!"duplicate parameter: {name}")

/-- The first of two neighbours that are equal. -/
def neighbours : List String → Option String
  | a :: b :: rest => if a = b then some a else neighbours (b :: rest)
  | _ => none

/-- Any parameter that stands twice, known or not. -/
def checkRepeated (params : RawParams) : Except OAuthError Unit :=
  match neighbours ((params.map (·.1)).insertionSort (· ≤ ·)) with
  | some dup => .error (.invalidRequest s!"duplicate parameter: {dup}")
  | none => .ok ()

/-- The parameters that are not supported. -/
def checkUnsupported (params : RawParams) : Except OAuthError Unit :=
  if has params "request" then
    .error (.requestNotSupported "request objects are not supported")
  else if has params "request_uri" then
    .error (.requestUriNotSupported "request_uri is not supported")
  else if has params "registration" then
    .error (.registrationNotSupported "registration parameter is not supported")
  else .ok ()

/-- The response type and mode. -/
def checkResponse (params : RawParams) : Except OAuthError Unit := do
  match ← single params "response_type" with
  | none => .error (.invalidRequest "missing response_type")
  | some "code" => .ok ()
  | some _ => .error (.unsupportedResponseType "only response_type=code is supported")
  match ← single params "response_mode" with
  | none => .ok ()
  | some mode =>
    if mode ≠ "query" then .error (.invalidRequest "only response_mode=query is supported")
    else .ok ()

/-- The scopes of a request, within those of the client. -/
def grantedScopes (params : RawParams) (policy : ClientPolicy) :
    Except OAuthError (List String) := do
  match ← single params "scope" with
  | none => .error (.invalidRequest "missing scope")
  | some raw =>
    match parse raw with
    | none => .error (.invalidScope "malformed scope")
    | some requested =>
      if "openid" ∉ requested then .error (.invalidScope "scope must include openid")
      else if "openid" ∉ grantable requested policy.allowedScopes then
        .error (.invalidScope "client is not allowed to request openid")
      else .ok (grantable requested policy.allowedScopes)

/-- A parameter with a greatest length. -/
def bounded (params : RawParams) (name : String) (max : Nat) : Except OAuthError (Option String) := do
  let value ← single params name
  if value.any fun v => max < v.utf8ByteSize then .error (.invalidRequest s!"{name} too long")
  else .ok value

/-- The code challenge, with the method S256. -/
def codeChallenge (params : RawParams) : Except OAuthError (Option String) := do
  match ← single params "code_challenge", ← single params "code_challenge_method" with
  | none, none => .ok none
  | none, some _ => .error (.invalidRequest "code_challenge_method without code_challenge")
  | some _, none => .error (.invalidRequest "code_challenge_method must be S256")
  | some challenge, some method =>
    if method ≠ "S256" then .error (.invalidRequest "code_challenge_method must be S256")
    else if !isValidS256Challenge challenge then
      .error (.invalidRequest "malformed code_challenge")
    else .ok (some challenge)

/-- A request without a proof key needs a nonce, and a client that may go without. -/
def checkProof (policy : ClientPolicy) (codeChallenge nonce : Option String) :
    Except OAuthError Unit :=
  if codeChallenge.isSome then .ok ()
  else if policy.requirePkce then
    .error (.invalidRequest "code_challenge (PKCE S256) is required for this client")
  else if nonce.isNone then .error (.invalidRequest "nonce is required when PKCE is not used")
  else .ok ()

/-- The value of decimal digits, `none` where there is none or another character. -/
def digits (cs : List Char) : Option Nat :=
  if cs = [] then none
  else cs.foldlM (fun n c => if c.isDigit then some (10 * n + (c.toNat - 48)) else none) 0

/-- A signed number of 64 bits, as `str::parse` reads it. -/
def parseI64 (raw : String) : Option Int :=
  match raw.toList with
  | '-' :: cs => (digits cs).bind fun n => if n ≤ 2 ^ 63 then some (-n) else none
  | '+' :: cs => (digits cs).bind fun n => if n < 2 ^ 63 then some n else none
  | cs => (digits cs).bind fun n => if n < 2 ^ 63 then some n else none

/-- A number of seconds from 0 on. -/
def maxAge (params : RawParams) : Except OAuthError (Option Int) := do
  match ← single params "max_age" with
  | none => .ok none
  | some raw =>
    match (parseI64 raw).filter (0 ≤ ·) with
    | some v => .ok (some v)
    | none => .error (.invalidRequest "max_age must be a non-negative integer")

/-- `validate`: the checks in the order of the source. -/
def validate (params : RawParams) (clientId redirectUri : String) (policy : ClientPolicy) :
    Except OAuthError AuthorizationRequest := do
  checkRepeated params
  checkUnsupported params
  checkResponse params
  let scopes ← grantedScopes params policy
  let state ← bounded params "state" maxStateLen
  let nonce ← bounded params "nonce" maxNonceLen
  let codeChallenge ← codeChallenge params
  checkProof policy codeChallenge nonce
  let prompt ← Prompt.parse (← single params "prompt")
  let maxAge ← maxAge params
  let loginHint ← single params "login_hint"
  let idTokenHint ← bounded params "id_token_hint" maxIdTokenHintLen
  pure {
    clientId, redirectUri, scopes, state, nonce, codeChallenge, prompt, maxAge
    loginHint := loginHint.filter (·.utf8ByteSize ≤ maxLoginHintLen)
    idTokenHint }

/-! ## What is accepted -/

/-- In a sorted list a repetition stands beside itself. -/
theorem nodup_of_neighbours : ∀ {l : List String}, l.Pairwise (· ≤ ·) → neighbours l = none →
    l.Nodup
  | [], _, _ => .nil
  | [a], _, _ => List.nodup_singleton a
  | a :: b :: rest, hsorted, hnone => by
    rw [neighbours] at hnone
    split_ifs at hnone with hab
    rw [List.pairwise_cons] at hsorted
    refine List.nodup_cons.2 ⟨fun hmem => ?_, nodup_of_neighbours hsorted.2 hnone⟩
    have hle : a ≤ b := hsorted.1 b List.mem_cons_self
    rcases List.mem_cons.1 hmem with rfl | hmem
    · exact hab rfl
    · exact hab (le_antisymm hle ((List.pairwise_cons.1 hsorted.2).1 a hmem))

theorem nodup_of_checkRepeated {params : RawParams} (h : checkRepeated params = .ok ()) :
    (params.map (·.1)).Nodup := by
  unfold checkRepeated at h
  split at h
  · cases h
  · rename_i hnone
    have hsorted := List.pairwise_insertionSort (· ≤ ·) (params.map (·.1))
    exact (List.perm_insertionSort (· ≤ ·) _).nodup_iff.1 (nodup_of_neighbours hsorted hnone)

/-- A parameter that was found stands once. -/
theorem values_of_single {params : RawParams} {name v : String}
    (h : params.single name = .ok (some v)) : values params name = [v] := by
  unfold RawParams.single at h
  unfold values
  split at h
  · cases h
  · rename_i v' heq
    rw [heq]
    split_ifs at h
    · cases h
    · cases h
      rfl
  · cases h

theorem single_inv {params : RawParams} {name : String} {v : Option String}
    (h : single params name = .ok v) : params.single name = .ok v := by
  unfold single at h
  split at h
  · cases h
    assumption
  · cases h

theorem values_of_mandatory {ε : Type} {params : RawParams} {name v : String} {m d : ε}
    (h : mandatory params name m d = .ok v) : values params name = [v] := by
  unfold mandatory at h
  split at h
  · cases h
  · cases h
  · cases h
    exact values_of_single ‹_›

/-- The client and the redirect URI stand once each. -/
theorem clientAndRedirect_inv {params : RawParams} {clientId redirectUri : String}
    (h : clientAndRedirect params = .ok (clientId, redirectUri)) :
    values params "client_id" = [clientId] ∧ values params "redirect_uri" = [redirectUri] := by
  unfold clientAndRedirect at h
  obtain ⟨c, hc, h⟩ := Process.except_bind_ok h
  obtain ⟨r, hr, h⟩ := Process.except_bind_ok h
  cases h
  exact ⟨values_of_mandatory hc, values_of_mandatory hr⟩

/-- The scopes were requested, are allowed for the client, and include `openid`. -/
structure ScopesOk (params : RawParams) (policy : ClientPolicy) (scopes : List String) : Prop where
  nodup : scopes.Nodup
  openid : "openid" ∈ scopes
  requested : ∃ raw tokens, values params "scope" = [raw] ∧ parse raw = some tokens ∧
    ∀ s ∈ scopes, s ∈ tokens ∧ s ∈ policy.allowedScopes

theorem scopesOk_of_grantedScopes {params : RawParams} {policy : ClientPolicy}
    {scopes : List String} (h : grantedScopes params policy = .ok scopes) :
    ScopesOk params policy scopes := by
  unfold grantedScopes at h
  obtain ⟨v, hv, h⟩ := Process.except_bind_ok h
  split at h
  · cases h
  · rename_i raw
    split at h
    · cases h
    · rename_i tokens htokens
      split_ifs at h with hrequested hgranted
      cases h
      refine ⟨List.Nodup.filter _ (by decide), hgranted, raw, tokens,
        values_of_single (single_inv hv), htokens, fun s hs => ?_⟩
      simpa using (List.mem_filter.1 hs).2

/-- There is a proof key of the method `S256`, or the client may go without one and there is a
nonce. -/
def ProofOk (policy : ClientPolicy) (codeChallenge nonce : Option String) : Prop :=
  (∃ c, codeChallenge = some c ∧ isValidS256Challenge c = true) ∨
    policy.requirePkce = false ∧ nonce.isSome = true

theorem codeChallenge_inv {params : RawParams} {c : String}
    (h : codeChallenge params = .ok (some c)) : isValidS256Challenge c = true ∧
      values params "code_challenge_method" = ["S256"] := by
  unfold codeChallenge at h
  obtain ⟨v, -, h⟩ := Process.except_bind_ok h
  obtain ⟨m, hm, h⟩ := Process.except_bind_ok h
  split at h
  · cases h
  · cases h
  · cases h
  · rename_i challenge method
    split_ifs at h with hmethod hvalid
    cases h
    refine ⟨by simpa using hvalid, ?_⟩
    rw [← not_not.1 hmethod]
    exact values_of_single (single_inv hm)

theorem checkProof_inv {policy : ClientPolicy} {c nonce : Option String}
    (h : checkProof policy c nonce = .ok ()) :
    c.isSome = true ∨ policy.requirePkce = false ∧ nonce.isSome = true := by
  unfold checkProof at h
  split_ifs at h with hc hp hn
  · exact .inl hc
  · refine .inr ⟨Bool.not_eq_true _ ▸ hp, ?_⟩
    cases nonce with
    | none => exact absurd rfl hn
    | some n => rfl

/-- What a request has that is accepted. -/
structure Accepted (params : RawParams) (policy : ClientPolicy) (r : AuthorizationRequest) :
    Prop where
  nodup : (params.map (·.1)).Nodup
  scopes : ScopesOk params policy r.scopes
  proof : ProofOk policy r.codeChallenge r.nonce
  state : r.state = echoState params

/-- The state of a request that is accepted is the one that an error takes back. -/
theorem state_eq_echoState {params : RawParams} {v : Option String}
    (h : bounded params "state" maxStateLen = .ok v) : v = echoState params := by
  unfold bounded at h
  obtain ⟨v', hv, h⟩ := Process.except_bind_ok h
  split_ifs at h with hlen
  cases h
  unfold echoState
  rw [single_inv hv]
  cases v with
  | none => rfl
  | some s =>
    have hle : s.utf8ByteSize ≤ maxStateLen := by simpa using hlen
    exact (if_pos hle).symm

theorem validate_inv {params : RawParams} {clientId redirectUri : String} {policy : ClientPolicy}
    {r : AuthorizationRequest} (h : validate params clientId redirectUri policy = .ok r) :
    Accepted params policy r ∧ r.clientId = clientId ∧ r.redirectUri = redirectUri := by
  unfold validate at h
  obtain ⟨_, hrepeated, h⟩ := Process.except_bind_ok h
  obtain ⟨_, -, h⟩ := Process.except_bind_ok h
  obtain ⟨_, -, h⟩ := Process.except_bind_ok h
  obtain ⟨scopes, hscopes, h⟩ := Process.except_bind_ok h
  obtain ⟨state, hstate, h⟩ := Process.except_bind_ok h
  obtain ⟨nonce, -, h⟩ := Process.except_bind_ok h
  obtain ⟨challenge, hchallenge, h⟩ := Process.except_bind_ok h
  obtain ⟨_, hproof, h⟩ := Process.except_bind_ok h
  obtain ⟨_, -, h⟩ := Process.except_bind_ok h
  obtain ⟨prompt, -, h⟩ := Process.except_bind_ok h
  obtain ⟨maxAge, -, h⟩ := Process.except_bind_ok h
  obtain ⟨loginHint, -, h⟩ := Process.except_bind_ok h
  obtain ⟨idTokenHint, -, h⟩ := Process.except_bind_ok h
  cases h
  refine ⟨⟨nodup_of_checkRepeated hrepeated, scopesOk_of_grantedScopes hscopes, ?_,
    state_eq_echoState hstate⟩, rfl, rfl⟩
  refine (checkProof_inv hproof).imp_left fun hsome => ?_
  obtain ⟨c, rfl⟩ := Option.isSome_iff_exists.1 hsome
  exact ⟨c, rfl, (codeChallenge_inv hchallenge).1⟩

end FloatCtf.Oidc.Authorize
