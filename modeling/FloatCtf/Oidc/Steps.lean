import FloatCtf.Oidc.Flow

/-!
# What a statement can do to the grants

The statements of grants and revocations are those of their own programs.  `OidcStep` says of the
others what they can do to the codes, tokens, consents and open revocations: the programs that use a
grant are made of `UseStep`s, and of `PlainStep`s apart from the consumption of a code and the
acceptance of a token.
-/

namespace FloatCtf.Oidc

open Process

/-! ## The programs -/

/-- The requests that ask for grants or use them. -/
inductive GrantJob where
  | grant (userId clientId : Nat) (scopes : List String) (id : Nat)
  | allow (txn : AuthTransaction) (clientPk userId : Nat) (session : BrowserSession)
      (selected : List String) (consentId : Nat) (draw : Draw)
  | advance (txn : AuthTransaction) (clientPk userId : Nat) (session : BrowserSession) (draw : Draw)
  | exchange (r : TokenRequest)
  | userinfo (token : String)

/-- The program of a request on consents. -/
def GrantJob.prog (p : Provider) (k : Signer) : GrantJob → OidcM Unit
  | grant userId clientId scopes id => do let _ ← grantConsent userId clientId scopes id
  | allow txn clientPk userId session selected consentId draw => do
    let _ ← allowConsent p txn clientPk userId session selected consentId draw
  | advance txn clientPk userId session draw => do
    let _ ← advanceIssue p txn clientPk userId session draw
  | exchange r => do let _ ← exchangeCode p k r
  | userinfo token => do let _ ← findUsableToken p token

/-! ## One statement -/

/-- The codes, tokens, consents and open revocations are the same. -/
structure SameGrants (db db' : Db) : Prop where
  codes : db'.codes = db.codes
  tokens : db'.tokens = db.tokens
  consents : db'.consents = db.consents
  revoking : db'.revoking = db.revoking
  xids : db'.xids = db.xids

theorem SameGrants.refl (db : Db) : SameGrants db db := ⟨rfl, rfl, rfl, rfl, rfl⟩

/-- The row of a new code. -/
structure AuthorizationCode.New (c : AuthorizationCode) (userId clientId : Nat) (db : Db) : Prop where
  userId : c.userId = userId
  clientId : c.clientId = clientId
  consumedAt : c.consumedAt = none
  fresh : c.clashes db = false

/-- What a statement does that does not grant or revoke. -/
def OidcStep (p : Provider) (l : Stmt) (db db' : Db) : Prop :=
  SameGrants db db' ∨ match l with
  | .consumeCode code draw => db.consumeWaits code = false ∧
      db.codes.any (·.consumable code.id db.now) = true ∧
      (code.token p draw db.now).clashes db = false ∧ db' = db.consume p code draw
  | .revokeTokensOfCode code => db' = db.revokeTokensOf code.id
  | .insertCode userId clientId =>
    ∃ c : AuthorizationCode, c.New userId clientId db ∧ db' = { db with codes := db.codes ++ [c] }
  | _ => False

/-- A statement that neither grants or revokes nor uses a grant. -/
def Stmt.plain : Stmt → Bool
  | .grantConsent _ _ _ _ _ | .revokeConsentRow _ _ _ | .findTokens _ | .revokeTokens _
  | .findCodes _ | .consumeCodes _ | .commitRevocation _ | .consumeCode _ _ | .acceptToken _ => false
  | _ => true

/-- A statement that does not grant or revoke. -/
def Stmt.uses : Stmt → Bool
  | .consumeCode _ _ | .acceptToken _ => true
  | l => l.plain

/-- A step of a plain statement. -/
def PlainStep (p : Provider) (l : Stmt) (db db' : Db) : Prop :=
  l.plain = true ∧ OidcStep p l db db'

/-- A step of a statement that does not grant or revoke. -/
def UseStep (p : Provider) (l : Stmt) (db db' : Db) : Prop :=
  l.uses = true ∧ OidcStep p l db db'

theorem Stmt.uses_of_plain {l : Stmt} (h : l.plain = true) : l.uses = true := by
  cases l <;> first | rfl | exact h

theorem PlainStep.use {p : Provider} {l : Stmt} {db db' : Db} (h : PlainStep p l db db') :
    UseStep p l db db' := ⟨Stmt.uses_of_plain h.1, h.2⟩

section Does

variable {p : Provider} {α : Type}

theorem plainStep_refl {l : Stmt} (hl : l.plain = true) (db : Db) : PlainStep p l db db :=
  ⟨hl, .inl (.refl db)⟩

theorem does_oidcQuery {l : Stmt} (hl : l.plain = true) (e : OidcError) (f : Db → α) :
    (Prog.query l e f).Does (PlainStep p) := Prog.does_query (plainStep_refl hl) e f

theorem does_oidcNow : utcNow.Does (PlainStep p) := Prog.does_look (plainStep_refl rfl) _

theorem does_ofExcept (x : Except OidcError α) : (ofExcept x).Does (PlainStep p) := by
  cases x <;> trivial

/-- A statement that writes to the other tables only. -/
theorem does_sameGrants {l : Stmt} (hl : l.plain = true) {e : OidcError}
    {f : Db → Except OidcError (Db × α)} (h : ∀ db db' a, f db = .ok (db', a) → SameGrants db db') :
    (Prog.exec l e f).Does (PlainStep p) :=
  Prog.does_exec (plainStep_refl hl) fun db db' a hf => ⟨hl, .inl (h db db' a hf)⟩

theorem does_revokeTokensOfCode (e : OidcError) (code : AuthorizationCode) :
    (revokeTokensOfCode e code).Does (PlainStep p) := by
  refine Prog.does_exec (plainStep_refl rfl) fun db db' a hf => ?_
  split_ifs at hf
  cases hf
  exact ⟨rfl, .inr rfl⟩

theorem does_recordSessionClient (e : OidcError) (code : AuthorizationCode)
    (sessionId clientId : Nat) :
    (recordSessionClient e code sessionId clientId).Does (PlainStep p) := by
  refine does_sameGrants rfl fun db db' a hf => ?_
  cases hf
  unfold Db.recordSessionClient
  split <;> exact ⟨rfl, rfl, rfl, rfl, rfl⟩

theorem does_bindSession (client : OidcClient) (code : AuthorizationCode) :
    (bindSession p client code).Does (PlainStep p) := by
  unfold bindSession
  split
  · trivial
  · refine Prog.does_bind (Prog.does_attempt (does_recordSessionClient _ _ _ _)) fun _ => ?_
    refine Prog.does_ite ?_ (Prog.does_pure _)
    refine Prog.does_bind (Prog.does_attempt (does_oidcQuery rfl _ _)) fun sid => ?_
    cases sid <;> trivial

theorem does_respondToken (k : Signer) (client : OidcClient) (code : AuthorizationCode)
    (userId : Nat) (accessToken : String) :
    (respondToken p k client code userId accessToken).Does (PlainStep p) := by
  refine Prog.does_bind (does_bindSession client code) fun sid => ?_
  refine Prog.does_bind does_oidcNow fun now => ?_
  split <;> trivial

theorem does_insertCode (e : OidcError) (n : NewCode) (draw : Draw) :
    (insertCode p e n draw).Does (PlainStep p) := by
  refine Prog.does_exec (plainStep_refl rfl) fun db db' a hf => ?_
  simp only at hf
  split_ifs at hf with hclash
  cases hf
  exact ⟨rfl, .inr ⟨_, ⟨rfl, rfl, rfl, by simpa using hclash⟩, rfl⟩⟩

theorem does_issueCode (txn : AuthTransaction) (clientPk userId : Nat) (session : BrowserSession)
    (granted : List String) (draw : Draw) :
    (issueCode p txn clientPk userId session granted draw).Does (PlainStep p) := by
  refine Prog.does_bind (does_sameGrants rfl fun db db' a hf => ?_) fun done => ?_
  · cases hf
    exact ⟨rfl, rfl, rfl, rfl, rfl⟩
  · refine Prog.does_ite ?_ (Prog.does_pure _)
    refine Prog.does_bind (does_insertCode _ _ _) fun code => ?_
    refine Prog.does_bind (does_sameGrants rfl fun db db' a hf => ?_) fun _ => Prog.does_pure _
    cases hf
    exact ⟨rfl, rfl, rfl, rfl, rfl⟩

theorem useStep_refl {l : Stmt} (hl : l.uses = true) (db : Db) : UseStep p l db db :=
  ⟨hl, .inl (.refl db)⟩

theorem does_useQuery {l : Stmt} (hl : l.uses = true) (e : OidcError) (f : Db → α) :
    (Prog.query l e f).Does (UseStep p) := Prog.does_query (useStep_refl hl) e f

theorem does_use {q : OidcM α} (h : q.Does (PlainStep p)) : q.Does (UseStep p) :=
  h.mono fun _ _ _ hs => hs.use

theorem does_consumeCodeAndIssueToken (e : OidcError) (code : AuthorizationCode) (draw : Draw) :
    (consumeCodeAndIssueToken p e code draw).Does (UseStep p) := by
  refine Prog.does_exec (useStep_refl rfl) fun db db' a hf => ?_
  split_ifs at hf with hwaits hcons hclash
  · cases hf
    exact ⟨rfl, .inr ⟨by simpa using hwaits, hcons, by simpa using hclash, rfl⟩⟩
  · cases hf
    exact useStep_refl rfl db

theorem does_redeemCode (k : Signer) (r : TokenRequest) (code : AuthorizationCode) (userId : Nat) :
    (redeemCode p k r code userId).Does (UseStep p) := by
  refine Prog.does_bind (does_consumeCodeAndIssueToken _ _ _) fun issued => ?_
  cases issued with
  | none =>
    exact Prog.does_bind (Prog.does_attempt (does_use (does_revokeTokensOfCode _ _))) fun _ => trivial
  | some issued => exact does_use (does_respondToken k r.client code userId issued.1)

theorem does_checkCode (k : Signer) (r : TokenRequest) (q : TokenParams)
    (code : AuthorizationCode) : (checkCode p k r q code).Does (UseStep p) := by
  refine Prog.does_bind (does_use does_oidcNow) fun now => Prog.does_ite trivial ?_
  refine Prog.does_bind (does_use (does_ofExcept _)) fun _ => ?_
  refine Prog.does_bind (does_use (does_ofExcept _)) fun _ => ?_
  refine Prog.does_bind (does_useQuery rfl _ _) fun user => ?_
  cases user with
  | none => trivial
  | some userId =>
    refine Prog.does_bind (does_useQuery rfl _ _) fun consent => ?_
    exact Prog.does_ite (does_redeemCode k r code userId) trivial

theorem does_exchangeCode (k : Signer) (r : TokenRequest) :
    (exchangeCode p k r).Does (UseStep p) := by
  refine Prog.does_bind (does_use (does_ofExcept _)) fun q => ?_
  refine Prog.does_bind (Prog.does_ite (does_useQuery rfl _ _) (Prog.does_pure _)) fun found => ?_
  cases found with
  | none => trivial
  | some code =>
    refine Prog.does_ite trivial (Prog.does_ite ?_ (does_checkCode k r q code))
    exact Prog.does_bind (does_use (does_revokeTokensOfCode _ _)) fun _ => trivial

theorem does_findUsableToken (token : String) :
    (findUsableToken p token).Does (UseStep p) := by
  refine Prog.does_ite ?_ (Prog.does_pure _)
  refine Prog.does_bind (does_useQuery rfl _ _) fun row => ?_
  split
  · refine Prog.does_ite ?_ (Prog.does_pure _)
    refine Prog.does_bind (does_useQuery rfl _ _) fun consent => ?_
    exact Prog.does_ite (does_useQuery rfl _ _) (Prog.does_pure _)
  · exact Prog.does_pure _

end Does

end FloatCtf.Oidc
