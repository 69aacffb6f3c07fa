import FloatCtf.Oidc.ConsentGrants

/-!
# Revocation of consent

A revocation marks the consent, the tokens and the codes of a user and a client in one transaction,
but each sweep takes the rows that it finds when it starts.  A code that is issued, or a token that
is created, after the sweep of its table and before the commit survives the revocation, and works
again after the next grant (`code_outlives_revocation`); a user info request that has read its token
before the revocation accepts it after the next grant.

`revocationFinal_run` shows that no token of a code that was issued before a committed revocation is
accepted after it, and that every accepted token was created under a consent that covered its
scopes, in every interleaving in which nothing slips behind a sweep, no token is revoked while a
request examines it, and no grant drops a scope that is stored.
-/

namespace FloatCtf.Oidc

open Process

/-! ## The system -/

/-- A request that uses a consent, or one that revokes it. -/
inductive RevokeJob where
  | use (j : GrantJob)
  | revoke (id userId clientId : Nat)

/-- The program of a job. -/
def RevokeJob.prog (p : Provider) (k : Signer) : RevokeJob → OidcM Unit
  | use j => j.prog p k
  | revoke id userId clientId => do let _ ← revokeConsent id userId clientId

/-- Time passes, and the connection of an open transaction is lost. -/
inductive RevokeEnv where
  | tick (d : Nat)
  | disconnect (id : Nat)

/-- What happens beside the requests: time passes, or a connection is lost and its transaction with
it. -/
def RevokeEnv.apply : RevokeEnv → Db → Db
  | tick d, db => { db with now := db.now + d }
  | disconnect id, db => { db with revoking := db.revoking.filter (·.id ≠ id) }

/-- The codes that were there when a revocation of their user and client committed, the tokens that
were created while the consent covered their scopes, and the tokens that were accepted though their
code is one of the first, or though they are none of the second. -/
structure RevokeLog where
  condemned : List Nat
  covered : List Nat
  late : List Nat
  bare : List Nat

/-- The transaction consumes the code and creates a token. -/
def Db.creates (db : Db) (p : Provider) (code : AuthorizationCode) (draw : Draw) : Bool :=
  !db.consumeWaits code && db.codes.any (·.consumable code.id db.now) &&
    !(code.token p draw db.now).clashes db

/-- The codes of the user and the client of a revocation. -/
def Db.codesOf (db : Db) (r : Revocation) : List Nat :=
  (db.codes.filter fun c => c.userId = r.userId ∧ c.clientId = r.clientId).map (·.id)

/-- What the log learns of a statement. -/
def RevokeLog.note (p : Provider) (l : Stmt) (db : Db) (g : RevokeLog) : RevokeLog :=
  match l with
  | .commitRevocation id =>
    match db.revoking.find? (·.id = id) with
    | some r => { g with condemned := g.condemned ++ db.codesOf r }
    | none => g
  | .consumeCode code draw =>
    if db.creates p code draw ∧ db.consented code.userId code.clientId code.scopes then
      { g with covered := g.covered ++ [draw.id] }
    else g
  | .acceptToken t =>
    if t.userId ∈ db.users then
      { g with
        late := if t.authorizationCodeId.any (· ∈ g.condemned) then g.late ++ [t.id] else g.late
        bare := if t.id ∈ g.covered then g.bare else g.bare ++ [t.id] }
    else g
  | _ => g

/-- The jobs, with the log as ghost state. -/
def revokeSystem (p : Provider) (k : Signer) :
    System Stmt Db OidcError RevokeLog RevokeJob RevokeEnv where
  prog := RevokeJob.prog p k
  env := RevokeEnv.apply
  watch _ l db g := g.note p l db

/-- The jobs under way. -/
abbrev RevokePool := Pool Stmt Db OidcError RevokeLog RevokeJob

/-- The tokens of the start count as covered. -/
def RevokePool.initial (db : Db) : RevokePool where
  state := db
  ghost := { condemned := [], covered := db.tokens.map (·.id), late := [], bare := [] }
  threads := []

/-- Nothing slips behind a sweep, a token that is accepted has not been revoked since it was read,
and a grant keeps the scopes that are stored. -/
def Undisturbed (_ : RevokeJob) (l : Stmt) (v : Db × RevokeLog) : Prop :=
  match l with
  | .insertCode u c => ∀ r ∈ v.1.revoking, r.userId = u → r.clientId = c → r.foundCodes = none
  | .consumeCode code _ => ∀ r ∈ v.1.revoking, r.userId = code.userId →
      r.clientId = code.clientId → r.foundTokens = none
  | .acceptToken t => ∀ t' ∈ v.1.tokens, t'.id = t.id → t'.revokedAt = none
  | .grantConsent u c existing scopes _ => ∀ row ∈ v.1.activeConsent u c,
      covers (union (seenScopes existing) scopes) row.scopes = true
  | _ => True

instance (j : RevokeJob) (l : Stmt) (v : Db × RevokeLog) : Decidable (Undisturbed j l v) := by
  apply @Stmt.casesOn (fun l => Decidable (Undisturbed j l v)) l <;> intros <;>
    dsimp only [Undisturbed] <;> infer_instance

/-! ## Relations -/

/-- The row is there, consumed or as it was. -/
def Aged (c : AuthorizationCode) (codes : List AuthorizationCode) : Prop :=
  c ∈ codes ∨ ∃ n, c.consumed n ∈ codes

/-- The code is consumed. -/
def Gone (c : AuthorizationCode) (codes : List AuthorizationCode) : Prop :=
  ∃ c' ∈ codes, c'.id = c.id ∧ c'.consumedAt.isSome = true

theorem Aged.trans {c : AuthorizationCode} {codes codes' : List AuthorizationCode}
    (h : Aged c codes) (hk : ∀ x ∈ codes, Aged x codes') : Aged c codes' := by
  rcases h with h | ⟨n, hn⟩
  · exact hk c h
  · rcases hk _ hn with h | ⟨m, hm⟩
    · exact .inr ⟨n, h⟩
    · exact .inr ⟨m, hm⟩

theorem Gone.mono {c : AuthorizationCode} {codes codes' : List AuthorizationCode}
    (h : Gone c codes) (hk : ∀ x ∈ codes, Aged x codes') : Gone c codes' := by
  obtain ⟨c', hc', hid, hs⟩ := h
  rcases hk c' hc' with hmem | ⟨n, hn⟩
  · exact ⟨c', hmem, hid, hs⟩
  · exact ⟨_, hn, hid, rfl⟩

/-- A transaction does not forget a sweep. -/
structure Revocation.Progress (r r' : Revocation) : Prop where
  foundTokens : r.foundTokens.isSome = true → r'.foundTokens.isSome = true
  tokens : r.tokens.isSome = true → r'.tokens.isSome = true
  foundCodes : r.foundCodes.isSome = true → r'.foundCodes.isSome = true
  codes : r.codes.isSome = true → r'.codes.isSome = true

theorem Revocation.Progress.refl (r : Revocation) : r.Progress r :=
  ⟨fun h => h, fun h => h, fun h => h, fun h => h⟩

theorem Revocation.Progress.trans {r r' r'' : Revocation} (h : r.Progress r')
    (h' : r'.Progress r'') : r.Progress r'' :=
  ⟨fun x => h'.foundTokens (h.foundTokens x), fun x => h'.tokens (h.tokens x),
    fun x => h'.foundCodes (h.foundCodes x), fun x => h'.codes (h.codes x)⟩

/-- What a job may rely on: rows stay, and a consent goes only once its codes are gone. -/
structure RevokeRely (v v' : Db × RevokeLog) : Prop where
  codes : ∀ c ∈ v.1.codes, Aged c v'.1.codes
  tokens : ∀ t ∈ v.1.tokens, ∃ t' ∈ v'.1.tokens,
    t'.id = t.id ∧ t'.authorizationCodeId = t.authorizationCodeId
  rows : ∀ c ∈ v.1.consents, ∃ c' ∈ v'.1.consents,
    c'.id = c.id ∧ c'.userId = c.userId ∧ c'.clientId = c.clientId
  consented : ∀ u k s, v.1.consented u k s = true → v'.1.consented u k s = true ∨
    ∀ c ∈ v.1.codes, c.userId = u → c.clientId = k → Gone c v'.1.codes
  xids : v.1.xids ⊆ v'.1.xids
  stages : ∀ r' ∈ v'.1.revoking, r'.id ∈ v.1.xids → ∃ r ∈ v.1.revoking, r.id = r'.id ∧ r.Progress r'
  covered : v.2.covered ⊆ v'.2.covered

/-- What the open transaction has found and locked is all there is to be swept. -/
structure Sweeping (db : Db) (r : Revocation) : Prop where
  consent : ∀ i ∈ r.consent, ∃ c ∈ db.consents,
    c.id = i ∧ c.userId = r.userId ∧ c.clientId = r.clientId
  foundTokens : ∀ ids ∈ r.foundTokens, ∀ t ∈ db.tokens, t.sweeps r = true → t.id ∈ ids
  tokens : ∀ ids ∈ r.tokens, ∀ t ∈ db.tokens, t.sweeps r = true → t.id ∈ ids
  foundCodes : ∀ ids ∈ r.foundCodes, ∀ c ∈ db.codes, c.sweeps r = true → c.id ∈ ids
  codes : ∀ ids ∈ r.codes, ∀ c ∈ db.codes, c.sweeps r = true → c.id ∈ ids
  tokensFound : r.tokens.isSome = true → r.foundTokens.isSome = true
  codesFound : r.codes.isSome = true → r.foundCodes.isSome = true

/-- The invariant of the revocations: what is condemned stays swept, and no token comes late or
without consent. -/
structure RevokeInv (v : Db × RevokeLog) : Prop where
  rows : ConsentRows v.1
  codeIds : (v.1.codes.map (·.id)).Nodup
  tokenIds : (v.1.tokens.map (·.id)).Nodup
  owner : ∀ t ∈ v.1.tokens, ∀ i ∈ t.authorizationCodeId, ∃ c ∈ v.1.codes,
    c.id = i ∧ c.userId = t.userId ∧ c.clientId = t.clientId ∧ c.consumedAt.isSome = true
  condemned : ∀ i ∈ v.2.condemned, ∃ c ∈ v.1.codes, c.id = i ∧ c.consumedAt.isSome = true
  revoked : ∀ t ∈ v.1.tokens, ∀ i ∈ t.authorizationCodeId, i ∈ v.2.condemned →
    t.revokedAt.isSome = true
  covered : ∀ t ∈ v.1.tokens, t.id ∈ v.2.covered
  late : v.2.late = []
  bare : v.2.bare = []
  sweeping : ∀ r ∈ v.1.revoking, Sweeping v.1 r
  xids : ∀ r ∈ v.1.revoking, r.id ∈ v.1.xids

section Relations

variable {v v' v'' : Db × RevokeLog}

theorem RevokeRely.refl (v : Db × RevokeLog) : RevokeRely v v where
  codes _ hc := .inl hc
  tokens t ht := ⟨t, ht, rfl, rfl⟩
  rows c hc := ⟨c, hc, rfl, rfl, rfl⟩
  consented _ _ _ h := .inl h
  xids := List.Subset.refl _
  stages r hr _ := ⟨r, hr, rfl, .refl r⟩
  covered := List.Subset.refl _

theorem RevokeRely.trans (h : RevokeRely v v') (h' : RevokeRely v' v'') : RevokeRely v v'' where
  codes c hc := (h.codes c hc).trans h'.codes
  tokens t ht := by
    obtain ⟨t₁, ht₁, hid₁, hc₁⟩ := h.tokens t ht
    obtain ⟨t₂, ht₂, hid₂, hc₂⟩ := h'.tokens t₁ ht₁
    exact ⟨t₂, ht₂, hid₂.trans hid₁, hc₂.trans hc₁⟩
  rows c hc := by
    obtain ⟨c₁, hc₁, hid₁, hu₁, hk₁⟩ := h.rows c hc
    obtain ⟨c₂, hc₂, hid₂, hu₂, hk₂⟩ := h'.rows c₁ hc₁
    exact ⟨c₂, hc₂, hid₂.trans hid₁, hu₂.trans hu₁, hk₂.trans hk₁⟩
  consented u k s hs := by
    rcases h.consented u k s hs with hs' | hgone
    · rcases h'.consented u k s hs' with hs'' | hgone
      · exact .inl hs''
      · refine .inr fun c hc hu hk => ?_
        rcases h.codes c hc with hmem | ⟨n, hn⟩
        · exact hgone c hmem hu hk
        · exact Gone.mono ⟨_, hn, rfl, rfl⟩ h'.codes
    · exact .inr fun c hc hu hk => (hgone c hc hu hk).mono h'.codes
  xids := List.Subset.trans h.xids h'.xids
  stages r'' hr'' hid := by
    obtain ⟨r', hr', hid', hp'⟩ := h'.stages r'' hr'' (h.xids hid)
    obtain ⟨r, hr, hid₀, hp⟩ := h.stages r' hr' (hid' ▸ hid)
    exact ⟨r, hr, hid₀.trans hid', hp.trans hp'⟩
  covered := List.Subset.trans h.covered h'.covered

/-- Codes are consumed and tokens revoked, and no row comes or goes. -/
structure RowsMove (db db' : Db) : Prop where
  codeIds : db'.codes.map (·.id) = db.codes.map (·.id)
  codes : ∀ c ∈ db.codes, Aged c db'.codes
  codesBack : ∀ c' ∈ db'.codes, ∃ c ∈ db.codes, c'.id = c.id ∧ c'.userId = c.userId ∧
    c'.clientId = c.clientId ∧ (c'.consumedAt = none → c.consumedAt = none)
  tokenIds : db'.tokens.map (·.id) = db.tokens.map (·.id)
  tokens : ∀ t ∈ db.tokens, ∃ t' ∈ db'.tokens,
    t'.id = t.id ∧ t'.authorizationCodeId = t.authorizationCodeId
  tokensBack : ∀ t' ∈ db'.tokens, ∃ t ∈ db.tokens, t'.id = t.id ∧
    t'.authorizationCodeId = t.authorizationCodeId ∧ t'.userId = t.userId ∧
    t'.clientId = t.clientId ∧ (t'.revokedAt = none → t.revokedAt = none)
  rows : ∀ c ∈ db.consents, ∃ c' ∈ db'.consents,
    c'.id = c.id ∧ c'.userId = c.userId ∧ c'.clientId = c.clientId

theorem AccessToken.sweeps_iff {t : AccessToken} {r : Revocation} : t.sweeps r = true ↔
    t.userId = r.userId ∧ t.clientId = r.clientId ∧ t.revokedAt = none := by
  simp [AccessToken.sweeps]

theorem AuthorizationCode.sweeps_iff {c : AuthorizationCode} {r : Revocation} :
    c.sweeps r = true ↔ c.userId = r.userId ∧ c.clientId = r.clientId ∧ c.consumedAt = none := by
  simp [AuthorizationCode.sweeps]

theorem Sweeping.move {db db' : Db} {r : Revocation} (h : Sweeping db r) (hm : RowsMove db db') :
    Sweeping db' r := by
  have htok : ∀ t' ∈ db'.tokens, t'.sweeps r = true → ∃ t ∈ db.tokens, t'.id = t.id ∧
      t.sweeps r = true := by
    intro t' ht' hs
    obtain ⟨t, ht, hid, -, hu, hk, hrev⟩ := hm.tokensBack t' ht'
    rw [AccessToken.sweeps_iff] at hs
    exact ⟨t, ht, hid, AccessToken.sweeps_iff.2
      ⟨hu.symm.trans hs.1, hk.symm.trans hs.2.1, hrev hs.2.2⟩⟩
  have hcode : ∀ c' ∈ db'.codes, c'.sweeps r = true → ∃ c ∈ db.codes, c'.id = c.id ∧
      c.sweeps r = true := by
    intro c' hc' hs
    obtain ⟨c, hc, hid, hu, hk, hcons⟩ := hm.codesBack c' hc'
    rw [AuthorizationCode.sweeps_iff] at hs
    exact ⟨c, hc, hid, AuthorizationCode.sweeps_iff.2
      ⟨hu.symm.trans hs.1, hk.symm.trans hs.2.1, hcons hs.2.2⟩⟩
  refine ⟨fun i hi => ?_, fun ids hids t ht hs => ?_, fun ids hids t ht hs => ?_,
    fun ids hids c hc hs => ?_, fun ids hids c hc hs => ?_, h.tokensFound, h.codesFound⟩
  · obtain ⟨c, hc, hid, hu, hk⟩ := h.consent i hi
    obtain ⟨c', hc', hid', hu', hk'⟩ := hm.rows c hc
    exact ⟨c', hc', hid'.trans hid, hu'.trans hu, hk'.trans hk⟩
  · obtain ⟨t₀, ht₀, hid, hs₀⟩ := htok t ht hs
    exact hid ▸ h.foundTokens ids hids t₀ ht₀ hs₀
  · obtain ⟨t₀, ht₀, hid, hs₀⟩ := htok t ht hs
    exact hid ▸ h.tokens ids hids t₀ ht₀ hs₀
  · obtain ⟨c₀, hc₀, hid, hs₀⟩ := hcode c hc hs
    exact hid ▸ h.foundCodes ids hids c₀ hc₀ hs₀
  · obtain ⟨c₀, hc₀, hid, hs₀⟩ := hcode c hc hs
    exact hid ▸ h.codes ids hids c₀ hc₀ hs₀

theorem isSome_of_imp {α : Type} {o o' : Option α} (h : o' = none → o = none)
    (hs : o.isSome = true) : o'.isSome = true := by
  cases o' with
  | none => simp [h rfl] at hs
  | some a => rfl

/-- What an aged row still says. -/
theorem Aged.row {c : AuthorizationCode} {codes : List AuthorizationCode} (h : Aged c codes) :
    ∃ c' ∈ codes, c'.id = c.id ∧ c'.userId = c.userId ∧ c'.clientId = c.clientId ∧
      (c.consumedAt.isSome = true → c'.consumedAt.isSome = true) := by
  rcases h with h | ⟨n, hn⟩
  · exact ⟨c, h, rfl, rfl, rfl, fun hs => hs⟩
  · exact ⟨_, hn, rfl, rfl, rfl, fun _ => rfl⟩

theorem RevokeInv.move {db' : Db} (h : RevokeInv v) (hm : RowsMove v.1 db')
    (hrows : ConsentRows db') (hrev : ∀ r ∈ db'.revoking, Sweeping db' r ∧ r.id ∈ db'.xids) :
    RevokeInv (db', v.2) := by
  refine ⟨hrows, ?_, ?_, fun t ht i hi => ?_, fun i hi => ?_, fun t ht i hi hc => ?_,
    fun t ht => ?_, h.late, h.bare, fun r hr => (hrev r hr).1, fun r hr => (hrev r hr).2⟩
  · rw [hm.codeIds]
    exact h.codeIds
  · rw [hm.tokenIds]
    exact h.tokenIds
  · obtain ⟨t₀, ht₀, -, hcode, hu, hk, -⟩ := hm.tokensBack t ht
    rw [hcode] at hi
    obtain ⟨c, hc, hid, hcu, hck, hcs⟩ := h.owner t₀ ht₀ i hi
    obtain ⟨c', hc', hid', hu', hk', hs'⟩ := (hm.codes c hc).row
    exact ⟨c', hc', hid'.trans hid, hu'.trans (hcu.trans hu.symm), hk'.trans (hck.trans hk.symm),
      hs' hcs⟩
  · obtain ⟨c, hc, hid, hcs⟩ := h.condemned i hi
    obtain ⟨c', hc', hid', -, -, hs'⟩ := (hm.codes c hc).row
    exact ⟨c', hc', hid'.trans hid, hs' hcs⟩
  · obtain ⟨t₀, ht₀, -, hcode, -, -, hrevoked⟩ := hm.tokensBack t ht
    rw [hcode] at hi
    exact isSome_of_imp hrevoked (h.revoked t₀ ht₀ i hi hc)
  · obtain ⟨t₀, ht₀, hid, -⟩ := hm.tokensBack t ht
    show t.id ∈ v.2.covered
    rw [hid]
    exact h.covered t₀ ht₀

theorem RowsMove.of_consents {db db' : Db} (hc : db'.codes = db.codes) (ht : db'.tokens = db.tokens)
    (hr : ∀ c ∈ db.consents, ∃ c' ∈ db'.consents,
      c'.id = c.id ∧ c'.userId = c.userId ∧ c'.clientId = c.clientId) : RowsMove db db' where
  codeIds := by rw [hc]
  codes c h := .inl (hc ▸ h)
  codesBack c h := ⟨c, hc ▸ h, rfl, rfl, rfl, fun hn => hn⟩
  tokenIds := by rw [ht]
  tokens t h := ⟨t, ht ▸ h, rfl, rfl⟩
  tokensBack t h := ⟨t, ht ▸ h, rfl, rfl, rfl, rfl, fun hn => hn⟩
  rows := hr

theorem RowsMove.of_eq {db db' : Db} (hc : db'.codes = db.codes) (ht : db'.tokens = db.tokens)
    (hs : db'.consents = db.consents) : RowsMove db db' :=
  .of_consents hc ht fun c h => ⟨c, hs ▸ h, rfl, rfl, rfl⟩

theorem RevokeRely.of_move {db' : Db} {g' : RevokeLog} (hm : RowsMove v.1 db')
    (hcons : ∀ u k s, v.1.consented u k s = true → db'.consented u k s = true ∨
      ∀ c ∈ v.1.codes, c.userId = u → c.clientId = k → Gone c db'.codes)
    (hx : v.1.xids ⊆ db'.xids)
    (hst : ∀ r' ∈ db'.revoking, r'.id ∈ v.1.xids → ∃ r ∈ v.1.revoking, r.id = r'.id ∧ r.Progress r')
    (hg : v.2.covered ⊆ g'.covered) : RevokeRely v (db', g') :=
  ⟨hm.codes, hm.tokens, hm.rows, hcons, hx, hst, hg⟩

/-- The codes, tokens and consents stay as they are, and open transactions are only dropped. -/
theorem RevokeInv.dropped {db' : Db} (h : RevokeInv v) (hc : db'.codes = v.1.codes)
    (ht : db'.tokens = v.1.tokens) (hs : db'.consents = v.1.consents)
    (hr : db'.revoking ⊆ v.1.revoking) (hx : db'.xids = v.1.xids) :
    RevokeRely v (db', v.2) ∧ RevokeInv (db', v.2) := by
  have hm : RowsMove v.1 db' := .of_eq hc ht hs
  refine ⟨.of_move hm (fun u k s hcs => .inl ?_) ?_ (fun r hr' _ => ⟨r, hr hr', rfl, .refl r⟩)
    (List.Subset.refl _), h.move hm ⟨?_, ?_⟩ fun r hr' => ⟨(h.sweeping r (hr hr')).move hm, ?_⟩⟩
  · rw [consented_congr hs]
    exact hcs
  · rw [hx]
    exact List.Subset.refl _
  · rw [hs]
    exact h.rows.ids
  · rw [hs]
    exact h.rows.pairs
  · rw [hx]
    exact h.xids r (hr hr')

/-! ## Statements -/

theorem RevokeInv.eq_of_codeId (h : RevokeInv v) {c c' : AuthorizationCode} (hc : c ∈ v.1.codes)
    (hc' : c' ∈ v.1.codes) (hid : c.id = c'.id) : c = c' :=
  List.inj_on_of_nodup_map h.codeIds hc hc' hid

theorem rowsMove_revokeTokensOf (db : Db) (id : Nat) : RowsMove db (db.revokeTokensOf id) := by
  have hf : ∀ t : AccessToken, (if t.liveOf id then t.revoked db.now else t).id = t.id ∧
      (if t.liveOf id then t.revoked db.now else t).authorizationCodeId = t.authorizationCodeId ∧
      (if t.liveOf id then t.revoked db.now else t).userId = t.userId ∧
      (if t.liveOf id then t.revoked db.now else t).clientId = t.clientId ∧
      ((if t.liveOf id then t.revoked db.now else t).revokedAt = none → t.revokedAt = none) := by
    intro t
    split_ifs
    · exact ⟨rfl, rfl, rfl, rfl, fun h => by cases h⟩
    · exact ⟨rfl, rfl, rfl, rfl, fun h => h⟩
  refine ⟨rfl, fun c hc => .inl hc, fun c hc => ⟨c, hc, rfl, rfl, rfl, fun h => h⟩, ?_,
    fun t ht => ⟨_, List.mem_map_of_mem ht, (hf t).1, (hf t).2.1⟩, fun t ht => ?_,
    fun c hc => ⟨c, hc, rfl, rfl, rfl⟩⟩
  · show (db.tokens.map _).map _ = _
    rw [List.map_map]
    exact List.map_congr_left fun t _ => (hf t).1
  · obtain ⟨t₀, ht₀, rfl⟩ := List.mem_map.1 ht
    exact ⟨t₀, ht₀, hf t₀⟩

theorem RevokeInv.revokeTokensOf (h : RevokeInv v) (id : Nat) :
    RevokeRely v (v.1.revokeTokensOf id, v.2) ∧ RevokeInv (v.1.revokeTokensOf id, v.2) := by
  have hm := rowsMove_revokeTokensOf v.1 id
  refine ⟨.of_move hm (fun u k s hcs => .inl hcs) (List.Subset.refl _)
    (fun r hr _ => ⟨r, hr, rfl, .refl r⟩) (List.Subset.refl _), h.move hm ⟨h.rows.ids, h.rows.pairs⟩
    fun r hr => ⟨(h.sweeping r hr).move hm, h.xids r hr⟩⟩

/-- A code that is inserted before the codes of its user and client are swept. -/
theorem RevokeInv.insertCode (h : RevokeInv v) {c : AuthorizationCode} {u k : Nat}
    (hnew : c.New u k v.1)
    (hcond : ∀ r ∈ v.1.revoking, r.userId = u → r.clientId = k → r.foundCodes = none) :
    RevokeRely v ({ v.1 with codes := v.1.codes ++ [c] }, v.2) ∧
      RevokeInv ({ v.1 with codes := v.1.codes ++ [c] }, v.2) := by
  have hsub : ∀ x ∈ v.1.codes, x ∈ v.1.codes ++ [c] := fun x hx => List.mem_append_left _ hx
  refine ⟨⟨fun x hx => .inl (hsub x hx), fun t ht => ⟨t, ht, rfl, rfl⟩,
    fun x hx => ⟨x, hx, rfl, rfl, rfl⟩, fun u k s hcs => .inl hcs, List.Subset.refl _,
    fun r hr _ => ⟨r, hr, rfl, .refl r⟩, List.Subset.refl _⟩, ⟨h.rows.ids, h.rows.pairs⟩, ?_,
    h.tokenIds, fun t ht i hi => ?_, fun i hi => ?_, h.revoked, h.covered, h.late, h.bare,
    fun r hr => ?_, h.xids⟩
  · show ((v.1.codes ++ [c]).map _).Nodup
    rw [List.map_append]
    refine List.nodup_append.2 ⟨h.codeIds, List.nodup_singleton _, fun i hi j hj heq => ?_⟩
    obtain ⟨x, hx, rfl⟩ := List.mem_map.1 hi
    rw [List.mem_singleton.1 hj] at heq
    have hfresh := List.any_eq_false.1 hnew.fresh x hx
    simp [heq] at hfresh
  · obtain ⟨x, hx, hrest⟩ := h.owner t ht i hi
    exact ⟨x, hsub x hx, hrest⟩
  · obtain ⟨x, hx, hrest⟩ := h.condemned i hi
    exact ⟨x, hsub x hx, hrest⟩
  · have hs := h.sweeping r hr
    have hnone : c.sweeps r = true → r.foundCodes = none := by
      intro hsw
      rw [AuthorizationCode.sweeps_iff, hnew.userId, hnew.clientId] at hsw
      exact hcond r hr hsw.1.symm hsw.2.1.symm
    refine ⟨hs.consent, hs.foundTokens, hs.tokens, fun ids hids x hx hsw => ?_,
      fun ids hids x hx hsw => ?_, hs.tokensFound, hs.codesFound⟩
    · rcases List.mem_append.1 hx with hx | hx
      · exact hs.foundCodes ids hids x hx hsw
      · rw [List.mem_singleton.1 hx] at hsw
        rw [hnone hsw] at hids
        cases hids
    · rcases List.mem_append.1 hx with hx | hx
      · exact hs.codes ids hids x hx hsw
      · rw [List.mem_singleton.1 hx] at hsw
        have hfound := hs.codesFound (Option.isSome_of_mem hids)
        rw [hnone hsw] at hfound
        cases hfound

/-- A statement that neither grants or revokes nor uses a grant. -/
theorem RevokeInv.plain {p : Provider} {l : Stmt} {db' : Db} {j : RevokeJob} (h : RevokeInv v)
    (hs : PlainStep p l v.1 db') (hcond : Undisturbed j l v) :
    RevokeRely v (db', v.2) ∧ RevokeInv (db', v.2) := by
  obtain ⟨hplain, hs | hs⟩ := hs
  · exact h.dropped hs.codes hs.tokens hs.consents (hs.revoking ▸ List.Subset.refl _) hs.xids
  · split at hs
    · cases hplain
    · rw [hs]
      exact h.revokeTokensOf _
    · obtain ⟨c, hnew, rfl⟩ := hs
      exact h.insertCode hnew hcond
    · exact hs.elim

/-- The exchange has found the code, and then an active consent that covers it. -/
structure Consenting (code : AuthorizationCode) (v : Db × RevokeLog) : Prop where
  aged : Aged code v.1.codes
  covered : Gone code v.1.codes ∨ v.1.consented code.userId code.clientId code.scopes = true

theorem Consenting.mono {code : AuthorizationCode} (h : Consenting code v) (hv : RevokeRely v v') :
    Consenting code v' := by
  refine ⟨h.aged.trans hv.codes, ?_⟩
  rcases h.covered with hgone | hcons
  · exact .inl (hgone.mono hv.codes)
  · rcases hv.consented _ _ _ hcons with hcons' | hgone
    · exact .inr hcons'
    · rcases h.aged with hmem | ⟨n, hn⟩
      · exact .inl (hgone code hmem rfl rfl)
      · exact .inl (Gone.mono ⟨_, hn, rfl, rfl⟩ hv.codes)

/-- A code that can be consumed is the row that was found, and the consent still covers it. -/
theorem RevokeInv.consumable (h : RevokeInv v) {code : AuthorizationCode} (hc : Consenting code v)
    (ha : v.1.codes.any (·.consumable code.id v.1.now) = true) :
    ∃ c ∈ v.1.codes, c.id = code.id ∧ c.userId = code.userId ∧ c.clientId = code.clientId ∧
      c.consumable code.id v.1.now = true ∧
      v.1.consented code.userId code.clientId code.scopes = true := by
  obtain ⟨c, hmem, hcons⟩ := List.any_eq_true.1 ha
  have hcons' := hcons
  simp only [AuthorizationCode.consumable, decide_eq_true_eq] at hcons'
  obtain ⟨x, hx, hid, hu, hk, -⟩ := hc.aged.row
  rw [← h.eq_of_codeId hmem hx (hcons'.1.trans hid.symm)] at hu hk
  refine ⟨c, hmem, hcons'.1, hu, hk, hcons, ?_⟩
  rcases hc.covered with ⟨y, hy, hyid, hys⟩ | hcov
  · rw [← h.eq_of_codeId hmem hy (hcons'.1.trans hyid.symm), hcons'.2.1] at hys
    cases hys
  · exact hcov

/-- The code is marked and the consent touched, before the token is inserted. -/
def Db.markConsumed (db : Db) (code : AuthorizationCode) : Db :=
  { db with
    codes := db.codes.map fun c => if c.consumable code.id db.now then c.consumed db.now else c
    consents := db.consents.map fun c =>
      if c.userId = code.userId ∧ c.clientId = code.clientId then c.touched db.now else c }

theorem rowsMove_markConsumed (db : Db) (code : AuthorizationCode) :
    RowsMove db (db.markConsumed code) := by
  refine ⟨ids_consume db code.id, fun x hx => ?_, fun x' hx' => ?_, rfl,
    fun t ht => ⟨t, ht, rfl, rfl⟩, fun t ht => ⟨t, ht, rfl, rfl, rfl, rfl, fun h => h⟩,
    fun x hx => ⟨_, List.mem_map_of_mem hx, ?_⟩⟩
  · by_cases hxc : x.consumable code.id db.now = true
    · exact .inr ⟨db.now, List.mem_map.2 ⟨x, hx, if_pos hxc⟩⟩
    · exact .inl (List.mem_map.2 ⟨x, hx, if_neg hxc⟩)
  · obtain ⟨x, hx, rfl⟩ := List.mem_map.1 hx'
    refine ⟨x, hx, ?_⟩
    split_ifs
    · exact ⟨rfl, rfl, rfl, fun hn => by cases hn⟩
    · exact ⟨rfl, rfl, rfl, fun hn => hn⟩
  · split_ifs <;> exact ⟨rfl, rfl, rfl⟩

theorem RevokeInv.markConsumed (h : RevokeInv v) (code : AuthorizationCode) :
    RevokeRely v (v.1.markConsumed code, v.2) ∧ RevokeInv (v.1.markConsumed code, v.2) := by
  have hm := rowsMove_markConsumed v.1 code
  have hrows : ConsentRows (v.1.markConsumed code) := by
    have := h.rows.map (f := fun c => if c.userId = code.userId ∧ c.clientId = code.clientId then
      c.touched v.1.now else c) fun c => by split_ifs <;> exact ⟨rfl, rfl, rfl⟩
    exact ⟨this.ids, this.pairs⟩
  refine ⟨.of_move hm (fun u k s hcs => .inl ?_) (List.Subset.refl _)
    (fun r hr _ => ⟨r, hr, rfl, .refl r⟩) (List.Subset.refl _), h.move hm hrows
    fun r hr => ⟨(h.sweeping r hr).move hm, h.xids r hr⟩⟩
  rw [← consented_map (f := fun c => if c.userId = code.userId ∧ c.clientId = code.clientId then
    c.touched v.1.now else c) u k s fun c => by split_ifs <;> exact ⟨rfl, rfl⟩] at hcs
  exact hcs

/-- A token that is inserted before the tokens of its user and client are swept, for a consumed
code that no revocation has condemned. -/
theorem RevokeInv.insertToken (h : RevokeInv v) {t : AccessToken}
    (hfresh : ∀ x ∈ v.1.tokens, x.id ≠ t.id)
    (howner : ∀ i ∈ t.authorizationCodeId, i ∉ v.2.condemned ∧ ∃ c ∈ v.1.codes, c.id = i ∧
      c.userId = t.userId ∧ c.clientId = t.clientId ∧ c.consumedAt.isSome = true)
    (hcond : ∀ r ∈ v.1.revoking, r.userId = t.userId → r.clientId = t.clientId →
      r.foundTokens = none) :
    RevokeRely v ({ v.1 with tokens := v.1.tokens ++ [t] },
        { v.2 with covered := v.2.covered ++ [t.id] }) ∧
      RevokeInv ({ v.1 with tokens := v.1.tokens ++ [t] },
        { v.2 with covered := v.2.covered ++ [t.id] }) := by
  have hsub : v.2.covered ⊆ v.2.covered ++ [t.id] := List.subset_append_left _ _
  refine ⟨⟨fun c hc => .inl hc, fun x hx => ⟨x, List.mem_append_left _ hx, rfl, rfl⟩,
    fun c hc => ⟨c, hc, rfl, rfl, rfl⟩, fun u k s hcs => .inl hcs, List.Subset.refl _,
    fun r hr _ => ⟨r, hr, rfl, .refl r⟩, hsub⟩, ⟨h.rows.ids, h.rows.pairs⟩, h.codeIds, ?_,
    fun x hx i hi => ?_, h.condemned, fun x hx i hi hcd => ?_, fun x hx => ?_, h.late, h.bare,
    fun r hr => ?_, h.xids⟩
  · show ((v.1.tokens ++ [t]).map _).Nodup
    rw [List.map_append]
    refine List.nodup_append.2 ⟨h.tokenIds, List.nodup_singleton _, fun i hi j hj => ?_⟩
    obtain ⟨x, hx, rfl⟩ := List.mem_map.1 hi
    rw [List.mem_singleton.1 hj]
    exact hfresh x hx
  · rcases List.mem_append.1 hx with hx | hx
    · exact h.owner x hx i hi
    · rw [List.mem_singleton.1 hx] at hi ⊢
      exact (howner i hi).2
  · rcases List.mem_append.1 hx with hx | hx
    · exact h.revoked x hx i hi hcd
    · rw [List.mem_singleton.1 hx] at hi
      exact absurd hcd (howner i hi).1
  · rcases List.mem_append.1 hx with hx | hx
    · exact hsub (h.covered x hx)
    · rw [List.mem_singleton.1 hx]
      exact List.mem_append_right _ (List.mem_singleton_self _)
  · have hs := h.sweeping r hr
    have hnone : t.sweeps r = true → r.foundTokens = none := by
      intro hsw
      rw [AccessToken.sweeps_iff] at hsw
      exact hcond r hr hsw.1.symm hsw.2.1.symm
    refine ⟨hs.consent, fun ids hids x hx hsw => ?_, fun ids hids x hx hsw => ?_, hs.foundCodes,
      hs.codes, hs.tokensFound, hs.codesFound⟩
    · rcases List.mem_append.1 hx with hx | hx
      · exact hs.foundTokens ids hids x hx hsw
      · rw [List.mem_singleton.1 hx] at hsw
        rw [hnone hsw] at hids
        cases hids
    · rcases List.mem_append.1 hx with hx | hx
      · exact hs.tokens ids hids x hx hsw
      · rw [List.mem_singleton.1 hx] at hsw
        have hfound := hs.tokensFound (Option.isSome_of_mem hids)
        rw [hnone hsw] at hfound
        cases hfound

/-- The consumption of a code before the tokens of its user and client are swept. -/
theorem RevokeInv.consume {p : Provider} (h : RevokeInv v) {code : AuthorizationCode} {draw : Draw}
    (hc : Consenting code v) (ha : v.1.codes.any (·.consumable code.id v.1.now) = true)
    (hclash : (code.token p draw v.1.now).clashes v.1 = false)
    (hcond : ∀ r ∈ v.1.revoking, r.userId = code.userId → r.clientId = code.clientId →
      r.foundTokens = none) :
    RevokeRely v (v.1.consume p code draw, { v.2 with covered := v.2.covered ++ [draw.id] }) ∧
      RevokeInv (v.1.consume p code draw, { v.2 with covered := v.2.covered ++ [draw.id] }) := by
  obtain ⟨c, hmem, hid, hu, hk, hcons, -⟩ := h.consumable hc ha
  have hmark := h.markConsumed code
  have hnone : c.consumedAt = none := by
    simp only [AuthorizationCode.consumable, decide_eq_true_eq] at hcons
    exact hcons.2.1
  have hinsert := hmark.2.insertToken (t := code.token p draw v.1.now) (fun x hx heq => ?_)
    (fun i hi => ?_) hcond
  · exact ⟨hmark.1.trans hinsert.1, hinsert.2⟩
  · have hfresh := List.any_eq_false.1 hclash x hx
    simp [heq] at hfresh
  · cases hi
    refine ⟨fun hcd => ?_, c.consumed v.1.now, List.mem_map.2 ⟨c, hmem, if_pos hcons⟩, hid, hu, hk,
      rfl⟩
    -- a condemned code is consumed, and this one was not
    obtain ⟨x, hx, hxid, hxs⟩ := h.condemned code.id hcd
    rw [h.eq_of_codeId hx hmem (hxid.trans hid.symm), hnone] at hxs
    cases hxs

/-- A grant that keeps the scopes that are stored. -/
theorem RevokeInv.grant (h : RevokeInv v) {u k id : Nat} {existing : Option Consent}
    {scopes : List String} {db : Db}
    (hread : ∀ r ∈ existing, ∃ c ∈ v.1.consents, c.id = r.id ∧ c.userId = u ∧ c.clientId = k)
    (hkeep : ∀ row ∈ v.1.activeConsent u k,
      covers (union (seenScopes existing) scopes) row.scopes = true)
    (hg : v.1.grant u k existing scopes id = .ok db) :
    RevokeRely v (db, v.2) ∧ RevokeInv (db, v.2) := by
  rcases grant_cases h.rows hread hg with ⟨-, rfl⟩ | ⟨hpair, hid, rfl⟩
  · set m := union (seenScopes existing) scopes
    have hm : RowsMove v.1 (v.1.writeConsent u k existing m) := .of_consents rfl rfl fun c hc =>
      ⟨_, List.mem_map_of_mem hc, by split_ifs <;> simp⟩
    have hrows : ConsentRows (v.1.writeConsent u k existing m) := h.rows.writeConsent
    refine ⟨.of_move hm (fun u' k' s hcs => .inl ?_) (List.Subset.refl _)
      (fun r hr _ => ⟨r, hr, rfl, .refl r⟩) (List.Subset.refl _), h.move hm hrows
      fun r hr => ⟨(h.sweeping r hr).move hm, h.xids r hr⟩⟩
    obtain ⟨c, hc, hact, hcov⟩ := (consented_iff h.rows).1 hcs
    refine (consented_iff hrows).2 ⟨_, List.mem_map_of_mem hc, ?_⟩
    split_ifs with hp
    · have hact' := Consent.activeFor_iff.1 hact
      rw [Consent.activeFor_iff, Consent.written_userId, Consent.written_clientId,
        Consent.written_revokedAt, Consent.written_scopes, hact'.2.2, ite_self]
      refine ⟨⟨hact'.1, hact'.2.1, rfl⟩, covers_trans (hkeep c ?_) hcov⟩
      exact activeConsent_eq h.rows hc (Consent.activeFor_iff.2 ⟨hp.1, hp.2, hact'.2.2⟩)
    · exact ⟨hact, hcov⟩
  · set m := union (seenScopes existing) scopes
    have hm : RowsMove v.1 (v.1.insertConsent u k id m) := .of_consents rfl rfl fun c hc =>
      ⟨c, List.mem_append_left _ hc, rfl, rfl, rfl⟩
    have hrows : ConsentRows (v.1.insertConsent u k id m) := h.rows.insertConsent hpair hid
    refine ⟨.of_move hm (fun u' k' s hcs => .inl ?_) (List.Subset.refl _)
      (fun r hr _ => ⟨r, hr, rfl, .refl r⟩) (List.Subset.refl _), h.move hm hrows
      fun r hr => ⟨(h.sweeping r hr).move hm, h.xids r hr⟩⟩
    obtain ⟨c, hc, hrest⟩ := (consented_iff h.rows).1 hcs
    exact (consented_iff hrows).2 ⟨c, List.mem_append_left _ hc, hrest⟩

/-- A statement of an open transaction before its commit. -/
theorem RevokeInv.editRevocation (h : RevokeInv v) {id : Nat} {f : Revocation → Revocation}
    (hid : ∀ r, (f r).id = r.id)
    (hf : ∀ r, Sweeping v.1 r → r.Progress (f r) ∧ Sweeping v.1 (f r)) :
    RevokeRely v (v.1.editRevocation id f, v.2) ∧ RevokeInv (v.1.editRevocation id f, v.2) := by
  have hm : RowsMove v.1 (v.1.editRevocation id f) := .of_eq rfl rfl rfl
  have hback : ∀ r' ∈ (v.1.editRevocation id f).revoking, ∃ r ∈ v.1.revoking, r.id = r'.id ∧
      r.Progress r' ∧ Sweeping v.1 r' := by
    intro r' hr'
    obtain ⟨r, hr, rfl⟩ := List.mem_map.1 hr'
    have hs := h.sweeping r hr
    refine ⟨r, hr, ?_⟩
    split_ifs
    · exact ⟨(hid r).symm, hf r hs⟩
    · exact ⟨rfl, .refl r, hs⟩
  refine ⟨.of_move hm (fun u k s hcs => .inl hcs) (List.Subset.refl _) (fun r' hr' _ => ?_)
    (List.Subset.refl _), h.move hm ⟨h.rows.ids, h.rows.pairs⟩ fun r' hr' => ?_⟩
  · obtain ⟨r, hr, hid, hp, -⟩ := hback r' hr'
    exact ⟨r, hr, hid, hp⟩
  · obtain ⟨r, hr, hid, -, hs⟩ := hback r' hr'
    exact ⟨hs.move hm, hid ▸ h.xids r hr⟩

theorem Sweeping.findTokens {db : Db} {r : Revocation} (h : Sweeping db r) :
    Sweeping db (r.findTokens db) := by
  refine ⟨h.consent, fun ids hids t ht hs => ?_, h.tokens, h.foundCodes, h.codes, fun _ => rfl,
    h.codesFound⟩
  cases hids
  exact List.mem_map_of_mem (List.mem_filter.2 ⟨ht, hs⟩)

theorem Sweeping.findCodes {db : Db} {r : Revocation} (h : Sweeping db r) :
    Sweeping db (r.findCodes db) := by
  refine ⟨h.consent, h.foundTokens, h.tokens, fun ids hids c hc hs => ?_, h.codes, h.tokensFound,
    fun _ => rfl⟩
  cases hids
  exact List.mem_map_of_mem (List.mem_filter.2 ⟨hc, hs⟩)

theorem Sweeping.lockTokens {db : Db} {r : Revocation} (h : Sweeping db r) :
    Sweeping db (r.lockTokens db) := by
  refine ⟨h.consent, h.foundTokens, fun ids hids t ht hs => ?_, h.foundCodes, h.codes,
    fun hs => ?_, h.codesFound⟩
  · obtain ⟨found, hfound, rfl⟩ := Option.map_eq_some_iff.1 hids
    refine List.mem_map_of_mem (List.mem_filter.2 ⟨ht, ?_⟩)
    have hs' : t.sweeps r = true := hs
    simp [hs', h.foundTokens found hfound t ht hs']
  · simpa [Revocation.lockTokens] using hs

theorem Sweeping.lockCodes {db : Db} {r : Revocation} (h : Sweeping db r) :
    Sweeping db (r.lockCodes db) := by
  refine ⟨h.consent, h.foundTokens, h.tokens, h.foundCodes, fun ids hids c hc hs => ?_,
    h.tokensFound, fun hs => ?_⟩
  · obtain ⟨found, hfound, rfl⟩ := Option.map_eq_some_iff.1 hids
    refine List.mem_map_of_mem (List.mem_filter.2 ⟨hc, ?_⟩)
    have hs' : c.sweeps r = true := hs
    simp [hs', h.foundCodes found hfound c hc hs']
  · simpa [Revocation.lockCodes] using hs

/-- The transaction opens. -/
theorem RevokeInv.revokeConsentRow (h : RevokeInv v) {id u k : Nat} {db : Db} {b : Bool}
    (hb : v.1.revokeConsentRow id u k = .ok (db, b)) :
    RevokeRely v (db, v.2) ∧ RevokeInv (db, v.2) ∧ id ∈ db.xids := by
  unfold Db.revokeConsentRow at hb
  simp only at hb
  split_ifs at hb with hlocked hused
  cases hb
  refine ⟨.of_move (.of_eq rfl rfl rfl) (fun u k s hcs => .inl hcs) (List.subset_cons_self _ _)
    (fun r' hr' hid => ?_) (List.Subset.refl _), h.move (.of_eq rfl rfl rfl)
    ⟨h.rows.ids, h.rows.pairs⟩ fun r' hr' => ?_, List.mem_cons_self⟩
  · rcases List.mem_append.1 hr' with hr' | hr'
    · exact ⟨r', hr', rfl, .refl r'⟩
    · rw [List.mem_singleton.1 hr'] at hid
      exact absurd hid hused
  · rcases List.mem_append.1 hr' with hr' | hr'
    · exact ⟨(h.sweeping r' hr').move (.of_eq rfl rfl rfl), List.mem_cons_of_mem _ (h.xids r' hr')⟩
    · rw [List.mem_singleton.1 hr']
      refine ⟨⟨fun i hi => ?_, fun ids hids => (by cases hids), fun ids hids => (by cases hids),
        fun ids hids => (by cases hids), fun ids hids => (by cases hids), fun hs => (by cases hs),
        fun hs => (by cases hs)⟩, List.mem_cons_self⟩
      obtain ⟨c, hfind, rfl⟩ := Option.map_eq_some_iff.1 hi
      have hact := List.find?_some (p := fun c : Consent => c.activeFor u k) hfind
      rw [Consent.activeFor_iff] at hact
      exact ⟨c, List.mem_of_find?_eq_some hfind, rfl, hact.1, hact.2.1⟩

theorem rowsMove_applyRevocation (db : Db) (r : Revocation) :
    RowsMove db (db.applyRevocation r) := by
  refine ⟨?_, fun c hc => ?_, fun c' hc' => ?_, ?_, fun t ht => ⟨_, List.mem_map_of_mem ht, ?_⟩,
    fun t' ht' => ?_, fun c hc => ⟨_, List.mem_map_of_mem hc, ?_⟩⟩
  · show (db.codes.map _).map _ = _
    rw [List.map_map]
    refine List.map_congr_left fun c _ => ?_
    simp only [Function.comp]
    split_ifs <;> rfl
  · by_cases hr : (r.codes.any (c.id ∈ ·)) = true
    · exact .inr ⟨r.now, List.mem_map.2 ⟨c, hc, if_pos hr⟩⟩
    · exact .inl (List.mem_map.2 ⟨c, hc, if_neg hr⟩)
  · obtain ⟨c, hc, rfl⟩ := List.mem_map.1 hc'
    refine ⟨c, hc, ?_⟩
    split_ifs
    · exact ⟨rfl, rfl, rfl, fun hn => by cases hn⟩
    · exact ⟨rfl, rfl, rfl, fun hn => hn⟩
  · show (db.tokens.map _).map _ = _
    rw [List.map_map]
    refine List.map_congr_left fun t _ => ?_
    simp only [Function.comp]
    split_ifs <;> rfl
  · split_ifs <;> exact ⟨rfl, rfl⟩
  · obtain ⟨t, ht, rfl⟩ := List.mem_map.1 ht'
    refine ⟨t, ht, ?_⟩
    split_ifs
    · exact ⟨rfl, rfl, rfl, rfl, fun hn => by cases hn⟩
    · exact ⟨rfl, rfl, rfl, rfl, fun hn => hn⟩
  · split_ifs <;> exact ⟨rfl, rfl, rfl⟩

/-- After the commit, every code of the user and the client is consumed. -/
theorem Sweeping.gone {db : Db} {r : Revocation} (h : Sweeping db r)
    (hcodes : r.codes.isSome = true) {c : AuthorizationCode} (hc : c ∈ db.codes)
    (hu : c.userId = r.userId) (hk : c.clientId = r.clientId) :
    Gone c (db.applyRevocation r).codes := by
  obtain ⟨ids, hids⟩ := Option.isSome_iff_exists.1 hcodes
  refine ⟨_, List.mem_map_of_mem hc, ?_⟩
  split_ifs with hin
  · exact ⟨rfl, rfl⟩
  · refine ⟨rfl, ?_⟩
    rw [Option.isSome_iff_ne_none]
    intro hnone
    refine hin ?_
    rw [hids]
    simpa using h.codes ids hids c hc (AuthorizationCode.sweeps_iff.2 ⟨hu, hk, hnone⟩)

/-- After the commit, every token of the user and the client is revoked. -/
theorem Sweeping.revoked {db : Db} {r : Revocation} (h : Sweeping db r)
    (htokens : r.tokens.isSome = true) {t : AccessToken} (ht : t ∈ (db.applyRevocation r).tokens)
    (hu : t.userId = r.userId) (hk : t.clientId = r.clientId) : t.revokedAt.isSome = true := by
  obtain ⟨ids, hids⟩ := Option.isSome_iff_exists.1 htokens
  obtain ⟨t₀, ht₀, rfl⟩ := List.mem_map.1 ht
  split_ifs at hu hk ⊢ with hin
  · rfl
  · rw [Option.isSome_iff_ne_none]
    intro hnone
    refine hin ?_
    rw [hids]
    simpa using h.tokens ids hids t₀ ht₀ (AccessToken.sweeps_iff.2 ⟨hu, hk, hnone⟩)

/-- The commit of a revocation that has made both its sweeps. -/
theorem RevokeInv.commit (h : RevokeInv v) {r : Revocation} (hr : r ∈ v.1.revoking)
    (htokens : r.tokens.isSome = true) (hcodes : r.codes.isSome = true) :
    RevokeRely v (v.1.applyRevocation r,
        { v.2 with condemned := v.2.condemned ++ v.1.codesOf r }) ∧
      RevokeInv (v.1.applyRevocation r,
        { v.2 with condemned := v.2.condemned ++ v.1.codesOf r }) := by
  have hs := h.sweeping r hr
  have hm := rowsMove_applyRevocation v.1 r
  have hrows : ConsentRows (v.1.applyRevocation r) := by
    have := h.rows.map (f := fun c => if r.consent = some c.id then
      { c with revokedAt := some r.now } else c) fun c => by split_ifs <;> exact ⟨rfl, rfl, rfl⟩
    exact ⟨this.ids, this.pairs⟩
  have hkept : ∀ r' ∈ (v.1.applyRevocation r).revoking, r' ∈ v.1.revoking :=
    fun r' hr' => List.mem_of_mem_filter hr'
  have hmove : RevokeInv (v.1.applyRevocation r, v.2) := h.move hm hrows fun r' hr' =>
    ⟨(h.sweeping r' (hkept r' hr')).move hm, h.xids r' (hkept r' hr')⟩
  refine ⟨.of_move hm (fun u k s hcs => ?_) (List.Subset.refl _)
    (fun r' hr' _ => ⟨r', hkept r' hr', rfl, .refl r'⟩) (List.Subset.refl _),
    { hmove with condemned := fun i hi => ?_, revoked := fun t ht i hi hcd => ?_ }⟩
  · obtain ⟨c, hc, hact, hcov⟩ := (consented_iff h.rows).1 hcs
    by_cases hrow : r.consent = some c.id
    · right
      obtain ⟨c', hc', hid, hu, hk⟩ := hs.consent c.id hrow
      rw [h.rows.eq_of_id hc' hc hid] at hu hk
      rw [Consent.activeFor_iff] at hact
      intro x hx hxu hxk
      exact hs.gone hcodes hx (hxu.trans (hact.1.symm.trans hu)) (hxk.trans (hact.2.1.symm.trans hk))
    · left
      exact (consented_iff hrows).2 ⟨c, List.mem_map.2 ⟨c, hc, if_neg hrow⟩, hact, hcov⟩
  · rcases List.mem_append.1 hi with hi | hi
    · exact hmove.condemned i hi
    · obtain ⟨c, hc, rfl⟩ := List.mem_map.1 hi
      obtain ⟨hc, hpair⟩ := List.mem_filter.1 hc
      simp only [decide_eq_true_eq] at hpair
      obtain ⟨c', hc', hid, hcs⟩ := hs.gone hcodes hc hpair.1 hpair.2
      exact ⟨c', hc', hid, hcs⟩
  · rcases List.mem_append.1 hcd with hcd | hcd
    · exact hmove.revoked t ht i hi hcd
    · obtain ⟨c, hc, rfl⟩ := List.mem_map.1 hcd
      obtain ⟨hc, hpair⟩ := List.mem_filter.1 hc
      simp only [decide_eq_true_eq] at hpair
      obtain ⟨x, hx, hxid, hxu, hxk, -⟩ := hmove.owner t ht _ hi
      obtain ⟨x₀, hx₀, hid₀, hu₀, hk₀, -⟩ := hm.codesBack x hx
      rw [h.eq_of_codeId hx₀ hc (hid₀.symm.trans hxid)] at hu₀ hk₀
      exact hs.revoked htokens ht (hxu.symm.trans (hu₀.trans hpair.1))
        (hxk.symm.trans (hk₀.trans hpair.2))

end Relations

/-! ## Programs -/

/-- The law of the revocations. -/
def revokeLaw (p : Provider) (k : Signer) : Process.Law (revokeSystem p k) where
  rely := RevokeRely
  guar _ := RevokeRely
  inv := RevokeInv
  cond := Undisturbed
  refl := RevokeRely.refl
  trans := RevokeRely.trans
  guar_refl _ := RevokeRely.refl
  rely_of_guar := id

section Programs

variable {p : Provider} {k : Signer} {j : RevokeJob} {v : Db × RevokeLog} {α : Type}

theorem note_plain {l : Stmt} (hl : l.plain = true) (db : Db) (g : RevokeLog) :
    g.note p l db = g := by
  cases l <;> first | rfl | cases hl

theorem revokeSafe_plain {q : OidcM α} (hq : q.Does (PlainStep p)) :
    (revokeLaw p k).Safe j (fun _ _ => True) q v := by
  refine Process.Law.safe_of_does hq fun l db db' g hi hc hs => ?_
  have hkept := RevokeInv.plain (v := (db, g)) (j := j) hi hs hc
  have hnote : (revokeSystem p k).watch j l db g = g := note_plain hs.1 db g
  rw [hnote]
  exact hkept

theorem revokeSafe_query {l : Stmt} (hl : l.plain = true) {e : OidcError} {f : Db → α}
    {Q : α → Db × RevokeLog → Prop}
    (h : ∀ v', RevokeRely v v' → RevokeInv v' → Q (f v'.1) v') :
    (revokeLaw p k).Safe j Q (Prog.query l e f) v :=
  Process.Law.safe_query (fun db g => note_plain hl db g) fun v' hv hi _ => h v' hv hi

theorem revokeSafe_ofExcept {x : Except OidcError α} {Q : α → Db × RevokeLog → Prop}
    (h : ∀ a, x = .ok a → Q a v) : (revokeLaw p k).Safe j Q (ofExcept x) v := by
  cases x with
  | error e => trivial
  | ok a => exact h a rfl

theorem revokeSafe_consume {code : AuthorizationCode} {draw : Draw} (h : Consenting code v) :
    (revokeLaw p k).Safe j (fun _ _ => True)
      (consumeCodeAndIssueToken p unavailable code draw) v := by
  refine Process.Law.safe_exec_seen fun v' hv hi hcond => ?_
  have hi : RevokeInv v' := hi
  have hc : Consenting code v' := h.mono hv
  simp only [System.after, Prog.after, revokeSystem, RevokeLog.note]
  by_cases hcreates : v'.1.creates p code draw = true
  · simp only [Db.creates, Bool.and_eq_true, Bool.not_eq_true'] at hcreates
    obtain ⟨⟨hwaits, ha⟩, hclash⟩ := hcreates
    obtain ⟨-, -, -, -, -, -, hcov⟩ := hi.consumable hc ha
    have hstep := hi.consume hc ha hclash hcond
    simp only [hwaits, ha, hclash, hcov, Db.creates, Bool.not_false, Bool.and_self, and_self,
      Bool.false_eq_true, ↓reduceIte]
    exact ⟨hstep.1, hstep.2, fun _ _ _ => trivial⟩
  · have hsame : Prog.after (fun db : Db =>
        if db.consumeWaits code then .error unavailable
        else if db.codes.any (·.consumable code.id db.now) then
          if (code.token p draw db.now).clashes db then .error unavailable
          else .ok (db.consume p code draw, some (draw.value, db.now + p.accessTokenTtlSecs))
        else .ok (db, none)) v'.1 = v'.1 := by
      simp only [Db.creates, Bool.and_eq_true, Bool.not_eq_true', not_and] at hcreates
      unfold Prog.after
      split
      · rename_i s' a heq
        simp only at heq
        split_ifs at heq with hwaits ha hclash
        · exact absurd hclash (by simpa using hcreates ⟨by simpa using hwaits, ha⟩)
        · cases heq
          rfl
      · rfl
    simp only [Prog.after] at hsame
    simp only [hcreates, false_and, ↓reduceIte, Bool.false_eq_true]
    rw [hsame]
    exact ⟨RevokeRely.refl v', hi, fun _ _ _ => trivial⟩

theorem revokeSafe_redeemCode {r : TokenRequest} {code : AuthorizationCode} {userId : Nat}
    (h : Consenting code v) :
    (revokeLaw p k).Safe j (fun _ _ => True) (redeemCode p k r code userId) v := by
  refine Process.Law.safe_seq (revokeSafe_consume h) fun issued v₁ _ => ?_
  cases issued with
  | none =>
    exact revokeSafe_plain (Prog.does_bind (Prog.does_attempt (does_revokeTokensOfCode _ _))
      fun _ => trivial)
  | some issued => exact revokeSafe_plain (does_respondToken k r.client code userId issued.1)

theorem revokeSafe_checkCode {r : TokenRequest} {q : TokenParams} {code : AuthorizationCode}
    (howner : code.clientId = r.client.id) (h : Aged code v.1.codes) :
    (revokeLaw p k).Safe j (fun _ _ => True) (checkCode p k r q code) v := by
  refine Process.Law.safe_bind (Process.Law.safe_look (fun db g => rfl) fun v₁ h₁ _ =>
    Process.Law.safe_ite (fun _ => trivial) fun _ => ?_)
  refine Process.Law.safe_bind (revokeSafe_ofExcept fun _ _ => ?_)
  refine Process.Law.safe_bind (revokeSafe_ofExcept fun _ _ => ?_)
  refine Process.Law.safe_bind (revokeSafe_query rfl fun v₂ h₂ _ => ?_)
  cases huser : v₂.1.users.find? (· = code.userId) with
  | none => trivial
  | some userId =>
    have hid : userId = code.userId := by simpa using List.find?_some huser
    refine Process.Law.safe_bind (revokeSafe_query rfl fun v₃ h₃ _ =>
      Process.Law.safe_ite (fun hcov => ?_) fun _ => trivial)
    refine revokeSafe_redeemCode ⟨((h.trans h₁.codes).trans h₂.codes).trans h₃.codes, .inr ?_⟩
    rw [howner, ← hid]
    exact hcov

theorem revokeSafe_exchangeCode (r : TokenRequest) :
    (revokeLaw p k).Safe j (fun _ _ => True) (exchangeCode p k r) v := by
  refine Process.Law.safe_bind (revokeSafe_ofExcept fun q _ => ?_)
  have hfound : (revokeLaw p k).Safe j (fun found v' => ∀ code, found = some code →
      Aged code v'.1.codes) (findCode p unavailable q.code) v := by
    refine Process.Law.safe_ite (fun _ => ?_) fun _ => Process.Law.safe_pure fun _ h => by cases h
    exact revokeSafe_query rfl fun v' _ _ code hfind => .inl (List.mem_of_find?_eq_some hfind)
  refine Process.Law.safe_bind (hfound.imp fun found v₁ h₁ => ?_)
  cases found with
  | none => trivial
  | some code =>
    refine Process.Law.safe_ite (fun _ => trivial) fun howner => ?_
    refine Process.Law.safe_ite (fun _ => ?_) fun _ => ?_
    · exact revokeSafe_plain (Prog.does_bind (does_revokeTokensOfCode _ _) fun _ => trivial)
    · exact revokeSafe_checkCode (by simpa using howner) (h₁ code rfl)

/-- A token that is accepted is one that is there, and it is not revoked. -/
theorem RevokeInv.accept (h : RevokeInv v) {t : AccessToken} (ht : ∃ t' ∈ v.1.tokens,
      t'.id = t.id ∧ t'.authorizationCodeId = t.authorizationCodeId)
    (hcond : ∀ t' ∈ v.1.tokens, t'.id = t.id → t'.revokedAt = none) :
    v.2.note p (.acceptToken t) v.1 = v.2 := by
  obtain ⟨t', ht', hid, hcode⟩ := ht
  have hnone := hcond t' ht' hid
  have hcov : t.id ∈ v.2.covered := hid ▸ h.covered t' ht'
  have hlate : (t.authorizationCodeId.any (· ∈ v.2.condemned)) = false := by
    rw [← hcode]
    cases hi : t'.authorizationCodeId with
    | none => rfl
    | some i =>
      simp only [Option.any_some, decide_eq_false_iff_not]
      intro hcd
      have hrev := h.revoked t' ht' i hi hcd
      rw [hnone] at hrev
      cases hrev
  simp [RevokeLog.note, hcov, hlate]

theorem revokeSafe_findUsableToken (token : String) :
    (revokeLaw p k).Safe j (fun _ _ => True) (findUsableToken p token) v := by
  refine Process.Law.safe_ite (fun _ => ?_) fun _ => trivial
  refine Process.Law.safe_bind (revokeSafe_query rfl fun v₁ _ _ => ?_)
  split
  · rename_i t client hrow
    have hmem : t ∈ v₁.1.tokens := by
      obtain ⟨t₀, hfind, heq⟩ := Option.map_eq_some_iff.1 hrow
      rw [Prod.mk.injEq] at heq
      rw [← heq.1]
      exact List.mem_of_find?_eq_some hfind
    refine Process.Law.safe_ite (fun _ => ?_) fun _ => trivial
    refine Process.Law.safe_bind (revokeSafe_query rfl fun v₂ h₂ _ =>
      Process.Law.safe_ite (fun _ => ?_) fun _ => trivial)
    refine Process.Law.safe_query_seen fun v₃ h₃ hi₃ hcond => ?_
    have hnote := RevokeInv.accept (p := p) hi₃ ((h₂.trans h₃).tokens t hmem) hcond
    have hafter : (revokeSystem p k).after j (.acceptToken t) id v₃ = v₃ := by
      simp only [System.after, revokeSystem, hnote, id]
    rw [hafter]
    exact ⟨RevokeRely.refl v₃, hi₃, trivial⟩
  · trivial

theorem revokeSafe_grantConsent (u c : Nat) (scopes : List String) (id : Nat) :
    (revokeLaw p k).Safe j (fun _ _ => True) (grantConsent u c scopes id) v := by
  refine Process.Law.safe_bind (revokeSafe_query rfl fun v₁ _ _ => ?_)
  have hread : ∀ r ∈ v₁.1.consents.find? (fun x => x.userId = u ∧ x.clientId = c),
      ∃ x ∈ v₁.1.consents, x.id = r.id ∧ x.userId = u ∧ x.clientId = c := by
    intro r hr
    exact ⟨r, List.mem_of_find?_eq_some hr, rfl, by simpa using List.find?_some hr⟩
  generalize v₁.1.consents.find? (fun x => x.userId = u ∧ x.clientId = c) = existing at hread ⊢
  refine Process.Law.safe_exec (fun db g => rfl) fun v₂ h₂ hi₂ hkeep db a hg => ?_
  obtain ⟨db₁, hgrant, hok⟩ := except_bind_ok hg
  cases hok
  have hstep := RevokeInv.grant hi₂ (fun r hr => ?_) hkeep hgrant
  · exact ⟨hstep.1, hstep.2, trivial⟩
  · obtain ⟨x, hx, hid, hu, hk⟩ := hread r hr
    obtain ⟨x', hx', hid', hu', hk'⟩ := h₂.rows x hx
    exact ⟨x', hx', hid'.trans hid, hu'.trans hu, hk'.trans hk⟩

/-- The open transaction, if it is still open, is where `P` says. -/
def Staged (id : Nat) (P : Revocation → Prop) (v : Db × RevokeLog) : Prop :=
  id ∈ v.1.xids ∧ ∀ r ∈ v.1.revoking, r.id = id → P r

theorem Staged.mono {id : Nat} {P : Revocation → Prop} {v' : Db × RevokeLog}
    (hP : ∀ r r', r.Progress r' → P r → P r') (h : Staged id P v) (hv : RevokeRely v v') :
    Staged id P v' := by
  refine ⟨hv.xids h.1, fun r' hr' hid => ?_⟩
  obtain ⟨r, hr, hid', hp⟩ := hv.stages r' hr' (hid ▸ h.1)
  exact hP r r' hp (h.2 r hr (hid'.trans hid))

/-- A statement of an open transaction that takes it from `P` to `P'`. -/
structure Stage (f : Revocation → Db → Revocation) (P P' : Revocation → Prop) : Prop where
  id : ∀ r db, (f r db).id = r.id
  sweeps : ∀ r db, Sweeping db r → r.Progress (f r db) ∧ Sweeping db (f r db)
  next : ∀ r db, P r → P' (f r db)

theorem revokeSafe_inRevocation {l : Stmt} {id : Nat} {f : Revocation → Db → Revocation}
    {waits : Revocation → Db → Bool} {P P' : Revocation → Prop} (hf : Stage f P P')
    (hl : (revokeSystem p k).Unseen j l) (hP : ∀ r r', r.Progress r' → P r → P r')
    (hv : Staged id P v) :
    (revokeLaw p k).Safe j (fun _ v' => Staged id P' v') (inRevocation l id f waits) v := by
  refine Process.Law.safe_exec hl fun v' hv' hi _ db a hok => ?_
  split at hok
  · cases hok
  · split_ifs at hok
    cases hok
    have hstep : RevokeRely v' (v'.1.editRevocation id (f · v'.1), v'.2) ∧ _ :=
      RevokeInv.editRevocation hi (fun r => hf.id r v'.1) fun r => hf.sweeps r v'.1
    have hstage := hv.mono hP hv'
    refine ⟨hstep.1, hstep.2, hstage.1, fun r' hr' hid => ?_⟩
    obtain ⟨r, hr, rfl⟩ := List.mem_map.1 hr'
    split_ifs at hid ⊢ with heq
    · exact hf.next r v'.1 (hstage.2 r hr heq)
    · exact absurd hid heq

theorem stage_findTokens :
    Stage Revocation.findTokens (fun _ => True) fun r => r.foundTokens.isSome = true where
  id _ _ := rfl
  sweeps _ _ h := ⟨⟨fun _ => rfl, fun hs => hs, fun hs => hs, fun hs => hs⟩, h.findTokens⟩
  next _ _ _ := rfl

theorem stage_lockTokens : Stage Revocation.lockTokens (fun r => r.foundTokens.isSome = true)
    fun r => r.tokens.isSome = true where
  id _ _ := rfl
  sweeps r _ h := by
    refine ⟨⟨fun hs => hs, fun hs => ?_, fun hs => hs, fun hs => hs⟩, h.lockTokens⟩
    simpa [Revocation.lockTokens] using h.tokensFound hs
  next r _ hs := by simpa [Revocation.lockTokens] using hs

theorem stage_findCodes : Stage Revocation.findCodes (fun r => r.tokens.isSome = true)
    fun r => r.tokens.isSome = true ∧ r.foundCodes.isSome = true where
  id _ _ := rfl
  sweeps _ _ h := ⟨⟨fun hs => hs, fun hs => hs, fun _ => rfl, fun hs => hs⟩, h.findCodes⟩
  next _ _ hs := ⟨hs, rfl⟩

theorem stage_lockCodes :
    Stage Revocation.lockCodes (fun r => r.tokens.isSome = true ∧ r.foundCodes.isSome = true)
      fun r => r.tokens.isSome = true ∧ r.codes.isSome = true where
  id _ _ := rfl
  sweeps r _ h := by
    refine ⟨⟨fun hs => hs, fun hs => hs, fun hs => hs, fun hs => ?_⟩, h.lockCodes⟩
    simpa [Revocation.lockCodes] using h.codesFound hs
  next r _ hs := ⟨hs.1, by simpa [Revocation.lockCodes] using hs.2⟩

theorem revokeSafe_revokeUserClientGrants {id : Nat} (h : id ∈ v.1.xids) :
    (revokeLaw p k).Safe j (fun _ v' => Staged id (fun r => r.tokens.isSome = true ∧
      r.codes.isSome = true) v') (revokeUserClientGrants id) v := by
  have hstart : Staged id (fun _ => True) v := ⟨h, fun _ _ _ => trivial⟩
  refine Process.Law.safe_bind ((revokeSafe_inRevocation stage_findTokens (fun _ _ => rfl)
    (fun _ _ _ _ => trivial) hstart).imp fun _ v₁ h₁ => ?_)
  refine Process.Law.safe_bind ((revokeSafe_inRevocation stage_lockTokens (fun _ _ => rfl)
    (fun _ _ hp => hp.foundTokens) h₁).imp fun _ v₂ h₂ => ?_)
  refine Process.Law.safe_bind ((revokeSafe_inRevocation stage_findCodes (fun _ _ => rfl)
    (fun _ _ hp => hp.tokens) h₂).imp fun _ v₃ h₃ => ?_)
  exact revokeSafe_inRevocation stage_lockCodes (fun _ _ => rfl)
    (fun _ _ hp hr => ⟨hp.tokens hr.1, hp.foundCodes hr.2⟩) h₃

theorem revokeSafe_commitRevocation {id : Nat}
    (h : Staged id (fun r => r.tokens.isSome = true ∧ r.codes.isSome = true) v) :
    (revokeLaw p k).Safe j (fun _ _ => True) (commitRevocation id) v := by
  refine Process.Law.safe_exec_seen fun v' hv hi _ => ?_
  have hi : RevokeInv v' := hi
  have hstage := h.mono (fun _ _ hp hr => ⟨hp.tokens hr.1, hp.codes hr.2⟩) hv
  simp only [System.after, Prog.after, revokeSystem, RevokeLog.note]
  cases hfind : v'.1.revoking.find? (·.id = id) with
  | none => exact ⟨RevokeRely.refl v', hi, fun _ _ _ => trivial⟩
  | some r =>
    have hmem := List.mem_of_find?_eq_some hfind
    have hid : r.id = id := by simpa using List.find?_some hfind
    obtain ⟨htokens, hcodes⟩ := hstage.2 r hmem hid
    have hstep := hi.commit hmem htokens hcodes
    exact ⟨hstep.1, hstep.2, fun _ _ _ => trivial⟩

theorem revokeSafe_revokeConsent (id u c : Nat) :
    (revokeLaw p k).Safe j (fun _ _ => True) (revokeConsent id u c) v := by
  have hopen : (revokeLaw p k).Safe j (fun _ v' => id ∈ v'.1.xids)
      (Prog.exec (.revokeConsentRow id u c) dbError fun db => db.revokeConsentRow id u c) v := by
    refine Process.Law.safe_exec (fun _ _ => rfl) fun v' _ hi _ db b hb => ?_
    exact RevokeInv.revokeConsentRow hi hb
  refine Process.Law.safe_bind (hopen.imp fun _ v₁ h₁ => ?_)
  refine Process.Law.safe_bind ((revokeSafe_revokeUserClientGrants h₁).imp fun _ v₂ h₂ => ?_)
  exact Process.Law.safe_seq (revokeSafe_commitRevocation h₂) fun _ _ _ => trivial

theorem revokeSafe_use (u : GrantJob) : (revokeLaw p k).Safe j (fun _ _ => True) (u.prog p k) v := by
  cases u with
  | grant u c scopes id =>
    exact Process.Law.safe_seq (revokeSafe_grantConsent u c scopes id) fun _ _ _ => trivial
  | allow txn clientPk userId session selected consentId draw =>
    refine Process.Law.safe_seq (Process.Law.safe_seq (revokeSafe_grantConsent _ _ _ _)
      fun _ _ _ => ?_) fun _ _ _ => trivial
    exact revokeSafe_plain (does_issueCode _ _ _ _ _ _)
  | advance txn clientPk userId session draw =>
    refine revokeSafe_plain (Prog.does_bind (Prog.does_bind (does_oidcQuery rfl _ _)
      fun consent => ?_) fun _ => Prog.does_pure _)
    exact Prog.does_ite (does_issueCode _ _ _ _ _ _) (Prog.does_pure _)
  | exchange r => exact Process.Law.safe_seq (revokeSafe_exchangeCode r) fun _ _ _ => trivial
  | userinfo token =>
    exact Process.Law.safe_seq (revokeSafe_findUsableToken token) fun _ _ _ => trivial

end Programs

theorem revokeLaw_keeps (p : Provider) (k : Signer) : (revokeLaw p k).Keeps where
  prog j v _ := by
    cases j with
    | use u => exact revokeSafe_use u
    | revoke id u c =>
      exact Process.Law.safe_seq (revokeSafe_revokeConsent id u c) fun _ _ _ => trivial
  env e v hi := by
    have hi : RevokeInv v := hi
    cases e with
    | tick d => exact hi.dropped rfl rfl rfl (List.Subset.refl _) rfl
    | disconnect id => exact hi.dropped rfl rfl rfl (List.filter_subset_self _) rfl

/-! ## Runs -/

/-- The keys of the tables; a token belongs to a consumed code of its user and client, and no
revocation is open. -/
structure RevokeStart (db : Db) : Prop where
  rows : ConsentRows db
  codeIds : (db.codes.map (·.id)).Nodup
  tokenIds : (db.tokens.map (·.id)).Nodup
  owner : ∀ t ∈ db.tokens, ∀ i ∈ t.authorizationCodeId, ∃ c ∈ db.codes,
    c.id = i ∧ c.userId = t.userId ∧ c.clientId = t.clientId ∧ c.consumedAt.isSome = true
  unlocked : db.revoking = []

theorem RevokeStart.inv {db : Db} (h : RevokeStart db) :
    RevokeInv (RevokePool.initial db).view where
  rows := h.rows
  codeIds := h.codeIds
  tokenIds := h.tokenIds
  owner := h.owner
  condemned _ hi := absurd hi List.not_mem_nil
  revoked _ _ _ _ hc := absurd hc List.not_mem_nil
  covered _ ht := List.mem_map_of_mem ht
  late := rfl
  bare := rfl
  sweeping r hr := by
    have hr : r ∈ db.revoking := hr
    rw [h.unlocked] at hr
    cases hr
  xids r hr := by
    have hr : r ∈ db.revoking := hr
    rw [h.unlocked] at hr
    cases hr

/-- Revocations are final, and accepted tokens were covered, in a run that nothing disturbs. -/
theorem revocationFinal_run (p : Provider) (k : Signer) (db : Db) (hdb : RevokeStart db)
    (acts : List (Act RevokeJob RevokeEnv))
    (hacts : Along (revokeSystem p k).step (Meets Undisturbed) (RevokePool.initial db) acts) :
    (acts.foldl (revokeSystem p k).step (RevokePool.initial db)).ghost.late = [] ∧
      (acts.foldl (revokeSystem p k).step (RevokePool.initial db)).ghost.bare = [] := by
  have hstart : (revokeLaw p k).PoolOk (RevokePool.initial db) :=
    ⟨hdb.inv, fun t ht => absurd ht List.not_mem_nil⟩
  have hinv := (Process.Law.poolOk_run (revokeLaw_keeps p k) hstart hacts).1.inv
  exact ⟨hinv.late, hinv.bare⟩

/-! ## A code behind the sweep -/

/-- A transaction that waits for consent. -/
def revokeTxn : AuthTransaction where
  id := 9
  redirectUri := "https://app.example/cb"
  scopes := ["openid"]
  state := none
  nonce := none
  codeChallenge := none
  completedAt := none

/-- The session of a user. -/
def revokeSession : BrowserSession := { id := 3, sid := "s", authTime := 0, lastSeenAt := 0 }

/-- A user with a consent, who is about to get a code. -/
def revokeDb : Db where
  now := 10
  clients := [raceClient]
  users := [7]
  sessions := [revokeSession]
  sessionClients := []
  transactions := [revokeTxn]
  codes := []
  tokens := []
  consents := [{
    id := 4, userId := 7, clientId := 1, scopes := ["openid"], grantedAt := 0, updatedAt := 0
    lastUsedAt := none, revokedAt := none }]
  revoking := []
  xids := []

theorem revokeDb_start : RevokeStart revokeDb :=
  ⟨⟨by decide, by decide⟩, by decide, by decide, fun t ht => absurd ht List.not_mem_nil, rfl⟩

/-- A code, a revocation, a grant and an exchange at the same time. -/
def revokeSpawns : List (Act RevokeJob RevokeEnv) :=
  [.spawn (.use (.advance revokeTxn 1 7 revokeSession ⟨51, "code"⟩)), .spawn (.revoke 90 7 1),
    .spawn (.use (.grant 7 1 ["openid"] 42)), .spawn (.use (.exchange (raceRequest ⟨61, "token"⟩))),
    .spawn (.use (.userinfo "token"))]

/-- The code is inserted when the revocation has swept the codes and not yet committed; then the
user grants again, and the code is exchanged and its token used. -/
def behindActs : List (Act RevokeJob RevokeEnv) :=
  revokeSpawns ++ List.replicate 2 (.step 0 true) ++ List.replicate 5 (.step 1 true) ++
    List.replicate 2 (.step 0 true) ++ [.step 1 true] ++ List.replicate 2 (.step 2 true) ++
    List.replicate 8 (.step 3 true) ++ List.replicate 3 (.step 4 true)

theorem code_outlives_revocation : RevokeStart revokeDb ∧
    (behindActs.foldl (revokeSystem raceProvider raceSigner).step
      (RevokePool.initial revokeDb)).ghost.late = [61] :=
  ⟨revokeDb_start, by decide +kernel⟩

/-- The user has a second transaction. -/
def againDb : Db := { revokeDb with transactions := [revokeTxn, { revokeTxn with id := 8 }] }

theorem againDb_start : RevokeStart againDb :=
  ⟨⟨by decide, by decide⟩, by decide, by decide, fun t ht => absurd ht List.not_mem_nil, rfl⟩

/-- A code is issued and the revocation sweeps it.  The user grants again and gets another code; that
one is exchanged and its token used, the first one is refused. -/
def afterActs : List (Act RevokeJob RevokeEnv) :=
  [.spawn (.use (.advance revokeTxn 1 7 revokeSession ⟨51, "stale"⟩)), .spawn (.revoke 90 7 1),
    .spawn (.use (.grant 7 1 ["openid"] 42)),
    .spawn (.use (.advance { revokeTxn with id := 8 } 1 7 revokeSession ⟨52, "code"⟩)),
    .spawn (.use (.exchange (raceRequest ⟨61, "token"⟩))),
    .spawn (.use (.exchange { raceRequest ⟨62, "late"⟩ with params :=
      [("grant_type", "authorization_code"), ("code", "stale"),
        ("redirect_uri", "https://app.example/cb")] })),
    .spawn (.use (.userinfo "token"))] ++
    List.replicate 4 (.step 0 true) ++ List.replicate 6 (.step 1 true) ++
    List.replicate 2 (.step 2 true) ++ List.replicate 4 (.step 3 true) ++
    List.replicate 8 (.step 4 true) ++ List.replicate 8 (.step 5 true) ++
    List.replicate 3 (.step 6 true)

theorem revocationFinal_run_after :
    (afterActs.foldl (revokeSystem raceProvider raceSigner).step
        (RevokePool.initial againDb)).state.codes.map (fun c => (c.id, c.consumedAt)) =
        [(51, some 10), (52, some 10)] ∧
      (afterActs.foldl (revokeSystem raceProvider raceSigner).step
        (RevokePool.initial againDb)).state.tokens.map (·.id) = [61] ∧
      (afterActs.foldl (revokeSystem raceProvider raceSigner).step
        (RevokePool.initial againDb)).ghost.covered = [61] ∧
      (afterActs.foldl (revokeSystem raceProvider raceSigner).step
        (RevokePool.initial againDb)).ghost.late = [] ∧
      (afterActs.foldl (revokeSystem raceProvider raceSigner).step
        (RevokePool.initial againDb)).ghost.bare = [] :=
  ⟨by decide +kernel, by decide +kernel, by decide +kernel,
    revocationFinal_run raceProvider raceSigner againDb againDb_start afterActs (by decide +kernel)⟩

end FloatCtf.Oidc
