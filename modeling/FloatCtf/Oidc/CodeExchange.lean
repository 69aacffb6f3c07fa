import FloatCtf.Oidc.Flow
import FloatCtf.Process.Follow
import Mathlib.Data.List.Nodup

/-!
# A code is used once, by its owner

Any number of clients exchange codes at the same time, with any parameters.  The observer notes
every look-up of a code and every statement that writes.  `codeExchange_run` says of every run what
the notes and the tables have in common: a code has at most one token, a token was created by a
request that met every binding of its code, a statement that changes the tables is one of a request
of the owner that met every binding, or that has read the code as consumed, and after a request that
has read it as consumed, or that came too late to consume it, all its tokens are revoked.
-/

namespace FloatCtf.Oidc

open Process

/-! ## The system -/

/-- A statement that was noted, with the tables it found. -/
structure Entry where
  request : TokenRequest
  stmt : Stmt
  db : Db

/-- The statement writes to a code, a token or a session. -/
def Stmt.writes : Stmt → Bool
  | .consumeCode _ _ | .revokeTokensOfCode _ | .recordSessionClient _ => true
  | _ => false

/-- The statement goes into the log. -/
def Stmt.noted : Stmt → Bool
  | .findCode _ => true
  | l => l.writes

/-- What happens around the exchanges: time passes, and codes are issued. -/
inductive ExchangeEnv where
  | tick (d : Nat)
  | issue (n : NewCode) (draw : Draw)

/-- A code is issued, unless it clashes. -/
def Db.issue (db : Db) (p : Provider) (n : NewCode) (draw : Draw) : Db :=
  if (n.row p draw db.now).clashes db then db
  else { db with codes := db.codes ++ [n.row p draw db.now] }

/-- What happens beside the exchanges. -/
def ExchangeEnv.apply (p : Provider) : ExchangeEnv → Db → Db
  | tick d, db => { db with now := db.now + d }
  | issue n draw, db => db.issue p n draw

/-- The exchanges of codes, with a log as ghost state. -/
def exchangeSystem (p : Provider) (k : Signer) :
    System Stmt Db OidcError (List Entry) TokenRequest ExchangeEnv where
  prog r := do let _ ← exchangeCode p k r
  env := ExchangeEnv.apply p
  watch r l db log := if l.noted then log ++ [⟨r, l, db⟩] else log

/-- The exchanges under way. -/
abbrev ExchangePool := Pool Stmt Db OidcError (List Entry) TokenRequest

/-- No exchange has begun. -/
def ExchangePool.initial (db : Db) : ExchangePool := { state := db, ghost := [], threads := [] }

/-- The pool after a run from the tables `db`. -/
abbrev exchangeRun (p : Provider) (k : Signer) (db : Db)
    (acts : List (Act TokenRequest ExchangeEnv)) : ExchangePool :=
  acts.foldl (exchangeSystem p k).step (ExchangePool.initial db)

/-! ## Bindings -/

/-- The request presents the code, for the client and the redirect that it was issued to, and a
verifier exactly when it has a challenge, which it then meets. -/
structure Bound (p : Provider) (r : TokenRequest) (code : AuthorizationCode) : Prop where
  owner : code.clientId = r.client.id
  presented : ∃ value, r.params.single "code" = .ok (some value) ∧ p.hash value = code.codeHash
  redirect : r.params.single "redirect_uri" = .ok (some code.redirectUri)
  pkce : match code.codeChallenge, r.params.single "code_verifier" with
    | none, .ok none => True
    | some challenge, .ok (some verifier) => verifyS256 p.s256 verifier challenge = true
    | _, _ => False

/-- The row is there as it was read, or consumed since. -/
def Kept (code : AuthorizationCode) (codes : List AuthorizationCode) : Prop :=
  code ∈ codes ∨ code.consumedAt = none ∧ ∃ n, code.consumed n ∈ codes

/-- The request has read the code unconsumed and before its expiry, and it has passed every check
of a binding. -/
structure Cleared (p : Provider) (r : TokenRequest) (code : AuthorizationCode) (db : Db)
    (log : List Entry) : Prop where
  bound : Bound p r code
  unconsumed : code.consumedAt = none
  timely : ∃ y ∈ log, y.request = r ∧ y.stmt = .findCode code.codeHash ∧ code ∈ y.db.codes ∧
    y.db.now < code.expiresAt
  consented : db.consented code.userId code.clientId code.scopes = true
  kept : Kept code db.codes

/-- What a request may do to the tables. -/
def Entry.Allowed (p : Provider) (log : List Entry) (x : Entry) : Prop :=
  match x.stmt with
  | .consumeCode code _ => Cleared p x.request code x.db log
  | .recordSessionClient code => Cleared p x.request code x.db log
  | .revokeTokensOfCode code => code.clientId = x.request.client.id ∧
      (code.consumedAt.isSome = true ∧ code ∈ x.db.codes ∨ Cleared p x.request code x.db log)
  | _ => True

/-- The statement has created the token, from a code whose bindings all held. -/
def Entry.Issues (p : Provider) (x : Entry) (t : AccessToken) : Prop :=
  ∃ code ∈ x.db.codes, x.stmt = .consumeCode code x.request.draw ∧
    t.authorizationCodeId = some code.id ∧ Bound p x.request code ∧ code.consumedAt = none ∧
    x.db.now < code.expiresAt ∧ x.db.consented code.userId code.clientId code.scopes = true

/-- The code that the statement finds consumed, or not there to be consumed any more. -/
def replayed (r : TokenRequest) (l : Stmt) (db : Db) : Option AuthorizationCode :=
  match l with
  | .findCode h => (db.codes.find? (·.codeHash = h)).filter fun c =>
      c.clientId = r.client.id ∧ c.consumedAt.isSome
  | .consumeCode code _ =>
    if db.consumeWaits code ∨ db.codes.any (·.consumable code.id db.now) then none else some code
  | _ => none

/-! ## The law -/

/-- What an exchange may rely on: codes and consents stay, and nothing leaves the log. -/
structure ExchangeRely (v v' : Db × List Entry) : Prop where
  now : v.1.now ≤ v'.1.now
  codes : ∀ c ∈ v.1.codes, Kept c v'.1.codes
  consented : ∀ u c s, v.1.consented u c s = true → v'.1.consented u c s = true
  log : v.2 ⊆ v'.2

/-- The code cannot be consumed any more. -/
def Db.Barred (db : Db) (id : Nat) : Prop :=
  ∃ c ∈ db.codes, c.id = id ∧ (c.consumedAt.isSome = true ∨ c.expiresAt ≤ db.now)

/-- The invariant of the exchanges: each token goes back to one code that is consumed, and each
entry of the log is as it should be. -/
structure ExchangeInv (p : Provider) (start : Db) (v : Db × List Entry) : Prop where
  unlocked : v.1.revoking = []
  ids : (v.1.codes.map (·.id)).Nodup
  single : (v.1.tokens.filterMap (·.authorizationCodeId)).Nodup
  consumed : ∀ t ∈ v.1.tokens, ∀ i ∈ t.authorizationCodeId,
    ∃ c ∈ v.1.codes, c.id = i ∧ c.consumedAt.isSome = true
  origin : ∀ t ∈ v.1.tokens, t.id ∈ start.tokens.map (·.id) ∨ ∃ x ∈ v.2, x.Issues p t
  allowed : ∀ x ∈ v.2, x.Allowed p v.2
  swept : ∀ x ∈ v.2, ∀ code, x.stmt = .revokeTokensOfCode code →
    (∀ t ∈ v.1.tokens, t.liveOf code.id = false) ∧ v.1.Barred code.id

section Relations

variable {p : Provider} {r : TokenRequest} {code : AuthorizationCode} {v v' v'' : Db × List Entry}

theorem Kept.trans {codes codes' : List AuthorizationCode} (h : Kept code codes)
    (hc : ∀ c ∈ codes, Kept c codes') : Kept code codes' := by
  rcases h with h | ⟨hnone, n, hn⟩
  · exact hc code h
  · rcases hc _ hn with h' | ⟨h', -⟩
    · exact .inr ⟨hnone, n, h'⟩
    · cases h'

theorem ExchangeRely.refl (v : Db × List Entry) : ExchangeRely v v :=
  ⟨Int.le_refl _, fun _ hc => .inl hc, fun _ _ _ h => h, List.Subset.refl _⟩

theorem ExchangeRely.trans (h : ExchangeRely v v') (h' : ExchangeRely v' v'') :
    ExchangeRely v v'' :=
  ⟨Int.le_trans h.now h'.now, fun c hc => (h.codes c hc).trans h'.codes,
    fun u c s hs => h'.consented u c s (h.consented u c s hs), List.Subset.trans h.log h'.log⟩

theorem Cleared.mono (h : Cleared p r code v.1 v.2) (hv : ExchangeRely v v') :
    Cleared p r code v'.1 v'.2 := by
  obtain ⟨y, hy, hrest⟩ := h.timely
  exact ⟨h.bound, h.unconsumed, ⟨y, hv.log hy, hrest⟩, hv.consented _ _ _ h.consented,
    h.kept.trans hv.codes⟩

theorem Cleared.mono_log {db : Db} {log log' : List Entry} (h : Cleared p r code db log)
    (hl : log ⊆ log') : Cleared p r code db log' := by
  obtain ⟨y, hy, hrest⟩ := h.timely
  exact ⟨h.bound, h.unconsumed, ⟨y, hl hy, hrest⟩, h.consented, h.kept⟩

theorem Entry.Allowed.mono {x : Entry} {log log' : List Entry} (h : x.Allowed p log)
    (hl : log ⊆ log') : x.Allowed p log' := by
  unfold Entry.Allowed at h ⊢
  split at h
  · exact h.mono_log hl
  · exact h.mono_log hl
  · exact ⟨h.1, h.2.imp_right fun hc => hc.mono_log hl⟩
  · trivial

theorem Db.Barred.mono {id : Nat} (h : v.1.Barred id) (hv : ExchangeRely v v') :
    v'.1.Barred id := by
  obtain ⟨c, hc, hid, hbar⟩ := h
  rcases hv.codes c hc with hkept | ⟨-, n, hn⟩
  · exact ⟨c, hkept, hid, hbar.imp_right fun he => Int.le_trans he hv.now⟩
  · exact ⟨c.consumed n, hn, hid, .inl rfl⟩

theorem Db.Barred.mono_rows {db db' : Db} {id : Nat} (h : db.Barred id) (hc : db'.codes = db.codes)
    (hn : db'.now = db.now) : db'.Barred id := by
  unfold Db.Barred
  rw [hc, hn]
  exact h

end Relations

/-! ## One statement -/

/-- An update that keeps what a consent says does not take a consent away. -/
theorem consented_map {db : Db} {f : Consent → Consent} (u c : Nat) (s : List String)
    (hf : ∀ x, (f x).activeFor u c = x.activeFor u c ∧ (f x).scopes = x.scopes) :
    ({ db with consents := db.consents.map f } : Db).consented u c s = db.consented u c s := by
  have hfind : ({ db with consents := db.consents.map f } : Db).activeConsent u c =
      (db.activeConsent u c).map f := by
    show (db.consents.map f).find? (·.activeFor u c) =
      (db.consents.find? (·.activeFor u c)).map f
    rw [List.find?_map]
    congr 2
    funext x
    exact (hf x).1
  unfold Db.consented
  rw [hfind]
  cases db.activeConsent u c with
  | none => rfl
  | some x => simp [(hf x).2]

theorem consented_congr {db db' : Db} (h : db'.consents = db.consents) {u c : Nat}
    {s : List String} : db'.consented u c s = db.consented u c s := by
  unfold Db.consented Db.activeConsent
  rw [h]

theorem recordSessionClient_rows (db : Db) (sessionId clientId : Nat) :
    (db.recordSessionClient sessionId clientId).codes = db.codes ∧
      (db.recordSessionClient sessionId clientId).tokens = db.tokens ∧
      (db.recordSessionClient sessionId clientId).consents = db.consents ∧
      (db.recordSessionClient sessionId clientId).now = db.now ∧
      (db.recordSessionClient sessionId clientId).revoking = db.revoking := by
  unfold Db.recordSessionClient
  split <;> exact ⟨rfl, rfl, rfl, rfl, rfl⟩

section Statements

variable {p : Provider} {start : Db} {r : TokenRequest} {code : AuthorizationCode}
  {v : Db × List Entry}

theorem ExchangeInv.eq_of_id (h : ExchangeInv p start v) {c c' : AuthorizationCode}
    (hc : c ∈ v.1.codes) (hc' : c' ∈ v.1.codes) (hid : c.id = c'.id) : c = c' :=
  List.inj_on_of_nodup_map h.ids hc hc' hid

theorem consumeWaits_of_unlocked {db : Db} (h : db.revoking = []) (code : AuthorizationCode) :
    db.consumeWaits code = false := by
  simp [Db.consumeWaits, Db.codeLocked, Db.consentLocked, h]

theorem ExchangeRely.note (v : Db × List Entry) (x : Entry) :
    ExchangeRely v (v.1, v.2 ++ [x]) :=
  ⟨Int.le_refl _, fun _ hc => .inl hc, fun _ _ _ h => h, List.subset_append_left _ _⟩

/-- A statement that is noted and changes nothing. -/
theorem ExchangeInv.note (h : ExchangeInv p start v) {x : Entry} (hx : x.Allowed p v.2)
    (hs : ∀ code, x.stmt = .revokeTokensOfCode code →
      (∀ t ∈ v.1.tokens, t.liveOf code.id = false) ∧ v.1.Barred code.id) :
    ExchangeInv p start (v.1, v.2 ++ [x]) := by
  have hsub : v.2 ⊆ v.2 ++ [x] := List.subset_append_left _ _
  refine ⟨h.unlocked, h.ids, h.single, h.consumed, fun t ht => ?_, fun y hy => ?_, fun y hy => ?_⟩
  · rcases h.origin t ht with hstart | ⟨y, hy, hi⟩
    · exact .inl hstart
    · exact .inr ⟨y, hsub hy, hi⟩
  · rcases List.mem_append.1 hy with hy | hy
    · exact (h.allowed y hy).mono hsub
    · rw [List.mem_singleton.1 hy]
      exact hx.mono hsub
  · rcases List.mem_append.1 hy with hy | hy
    · exact h.swept y hy
    · rw [List.mem_singleton.1 hy]
      exact hs

/-- A code that can be consumed is the row that was read. -/
theorem ExchangeInv.consumable (h : ExchangeInv p start v) (hc : Cleared p r code v.1 v.2)
    (ha : v.1.codes.any (·.consumable code.id v.1.now) = true) :
    code ∈ v.1.codes ∧ v.1.now < code.expiresAt := by
  obtain ⟨c, hmem, hcons⟩ := List.any_eq_true.1 ha
  simp only [AuthorizationCode.consumable, decide_eq_true_eq] at hcons
  obtain ⟨hid, hnone, hexp⟩ := hcons
  rcases hc.kept with hkept | ⟨-, n, hn⟩
  · rw [h.eq_of_id hmem hkept hid] at hexp
    exact ⟨hkept, hexp⟩
  · rw [h.eq_of_id hmem hn hid] at hnone
    cases hnone

theorem rely_consume (v : Db × List Entry) (p : Provider) (code : AuthorizationCode) (draw : Draw)
    (x : Entry) : ExchangeRely v (v.1.consume p code draw, v.2 ++ [x]) := by
  refine ⟨Int.le_refl _, fun c hc => ?_, fun u c s hs => ?_, List.subset_append_left _ _⟩
  · by_cases hcons : c.consumable code.id v.1.now = true
    · refine .inr ⟨?_, v.1.now, List.mem_map.2 ⟨c, hc, if_pos hcons⟩⟩
      simp only [AuthorizationCode.consumable, decide_eq_true_eq] at hcons
      exact hcons.2.1
    · exact .inl (List.mem_map.2 ⟨c, hc, if_neg hcons⟩)
  · have hsame := @consented_map v.1 (fun c =>
      if c.userId = code.userId ∧ c.clientId = code.clientId then c.touched v.1.now else c)
      u c s fun x => by split_ifs <;> exact ⟨rfl, rfl⟩
    rw [← hsame] at hs
    exact hs

theorem ids_consume (db : Db) (id : Nat) :
    (db.codes.map fun c => if c.consumable id db.now then c.consumed db.now else c).map (·.id) =
      db.codes.map (·.id) := by
  rw [List.map_map]
  refine List.map_congr_left fun c _ => ?_
  simp only [Function.comp]
  split_ifs <;> rfl

/-- The consumption of a code that was cleared. -/
theorem ExchangeInv.consume (h : ExchangeInv p start v) (hc : Cleared p r code v.1 v.2)
    (ha : v.1.codes.any (·.consumable code.id v.1.now) = true) :
    ExchangeInv p start
      (v.1.consume p code r.draw, v.2 ++ [⟨r, .consumeCode code r.draw, v.1⟩]) := by
  obtain ⟨hmem, hexp⟩ := h.consumable hc ha
  have hrely := rely_consume v p code r.draw ⟨r, .consumeCode code r.draw, v.1⟩
  have hcons : code.consumable code.id v.1.now = true := by
    simp [AuthorizationCode.consumable, hc.unconsumed, hexp]
  have hfresh : ∀ i ∈ v.1.tokens.filterMap (·.authorizationCodeId), i ≠ code.id := by
    rintro i hi rfl
    obtain ⟨t, ht, hti⟩ := List.mem_filterMap.1 hi
    obtain ⟨c, hcm, hid, hsome⟩ := h.consumed t ht code.id hti
    rw [h.eq_of_id hcm hmem hid, hc.unconsumed] at hsome
    cases hsome
  have hnew : ⟨r, .consumeCode code r.draw, v.1⟩ ∈
      v.2 ++ [(⟨r, .consumeCode code r.draw, v.1⟩ : Entry)] :=
    List.mem_append_right _ (List.mem_singleton_self _)
  refine ⟨h.unlocked, ?_, ?_, fun t ht i hi => ?_, fun t ht => ?_, fun y hy => ?_,
    fun y hy code' hstmt => ?_⟩
  · show ((v.1.codes.map _).map _).Nodup
    rw [ids_consume]
    exact h.ids
  · show ((v.1.tokens ++ [_]).filterMap _).Nodup
    rw [List.filterMap_append]
    refine List.nodup_append.2 ⟨h.single, List.nodup_singleton _, fun i hi j hj => ?_⟩
    rw [List.mem_singleton.1 hj]
    exact hfresh i hi
  · rcases List.mem_append.1 ht with ht | ht
    · obtain ⟨c, hcm, hid, hsome⟩ := h.consumed t ht i hi
      rcases hrely.codes c hcm with hkept | ⟨-, n, hn⟩
      · exact ⟨c, hkept, hid, hsome⟩
      · exact ⟨c.consumed n, hn, hid, rfl⟩
    · rw [List.mem_singleton.1 ht] at hi
      cases hi
      exact ⟨code.consumed v.1.now, List.mem_map.2 ⟨code, hmem, if_pos hcons⟩, rfl, rfl⟩
  · rcases List.mem_append.1 ht with ht | ht
    · rcases h.origin t ht with hstart | ⟨y, hy, hi⟩
      · exact .inl hstart
      · exact .inr ⟨y, List.mem_append_left _ hy, hi⟩
    · rw [List.mem_singleton.1 ht]
      exact .inr ⟨_, hnew, code, hmem, rfl, rfl, hc.bound, hc.unconsumed, hexp, hc.consented⟩
  · rcases List.mem_append.1 hy with hy | hy
    · exact (h.allowed y hy).mono (List.subset_append_left _ _)
    · rw [List.mem_singleton.1 hy]
      exact hc.mono_log (List.subset_append_left _ _)
  · rcases List.mem_append.1 hy with hy | hy
    · obtain ⟨hlive, hbar⟩ := h.swept y hy code' hstmt
      refine ⟨fun t ht => ?_, hbar.mono hrely⟩
      rcases List.mem_append.1 ht with ht | ht
      · exact hlive t ht
      · obtain ⟨c, hcm, hid, hend⟩ := hbar
        -- the code of the new token was neither consumed nor expired
        have hne : code.id ≠ code'.id := by
          intro heq
          rw [h.eq_of_id hcm hmem (hid.trans heq.symm), hc.unconsumed] at hend
          rcases hend with hend | hend
          · cases hend
          · omega
        rw [List.mem_singleton.1 ht]
        simp [AccessToken.liveOf, AuthorizationCode.token, hne]
    · rw [List.mem_singleton.1 hy] at hstmt
      cases hstmt

theorem not_liveOf_revoked (t : AccessToken) (id id' : Nat) (now : Int) :
    (if t.liveOf id then t.revoked now else t).liveOf id' = true → t.liveOf id' = true ∧
      id' ≠ id := by
  split_ifs with hlive
  · intro h
    simp [AccessToken.liveOf, AccessToken.revoked] at h
  · intro h
    refine ⟨h, ?_⟩
    rintro rfl
    exact hlive h

theorem rely_revokeTokensOf (v : Db × List Entry) (id : Nat) (x : Entry) :
    ExchangeRely v (v.1.revokeTokensOf id, v.2 ++ [x]) :=
  ⟨Int.le_refl _, fun _ hc => .inl hc, fun _ _ _ h => h, List.subset_append_left _ _⟩

theorem ExchangeInv.revokeTokensOf (h : ExchangeInv p start v)
    (hx : Entry.Allowed p v.2 ⟨r, .revokeTokensOfCode code, v.1⟩) (hbar : v.1.Barred code.id) :
    ExchangeInv p start
      (v.1.revokeTokensOf code.id, v.2 ++ [⟨r, .revokeTokensOfCode code, v.1⟩]) := by
  have hcode : ∀ t : AccessToken, (if t.liveOf code.id then t.revoked v.1.now else t).id = t.id ∧
      (if t.liveOf code.id then t.revoked v.1.now else t).authorizationCodeId =
        t.authorizationCodeId := by
    intro t
    split_ifs <;> exact ⟨rfl, rfl⟩
  have hsub : v.2 ⊆ v.2 ++ [(⟨r, .revokeTokensOfCode code, v.1⟩ : Entry)] :=
    List.subset_append_left _ _
  refine ⟨h.unlocked, h.ids, ?_, fun t ht i hi => ?_, fun t ht => ?_, fun y hy => ?_,
    fun y hy code' hstmt => ?_⟩
  · show ((v.1.tokens.map _).filterMap _).Nodup
    rw [List.filterMap_map]
    have hsame : (AccessToken.authorizationCodeId ∘ fun t : AccessToken =>
        if t.liveOf code.id then t.revoked v.1.now else t) = AccessToken.authorizationCodeId := by
      funext t
      exact (hcode t).2
    rw [hsame]
    exact h.single
  · obtain ⟨t', ht', rfl⟩ := List.mem_map.1 ht
    rw [(hcode t').2] at hi
    exact h.consumed t' ht' i hi
  · obtain ⟨t', ht', rfl⟩ := List.mem_map.1 ht
    rw [(hcode t').1]
    rcases h.origin t' ht' with hstart | ⟨y, hy, c, hc, hrest⟩
    · exact .inl hstart
    · refine .inr ⟨y, hsub hy, c, hc, ?_⟩
      rw [(hcode t').2]
      exact hrest
  · rcases List.mem_append.1 hy with hy | hy
    · exact (h.allowed y hy).mono hsub
    · rw [List.mem_singleton.1 hy]
      exact hx.mono hsub
  · have hswept : (∀ t ∈ v.1.tokens, t.liveOf code'.id = false ∨ code'.id = code.id) ∧
        v.1.Barred code'.id := by
      rcases List.mem_append.1 hy with hy | hy
      · obtain ⟨hlive, hb⟩ := h.swept y hy code' hstmt
        exact ⟨fun t ht => .inl (hlive t ht), hb⟩
      · rw [List.mem_singleton.1 hy] at hstmt
        cases hstmt
        exact ⟨fun _ _ => .inr rfl, hbar⟩
    refine ⟨fun t ht => ?_, hswept.2.mono_rows rfl rfl⟩
    obtain ⟨t', ht', rfl⟩ := List.mem_map.1 ht
    rw [← Bool.not_eq_true]
    intro hlive
    obtain ⟨hold, hne⟩ := not_liveOf_revoked t' code.id code'.id v.1.now hlive
    rcases hswept.1 t' ht' with hno | heq
    · rw [hno] at hold
      cases hold
    · exact hne heq

theorem ExchangeInv.of_rows {db : Db} {log : List Entry} (h : ExchangeInv p start v)
    (hr : ExchangeRely v (db, log)) (hl : log = v.2) (hrev : db.revoking = v.1.revoking)
    (ht : db.tokens = v.1.tokens) (hids : (db.codes.map (·.id)).Nodup) :
    ExchangeInv p start (db, log) := by
  subst hl
  refine ⟨hrev.trans h.unlocked, hids, ?_, ?_, ?_, h.allowed, fun x hx code hs => ?_⟩
  · show (db.tokens.filterMap _).Nodup
    rw [ht]
    exact h.single
  · intro t hmem i hi
    rw [ht] at hmem
    obtain ⟨c, hc, hid, hsome⟩ := h.consumed t hmem i hi
    rcases hr.codes c hc with hkept | ⟨-, n, hn⟩
    · exact ⟨c, hkept, hid, hsome⟩
    · exact ⟨c.consumed n, hn, hid, rfl⟩
  · intro t hmem
    rw [ht] at hmem
    exact h.origin t hmem
  · obtain ⟨hlive, hbar⟩ := h.swept x hx code hs
    refine ⟨?_, hbar.mono hr⟩
    intro t hmem
    rw [ht] at hmem
    exact hlive t hmem

end Statements

/-! ## One request -/

/-- A statement that changes the tables is noted. -/
def Noted (r : TokenRequest) (v v' : Db × List Entry) : Prop :=
  v'.1 = v.1 ∨ ∃ l : Stmt, l.writes = true ∧ v'.2 = v.2 ++ [⟨r, l, v.1⟩]

/-- The law of the exchanges. -/
def exchangeLaw (p : Provider) (k : Signer) (start : Db) : Process.Law (exchangeSystem p k) where
  rely := ExchangeRely
  guar r v v' := ExchangeRely v v' ∧ Noted r v v'
  inv := ExchangeInv p start
  cond _ _ _ := True
  refl := ExchangeRely.refl
  trans := ExchangeRely.trans
  guar_refl _ v := ⟨.refl v, .inl rfl⟩
  rely_of_guar h := h.1

section Request

variable {p : Provider} {k : Signer} {start : Db} {r : TokenRequest} {code : AuthorizationCode}
  {v : Db × List Entry}

theorem exchangeSafe_ofExcept {α : Type} {x : Except OidcError α}
    {Q : α → Db × List Entry → Prop} (h : ∀ a, x = .ok a → Q a v) :
    (exchangeLaw p k start).Safe r Q (ofExcept x) v := by
  cases x with
  | error e => trivial
  | ok a => exact h a rfl

/-- Before the tokens of a code are revoked. -/
def MayRevoke (p : Provider) (r : TokenRequest) (code : AuthorizationCode)
    (v : Db × List Entry) : Prop :=
  Entry.Allowed p v.2 ⟨r, .revokeTokensOfCode code, v.1⟩ ∧ v.1.Barred code.id

theorem exchangeSafe_revokeTokensOfCode
    (h : ∀ v', ExchangeRely v v' → MayRevoke p r code v') :
    (exchangeLaw p k start).Safe r (fun _ _ => True) (revokeTokensOfCode unavailable code) v := by
  refine Process.Law.safe_exec_seen fun v' hv hi _ => ?_
  have hi : ExchangeInv p start v' := hi
  have hfree : (v'.1.tokens.any fun t => t.liveOf code.id ∧ v'.1.tokenLocked t.id) = false := by
    simp [Db.tokenLocked, hi.unlocked]
  have hafter : (exchangeSystem p k).after r (.revokeTokensOfCode code) (Prog.after fun db =>
      if db.tokens.any fun t => t.liveOf code.id ∧ db.tokenLocked t.id then
        .error unavailable
      else .ok (db.revokeTokensOf code.id, db.tokens.countP (·.liveOf code.id))) v' =
      (v'.1.revokeTokensOf code.id, v'.2 ++ [⟨r, .revokeTokensOfCode code, v'.1⟩]) := by
    simp only [System.after, Prog.after, hfree, Bool.false_eq_true, ↓reduceIte]
    rfl
  obtain ⟨hallow, hbar⟩ := h v' hv
  refine ⟨?_, ?_, fun _ _ _ => trivial⟩
  · exact hafter ▸ ⟨rely_revokeTokensOf v' code.id _, .inr ⟨_, rfl, rfl⟩⟩
  · exact hafter ▸ hi.revokeTokensOf hallow hbar

/-- What the consumption leaves to the request. -/
theorem exchangeSafe_consume (h : Cleared p r code v.1 v.2) :
    (exchangeLaw p k start).Safe r
      (fun issued v' => Cleared p r code v'.1 v'.2 ∧ (issued = none → v'.1.Barred code.id))
      (consumeCodeAndIssueToken p unavailable code r.draw) v := by
  refine Process.Law.safe_exec_seen fun v' hv hi _ => ?_
  have hi : ExchangeInv p start v' := hi
  have hc : Cleared p r code v'.1 v'.2 := h.mono hv
  have hwaits := consumeWaits_of_unlocked hi.unlocked code
  have hnote := ExchangeRely.note v' ⟨r, .consumeCode code r.draw, v'.1⟩
  have hsame : ExchangeInv p start (v'.1, v'.2 ++ [⟨r, .consumeCode code r.draw, v'.1⟩]) :=
    hi.note hc fun _ hs => by cases hs
  simp only [System.after, Prog.after, hwaits, Bool.false_eq_true, ↓reduceIte]
  by_cases ha : v'.1.codes.any (·.consumable code.id v'.1.now) = true
  · by_cases hclash : (code.token p r.draw v'.1.now).clashes v'.1 = true
    · simp only [ha, hclash, ↓reduceIte]
      exact ⟨⟨hnote, .inl rfl⟩, hsame, fun s a heq => by cases heq⟩
    · simp only [ha, hclash, ↓reduceIte]
      have hrely := rely_consume v' p code r.draw ⟨r, .consumeCode code r.draw, v'.1⟩
      refine ⟨⟨hrely, .inr ⟨_, rfl, rfl⟩⟩, hi.consume hc ha, fun s a heq => ?_⟩
      cases heq
      exact ⟨hc.mono hrely, fun hnone => by cases hnone⟩
  · simp only [ha, Bool.false_eq_true, ↓reduceIte]
    refine ⟨⟨hnote, .inl rfl⟩, hsame, fun s a heq => ?_⟩
    cases heq
    refine ⟨hc.mono hnote, fun _ => ?_⟩
    simp only [List.any_eq_true, AuthorizationCode.consumable, decide_eq_true_eq, not_exists,
      not_and] at ha
    rcases hc.kept with hmem | ⟨-, n, hn⟩
    · refine ⟨code, hmem, rfl, .inr ?_⟩
      have := ha code hmem rfl hc.unconsumed
      show code.expiresAt ≤ v'.1.now
      omega
    · exact ⟨code.consumed n, hn, rfl, .inl rfl⟩

theorem exchangeSafe_recordSessionClient {sessionId : Nat} (h : Cleared p r code v.1 v.2) :
    (exchangeLaw p k start).Safe r (fun _ _ => True)
      (recordSessionClient unavailable code sessionId r.client.id) v := by
  refine Process.Law.safe_exec_seen fun v' hv hi _ => ?_
  have hi : ExchangeInv p start v' := hi
  have hc : Cleared p r code v'.1 v'.2 := h.mono hv
  have hnoted : ExchangeInv p start (v'.1, v'.2 ++ [⟨r, .recordSessionClient code, v'.1⟩]) :=
    hi.note hc fun _ hs => by cases hs
  obtain ⟨hcodes, htokens, hconsents, hnow, hrev⟩ :=
    recordSessionClient_rows v'.1 sessionId r.client.id
  have hrely : ExchangeRely (v'.1, v'.2 ++ [⟨r, .recordSessionClient code, v'.1⟩])
      (v'.1.recordSessionClient sessionId r.client.id,
        v'.2 ++ [⟨r, .recordSessionClient code, v'.1⟩]) := by
    refine ⟨Int.le_of_eq hnow.symm, fun c hc => .inl ?_, fun u c s hs => ?_, List.Subset.refl _⟩
    · rw [hcodes]
      exact hc
    · rw [consented_congr hconsents]
      exact hs
  refine ⟨⟨(ExchangeRely.note v' _).trans hrely, .inr ⟨_, rfl, rfl⟩⟩,
    hnoted.of_rows hrely rfl hrev htokens ?_, fun _ _ _ => trivial⟩
  show ((v'.1.recordSessionClient sessionId r.client.id).codes.map _).Nodup
  rw [hcodes]
  exact hi.ids

theorem exchangeSafe_select {α : Type} {Q : α → Db × List Entry → Prop} {f : Db → α}
    (h : ∀ v', ExchangeRely v v' → Q (f v'.1) v') :
    (exchangeLaw p k start).Safe r Q (select unavailable f) v :=
  Process.Law.safe_query (fun _ _ => rfl) fun v' hv _ _ => h v' hv

theorem exchangeSafe_bindSession (h : Cleared p r code v.1 v.2) :
    (exchangeLaw p k start).Safe r (fun _ _ => True) (bindSession p r.client code) v := by
  unfold bindSession
  split
  · trivial
  · refine Process.Law.safe_seq (Process.Law.safe_tried (exchangeSafe_recordSessionClient h))
      fun _ v₁ _ => Process.Law.safe_ite (fun _ => ?_) fun _ => trivial
    refine Process.Law.safe_seq (Process.Law.safe_tried (exchangeSafe_select fun _ _ => trivial))
      fun sid v₂ _ => ?_
    cases sid <;> trivial

theorem exchangeSafe_respondToken {userId : Nat} {accessToken : String}
    (h : Cleared p r code v.1 v.2) :
    (exchangeLaw p k start).Safe r (fun _ _ => True)
      (respondToken p k r.client code userId accessToken) v := by
  refine Process.Law.safe_seq (exchangeSafe_bindSession h) fun sid v₁ _ => ?_
  refine Process.Law.safe_bind (Process.Law.safe_look (fun _ _ => rfl) fun v₂ _ _ => ?_)
  split <;> trivial

theorem exchangeSafe_redeemCode {userId : Nat} (h : Cleared p r code v.1 v.2) :
    (exchangeLaw p k start).Safe r (fun _ _ => True) (redeemCode p k r code userId) v := by
  refine Process.Law.safe_bind ((exchangeSafe_consume h).imp fun issued v₁ h₁ => ?_)
  obtain ⟨hc, hbar⟩ := h₁
  cases issued with
  | none =>
    refine Process.Law.safe_seq (Process.Law.safe_tried (exchangeSafe_revokeTokensOfCode
      fun v' hv => ?_)) fun _ _ _ => trivial
    exact ⟨⟨hc.bound.owner, .inr (hc.mono hv)⟩, (hbar rfl).mono hv⟩
  | some issued => exact exchangeSafe_respondToken hc

/-- The request has found the code. -/
structure Looked (p : Provider) (r : TokenRequest) (q : TokenParams) (code : AuthorizationCode)
    (v : Db × List Entry) : Prop where
  hash : p.hash q.code = code.codeHash
  seen : ∃ y ∈ v.2, y.request = r ∧ y.stmt = .findCode code.codeHash ∧ code ∈ y.db.codes ∧
    y.db.now ≤ v.1.now
  kept : Kept code v.1.codes

theorem Looked.mono {q : TokenParams} {v' : Db × List Entry} (h : Looked p r q code v)
    (hv : ExchangeRely v v') : Looked p r q code v' := by
  obtain ⟨y, hy, hreq, hstmt, hmem, hnow⟩ := h.seen
  exact ⟨h.hash, ⟨y, hv.log hy, hreq, hstmt, hmem, Int.le_trans hnow hv.now⟩,
    h.kept.trans hv.codes⟩

theorem exchangeSafe_findCode (q : TokenParams) :
    (exchangeLaw p k start).Safe r (fun found v' => ∀ code, found = some code →
      Looked p r q code v') (findCode p unavailable q.code) v := by
  refine Process.Law.safe_ite (fun _ => ?_) fun _ => Process.Law.safe_pure fun _ h => by cases h
  refine Process.Law.safe_query_seen fun v' _ hi _ => ?_
  have hi : ExchangeInv p start v' := hi
  have hnote := ExchangeRely.note v' ⟨r, .findCode (p.hash q.code), v'.1⟩
  have hnoted : ExchangeInv p start (v'.1, v'.2 ++ [⟨r, .findCode (p.hash q.code), v'.1⟩]) :=
    hi.note (by trivial) fun _ hs => by cases hs
  refine ⟨⟨hnote, .inl rfl⟩, hnoted, fun code hfind => ?_⟩
  have hmem := List.mem_of_find?_eq_some hfind
  have hhash : code.codeHash = p.hash q.code := by simpa using List.find?_some hfind
  refine ⟨hhash.symm, ⟨⟨r, .findCode (p.hash q.code), v'.1⟩,
    List.mem_append_right _ (List.mem_singleton_self _), rfl, ?_, hmem, Int.le_refl _⟩, .inl hmem⟩
  rw [hhash]

theorem tokenParam_ok {params : RawParams} {name : String} {o : Option String}
    (h : params.tokenParam name = .ok o) : params.single name = .ok o := by
  unfold RawParams.tokenParam at h
  split at h
  · cases h
    assumption
  · cases h

theorem exchange_ok {params : RawParams} {q : TokenParams} (h : params.exchange = .ok q) :
    params.single "code" = .ok (some q.code) ∧ params.single "redirect_uri" = .ok q.redirect ∧
      params.single "code_verifier" = .ok q.verifier := by
  unfold RawParams.exchange at h
  obtain ⟨g, -, h⟩ := except_bind_ok h
  cases g with
  | none => cases h
  | some g =>
    simp only at h
    split_ifs at h
    · cases h
    · obtain ⟨c, hc, h⟩ := except_bind_ok h
      cases c with
      | none => cases h
      | some c =>
        obtain ⟨redirect, hr, h⟩ := except_bind_ok h
        obtain ⟨verifier, hv, h⟩ := except_bind_ok h
        cases h
        exact ⟨tokenParam_ok hc, tokenParam_ok hr, tokenParam_ok hv⟩

theorem checkRedirect_ok {redirect : Option String} (h : checkRedirect code redirect = .ok ()) :
    redirect = some code.redirectUri := by
  unfold checkRedirect at h
  split at h
  · cases h
  · split_ifs at h with hne
    simpa using hne

theorem checkPkce_ok {verifier : Option String} (h : checkPkce p code verifier = .ok ()) :
    match code.codeChallenge, (.ok verifier : Except Unit (Option String)) with
    | none, .ok none => True
    | some challenge, .ok (some verifier) => verifyS256 p.s256 verifier challenge = true
    | _, _ => False := by
  unfold checkPkce at h
  cases hch : code.codeChallenge <;> cases verifier <;> simp_all

theorem exchangeSafe_checkCode {q : TokenParams} (hq : r.params.exchange = .ok q)
    (howner : code.clientId = r.client.id) (hnone : code.consumedAt = none)
    (h : Looked p r q code v) :
    (exchangeLaw p k start).Safe r (fun _ _ => True) (checkCode p k r q code) v := by
  obtain ⟨hcode, hredirect, hverifier⟩ := exchange_ok hq
  refine Process.Law.safe_bind (Process.Law.safe_look (fun _ _ => rfl) fun v₁ h₁ _ =>
    Process.Law.safe_ite (fun _ => trivial) fun hexp => ?_)
  refine Process.Law.safe_bind (exchangeSafe_ofExcept fun _ hred => ?_)
  refine Process.Law.safe_bind (exchangeSafe_ofExcept fun _ hpkce => ?_)
  have hlooked := h.mono h₁
  obtain ⟨y, hy, hreq, hstmt, hmem, hnow⟩ := hlooked.seen
  have hbound : Bound p r code := by
    refine ⟨howner, ⟨q.code, hcode, h.hash⟩, ?_, ?_⟩
    · rw [hredirect, checkRedirect_ok hred]
    · rw [hverifier]
      exact checkPkce_ok hpkce
  refine Process.Law.safe_bind (exchangeSafe_select fun v₂ h₂ => ?_)
  cases huser : v₂.1.users.find? (· = code.userId) with
  | none => trivial
  | some userId =>
    have hid : userId = code.userId := by simpa using List.find?_some huser
    refine Process.Law.safe_bind (Process.Law.safe_query (fun _ _ => rfl) fun v₃ h₃ _ _ =>
      Process.Law.safe_ite (fun hcov => ?_) fun _ => trivial)
    refine exchangeSafe_redeemCode ⟨hbound, hnone, ⟨y, ?_, hreq, hstmt, hmem, ?_⟩, ?_, ?_⟩
    · exact h₃.log (h₂.log hy)
    · omega
    · rw [howner, ← hid]
      exact hcov
    · exact (hlooked.kept.trans h₂.codes).trans h₃.codes

theorem exchangeSafe_exchangeCode :
    (exchangeLaw p k start).Safe r (fun _ _ => True) (exchangeCode p k r) v := by
  refine Process.Law.safe_bind (exchangeSafe_ofExcept fun q hq => ?_)
  refine Process.Law.safe_bind ((exchangeSafe_findCode q).imp fun found v₁ h₁ => ?_)
  cases found with
  | none => trivial
  | some code =>
    have hlooked := h₁ code rfl
    refine Process.Law.safe_ite (fun _ => trivial) fun howner => ?_
    have howner : code.clientId = r.client.id := by simpa using howner
    refine Process.Law.safe_ite (fun hsome => ?_) fun hnone => ?_
    · refine Process.Law.safe_seq (exchangeSafe_revokeTokensOfCode fun v' hv => ?_)
        fun _ _ _ => trivial
      have hmem : code ∈ v'.1.codes := by
        rcases hlooked.kept.trans hv.codes with hmem | ⟨hnone, -⟩
        · exact hmem
        · rw [hnone] at hsome
          cases hsome
      exact ⟨⟨howner, .inl ⟨hsome, hmem⟩⟩, code, hmem, rfl, .inl hsome⟩
    · exact exchangeSafe_checkCode hq howner (by simpa using hnone) hlooked

end Request

theorem rely_issue (v : Db × List Entry) (p : Provider) (n : NewCode) (draw : Draw) :
    ExchangeRely v (v.1.issue p n draw, v.2) := by
  unfold Db.issue
  split
  · exact .refl v
  · exact ⟨Int.le_refl _, fun c hc => .inl (List.mem_append_left _ hc), fun _ _ _ h => h,
      List.Subset.refl _⟩

theorem ExchangeInv.issue {p : Provider} {start : Db} {v : Db × List Entry}
    (h : ExchangeInv p start v) (n : NewCode) (draw : Draw) :
    ExchangeInv p start (v.1.issue p n draw, v.2) := by
  have hrely := rely_issue v p n draw
  unfold Db.issue at hrely ⊢
  split
  · exact h
  · rename_i hclash
    rw [if_neg hclash] at hrely
    refine h.of_rows hrely rfl rfl rfl ?_
    rw [List.map_append]
    refine List.nodup_append.2 ⟨h.ids, List.nodup_singleton _, fun i hi j hj => ?_⟩
    obtain ⟨c, hc, rfl⟩ := List.mem_map.1 hi
    rw [List.mem_singleton.1 hj]
    intro heq
    refine hclash (List.any_eq_true.2 ⟨c, hc, ?_⟩)
    simp [heq]

theorem exchangeLaw_keeps (p : Provider) (k : Signer) (start : Db) :
    (exchangeLaw p k start).Keeps where
  prog r v _ := Process.Law.safe_seq exchangeSafe_exchangeCode fun _ _ _ => trivial
  env e v hi := by
    have hi : ExchangeInv p start v := hi
    cases e with
    | tick d =>
      have hrely : ExchangeRely v ({ v.1 with now := v.1.now + d }, v.2) :=
        ⟨by show v.1.now ≤ v.1.now + d; omega, fun _ hc => .inl hc, fun _ _ _ h => h,
          List.Subset.refl _⟩
      exact ⟨hrely, hi.of_rows hrely rfl rfl rfl hi.ids⟩
    | issue n draw => exact ⟨rely_issue v p n draw, hi.issue n draw⟩

/-! ## Replays -/

section Replays

variable (p : Provider) (k : Signer) (r : TokenRequest)

/-- A code that is found consumed, or not there to be consumed any more, has its tokens revoked. -/
def revokesNext (r : TokenRequest) (l : Stmt) (db : Db) : Option Stmt :=
  (replayed r l db).map .revokeTokensOfCode

theorem follows_revokeTokensOfCode (code : AuthorizationCode) :
    (revokeTokensOfCode unavailable code).Follows (revokesNext r) :=
  Prog.follows_exec (fun _ => rfl) _ _

theorem follows_ofExcept {α : Type} (x : Except OidcError α) :
    (ofExcept x).Follows (revokesNext r) := by
  cases x <;> trivial

theorem follows_bindSession (code : AuthorizationCode) :
    (bindSession p r.client code).Follows (revokesNext r) := by
  unfold bindSession
  split
  · trivial
  · refine Prog.follows_bind (Prog.follows_attempt (Prog.follows_exec (fun _ => rfl) _ _))
      fun _ => ?_
    split
    · refine Prog.follows_bind (Prog.follows_attempt (Prog.follows_query (fun _ => rfl) _ _))
        fun sid => ?_
      cases sid <;> trivial
    · trivial

theorem follows_respondToken (code : AuthorizationCode) (userId : Nat) (accessToken : String) :
    (respondToken p k r.client code userId accessToken).Follows (revokesNext r) := by
  refine Prog.follows_bind (follows_bindSession p r code) fun sid => ?_
  refine Prog.follows_bind (Prog.follows_look (fun _ => rfl) _) fun now => ?_
  split <;> trivial

theorem follows_redeemCode (code : AuthorizationCode) (userId : Nat) :
    (redeemCode p k r code userId).Follows (revokesNext r) := by
  refine Prog.follows_exec_bind (fun db l' h => ?_) fun issued => ?_
  · simp only [revokesNext, replayed] at h
    split_ifs at h with hcons
    · cases h
    · simp only [Option.map_some, Option.some.injEq] at h
      subst h
      rw [not_or] at hcons
      simp only [hcons.1, hcons.2, Bool.false_eq_true, ↓reduceIte]
      exact ⟨db, none, rfl, rfl⟩
  · cases issued with
    | none =>
      exact Prog.follows_bind (Prog.follows_attempt (follows_revokeTokensOfCode r code))
        fun _ => trivial
    | some issued => exact follows_respondToken p k r code userId issued.1

theorem follows_checkCode (q : TokenParams) (code : AuthorizationCode) :
    (checkCode p k r q code).Follows (revokesNext r) := by
  refine Prog.follows_bind (Prog.follows_look (fun _ => rfl) _) fun now => ?_
  split
  · trivial
  · refine Prog.follows_bind (follows_ofExcept r _) fun _ => ?_
    refine Prog.follows_bind (follows_ofExcept r _) fun _ => ?_
    refine Prog.follows_bind (Prog.follows_query (fun _ => rfl) _ _) fun user => ?_
    cases user with
    | none => trivial
    | some userId =>
      refine Prog.follows_bind (Prog.follows_query (fun _ => rfl) _ _) fun consent => ?_
      split
      · exact follows_redeemCode p k r code userId
      · trivial

theorem follows_found (q : TokenParams) (found : Option AuthorizationCode) :
    Prog.Follows (revokesNext r) (match found with
      | none => (.fail invalidGrant : OidcM TokenResponse)
      | some code =>
        if code.clientId ≠ r.client.id then .fail invalidGrant
        else if code.consumedAt.isSome then do
          let _ ← revokeTokensOfCode unavailable code
          .fail invalidGrant
        else checkCode p k r q code) := by
  cases found with
  | none => trivial
  | some code =>
    simp only
    split_ifs
    · trivial
    · exact Prog.follows_bind (follows_revokeTokensOfCode r code) fun _ => trivial
    · exact follows_checkCode p k r q code

theorem follows_exchangeCode : (exchangeCode p k r).Follows (revokesNext r) := by
  refine Prog.follows_bind (follows_ofExcept r _) fun q => ?_
  have hrest := follows_found p k r q
  unfold findCode
  split_ifs
  · refine Prog.follows_query_bind (fun db l' h => ?_) hrest
    simp only [revokesNext, replayed, Option.map_eq_some_iff, Option.filter_eq_some_iff,
      decide_eq_true_eq] at h
    obtain ⟨code, ⟨hfind, howner, hsome⟩, rfl⟩ := h
    rw [hfind]
    simp only [howner, hsome, ne_eq, not_true_eq_false, ↓reduceIte]
    rfl
  · exact Prog.follows_bind trivial hrest

end Replays

/-! ## Runs -/

/-- Codes have their own identifiers, and a token belongs to a consumed code, which has no other. -/
structure ExchangeStart (db : Db) : Prop where
  unlocked : db.revoking = []
  ids : (db.codes.map (·.id)).Nodup
  single : (db.tokens.filterMap (·.authorizationCodeId)).Nodup
  consumed : ∀ t ∈ db.tokens, ∀ i ∈ t.authorizationCodeId,
    ∃ c ∈ db.codes, c.id = i ∧ c.consumedAt.isSome = true

theorem ExchangeStart.inv {p : Provider} {db : Db} (h : ExchangeStart db) :
    ExchangeInv p db (db, []) where
  unlocked := h.unlocked
  ids := h.ids
  single := h.single
  consumed := h.consumed
  origin _ ht := .inl (List.mem_map_of_mem ht)
  allowed _ hx := absurd hx List.not_mem_nil
  swept _ hx := absurd hx List.not_mem_nil

/-- What a run leaves: a code has one token at most, a token that was not there at the start was
issued under all its bindings, and every write was allowed. -/
structure CodesBound (p : Provider) (start : Db) (w : ExchangePool) : Prop where
  single : ∀ i, (w.state.tokens.filter (·.authorizationCodeId = some i)).length ≤ 1
  issued : ∀ t ∈ w.state.tokens,
    t.id ∈ start.tokens.map (·.id) ∨ ∃ x ∈ w.ghost, x.Issues p t
  allowed : ∀ x ∈ w.ghost, x.Allowed p w.ghost

/-- The program at index `i` finds the code consumed, or comes too late to consume it, and then
makes its next statement. -/
def Replays (p : Provider) (k : Signer) (db : Db) (code : AuthorizationCode)
    (acts : List (Act TokenRequest ExchangeEnv)) : Prop :=
  ∃ pre mid post i r l, acts = pre ++ .step i true :: (mid ++ .step i true :: post) ∧
    (∀ a ∈ mid, a.Avoids i) ∧
    (exchangeRun p k db pre).next i = some (r, l) ∧
    replayed r l (exchangeRun p k db pre).state = some code

theorem length_filter_le_one {α : Type} {f : α → Option Nat} {i : Nat} {l : List α}
    (h : (l.filterMap f).Nodup) : (l.filter (f · = some i)).length ≤ 1 := by
  have hcount := List.nodup_iff_count_le_one.1 h i
  rw [List.count_filterMap] at hcount
  rw [← List.countP_eq_length_filter]
  refine Nat.le_trans (Nat.le_of_eq (List.countP_congr fun a _ => ?_)) hcount
  simp

theorem ExchangeInv.codesBound {p : Provider} {start : Db} {w : ExchangePool}
    (h : ExchangeInv p start w.view) : CodesBound p start w where
  single _ := length_filter_le_one h.single
  issued := h.origin
  allowed := h.allowed

/-- The statement that a request makes is noted. -/
theorem mem_ghost_step {p : Provider} {k : Signer} {w : ExchangePool} {i : Nat} {r : TokenRequest}
    {l : Stmt} (hn : w.next i = some (r, l)) (hl : l.noted = true) :
    ∃ x ∈ ((exchangeSystem p k).step w (.step i true)).ghost, x.stmt = l := by
  unfold Pool.next at hn
  split at hn
  · rename_i j l' u ok err hi
    cases hn
    refine ⟨⟨r, l, w.state⟩, ?_, rfl⟩
    simp only [System.step, hi, ↓reduceIte, exchangeSystem, hl]
    exact List.mem_append_right _ (List.mem_singleton_self _)
  · cases hn

theorem meets_exchange {p : Provider} {k : Signer} {db : Db} (w : ExchangePool)
    (acts : List (Act TokenRequest ExchangeEnv)) :
    Along (exchangeSystem p k).step (Meets (exchangeLaw p k db).cond) w acts := by
  refine along_of_forall (fun w a => ?_) w acts
  unfold Meets
  split
  · exact fun _ _ => trivial
  · trivial

theorem exchange_poolOk (p : Provider) (k : Signer) {db : Db} (hdb : ExchangeStart db)
    (acts : List (Act TokenRequest ExchangeEnv)) :
    (exchangeLaw p k db).PoolOk (exchangeRun p k db acts) := by
  have hstart : (exchangeLaw p k db).PoolOk (ExchangePool.initial db) :=
    ⟨hdb.inv, fun t ht => absurd ht List.not_mem_nil⟩
  exact (Process.Law.poolOk_run (exchangeLaw_keeps p k db) hstart (meets_exchange _ acts)).1

/-- A replay ends in a revocation that is noted. -/
theorem Replays.noted {p : Provider} {k : Signer} {db : Db} (hdb : ExchangeStart db)
    {code : AuthorizationCode} {acts : List (Act TokenRequest ExchangeEnv)}
    (h : Replays p k db code acts) :
    ∃ x ∈ (exchangeRun p k db acts).ghost, x.stmt = .revokeTokensOfCode code := by
  obtain ⟨pre, mid, post, i, r, l, rfl, hmid, hnext, hrep⟩ := h
  have hprog : ∀ r, ((exchangeSystem p k).prog r).Follows (revokesNext r) :=
    fun r => Prog.follows_bind (follows_exchangeCode p k r) fun _ => Prog.follows_pure _
  have hfollowed : Followed revokesNext (exchangeRun p k db pre) :=
    followed_run hprog (fun t ht => absurd ht List.not_mem_nil) pre
  have hf : revokesNext r l (exchangeRun p k db pre).state = some (.revokeTokensOfCode code) := by
    rw [revokesNext, hrep]
    rfl
  have hrevokes := follows_next (S := exchangeSystem p k) hfollowed hnext hf hmid
  obtain ⟨x, hmem, hstmt⟩ := mem_ghost_step (p := p) (k := k) hrevokes rfl
  -- what is noted stays
  have hok := exchange_poolOk p k hdb (pre ++ .step i true :: (mid ++ [.step i true]))
  have hrely := (Process.Law.poolOk_run (exchangeLaw_keeps p k db) hok (meets_exchange _ post)).2.1
  have hacts : exchangeRun p k db (pre ++ .step i true :: (mid ++ .step i true :: post)) =
      post.foldl (exchangeSystem p k).step
        (exchangeRun p k db (pre ++ .step i true :: (mid ++ [.step i true]))) := by
    simp only [exchangeRun, List.foldl_append, List.foldl_cons, List.foldl_nil]
  have hnoted : x ∈
      (exchangeRun p k db (pre ++ .step i true :: (mid ++ [.step i true]))).ghost := by
    simp only [exchangeRun, List.foldl_append, List.foldl_cons, List.foldl_nil]
    exact hmem
  rw [hacts]
  exact ⟨x, hrely.log hnoted, hstmt⟩

/-- The exchange of codes, in every interleaving. -/
theorem codeExchange_run (p : Provider) (k : Signer) (db : Db) (hdb : ExchangeStart db)
    (acts : List (Act TokenRequest ExchangeEnv)) :
    CodesBound p db (exchangeRun p k db acts) ∧
      Along (exchangeSystem p k).step ((exchangeSystem p k).Moves Noted)
        (ExchangePool.initial db) acts ∧
      ∀ code, Replays p k db code acts →
        ∀ t ∈ (exchangeRun p k db acts).state.tokens, t.liveOf code.id = false := by
  have hok := exchange_poolOk p k hdb acts
  have hmoves := (Process.Law.poolOk_run (exchangeLaw_keeps p k db) (exchange_poolOk p k hdb [])
    (meets_exchange _ acts)).2.2
  refine ⟨hok.inv.codesBound, hmoves.imp fun w a h => ?_, fun code hrep => ?_⟩
  · unfold System.Moves at h ⊢
    split at h
    · exact fun t ht => (h t ht).2
    · trivial
  · obtain ⟨x, hx, hstmt⟩ := hrep.noted hdb
    exact (hok.inv.swept x hx code hstmt).1

/-! ## Two requests race for one code -/

/-- A provider whose digests are the texts themselves. -/
def raceProvider : Provider where
  hash := id
  s256 := id
  accessTokenTtlSecs := 600
  authorizationCodeTtlSecs := 60
  backchannelLogout := true

/-- A signer that signs everything alike. -/
def raceSigner : Signer where
  issuer := "https://float.example"
  idTokenTtlSecs := 300
  atHash := id
  sign _ := some "signed"

/-- An active client. -/
def raceClient : OidcClient := { id := 1, clientId := "app", active := true }

/-- A code that is waiting to be exchanged. -/
def raceDb : Db where
  now := 10
  clients := [raceClient]
  users := [7]
  sessions := [{ id := 3, sid := "s", authTime := 0, lastSeenAt := 0 }]
  sessionClients := []
  transactions := []
  codes := [{
    id := 5, codeHash := "code", clientId := 1, userId := 7, sessionId := some 3
    redirectUri := "https://app.example/cb", scopes := ["openid"], nonce := none
    codeChallenge := none, authTime := 0, createdAt := 0, expiresAt := 60, consumedAt := none }]
  tokens := []
  consents := [{
    id := 4, userId := 7, clientId := 1, scopes := ["openid"], grantedAt := 0, updatedAt := 0
    lastUsedAt := none, revokedAt := none }]
  revoking := []
  xids := []

/-- A request with this code. -/
def raceRequest (draw : Draw) : TokenRequest where
  client := raceClient
  params := [("grant_type", "authorization_code"), ("code", "code"),
    ("redirect_uri", "https://app.example/cb")]
  draw := draw

/-- Both requests read the code before one of them consumes it. -/
def raceActs : List (Act TokenRequest ExchangeEnv) :=
  [.spawn (raceRequest ⟨21, "first"⟩), .spawn (raceRequest ⟨22, "second"⟩)] ++
    List.replicate 4 (.step 0 true) ++ List.replicate 5 (.step 1 true) ++
    List.replicate 4 (.step 0 true)

/-- The loser of the race revokes the token of the winner. -/
theorem codeExchange_run_race :
    (exchangeRun raceProvider raceSigner raceDb raceActs).state.tokens.map
        (fun t => (t.id, t.revokedAt)) = [(22, some 10)] ∧
      CodesBound raceProvider raceDb (exchangeRun raceProvider raceSigner raceDb raceActs) := by
  refine ⟨by decide +kernel, (codeExchange_run raceProvider raceSigner raceDb ?_ raceActs).1⟩
  exact ⟨rfl, by decide, by decide, fun t ht => absurd ht List.not_mem_nil⟩

end FloatCtf.Oidc
