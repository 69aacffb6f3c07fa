import FloatCtf.Oidc.WebSession

/-!
# What the statements on accounts do

`Change` says for every statement of a request on the accounts of a browser how it changes the
containers and the sessions, together with what the request has made sure of before it: a session is
inserted beside fewer than `maxBrowserAccounts` others that are not of its user, and a session is
restored only if it is younger than the last sign-out in the view.

The lemmas follow the programs, and note of each one the kind of statements it makes.
-/

namespace FloatCtf.Oidc.Accounts

open Process

/-! ## Kinds of statements -/

/-- The statements with which a request loads its view. -/
def loads : Stmt → Bool
  | .clock | .select | .insertContainer _ | .renew | .move .. => true
  | _ => false

/-- The statements that sign accounts out. -/
def signsOut : Stmt → Bool
  | .clock | .revoke .. | .sweep .. | .setWeb .. | .revokeContainer _ => true
  | _ => false

/-- The statements that sign an account in. -/
def signsIn : Stmt → Bool
  | .clock | .insertContainer _ | .rotate .. | .revoke .. | .insertSession .. | .setWeb .. => true
  | _ => false

/-- The statements of the back-channel logout. -/
def mails : Stmt → Bool
  | .bindings _ | .insertDelivery .. | .findClient _ | .post .. | .mark _ | .retry _ | .claim => true
  | _ => false

/-! ## Changes -/

/-- The session as revoked. -/
def revokeAt (now : Int) (reason : RevokeReason) (s : Session) : Session :=
  { s with revokedAt := some now, revokedReason := some reason }

/-- What a statement may change. -/
def Change (p : Provider) (l : Stmt) (db db' : Db) : Prop :=
  match l with
  | .clock | .select => db' = db
  | .insertContainer hash => db' = db ∨ ∃ c : Container, c.secretHash = hash ∧
      c.webSessionId = none ∧ (∀ r ∈ db.containers, r.id ≠ c.id) ∧
      db' = { db with containers := db.containers ++ [c] }
  | .renew => ∃ id lastSeenAt expiresAt,
      db' = editContainer id (fun r => { r with lastSeenAt, expiresAt }) db
  | .rotate c secretHash => (db' = db ∧ ∃ r ∈ db.containers, r.secretHash = secretHash) ∨
      ∃ lastSeenAt expiresAt, db' = editContainer c (fun r => { r with secretHash, lastSeenAt, expiresAt }) db
  | .move view id => db' = editSessions (fun s => s.id = id)
      (fun s => { s with containerId := view.container.map (·.id) }) db
  | .revoke _ ids reason _ => db' =
      editSessions (fun s => s.id ∈ ids && s.revokedAt.isNone) (revokeAt db.now reason) db
  | .sweep _ c reason => db' =
      editSessions (fun s => s.containerId = some c && s.revokedAt.isNone)
        (revokeAt db.now reason) db
  | .insertSession view s _ =>
      (view.accounts.length < p.maxBrowserAccounts ∧ (∀ t ∈ view.accounts, t.userId ≠ s.userId) ∧
        s.containerId = view.container.map (·.id)) ∧
      (db' = db ∨ (∀ t ∈ db.sessions, t.id ≠ s.id) ∧ db' = { db with sessions := db.sessions ++ [s] })
  | .setWeb view c s signedOut restore =>
      (restore = true → ∃ r t, view.container = some r ∧ r.id = c ∧ s = some t ∧
        t ∈ view.restorable) ∧
      db' = editContainer c (fun r =>
        { r with webSessionId := s.map (·.id), webSignedOutAt := signedOut.or r.webSignedOutAt }) db
  | .revokeContainer c => db' =
      editContainer c (fun r => { r with revokedAt := some db.now, webSessionId := none }) db
  | _ => db'.containers = db.containers ∧ db'.sessions = db.sessions ∧ db'.now = db.now

/-- A statement of some kind. -/
def Only (p : Provider) (kind : Stmt → Bool) (l : Stmt) (db db' : Db) : Prop :=
  kind l = true ∧ Change p l db db'

section Programs

variable {p : Provider} {kind : Stmt → Bool}

theorem does_select {α : Type} (f : Db → α) : (select f).Does (Only p loads) :=
  Prog.does_query (fun _ => ⟨rfl, rfl⟩) _ f

theorem does_clock (hl : kind .clock = true) : clock.Does (Only p kind) :=
  Prog.does_look (fun _ => ⟨hl, rfl⟩) _

theorem does_write {l : Stmt} {f : Db → Db} (hl : kind l = true)
    (hf : ∀ db, Change p l db (f db)) : (write l f).Does (Only p kind) :=
  Prog.does_exec_after fun db => ⟨hl, hf db⟩

theorem does_check {α : Type} {T : Stmt → Db → Db → Prop} (r : Except AppError α) :
    (check r).Does T := by
  cases r <;> trivial

/-! ### Loading -/

theorem does_findValidSession (value : String) :
    (findValidSession p value).Does (Only p loads) := by
  unfold findValidSession
  exact Prog.does_if (fun _ => trivial) fun _ => does_select _

theorem does_ensureContainer (hl : ∀ h, kind (.insertContainer h) = true)
    (hc : kind .clock = true) (draws : Draws) (b : Browser) :
    (ensureContainer p draws b).Does (Only p kind) := by
  unfold ensureContainer
  split
  · trivial
  · refine Prog.does_bind (does_clock hc) fun now => Prog.does_bind ?_ fun _ => trivial
    refine Prog.does_exec (fun db => ⟨hl _, .inl rfl⟩) fun db db' _ h => ⟨hl _, .inr ?_⟩
    split_ifs at h with hclash
    cases h
    refine ⟨_, rfl, rfl, fun r hr hid => hclash ?_, rfl⟩
    exact List.any_eq_true.2 ⟨r, hr, by simp [hid]⟩

theorem does_loadLegacy (draws : Draws) (sso : Option String) :
    (loadLegacy p draws sso).Does (Only p loads) := by
  unfold loadLegacy
  split
  · trivial
  · refine Prog.does_bind (does_findValidSession _) fun found => ?_
    split
    · trivial
    · refine Prog.does_bind (does_ensureContainer (fun _ => rfl) rfl draws {}) fun b => ?_
      exact Prog.does_bind (does_write rfl fun db => rfl) fun _ => trivial

theorem does_renewIfStale (b : Browser) : (renewIfStale p b).Does (Only p loads) := by
  unfold renewIfStale
  split
  · trivial
  · refine Prog.does_bind (does_clock rfl) fun now => ?_
    refine Prog.does_if (fun _ => trivial) fun _ => ?_
    exact Prog.does_bind (does_write rfl fun db => ⟨_, _, _, rfl⟩) fun _ => trivial

theorem does_load (draws : Draws) (cookies : Cookies) :
    (load p draws cookies).Does (Only p loads) := by
  unfold load
  split_ifs
  · unfold loadSingle
    split
    · trivial
    · exact Prog.does_bind (does_findValidSession _) fun _ => trivial
  · split
    · refine Prog.does_bind (does_select _) fun found => ?_
      split
      · exact does_loadLegacy draws cookies.sso
      · exact Prog.does_bind (does_select _) fun _ => does_renewIfStale _
    · exact does_loadLegacy draws cookies.sso

/-! ### Signing out -/

theorem does_revokeSessions (hl : ∀ v ids reason clears, kind (.revoke v ids reason clears) = true)
    (view : Browser) (ids : List Nat) (reason : RevokeReason) (clears : Option Nat) :
    (revokeSessions view ids reason clears).Does (Only p kind) := by
  unfold revokeSessions
  exact Prog.does_if (fun _ => trivial) fun _ => does_write (hl _ _ _ _) fun db => rfl

/-- The pointer is set; it is restored only by the request that has checked it. -/
theorem does_setWebSession (hc : kind .clock = true)
    (hl : ∀ v c s t r, kind (.setWeb v c s t r) = true) {view : Browser} {c : Container}
    {s : Option Session} {signedOut restore : Bool}
    (hr : restore = true → view.container = some c ∧ ∃ t, s = some t ∧ t ∈ view.restorable) :
    (setWebSession view c s signedOut restore).Does (Only p kind) := by
  refine Prog.does_bind (does_clock hc) fun now => Prog.does_bind ?_ fun _ => trivial
  refine does_write (hl _ _ _ _ _) fun db => ⟨fun h => ?_, ?_⟩
  · obtain ⟨hview, t, hs, ht⟩ := hr h
    exact ⟨c, t, hview, rfl, hs, ht⟩
  · cases signedOut <;> rfl

theorem does_signOutAccount (b : Browser) (id : Nat) (reason : RevokeReason) :
    (signOutAccount b id reason).Does (Only p signsOut) := by
  unfold signOutAccount
  split
  · trivial
  · refine Prog.does_bind (does_revokeSessions (fun _ _ _ _ => rfl) _ _ _ _) fun _ => ?_
    dsimp only
    split
    · trivial
    · refine Prog.does_if (fun _ => ?_) fun _ => trivial
      refine Prog.does_bind (does_setWebSession rfl (fun _ _ _ _ _ => rfl) ?_) fun _ => trivial
      exact fun h => nomatch h

theorem does_signOutAccounts : ∀ (ss : List Session) (b : Browser),
    (signOutAccounts ss b).Does (Only p signsOut)
  | [], _ => trivial
  | s :: ss, b => Prog.does_bind (does_signOutAccount b s.id .globalLogout)
      fun b => does_signOutAccounts ss b

theorem does_signOutBrowser (b : Browser) (reason : RevokeReason) :
    (signOutBrowser b reason).Does (Only p signsOut) := by
  refine Prog.does_bind (does_revokeSessions (fun _ _ _ _ => rfl) _ _ _ _) fun _ => ?_
  split
  · trivial
  · refine Prog.does_bind (Prog.does_bind ?_ fun _ => ?_) fun _ => trivial
    · exact does_write rfl fun db => rfl
    · exact does_write rfl fun db => rfl

theorem does_revokeForLogout (b : Browser) (targets : List Session) :
    (revokeForLogout p b targets).Does (Only p signsOut) := by
  unfold revokeForLogout
  split_ifs
  · exact does_signOutBrowser b .globalLogout
  · exact does_signOutAccounts targets b
  · exact Prog.does_bind (does_revokeSessions (fun _ _ _ _ => rfl) _ _ _ _) fun _ => trivial

/-! ### Signing in -/

theorem length_keptBy_lt (hmax : 1 ≤ p.maxBrowserAccounts) (b : Browser) (userId : Nat) :
    (keptBy p b userId).length < p.maxBrowserAccounts := by
  unfold keptBy
  split_ifs with h
  · rw [List.length_take]
    omega
  · omega

theorem userId_ne_of_mem_keptBy {b : Browser} {userId : Nat} {t : Session}
    (ht : t ∈ keptBy p b userId) : t.userId ≠ userId := by
  have hmem : t ∈ others b userId := by
    unfold keptBy at ht
    split_ifs at ht
    · exact List.mem_of_mem_take ht
    · exact ht
  simpa using (List.mem_filter.1 hmem).2

theorem does_rotateSecret (hl : ∀ c h, kind (.rotate c h) = true) (hc : kind .clock = true)
    (draws : Draws) (b : Browser) : (rotateSecret p draws b).Does (Only p kind) := by
  unfold rotateSecret
  split
  · trivial
  · refine Prog.does_bind (does_clock hc) fun now => Prog.does_bind ?_ fun _ => trivial
    refine Prog.does_exec_cases (fun db db' _ h => ⟨hl _ _, .inr ?_⟩)
      fun db _ h => ⟨hl _ _, .inl ⟨rfl, ?_⟩⟩
    · split_ifs at h
      cases h
      exact ⟨_, _, rfl⟩
    · split_ifs at h with hclash
      obtain ⟨r, hr, hsame⟩ := List.any_eq_true.1 hclash
      exact ⟨r, hr, by simpa using (Bool.and_eq_true_iff.1 hsame).2⟩

theorem does_createSessionIn {view : Browser} {draws : Draws} {userId : Nat}
    {authTime ttlSecs : Int} {clears : Option Nat}
    (hlen : view.accounts.length < p.maxBrowserAccounts)
    (husers : ∀ t ∈ view.accounts, t.userId ≠ userId) :
    (createSessionIn view p draws userId authTime ttlSecs clears).Does (Only p signsIn) := by
  refine Prog.does_bind (does_clock rfl) fun now => ?_
  refine Prog.does_exec (fun db => ⟨rfl, ⟨hlen, husers, rfl⟩, .inl rfl⟩) fun db db' _ h => ?_
  split_ifs at h with hclash
  cases h
  refine ⟨rfl, ⟨hlen, husers, rfl⟩, .inr ⟨fun t ht hid => hclash ?_, rfl⟩⟩
  exact List.any_eq_true.2 ⟨t, ht, by simp [hid]⟩

theorem does_clearPointer (b : Browser) (drops : Bool) :
    (clearPointer b drops).Does (Only p signsIn) := by
  unfold clearPointer
  split
  · trivial
  · refine Prog.does_if (fun _ => ?_) fun _ => trivial
    refine Prog.does_bind (does_setWebSession rfl (fun _ _ _ _ _ => rfl) ?_) fun _ => trivial
    exact fun h => nomatch h

theorem does_addAccount (hmax : 1 ≤ p.maxBrowserAccounts) (draws : Draws) (b : Browser)
    (userId : Nat) (authTime ttlSecs : Int) :
    (addAccount p draws b userId authTime ttlSecs).Does (Only p signsIn) := by
  refine Prog.does_bind (does_ensureContainer (fun _ => rfl) rfl draws b) fun b => ?_
  refine Prog.does_bind (does_rotateSecret (fun _ _ => rfl) rfl draws b) fun b => ?_
  refine Prog.does_bind (does_revokeSessions (fun _ _ _ _ => rfl) _ _ _ _) fun _ => ?_
  refine Prog.does_bind (does_revokeSessions (fun _ _ _ _ => rfl) _ _ _ _) fun _ => ?_
  refine Prog.does_bind (does_createSessionIn (length_keptBy_lt hmax b userId) fun t ht => ?_)
    fun session => ?_
  · exact userId_ne_of_mem_keptBy ht
  · exact Prog.does_bind (does_clearPointer _ _) fun _ => trivial

theorem does_activate (hc : kind .clock = true)
    (hl : ∀ v c s t r, kind (.setWeb v c s t r) = true) {b : Browser} {session : Session}
    {restore : Bool} (hr : restore = true → session ∈ b.restorable) :
    (activate b session restore).Does (Only p kind) := by
  unfold activate
  split
  · trivial
  · next c hview =>
    refine Prog.does_bind (does_setWebSession hc hl fun h => ?_) fun _ => trivial
    exact ⟨hview, session, rfl, hr h⟩

/-! ### The back-channel logout -/

/-- A session by its two names. -/
def Session.name (s : Session) : Nat × String := (s.id, s.sid)

/-- What no statement undoes: the bindings and the deliveries of the applications that stay. -/
structure Grows (db db' : Db) : Prop where
  clients : db'.clients = db.clients
  sessionClients : db.sessionClients ⊆ db'.sessionClients
  deliveries : ∀ d ∈ db.deliveries, ∃ d' ∈ db'.deliveries, d'.clientId = d.clientId ∧ d'.sid = d.sid
  names : db'.sessions.map (·.name) = db.sessions.map (·.name)

theorem Grows.refl (db : Db) : Grows db db :=
  ⟨rfl, fun _ h => h, fun d hd => ⟨d, hd, rfl, rfl⟩, rfl⟩

/-- A statement of the back-channel logout, which leaves containers and sessions alone. -/
def Mail (p : Provider) (l : Stmt) (db db' : Db) : Prop := Only p mails l db db' ∧ Grows db db'

/-- Deliveries change in place. -/
theorem grows_map {f : Delivery → Delivery}
    (hf : ∀ d, (f d).clientId = d.clientId ∧ (f d).sid = d.sid) (db : Db) :
    Grows db { db with deliveries := db.deliveries.map f } :=
  ⟨rfl, fun _ h => h, fun d hd => ⟨f d, List.mem_map_of_mem hd, hf d⟩, rfl⟩

theorem grows_editDelivery (id : Nat) {f : Delivery → Delivery}
    (hf : ∀ d, (f d).clientId = d.clientId ∧ (f d).sid = d.sid) (db : Db) :
    Grows db (editDelivery id f db) := by
  refine grows_map (fun d => ?_) db
  split_ifs
  · exact hf d
  · exact ⟨rfl, rfl⟩

theorem does_enqueueClients (batchId : Nat) (session : Session) : ∀ clients : List Client,
    (enqueueClients p batchId session clients).Does (Mail p)
  | [] => trivial
  | c :: cs => by
    have ih := does_enqueueClients batchId session cs
    have hrow : (insertDelivery (newDelivery p batchId session c)).Does (Mail p) := by
      refine Prog.does_exec_after fun db => 
        ⟨⟨rfl, rfl, rfl, rfl⟩, rfl, fun _ h => h, fun d hd => ?_, rfl⟩
      exact ⟨d, List.mem_append_left _ hd, rfl, rfl⟩
    unfold enqueueClients
    refine Prog.does_if (fun _ => ?_) fun _ => ih
    exact Prog.does_bind hrow fun _ => Prog.does_bind ih fun _ => trivial

theorem does_enqueue (batchId : Nat) : ∀ targets : List Session,
    (enqueue p batchId targets).Does (Mail p)
  | [] => trivial
  | s :: ss => by
    unfold enqueue
    refine Prog.does_bind (Prog.does_query (fun db => ⟨⟨rfl, rfl, rfl, rfl⟩, .refl db⟩) _ _) fun clients => ?_
    refine Prog.does_bind (does_enqueueClients batchId s clients) fun _ => ?_
    exact Prog.does_bind (does_enqueue batchId ss) fun _ => trivial

theorem does_mark {row : Delivery} {status : DeliveryStatus} {httpStatus : Option Nat}
    {error jti : Option String} : (mark row status httpStatus error jti).Does (Mail p) := by
  refine Prog.does_exec_after fun db =>
    ⟨⟨rfl, rfl, rfl, rfl⟩, grows_editDelivery row.id (fun d => ?_) db⟩
  exact ⟨rfl, rfl⟩

theorem does_retryOrFail {row : Delivery} {httpStatus : Option Nat} {reason : String}
    {jti : Option String} : (retryOrFail row httpStatus reason jti).Does (Mail p) := by
  unfold retryOrFail
  refine Prog.does_if (fun _ => does_mark) fun _ => ?_
  refine Prog.does_exec_after fun db =>
    ⟨⟨rfl, rfl, rfl, rfl⟩, grows_editDelivery row.id (fun d => ?_) db⟩
  exact ⟨rfl, rfl⟩

theorem does_deliverOne (row : Delivery) (a : Attempt) : (deliverOne row a).Does (Mail p) := by
  refine Prog.does_bind (Prog.does_query (fun db => ⟨⟨rfl, rfl, rfl, rfl⟩, .refl db⟩) _ _) fun client => ?_
  have hpost : (post row a).Does (Mail p) := 
    Prog.does_query (fun db => ⟨⟨rfl, rfl, rfl, rfl⟩, .refl db⟩) _ _
  have hresult (r : PostResult) : (handleResult row a.jti r).Does (Mail p) := by
    cases r with
    | signingFailed => exact does_retryOrFail
    | refused reason => exact does_mark
    | transient reason => exact does_retryOrFail
    | status code =>
      refine Prog.does_if (fun _ => does_mark) fun _ => ?_
      exact Prog.does_if (fun _ => does_mark) fun _ => does_retryOrFail
  split
  · exact does_mark
  · split
    · exact does_mark
    · exact Prog.does_bind hpost hresult

theorem does_deliverBatch (attempt : Nat → Attempt) (turns : List Turn) (rows : List Delivery) :
    (deliverBatch attempt turns rows).Does (Mail p) := by
  refine Prog.does_joinAll fun q hq => ?_
  obtain ⟨row, -, rfl⟩ := List.mem_map.1 hq
  exact does_deliverOne row (attempt row.id)

theorem does_retryDue (skip : List Nat) (attempt : Nat → Attempt) (turns : List Turn) :
    (retryDue p skip attempt turns).Does (Mail p) := by
  refine Prog.does_bind (Prog.does_exec_after fun db =>
    ⟨⟨rfl, rfl, rfl, rfl⟩, grows_map (fun d => ?_) db⟩)
    fun rows => does_deliverBatch attempt turns rows
  split_ifs <;> exact ⟨rfl, rfl⟩

end Programs

end FloatCtf.Oidc.Accounts
