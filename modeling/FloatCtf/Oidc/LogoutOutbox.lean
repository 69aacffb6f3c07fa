import FloatCtf.Oidc.AccountSteps
import FloatCtf.Process.Duty
import FloatCtf.Process.Table

/-!
# The outbox of the back-channel logout

An application that has received a token under a session should learn of its global logout.  The
sessions are revoked first and the deliveries are written after that, in statements of their own,
and the result of an attempt is written over whatever the row has become.

`outbox_run` shows what holds in every run in which no logout is lost or fails between its
revocations and its last delivery, no session is revoked that the logout does not know of, and an
attempt writes its result while the row is as it was read: every application that was to be notified
has a delivery, a delivery that has ended stays as it is, its attempts only grow, to at most
`maxAttempts`, and it fails only for one of the stated reasons.
-/

namespace FloatCtf.Oidc.Accounts

open Process

/-! ## The system -/

/-- The jobs that write to the outbox, and the changes of the clients. -/
inductive OutboxJob where
  | logoutGlobal (r : Request) (draws : LogoutDraws)
  | endSession (r : Request) (hintSid : Option String) (hintSub : Option Nat) (draws : LogoutDraws)
  | retry (skip : List Nat) (attempt : Nat → Attempt) (turns : List Turn)
  | setClients (clients : List Client)
  | record (sessionId clientId : Nat)

/-- The program of a job. -/
def OutboxJob.prog (p : Provider) : OutboxJob → AccountM Unit
  | logoutGlobal r draws => Accounts.logoutGlobal p r draws
  | endSession r hintSid hintSub draws => endSessionConfirm p r hintSid hintSub draws
  | retry skip attempt turns => retryDue p skip attempt turns
  | setClients clients => write (.setClients clients) (·.withClients clients)
  | record sessionId clientId => recordSessionClient sessionId clientId

/-- The application and the session that a delivery is about. -/
abbrev Notice := Nat × String

/-- The delivery is there. -/
def Db.Served (db : Db) (k : Notice) : Prop := ∃ d ∈ db.deliveries, d.clientId = k.1 ∧ d.sid = k.2

instance (db : Db) (k : Notice) : Decidable (db.Served k) :=
  inferInstanceAs (Decidable (∃ d ∈ db.deliveries, d.clientId = k.1 ∧ d.sid = k.2))

/-- The applications that are to be notified of the end of the session. -/
def Db.notified (db : Db) (s : Session) : List Client :=
  (db.boundClients s.id).filter (·.notifiable)

/-- The session has given a token to the application, which can be notified. -/
def Db.Due (db : Db) (k : Notice) : Prop :=
  ∃ s ∈ db.sessions, s.sid = k.2 ∧ ∃ c ∈ db.notified s, c.id = k.1

instance (db : Db) (k : Notice) : Decidable (db.Due k) :=
  inferInstanceAs (Decidable (∃ s ∈ db.sessions, s.sid = k.2 ∧ ∃ c ∈ db.notified s, c.id = k.1))

/-- What is due for some sessions. -/
def Db.notices (db : Db) (q : Session → Bool) : List Notice :=
  (db.sessions.filter q).flatMap fun s => (db.notified s).map fun c => (c.id, s.sid)

/-- What is noted of a run: the notices that are owed, and what became of the attempts for each
delivery. -/
structure Notes where
  owed : List Notice := []
  tried : List Nat := []
  refused : List Nat := []
  rejected : List Nat := []
  orphaned : List Nat := []

/-- What the notes learn of an attempt. -/
def Notes.watchPost (row : Delivery) (result : PostResult) (g : Notes) : Notes :=
  let g := { g with tried := row.id :: g.tried }
  match result with
  | .refused _ => { g with refused := row.id :: g.refused }
  | .status code => if code = 400 then { g with rejected := row.id :: g.rejected } else g
  | _ => g

/-- An application that cannot be notified any more, before a delivery was written, is owed
nothing. -/
def Notes.watch (_ : OutboxJob) (l : Stmt) (db : Db) (g : Notes) : Notes :=
  match l with
  | .revoke _ ids .globalLogout _ =>
    { g with owed := db.notices (fun s => s.id ∈ ids && s.revokedAt.isNone) ++ g.owed }
  | .sweep _ c .globalLogout =>
    { g with owed := db.notices (fun s => s.containerId = some c && s.revokedAt.isNone) ++ g.owed }
  | .setClients clients =>
    { g with owed := g.owed.filter fun k =>
        (db.withClients clients).Served k ∨ (db.withClients clients).Due k }
  | .findClient row =>
    match db.clients.find? (·.id = row.clientId) with
    | some c => if c.backchannelLogoutUri.isSome then g
        else { g with orphaned := row.id :: g.orphaned }
    | none => { g with orphaned := row.id :: g.orphaned }
  | .post row a => g.watchPost row a.result
  | _ => g

/-- The jobs, with the notes as ghost state. -/
def outboxSystem (p : Provider) : System Stmt Db AppError Notes OutboxJob Nat where
  prog := OutboxJob.prog p
  env d db := { db with now := db.now + d }
  watch := Notes.watch

/-- The jobs under way. -/
abbrev OutboxPool := Pool Stmt Db AppError Notes OutboxJob

/-- Nothing has been logged out yet. -/
def OutboxPool.initial (db : Db) : OutboxPool := { state := db, ghost := {}, threads := [] }

/-! ## What the statements do -/

/-- Only the containers change, and what a session has beside its name. -/
structure Frame (db db' : Db) : Prop where
  clients : db'.clients = db.clients
  sessionClients : db'.sessionClients = db.sessionClients
  deliveries : db'.deliveries = db.deliveries
  nextDelivery : db'.nextDelivery = db.nextDelivery
  names : db'.sessions.map (·.name) = db.sessions.map (·.name)

theorem Frame.refl (db : Db) : Frame db db := ⟨rfl, rfl, rfl, rfl, rfl⟩

theorem frame_editContainer (id : Nat) (f : Container → Container) (db : Db) :
    Frame db (editContainer id f db) := ⟨rfl, rfl, rfl, rfl, rfl⟩

theorem frame_editSessions {q : Session → Bool} {f : Session → Session}
    (hf : ∀ s, (f s).id = s.id ∧ (f s).sid = s.sid) (db : Db) :
    Frame db (editSessions q f db) := by
  refine ⟨rfl, rfl, rfl, rfl, ?_⟩
  simp only [editSessions, List.map_map]
  refine List.map_congr_left fun s _ => ?_
  simp only [Function.comp]
  split_ifs
  · rw [Session.name, (hf s).1, (hf s).2, Session.name]
  · rfl

/-- A statement that loads a view or signs accounts out. -/
def shrinks (l : Stmt) : Bool := loads l || signsOut l

section Effects

variable {p : Provider} {kind : Stmt → Bool} {l : Stmt} {db db' : Db}

theorem Only.of_kind {kind' : Stmt → Bool} (h : Only p kind l db db')
    (hk : ∀ l, kind l = true → kind' l = true) : Only p kind' l db db' := ⟨hk l h.1, h.2⟩

theorem Only.frame (h : Only p shrinks l db db') : Frame db db' := by
  obtain ⟨hl, h⟩ := h
  cases l with
  | clock => exact Eq.symm h ▸ Frame.refl db
  | select => exact Eq.symm h ▸ Frame.refl db
  | insertContainer hash =>
    rcases h with rfl | ⟨c, -, -, -, rfl⟩
    · exact .refl db'
    · exact ⟨rfl, rfl, rfl, rfl, rfl⟩
  | renew =>
    obtain ⟨id, lastSeenAt, expiresAt, rfl⟩ := h
    exact frame_editContainer _ _ db
  | move view id =>
    obtain rfl := h
    refine frame_editSessions (fun s => ?_) db
    exact ⟨rfl, rfl⟩
  | revoke view ids reason clears =>
    obtain rfl := h
    refine frame_editSessions (fun s => ?_) db
    exact ⟨rfl, rfl⟩
  | sweep view c reason =>
    obtain rfl := h
    refine frame_editSessions (fun s => ?_) db
    exact ⟨rfl, rfl⟩
  | setWeb view c s signedOut restore =>
    obtain ⟨-, rfl⟩ := h
    exact frame_editContainer _ _ db
  | revokeContainer c =>
    obtain rfl := h
    exact frame_editContainer _ _ db
  | _ => cases hl

/-- What a statement does to the tables: it sets the clients, or the tables only grow. -/
def Effect (l : Stmt) (db db' : Db) : Prop :=
  match l with
  | .setClients clients => db' = db.withClients clients
  | _ => Grows db db'

/-- No session is revoked. -/
def quiet : Stmt → Bool
  | .revoke .. | .sweep .. => false
  | _ => true

theorem Frame.grows (h : Frame db db') : Grows db db' :=
  ⟨h.clients, h.sessionClients ▸ fun _ hb => hb, h.deliveries ▸ fun d hd => ⟨d, hd, rfl, rfl⟩,
    h.names⟩

theorem effect_of_grows (hl : ∀ cs, l ≠ .setClients cs) (h : Grows db db') : Effect l db db' := by
  unfold Effect
  split
  · exact absurd rfl (hl _)
  · exact h

theorem Only.effect (h : Only p shrinks l db db') : Effect l db db' := by
  refine effect_of_grows (fun cs hl => ?_) h.frame.grows
  have := h.1
  rw [hl] at this
  cases this

/-- A statement that revokes no session, with what it does to the tables. -/
def Quiet (l : Stmt) (db db' : Db) : Prop := quiet l = true ∧ Effect l db db'

theorem loads_shrinks (l : Stmt) (h : loads l = true) : shrinks l = true := by
  simp [shrinks, h]

theorem signsOut_shrinks (l : Stmt) (h : signsOut l = true) : shrinks l = true := by
  simp [shrinks, h]

theorem Only.quiet (h : Only p loads l db db') : Quiet l db db' := by
  refine ⟨?_, (h.of_kind loads_shrinks).effect⟩
  have hl := h.1
  cases l <;> first | rfl | cases hl

theorem Mail.quiet (h : Mail p l db db') : Quiet l db db' := by
  have hl := h.1.1
  refine ⟨?_, effect_of_grows (fun cs heq => ?_) h.2⟩
  · cases l <;> first | rfl | cases hl
  · rw [heq] at hl
    cases hl

theorem does_recordSessionClient (sessionId clientId : Nat) :
    (recordSessionClient sessionId clientId).Does Quiet := by
  refine Prog.does_exec_after fun db => ⟨rfl, ?_⟩
  simp only [Prog.after]
  split_ifs
  · exact .refl db
  · exact ⟨rfl, fun _ h => List.mem_append_left _ h, fun d hd => ⟨d, hd, rfl, rfl⟩, rfl⟩

theorem Quiet.effect (h : Quiet l db db') : Effect l db db' := h.2

theorem does_globalLogout (draws : LogoutDraws) (b : Browser) (targets : List Session) :
    (globalLogout p draws b targets).Does Effect := by
  refine Prog.does_bind ((does_select (p := p) _).mono fun _ _ _ h => h.quiet.effect) fun _ => ?_
  refine Prog.does_bind ((does_revokeForLogout b targets).mono fun _ _ _ h =>
    (h.of_kind signsOut_shrinks).effect) fun _ => ?_
  refine Prog.does_bind ((does_enqueue draws.batchId targets).mono fun _ _ _ h => h.quiet.effect)
    fun rows => ?_
  exact Prog.does_bind ((does_deliverBatch (p := p) draws.attempt draws.turns rows).mono fun _ _ _ h =>
    h.quiet.effect) fun _ => trivial

/-- What every job of the outbox does. -/
theorem does_prog (j : OutboxJob) : (j.prog p).Does Effect := by
  have hload (draws : Draws) (cookies : Cookies) : (load p draws cookies).Does Effect :=
    (does_load draws cookies).mono fun _ _ _ h => h.quiet.effect
  cases j with
  | logoutGlobal r draws =>
    refine Prog.does_bind (hload r.draws r.cookies) fun b => ?_
    refine Prog.does_bind (does_check _) fun _ => ?_
    split
    · trivial
    · exact Prog.does_bind (does_globalLogout draws b _) fun _ => trivial
  | endSession r hintSid hintSub draws =>
    refine Prog.does_bind (hload r.draws r.cookies) fun b => ?_
    exact Prog.does_bind (does_globalLogout draws b _) fun _ => trivial
  | retry skip attempt turns => exact (does_retryDue skip attempt turns).mono fun _ _ _ h => h.quiet.effect
  | setClients clients => exact Prog.does_exec_after fun db => rfl
  | record sessionId clientId =>
    exact (does_recordSessionClient sessionId clientId).mono fun _ _ _ => Quiet.effect

end Effects

/-! ## Duties -/

/-- The statements of a logout from its first revocation to its last delivery. -/
def inWindow : Stmt → Bool
  | .clock | .revoke .. | .sweep .. | .setWeb .. | .revokeContainer .. | .bindings ..
  | .insertDelivery .. => true
  | _ => false

/-- The sweep of a container revokes nothing that the logout has not loaded. -/
def SweepsKnown (l : Stmt) (db : Db) : Prop :=
  match l with
  | .sweep view c .globalLogout => ∀ s ∈ db.sessions, s.containerId = some c →
      s.revokedAt = none → s.id ∈ view.accounts.map (·.id)
  | _ => True

instance (l : Stmt) (db : Db) : Decidable (SweepsKnown l db) := by
  unfold SweepsKnown
  split <;> infer_instance

/-- The notices that the statement makes due. -/
def Opens (l : Stmt) (db : Db) (k : Notice) : Prop :=
  match l with
  | .revoke _ ids .globalLogout _ => k ∈ db.notices fun s => s.id ∈ ids && s.revokedAt.isNone
  | .sweep _ c .globalLogout => k ∈ db.notices fun s =>
      s.containerId = some c && s.revokedAt.isNone
  | _ => False

/-- Over the sessions of the directory, which nothing changes. -/
def duties (dir : List (Nat × String)) : Duties Stmt Db Notes Notice where
  ok db := db.sessions.map (·.name) = dir
  cond := SweepsKnown
  opens := Opens
  due k db := db.Due k
  paid k db := db.Served k
  window := inWindow
  owed := Notes.owed

section Duties

variable {dir : List (Nat × String)} {p : Provider} {db : Db} {k : Notice}

theorem name_mem (hok : (duties dir).ok db) {s : Session} (hs : s ∈ db.sessions) :
    s.name ∈ dir := by
  have hok : db.sessions.map (·.name) = dir := hok
  rw [← hok]
  exact List.mem_map_of_mem hs

/-- The identifier of a session determines its name. -/
theorem sid_eq_of_dir (hdir : (dir.map (·.1)).Nodup) {s t : Session} (hs : s.name ∈ dir)
    (ht : t.name ∈ dir) (h : s.id = t.id) : s.sid = t.sid := by
  have heq : s.name = t.name := List.inj_on_of_nodup_map hdir hs ht h
  exact congrArg Prod.snd heq

theorem mem_notices {q : Session → Bool} :
    k ∈ db.notices q ↔ ∃ s ∈ db.sessions, q s = true ∧ s.sid = k.2 ∧
      ∃ c ∈ db.notified s, c.id = k.1 := by
  simp only [Db.notices, List.mem_flatMap, List.mem_filter, List.mem_map]
  constructor
  · rintro ⟨s, ⟨hs, hq⟩, c, hc, rfl⟩
    exact ⟨s, hs, hq, rfl, c, hc, rfl⟩
  · rintro ⟨s, hs, hq, hsid, c, hc, hid⟩
    exact ⟨s, ⟨hs, hq⟩, c, hc, Prod.ext hid hsid⟩

theorem due_of_mem_notices {q : Session → Bool} (h : k ∈ db.notices q) : db.Due k := by
  obtain ⟨s, hs, -, hsid, hc⟩ := mem_notices.1 h
  exact ⟨s, hs, hsid, hc⟩

/-! ### The deliveries are written -/

theorem fulfils_enqueueClients {batchId : Nat} {session : Session} (hsid : session.sid = k.2) :
    ∀ {clients : List Client}, (∃ c ∈ clients.filter (·.notifiable), c.id = k.1) →
      (enqueueClients p batchId session clients).Fulfils (duties dir) k
  | [], h => by
    obtain ⟨c, hc, -⟩ := h
    exact absurd hc List.not_mem_nil
  | c :: cs, h => by
    unfold enqueueClients
    split_ifs with hn
    · refine ⟨rfl, fun db _ _ _ => ?_⟩
      by_cases hid : c.id = k.1
      · exact .inl ⟨_, List.mem_append_right _ (List.mem_singleton_self _), hid, hsid⟩
      · refine .inr (Prog.Fulfils.bind (fulfils_enqueueClients hsid ?_) _)
        obtain ⟨c', hc', hid'⟩ := h
        rw [List.filter_cons_of_pos hn] at hc'
        rcases List.mem_cons.1 hc' with rfl | hc'
        · exact absurd hid' hid
        · exact ⟨c', hc', hid'⟩
    · refine fulfils_enqueueClients hsid ?_
      rwa [List.filter_cons_of_neg hn] at h

theorem incurs_enqueueClients (batchId : Nat) (session : Session) (A : Notice → Prop) :
    ∀ clients : List Client, (enqueueClients p batchId session clients).Incurs (duties dir) A
  | [] => trivial
  | c :: cs => by
    have ih := incurs_enqueueClients batchId session A cs
    have hrow : (insertDelivery (newDelivery p batchId session c)).Incurs (duties dir) A :=
      ⟨rfl, fun _ _ => ⟨fun _ _ hk => hk.elim, trivial, .inl ⟨_, rfl⟩⟩⟩
    unfold enqueueClients
    split_ifs
    · exact Prog.incurs_bind hrow fun _ => Prog.incurs_bind ih fun _ => trivial
    · exact ih

/-- The session is found in the directory, and its bindings are read while the notice is due. -/
theorem fulfils_enqueue (hdir : (dir.map (·.1)).Nodup) {batchId : Nat} :
    ∀ {targets : List Session}, (∀ s ∈ targets, s.name ∈ dir) → k.2 ∈ targets.map (·.sid) →
      (dir.map (·.2)).Nodup → (enqueue p batchId targets).Fulfils (duties dir) k
  | [], _, h, _ => absurd h List.not_mem_nil
  | t :: ts, hnames, h, hsids => by
    unfold enqueue
    refine Prog.fulfils_query_bind rfl fun db hok hdue => ?_
    by_cases ht : t.sid = k.2
    · refine (fulfils_enqueueClients ht ?_).bind _
      obtain ⟨s, hs, hsid, c, hc, hid⟩ := hdue
      have hname : s.name = t.name :=
        List.inj_on_of_nodup_map hsids (name_mem hok hs) (hnames t List.mem_cons_self)
          (hsid.trans ht.symm)
      have hids : s.id = t.id := congrArg Prod.fst hname
      rw [Db.notified, hids] at hc
      exact ⟨c, hc, hid⟩
    · have hrest : k.2 ∈ ts.map (·.sid) := by
        rcases List.mem_cons.1 h with h | h
        · exact absurd h.symm ht
        · exact h
      refine (incurs_enqueueClients batchId t (fun _ => True) _).fulfils fun rows => ?_
      exact (fulfils_enqueue hdir (fun s hs => hnames s (List.mem_cons_of_mem t hs)) hrest
        hsids).bind _

/-! ### The revocations -/

theorem incurs_write {l : Stmt} {f : Db → Db} {A : Notice → Prop} (hw : inWindow l = true)
    (ho : ∀ db, (duties dir).ok db → SweepsKnown l db → ∀ k, Opens l db k → A k) :
    (write l f).Incurs (duties dir) A :=
  ⟨hw, fun db hok => ⟨ho db hok, trivial, .inl ⟨_, rfl⟩⟩⟩

theorem incurs_setWebSession {view : Browser} {c : Container} {s : Option Session}
    {signedOut restore : Bool} {A : Notice → Prop} :
    (setWebSession view c s signedOut restore).Incurs (duties dir) A := by
  have hclock : clock.Incurs (duties dir) A :=
    ⟨rfl, fun _ _ => ⟨fun _ _ h => h.elim, trivial, .inr trivial⟩⟩
  refine Prog.incurs_bind hclock fun now => Prog.incurs_bind ?_ fun _ => trivial
  exact incurs_write rfl fun _ _ _ _ h => h.elim

variable {targets : List Session}

/-- A session that is revoked is one of the targets. -/
theorem sid_mem_of_id_mem (hdir : (dir.map (·.1)).Nodup) (hnames : ∀ s ∈ targets, s.name ∈ dir)
    (hok : (duties dir).ok db) {s : Session} (hs : s ∈ db.sessions)
    (hid : s.id ∈ targets.map (·.id)) : s.sid ∈ targets.map (·.sid) := by
  obtain ⟨t, ht, hid⟩ := List.mem_map.1 hid
  rw [← sid_eq_of_dir hdir (hnames t ht) (name_mem hok hs) hid]
  exact List.mem_map_of_mem ht

theorem incurs_revokeSessions (hdir : (dir.map (·.1)).Nodup) (hnames : ∀ s ∈ targets, s.name ∈ dir)
    {view : Browser} {ids : List Nat} (hids : ids ⊆ targets.map (·.id)) {clears : Option Nat} :
    (revokeSessions view ids .globalLogout clears).Incurs (duties dir)
      fun k => k.2 ∈ targets.map (·.sid) := by
  unfold revokeSessions
  split_ifs
  · trivial
  · refine incurs_write rfl fun db hok _ k hk => ?_
    obtain ⟨s, hs, hq, hsid, -⟩ := mem_notices.1 hk
    rw [← hsid]
    simp only [Bool.and_eq_true, decide_eq_true_eq] at hq
    exact sid_mem_of_id_mem hdir hnames hok hs (hids hq.1)

theorem incurs_signOutAccount (hdir : (dir.map (·.1)).Nodup) (hnames : ∀ s ∈ targets, s.name ∈ dir)
    {b : Browser} {t : Session} (ht : t ∈ targets) :
    (signOutAccount b t.id .globalLogout).Incurs (duties dir)
      fun k => k.2 ∈ targets.map (·.sid) := by
  unfold signOutAccount
  split
  · trivial
  · have hids : [t.id] ⊆ targets.map (·.id) := by
      intro id hid
      rw [List.mem_singleton.1 hid]
      exact List.mem_map_of_mem ht
    refine Prog.incurs_bind (incurs_revokeSessions hdir hnames hids) fun _ => ?_
    dsimp only
    split
    · trivial
    · split_ifs
      · exact Prog.incurs_bind incurs_setWebSession fun _ => trivial
      · trivial

theorem incurs_signOutAccounts (hdir : (dir.map (·.1)).Nodup)
    (hnames : ∀ s ∈ targets, s.name ∈ dir) :
    ∀ {ss : List Session} {b : Browser}, ss ⊆ targets →
      (signOutAccounts ss b).Incurs (duties dir) fun k => k.2 ∈ targets.map (·.sid)
  | [], _, _ => trivial
  | s :: ss, b, hss => by
    obtain ⟨hs, hss⟩ := List.cons_subset.1 hss
    exact Prog.incurs_bind (incurs_signOutAccount hdir hnames hs) fun _ =>
      incurs_signOutAccounts hdir hnames hss

/-- The sweep finds only sessions that the view has. -/
theorem incurs_revokeContainer (hdir : (dir.map (·.1)).Nodup) {b : Browser}
    (hnames : ∀ s ∈ b.accounts, s.name ∈ dir) {c : Container} :
    (revokeContainer b c .globalLogout).Incurs (duties dir)
      fun k => k.2 ∈ b.accounts.map (·.sid) := by
  refine Prog.incurs_bind (incurs_write rfl fun db hok hc k hk => ?_) fun _ =>
    incurs_write rfl fun _ _ _ _ h => h.elim
  obtain ⟨s, hs, hq, hsid, -⟩ := mem_notices.1 hk
  rw [← hsid]
  simp only [Bool.and_eq_true, decide_eq_true_eq, Option.isNone_iff_eq_none] at hq
  exact sid_mem_of_id_mem hdir hnames hok hs (hc s hs hq.1 hq.2)

theorem incurs_signOutBrowser (hdir : (dir.map (·.1)).Nodup) {b : Browser}
    (hnames : ∀ s ∈ b.accounts, s.name ∈ dir) :
    (signOutBrowser b .globalLogout).Incurs (duties dir)
      fun k => k.2 ∈ b.accounts.map (·.sid) := by
  refine Prog.incurs_bind (incurs_revokeSessions hdir hnames fun _ h => h) fun _ => ?_
  split
  · trivial
  · exact Prog.incurs_bind (incurs_revokeContainer hdir hnames) fun _ => trivial

/-- The targets are accounts of the view, and all of them when there are as many. -/
theorem incurs_revokeForLogout (hdir : (dir.map (·.1)).Nodup) {b : Browser}
    (hnames : ∀ s ∈ b.accounts, s.name ∈ dir) (ht : targets.Sublist b.accounts) :
    (revokeForLogout p b targets).Incurs (duties dir) fun k => k.2 ∈ targets.map (·.sid) := by
  have hnames' : ∀ s ∈ targets, s.name ∈ dir := fun s hs => hnames s (ht.subset hs)
  unfold revokeForLogout
  split_ifs with hmulti hall
  · obtain rfl : targets = b.accounts := ht.eq_of_length hall.2
    exact incurs_signOutBrowser hdir hnames
  · exact incurs_signOutAccounts hdir hnames' fun _ h => h
  · exact Prog.incurs_bind (incurs_revokeSessions hdir hnames' fun _ h => h) fun _ => trivial

/-! ### The jobs -/

/-- The view of a request has sessions of the directory only. -/
def Browser.Known (dir : List (Nat × String)) (b : Browser) : Prop :=
  ∀ s ∈ b.accounts, s.name ∈ dir

theorem yields_findValidSession (value : String) :
    (findValidSession p value).Yields (duties dir) fun found => ∀ s ∈ found, s.name ∈ dir := by
  unfold findValidSession
  split_ifs
  · exact fun s hs => nomatch hs
  · refine fun db hok => ⟨fun s hs => ?_, trivial⟩
    exact name_mem hok (List.mem_of_find?_eq_some hs)

theorem yields_ensureContainer (draws : Draws) {b : Browser} (hb : b.Known dir) :
    (ensureContainer p draws b).Yields (duties dir) (Browser.Known dir) := by
  unfold ensureContainer
  split
  · exact hb
  · refine Prog.yields_bind (Prog.yields_true _) fun now _ => ?_
    exact Prog.yields_bind (Prog.yields_true _) fun _ _ => hb

theorem yields_loadLegacy (draws : Draws) (sso : Option String) :
    (loadLegacy p draws sso).Yields (duties dir) (Browser.Known dir) := by
  have hnone : Browser.Known dir {} := fun s hs => absurd hs List.not_mem_nil
  unfold loadLegacy
  split
  · exact hnone
  · refine Prog.yields_bind (yields_findValidSession _) fun found hfound => ?_
    split
    · exact hnone
    · next session =>
      refine Prog.yields_bind (yields_ensureContainer draws hnone) fun b _ => ?_
      refine Prog.yields_bind (Prog.yields_true _) fun _ _ => fun s hs => ?_
      rw [List.mem_singleton.1 hs]
      exact hfound session rfl

theorem yields_renewIfStale {b : Browser} (hb : b.Known dir) :
    (renewIfStale p b).Yields (duties dir) (Browser.Known dir) := by
  unfold renewIfStale
  split
  · exact hb
  · refine Prog.yields_bind (Prog.yields_true _) fun now _ => ?_
    split_ifs
    · exact hb
    · exact Prog.yields_bind (Prog.yields_true _) fun _ _ => hb

theorem yields_load (draws : Draws) (cookies : Cookies) :
    (load p draws cookies).Yields (duties dir) (Browser.Known dir) := by
  unfold load
  split_ifs
  · unfold loadSingle
    split
    · exact fun s hs => absurd hs List.not_mem_nil
    · refine Prog.yields_bind (yields_findValidSession _) fun found hfound s hs => ?_
      exact hfound s (Option.mem_toList.1 hs)
  · split
    · refine Prog.yields_bind (Prog.yields_true _) fun found _ => ?_
      split
      · exact yields_loadLegacy draws cookies.sso
      · refine Prog.yields_bind (Q := fun accounts : List Session => ∀ s ∈ accounts, s.name ∈ dir)
          (fun db hok => ⟨fun s hs => ?_, trivial⟩) fun accounts hacc => yields_renewIfStale hacc
        exact name_mem hok (List.mem_of_mem_filter ((List.mem_insertionSort _).1 hs))
    · exact yields_loadLegacy draws cookies.sso

theorem honours_of_quiet {α : Type} {q : AccountM α} (hq : q.Does Quiet) :
    q.Honours (duties dir) := by
  refine Prog.honours_of_does hq fun l db db' k h hk => ?_
  obtain ⟨hl, -⟩ := h
  cases l with
  | revoke view ids reason clears => cases hl
  | sweep view c reason => cases hl
  | _ => exact hk.elim

theorem honours_of_mail {α : Type} {q : AccountM α} (hq : q.Does (Mail p)) :
    q.Honours (duties dir) := honours_of_quiet (hq.mono fun _ _ _ => Mail.quiet)

theorem honours_globalLogout (hdir : (dir.map (·.1)).Nodup) (hsids : (dir.map (·.2)).Nodup)
    {b : Browser} (hb : b.Known dir) (ht : targets.Sublist b.accounts) (draws : LogoutDraws) :
    (globalLogout p draws b targets).Honours (duties dir) := by
  refine Prog.honours_seq (Prog.honours_query (fun _ _ h => h) _ _) fun _ => ?_
  refine (incurs_revokeForLogout hdir hb ht).honours (fun _ k hk => ?_) fun _ => ?_
  · exact (fulfils_enqueue hdir (fun s hs => hb s (ht.subset hs)) hk hsids).bind _
  · refine Prog.honours_seq (honours_of_mail (does_enqueue _ _)) fun rows => ?_
    exact Prog.honours_seq (honours_of_mail (does_deliverBatch (p := p) _ _ rows)) fun _ => trivial

theorem honours_prog (hdir : (dir.map (·.1)).Nodup) (hsids : (dir.map (·.2)).Nodup)
    (j : OutboxJob) : (j.prog p).Honours (duties dir) := by
  have hload (draws : Draws) (cookies : Cookies) : (load p draws cookies).Honours (duties dir) :=
    honours_of_quiet ((does_load draws cookies).mono fun _ _ _ => Only.quiet)
  cases j with
  | logoutGlobal r draws =>
    refine Prog.honours_bind (hload _ _) (yields_load _ _) fun b hb => ?_
    refine Prog.honours_seq (honours_of_quiet (does_check _)) fun _ => ?_
    split
    · trivial
    · next target hweb =>
      obtain ⟨id, -, hfind⟩ := Option.bind_eq_some_iff.1 hweb
      have hmem : [target].Sublist b.accounts :=
        List.singleton_sublist.2 (List.mem_of_find?_eq_some hfind)
      exact Prog.honours_seq (honours_globalLogout hdir hsids hb hmem draws) fun _ => trivial
  | endSession r hintSid hintSub draws =>
    refine Prog.honours_bind (hload _ _) (yields_load _ _) fun b hb => ?_
    refine Prog.honours_seq (honours_globalLogout hdir hsids hb ?_ draws) fun _ => trivial
    exact List.filter_sublist
  | retry skip attempt turns => exact honours_of_mail (does_retryDue skip attempt turns)
  | setClients clients =>
    exact honours_of_quiet (Prog.does_exec_after fun db => ⟨rfl, rfl⟩)
  | record sessionId clientId => exact honours_of_quiet (does_recordSessionClient sessionId clientId)

/-! ### What the statements do to the notices -/

theorem notified_subset {db' : Db} (h : Grows db db') (s : Session) :
    db.notified s ⊆ db'.notified s := by
  intro c hc
  obtain ⟨hc, hn⟩ := List.mem_filter.1 hc
  obtain ⟨b, hb, hfind⟩ := List.mem_filterMap.1 hc
  obtain ⟨hb, hid⟩ := List.mem_filter.1 hb
  refine List.mem_filter.2 ⟨List.mem_filterMap.2 ⟨b, ?_, h.clients ▸ hfind⟩, hn⟩
  exact List.mem_filter.2 ⟨h.sessionClients hb, hid⟩

theorem Grows.due {db' : Db} (h : Grows db db') (hd : db.Due k) : db'.Due k := by
  obtain ⟨s, hs, hsid, c, hc, hid⟩ := hd
  have hname : s.name ∈ db'.sessions.map (·.name) := by
    rw [h.names]
    exact List.mem_map_of_mem hs
  obtain ⟨s', hs', heq⟩ := List.mem_map.1 hname
  have hids : s'.id = s.id := congrArg Prod.fst heq
  refine ⟨s', hs', (congrArg Prod.snd heq).trans hsid, c, ?_, hid⟩
  have hsub := notified_subset h s hc
  rwa [Db.notified, ← hids] at hsub

theorem Grows.served {db' : Db} (h : Grows db db') (hs : db.Served k) : db'.Served k := by
  obtain ⟨d, hd, hc, hsid⟩ := hs
  obtain ⟨d', hd', hc', hsid'⟩ := h.deliveries d hd
  exact ⟨d', hd', hc'.trans hc, hsid'.trans hsid⟩

theorem opens_due {l : Stmt} (h : Opens l db k) : db.Due k := by
  unfold Opens at h
  split at h
  · exact due_of_mem_notices h
  · exact due_of_mem_notices h
  · exact h.elim

theorem owed_watchPost (row : Delivery) (r : PostResult) (g : Notes) :
    (g.watchPost row r).owed = g.owed := by
  unfold Notes.watchPost
  cases r with
  | status code =>
    dsimp only
    split_ifs <;> rfl
  | _ => rfl

/-- A notice comes in where a statement opens it. -/
theorem owed_watch {j : OutboxJob} {l : Stmt} {g : Notes} (hk : k ∈ (Notes.watch j l db g).owed) :
    k ∈ g.owed ∨ Opens l db k := by
  unfold Notes.watch at hk
  split at hk
  · exact (List.mem_append.1 hk).symm
  · exact (List.mem_append.1 hk).symm
  · exact .inl (List.mem_of_mem_filter hk)
  · split at hk
    · split_ifs at hk <;> exact .inl hk
    · exact .inl hk
  · rw [owed_watchPost] at hk
    exact .inl hk
  · exact .inl hk

/-- The deliveries of an application that stays, stay. -/
theorem served_withClients {clients : List Client}
    (h : (db.withClients clients).Served k ∨ (db.withClients clients).Due k)
    (hs : db.Served k) : (db.withClients clients).Served k := by
  rcases h with h | ⟨s, -, -, c, hc, hid⟩
  · exact h
  · obtain ⟨d, hd, hc', hsid⟩ := hs
    obtain ⟨b, -, hfind⟩ := List.mem_filterMap.1 (List.mem_of_mem_filter hc)
    have hmem : c ∈ clients := List.mem_of_find?_eq_some hfind
    refine ⟨d, List.mem_filter.2 ⟨hd, decide_eq_true ?_⟩, hc', hsid⟩
    rw [hc', ← hid]
    exact List.mem_map_of_mem hmem

theorem watched {j : OutboxJob} {l : Stmt} {db' : Db} (g : Notes) (hok : (duties dir).ok db)
    (h : Effect l db db') : (duties dir).Watched l db db' g (Notes.watch j l db g) := by
  have hgrows (h : Grows db db') : (duties dir).Watched l db db' g (Notes.watch j l db g) := by
    refine ⟨h.names.trans hok, fun k hk => ?_⟩
    rcases owed_watch hk with hk | hk
    · exact .inl ⟨hk, h.served, fun hd => .inl (h.due hd)⟩
    · exact .inr ⟨hk, .inl (h.due (opens_due hk))⟩
  cases l with
  | setClients clients =>
    have h : db' = db.withClients clients := h
    rw [h]
    refine ⟨hok, fun k hk => .inl ?_⟩
    obtain ⟨hk, hstays⟩ := List.mem_filter.1 hk
    have hstays := of_decide_eq_true hstays
    exact ⟨hk, served_withClients hstays, fun _ => hstays.symm⟩
  | _ => exact hgrows h

end Duties

/-! ## The rows -/

/-- A delivery that has ended stays, the attempts of the others only grow, and a row goes only with
its application. -/
def RowsKept (db db' : Db) : Prop := ∀ d ∈ db.deliveries,
  (∃ d' ∈ db'.deliveries, d'.id = d.id ∧ d.attempts ≤ d'.attempts ∧
    (d.status ≠ .pending → d' = d)) ∨ d.clientId ∉ db'.clients.map (·.id)

instance (db db' : Db) : Decidable (RowsKept db db') :=
  inferInstanceAs (Decidable (∀ d ∈ db.deliveries,
    (∃ d' ∈ db'.deliveries, d'.id = d.id ∧ d.attempts ≤ d'.attempts ∧
      (d.status ≠ .pending → d' = d)) ∨ d.clientId ∉ db'.clients.map (·.id)))

/-- The stated reasons for which a delivery may fail. -/
def Notes.Caused (g : Notes) (id : Nat) : Prop :=
  id ∈ g.refused ∨ id ∈ g.rejected ∨ id ∈ g.orphaned ∨ maxAttempts ≤ g.tried.count id

/-- A row as the notes account for it: its attempts are counted, and a failure has a cause. -/
structure RowOk (g : Notes) (d : Delivery) : Prop where
  bound : d.attempts ≤ maxAttempts
  pending : d.status = .pending → d.attempts < maxAttempts ∧ d.attempts ≤ g.tried.count d.id
  failed : d.status = .failed → g.Caused d.id

/-- The rows have ids of their own and are accounted for. -/
structure Ledger (v : Db × Notes) : Prop where
  keyed : Table.Keyed (·.id) v.1.deliveries
  below : ∀ d ∈ v.1.deliveries, d.id < v.1.nextDelivery
  rows : ∀ d ∈ v.1.deliveries, RowOk v.2 d

/-- An attempt writes its result while the row is as it was read. -/
def Current (l : Stmt) (db : Db) : Prop :=
  match l with
  | .mark row | .retry row => ∀ d ∈ db.deliveries, d.id = row.id →
      d.status = .pending ∧ d.attempts = row.attempts
  | _ => True

instance (l : Stmt) (db : Db) : Decidable (Current l db) := by
  unfold Current
  split <;> infer_instance

/-- What was noted stays noted. -/
structure Later (g g' : Notes) : Prop where
  tried : ∀ id, g.tried.count id ≤ g'.tried.count id
  refused : g.refused ⊆ g'.refused
  rejected : g.rejected ⊆ g'.rejected
  orphaned : g.orphaned ⊆ g'.orphaned

theorem Later.refl (g : Notes) : Later g g :=
  ⟨fun _ => le_refl _, fun _ h => h, fun _ h => h, fun _ h => h⟩

theorem Later.trans {g g' g'' : Notes} (h : Later g g') (h' : Later g' g'') : Later g g'' :=
  ⟨fun id => (h.tried id).trans (h'.tried id), fun _ hx => h'.refused (h.refused hx),
    fun _ hx => h'.rejected (h.rejected hx), fun _ hx => h'.orphaned (h.orphaned hx)⟩

theorem Later.caused {g g' : Notes} (h : Later g g') {id : Nat} (hc : g.Caused id) :
    g'.Caused id := by
  rcases hc with hc | hc | hc | hc
  · exact .inl (h.refused hc)
  · exact .inr (.inl (h.rejected hc))
  · exact .inr (.inr (.inl (h.orphaned hc)))
  · exact .inr (.inr (.inr (hc.trans (h.tried id))))

theorem RowOk.mono {g g' : Notes} {d : Delivery} (h : RowOk g d) (hg : Later g g') :
    RowOk g' d :=
  ⟨h.bound, fun hs => ⟨(h.pending hs).1, (h.pending hs).2.trans (hg.tried d.id)⟩,
    fun hs => hg.caused (h.failed hs)⟩

theorem RowsKept.refl (db : Db) : RowsKept db db :=
  fun d hd => .inl ⟨d, hd, rfl, le_refl _, fun _ => rfl⟩

theorem later_watchPost (row : Delivery) (r : PostResult) (g : Notes) :
    Later g (g.watchPost row r) ∧
      (g.watchPost row r).tried = row.id :: g.tried := by
  have htried (id : Nat) : g.tried.count id ≤ (row.id :: g.tried).count id :=
    List.count_le_count_cons
  unfold Notes.watchPost
  cases r with
  | status code =>
    dsimp only
    split_ifs
    · exact ⟨⟨htried, fun _ h => h, fun _ h => List.mem_cons_of_mem _ h, fun _ h => h⟩, rfl⟩
    · exact ⟨⟨htried, fun _ h => h, fun _ h => h, fun _ h => h⟩, rfl⟩
  | refused reason =>
    exact ⟨⟨htried, fun _ h => List.mem_cons_of_mem _ h, fun _ h => h, fun _ h => h⟩, rfl⟩
  | signingFailed => exact ⟨⟨htried, fun _ h => h, fun _ h => h, fun _ h => h⟩, rfl⟩
  | transient reason => exact ⟨⟨htried, fun _ h => h, fun _ h => h, fun _ h => h⟩, rfl⟩

theorem later_watch (j : OutboxJob) (l : Stmt) (db : Db) (g : Notes) :
    Later g (Notes.watch j l db g) := by
  have horphan (row : Delivery) : Later g { g with orphaned := row.id :: g.orphaned } :=
    ⟨fun _ => le_refl _, fun _ h => h, fun _ h => h, fun _ h => List.mem_cons_of_mem _ h⟩
  unfold Notes.watch
  split
  · exact ⟨fun _ => le_refl _, fun _ h => h, fun _ h => h, fun _ h => h⟩
  · exact ⟨fun _ => le_refl _, fun _ h => h, fun _ h => h, fun _ h => h⟩
  · exact ⟨fun _ => le_refl _, fun _ h => h, fun _ h => h, fun _ h => h⟩
  · split
    · split_ifs
      · exact .refl g
      · exact horphan _
    · exact horphan _
  · exact (later_watchPost _ _ g).1
  · exact .refl g

/-- The law of the rows. -/
def rowLaw (p : Provider) : Law (outboxSystem p) where
  rely v v' := Later v.2 v'.2
  guar _ v v' := RowsKept v.1 v'.1 ∧ Later v.2 v'.2
  inv := Ledger
  cond _ l v := Current l v.1
  refl v := .refl v.2
  trans := Later.trans
  guar_refl _ v := ⟨.refl v.1, .refl v.2⟩
  rely_of_guar h := h.2

section Rows

variable {p : Provider} {j : OutboxJob} {db db' : Db} {g g' : Notes} {v : Db × Notes}
  {row : Delivery}

/-- The rows stay as they are. -/
theorem Ledger.of_same (h : Ledger (db, g)) (hd : db'.deliveries = db.deliveries)
    (hn : db'.nextDelivery = db.nextDelivery) (hg : Later g g') :
    RowsKept db db' ∧ Ledger (db', g') := by
  refine ⟨?_, hd ▸ h.keyed, hd ▸ hn ▸ h.below, fun d hmem => ?_⟩
  · unfold RowsKept
    rw [hd]
    exact fun d hmem => .inl ⟨d, hmem, rfl, le_refl _, fun _ => rfl⟩
  · exact (h.rows d (hd ▸ hmem)).mono hg

/-- The rows are changed in place. -/
theorem Ledger.of_map (h : Ledger (db, g)) {f : Delivery → Delivery} (hid : ∀ d, (f d).id = d.id)
    (hkeeps : ∀ d ∈ db.deliveries, d.attempts ≤ (f d).attempts ∧
      (d.status ≠ .pending → f d = d) ∧ RowOk g (f d)) :
    RowsKept db { db with deliveries := db.deliveries.map f } ∧
      Ledger ({ db with deliveries := db.deliveries.map f }, g) := by
  refine ⟨fun d hd => ?_, Table.keyed_map hid h.keyed, fun d hd => ?_, fun d hd => ?_⟩
  · obtain ⟨hatt, hsame, -⟩ := hkeeps d hd
    exact .inl ⟨f d, List.mem_map_of_mem hd, hid d, hatt, hsame⟩
  · obtain ⟨d₀, hd₀, rfl⟩ := List.mem_map.1 hd
    rw [hid]
    exact h.below d₀ hd₀
  · obtain ⟨d₀, hd₀, rfl⟩ := List.mem_map.1 hd
    exact (hkeeps d₀ hd₀).2.2

/-- The result of an attempt is written on a pending row. -/
theorem Ledger.of_edit (h : Ledger (db, g)) {f : Delivery → Delivery} (hid : ∀ d, (f d).id = d.id)
    (hatt : ∀ d, (f d).attempts = row.attempts + 1)
    (hcur : ∀ d ∈ db.deliveries, d.id = row.id → d.status = .pending ∧ d.attempts = row.attempts)
    (hrow : ∀ d, d.id = row.id → d.status = .pending → RowOk g (f d)) :
    RowsKept db (editDelivery row.id f db) ∧ Ledger (editDelivery row.id f db, g) := by
  refine h.of_map (fun d => ?_) fun d hd => ?_
  · split_ifs
    · exact hid d
    · rfl
  · split_ifs with hrowid
    · obtain ⟨hs, heq⟩ := hcur d hd hrowid
      refine ⟨?_, fun hne => absurd hs hne, hrow d hrowid hs⟩
      rw [hatt, heq]
      exact Nat.le_succ _
    · exact ⟨le_refl _, fun _ => rfl, h.rows d hd⟩

/-- The row was pending when it was read, and the attempts before it were made. -/
def Read (row : Delivery) (g : Notes) : Prop :=
  row.attempts < maxAttempts ∧ row.attempts ≤ g.tried.count row.id

theorem Read.mono (h : Read row g) (hg : Later g g') : Read row g' :=
  ⟨h.1, h.2.trans (hg.tried row.id)⟩

theorem safe_mark {status : DeliveryStatus} {httpStatus : Option Nat} {error jti : Option String}
    (hs : status ≠ .pending) (hr : Read row v.2) (hc : status = .failed → v.2.Caused row.id) :
    (rowLaw p).Safe j (fun _ _ => True) (mark row status httpStatus error jti) v := by
  refine Law.safe_exec (fun _ _ => rfl) fun v' hv hi hcur db' a h => ?_
  cases h
  have hedit := hi.of_edit
    (f := fun d =>
      { d with
        status
        attempts := row.attempts + 1
        lastError := error
        lastHttpStatus := httpStatus
        lastJti := jti
        deliveredAt := if status = .delivered then some v'.1.now else d.deliveredAt })
    (fun _ => rfl) (fun _ => rfl) hcur fun d hid _ => ?_
  · exact ⟨⟨hedit.1, .refl _⟩, hedit.2, trivial⟩
  · refine ⟨hr.1, fun hp => absurd hp hs, fun hf => ?_⟩
    have hcaused := hv.caused (hc hf)
    rwa [← hid] at hcaused

theorem safe_retryOrFail {httpStatus : Option Nat} {reason : String} {jti : Option String}
    (hr : Read row v.2) (ht : row.attempts + 1 ≤ v.2.tried.count row.id) :
    (rowLaw p).Safe j (fun _ _ => True) (retryOrFail row httpStatus reason jti) v := by
  unfold retryOrFail
  refine Law.safe_ite (fun hmax => ?_) fun hmax => ?_
  · exact safe_mark (by decide) hr fun _ => .inr (.inr (.inr (hmax.trans ht)))
  · refine Law.safe_exec (fun _ _ => rfl) fun v' hv hi hcur db' a h => ?_
    cases h
    have hedit := hi.of_edit
      (f := fun d =>
        { d with
          attempts := row.attempts + 1
          nextAttemptAt := v'.1.now + backoff (row.attempts + 1)
          lastError := some reason
          lastHttpStatus := httpStatus
          lastJti := jti })
      (fun _ => rfl) (fun _ => rfl) hcur fun d hid hs => ?_
    · exact ⟨⟨hedit.1, .refl _⟩, hedit.2, trivial⟩
    · refine ⟨hr.1, fun _ => ⟨not_le.1 hmax, ?_⟩, fun hf => ?_⟩
      · have htried := ht.trans (hv.tried row.id)
        rwa [← hid] at htried
      · have hf : d.status = .failed := hf
        rw [hs] at hf
        cases hf

/-- What the observer has noted of an attempt. -/
theorem safe_handleResult {r : PostResult} {jti : String} (hr : Read row v.2)
    (ht : row.attempts + 1 ≤ v.2.tried.count row.id)
    (hrefused : ∀ reason, r = .refused reason → row.id ∈ v.2.refused)
    (hrejected : r = .status 400 → row.id ∈ v.2.rejected) :
    (rowLaw p).Safe j (fun _ _ => True) (handleResult row jti r) v := by
  cases r with
  | signingFailed => exact safe_retryOrFail hr ht
  | refused reason => exact safe_mark (by decide) hr fun _ => .inl (hrefused reason rfl)
  | transient reason => exact safe_retryOrFail hr ht
  | status code =>
    refine Law.safe_ite (fun _ => ?_) fun _ => Law.safe_ite (fun h400 => ?_) fun _ => ?_
    · exact safe_mark (by decide) hr fun h => nomatch h
    · exact safe_mark (by decide) hr fun _ => .inr (.inl (hrejected (h400 ▸ rfl)))
    · exact safe_retryOrFail hr ht

theorem safe_post {a : Attempt} (hr : Read row v.2) :
    (rowLaw p).Safe j (fun _ _ => True) (post row a >>= handleResult row a.jti) v := by
  refine Law.safe_bind (Law.safe_query_seen fun v' hv hi _ => ?_)
  have hr' := hr.mono hv
  obtain ⟨hlater, htried⟩ := later_watchPost row a.result v'.2
  obtain ⟨hkept, hledger⟩ := Ledger.of_same hi rfl rfl hlater
  refine ⟨⟨hkept, hlater⟩, hledger, safe_handleResult (hr'.mono hlater) ?_ ?_ ?_⟩
  · show row.attempts + 1 ≤ (v'.2.watchPost row a.result).tried.count row.id
    rw [htried, List.count_cons_self]
    exact Nat.succ_le_succ hr'.2
  · intro reason hreason
    show row.id ∈ (v'.2.watchPost row a.result).refused
    rw [hreason]
    exact List.mem_cons_self
  · intro h400
    show row.id ∈ (v'.2.watchPost row a.result).rejected
    rw [h400]
    exact List.mem_cons_self

/-- Only an application that is not there, or has no address, is noted. -/
theorem safe_deliverOne {a : Attempt} (hr : Read row v.2) :
    (rowLaw p).Safe j (fun _ _ => True) (deliverOne row a) v := by
  refine Law.safe_bind (Law.safe_query_seen fun v' hv hi _ => ?_)
  have hlater := later_watch j (.findClient row) v'.1 v'.2
  obtain ⟨hkept, hledger⟩ := @Ledger.of_same v'.1 v'.1 _ _ hi rfl rfl hlater
  refine ⟨⟨hkept, hlater⟩, hledger, ?_⟩
  have hr' : Read row (Notes.watch j (.findClient row) v'.1 v'.2) := (hr.mono hv).mono hlater
  have horphan (h : ∀ c ∈ v'.1.clients.find? (·.id = row.clientId),
      c.backchannelLogoutUri = none) :
      (Notes.watch j (.findClient row) v'.1 v'.2).Caused row.id := by
    refine .inr (.inr (.inl ?_))
    simp only [Notes.watch]
    split
    · next c hc => simp [h c hc]
    · exact List.mem_cons_self
  split
  · next hnone => exact safe_mark (by decide) hr' fun _ => horphan (by simp [hnone])
  · next c hsome =>
    split
    · next huri => exact safe_mark (by decide) hr' fun _ => horphan (by simp [hsome, huri])
    · exact safe_post hr'

theorem safe_deliverBatch {attempt : Nat → Attempt} {turns : List Turn} {rows : List Delivery}
    (hr : ∀ row ∈ rows, Read row v.2) :
    (rowLaw p).Safe j (fun _ _ => True) (deliverBatch attempt turns rows) v := by
  refine Law.safe_joinAll fun q hq => ?_
  obtain ⟨row, hrow, rfl⟩ := List.mem_map.1 hq
  exact safe_deliverOne (hr row hrow)

/-! ### New rows and leases -/

theorem read_of_new (h : row.attempts = 0) (g : Notes) : Read row g := by
  refine ⟨?_, ?_⟩ <;> rw [h]
  · decide
  · exact Nat.zero_le _

theorem safe_insertDelivery (hs : row.status = .pending) (ha : row.attempts = 0) :
    (rowLaw p).Safe j (fun r _ => r.attempts = 0) (insertDelivery row) v := by
  refine Law.safe_exec (fun _ _ => rfl) fun v' hv hi _ db' a h => ?_
  cases h
  refine ⟨⟨fun d hd => ?_, .refl _⟩, ⟨?_, fun d hd => ?_, fun d hd => ?_⟩, ha⟩
  · exact .inl ⟨d, List.mem_append_left _ hd, rfl, le_refl _, fun _ => rfl⟩
  · refine Table.keyed_append hi.keyed fun d hd => ?_
    exact (hi.below d hd).ne
  · rcases List.mem_append.1 hd with hd | hd
    · exact (hi.below d hd).trans (Nat.lt_succ_self _)
    · rw [List.mem_singleton.1 hd]
      exact Nat.lt_succ_self _
  · rcases List.mem_append.1 hd with hd | hd
    · exact hi.rows d hd
    · rw [List.mem_singleton.1 hd]
      have hnew := @read_of_new { row with id := v'.1.nextDelivery } ha v'.2
      refine ⟨?_, fun _ => hnew, fun hf => ?_⟩
      · show row.attempts ≤ maxAttempts
        rw [ha]
        decide
      · have hf : row.status = .failed := hf
        rw [hs] at hf
        cases hf

theorem safe_enqueueClients {batchId : Nat} {session : Session} : ∀ {clients : List Client}
    {v : Db × Notes}, (rowLaw p).Safe j (fun rows _ => ∀ row ∈ rows, row.attempts = 0)
      (enqueueClients p batchId session clients) v
  | [], _ => fun _ h => absurd h List.not_mem_nil
  | c :: cs, v => by
    unfold enqueueClients
    refine Law.safe_ite (fun _ => ?_) fun _ => safe_enqueueClients
    refine Law.safe_bind ((safe_insertDelivery rfl rfl).imp fun row v' hrow => ?_)
    refine Law.safe_bind (safe_enqueueClients.imp fun rows _ hrows => ?_)
    exact List.forall_mem_cons.2 ⟨hrow, hrows⟩

theorem safe_enqueue {batchId : Nat} : ∀ {targets : List Session} {v : Db × Notes},
    (rowLaw p).Safe j (fun rows _ => ∀ row ∈ rows, row.attempts = 0)
      (enqueue p batchId targets) v
  | [], _ => fun _ h => absurd h List.not_mem_nil
  | s :: ss, v => by
    unfold enqueue
    refine Law.safe_bind (Law.safe_query (fun _ _ => rfl) fun v' _ _ _ => ?_)
    refine Law.safe_bind (safe_enqueueClients.imp fun rows _ hrows => ?_)
    refine Law.safe_bind (safe_enqueue.imp fun more _ hmore => ?_)
    exact fun row hrow => (List.mem_append.1 hrow).elim (hrows row) (hmore row)

theorem mem_due {limit : Nat} {skip : List Nat} {d : Delivery}
    (h : d ∈ db.due p.issuer limit skip) : d ∈ db.deliveries ∧ d.status = .pending := by
  have h := (List.mem_insertionSort _).1 (List.mem_of_mem_take h)
  obtain ⟨hd, hq⟩ := List.mem_filter.1 h
  simp only [Bool.and_eq_true, decide_eq_true_eq] at hq
  exact ⟨hd, hq.1.1.1⟩

theorem safe_claimDue {limit : Nat} {skip : List Nat} :
    (rowLaw p).Safe j (fun rows v' => ∀ row ∈ rows, Read row v'.2)
      (claimDue p.issuer limit skip) v := by
  refine Law.safe_exec (fun _ _ => rfl) fun v' hv hi _ db' a h => ?_
  cases h
  have hmap := Ledger.of_map hi
    (f := fun d => if d ∈ v'.1.due p.issuer limit skip then d.leased v'.1.now else d)
    (fun d => by split_ifs <;> rfl) fun d hd => ?_
  · refine ⟨⟨hmap.1, .refl _⟩, hmap.2, fun row hrow => ?_⟩
    obtain ⟨d, hd, rfl⟩ := List.mem_map.1 hrow
    obtain ⟨hd, hs⟩ := mem_due hd
    exact (hi.rows d hd).pending hs
  · split_ifs with hdue
    · refine ⟨le_refl _, fun hne => absurd (mem_due hdue).2 hne, ?_⟩
      have hrow := hi.rows d hd
      exact ⟨hrow.bound, hrow.pending, hrow.failed⟩
    · exact ⟨le_refl _, fun _ => rfl, hi.rows d hd⟩

theorem safe_setClients {clients : List Client} :
    (rowLaw p).Safe j (fun _ _ => True) (write (.setClients clients) (·.withClients clients)) v := by
  refine Law.safe_exec_seen fun v' hv hi _ => ?_
  have hlater := later_watch j (.setClients clients) v'.1 v'.2
  refine ⟨⟨fun d hd => ?_, hlater⟩, ⟨?_, fun d hd => ?_, fun d hd => ?_⟩, fun _ _ _ => trivial⟩
  · by_cases hc : d.clientId ∈ clients.map (·.id)
    · refine .inl ⟨d, List.mem_filter.2 ⟨hd, decide_eq_true hc⟩, rfl, le_refl _, fun _ => rfl⟩
    · exact .inr hc
  · exact (List.filter_sublist.map _).nodup hi.keyed
  · exact hi.below d (List.mem_of_mem_filter hd)
  · exact (hi.rows d (List.mem_of_mem_filter hd)).mono hlater

/-! ### The jobs keep the law -/

theorem safe_only {α : Type} {kind : Stmt → Bool} (hk : ∀ l, kind l = true → shrinks l = true)
    {q : AccountM α} (hq : q.Does (Only p kind)) :
    (rowLaw p).Safe j (fun _ _ => True) q v := by
  refine Law.safe_of_does hq fun l db db' g hi _ h => ?_
  have hlater := later_watch j l db g
  have hframe := (h.of_kind hk).frame
  obtain ⟨hkept, hledger⟩ := Ledger.of_same hi hframe.deliveries hframe.nextDelivery hlater
  exact ⟨⟨hkept, hlater⟩, hledger⟩

theorem safe_globalLogout {draws : LogoutDraws} {b : Browser} {targets : List Session} :
    (rowLaw p).Safe j (fun _ _ => True) (globalLogout p draws b targets) v := by
  refine Law.safe_seq (safe_only loads_shrinks (does_select _)) fun _ v₁ _ => ?_
  refine Law.safe_seq (safe_only signsOut_shrinks (does_revokeForLogout b targets)) fun _ v₂ _ => ?_
  refine Law.safe_bind (safe_enqueue.imp fun rows v₃ hrows => ?_)
  refine Law.safe_seq (safe_deliverBatch fun row hrow => ?_) fun _ _ _ => trivial
  exact read_of_new (hrows row hrow) v₃.2

theorem safe_check {α : Type} {r : Except AppError α} :
    (rowLaw p).Safe j (fun _ _ => True) (check r) v := by
  cases r <;> trivial

theorem keeps_rowLaw : (rowLaw p).Keeps := by
  refine ⟨fun j v hi => ?_, fun e v hi => ?_⟩
  · show (rowLaw p).Safe j (fun _ _ => True) (j.prog p) v
    cases j with
    | logoutGlobal r draws =>
      refine Law.safe_seq (safe_only loads_shrinks (does_load _ _)) fun b _ _ => ?_
      refine Law.safe_seq safe_check fun _ _ _ => ?_
      split
      · trivial
      · exact Law.safe_seq safe_globalLogout fun _ _ _ => trivial
    | endSession r hintSid hintSub draws =>
      refine Law.safe_seq (safe_only loads_shrinks (does_load _ _)) fun b _ _ => ?_
      exact Law.safe_seq safe_globalLogout fun _ _ _ => trivial
    | retry skip attempt turns =>
      exact Law.safe_bind (safe_claimDue.imp fun rows v' hrows => safe_deliverBatch hrows)
    | setClients clients => exact safe_setClients
    | record sessionId clientId =>
      refine Law.safe_exec (fun _ _ => rfl) fun v' _ hi _ db' a h => ?_
      cases h
      dsimp only
      split_ifs
      · exact ⟨(rowLaw p).guar_refl _ _, hi, trivial⟩
      · have hsame := @Ledger.of_same v'.1
          { v'.1 with sessionClients := v'.1.sessionClients ++ [⟨sessionId, clientId⟩] } _ _ hi
          rfl rfl (.refl v'.2)
        exact ⟨⟨hsame.1, .refl _⟩, hsame.2, trivial⟩
  · obtain ⟨-, hledger⟩ := @Ledger.of_same v.1 ((outboxSystem p).env e v.1) _ _ hi rfl rfl (.refl v.2)
    exact ⟨.refl _, hledger⟩

end Rows

/-! ## Runs -/

/-- No statement of a logout fails, and nothing crashes, while a notice waits for its delivery; the
sweep of a logout knows its sessions; an attempt writes on the row it has read. -/
def Orderly (w : OutboxPool) : Act OutboxJob Nat → Prop
  | .crash => ∀ k ∈ w.ghost.owed, w.state.Served k
  | .step i false => ∀ t ∈ w.next i, inWindow t.2 = true → ∀ k ∈ w.ghost.owed, w.state.Served k
  | .step i true => ∀ t ∈ w.next i, SweepsKnown t.2 w.state ∧ Current t.2 w.state
  | _ => True

instance (w : OutboxPool) (a : Act OutboxJob Nat) : Decidable (Orderly w a) :=
  match a with
  | .crash => inferInstanceAs (Decidable (∀ k ∈ w.ghost.owed, w.state.Served k))
  | .step i false => inferInstanceAs (Decidable
      (∀ t ∈ w.next i, inWindow t.2 = true → ∀ k ∈ w.ghost.owed, w.state.Served k))
  | .step i true => inferInstanceAs (Decidable
      (∀ t ∈ w.next i, SweepsKnown t.2 w.state ∧ Current t.2 w.state))
  | .spawn _ | .env _ => inferInstanceAs (Decidable True)

section Runs

variable {p : Provider} {dir : List (Nat × String)} {w : OutboxPool} {a : Act OutboxJob Nat}

theorem Orderly.reliable (h : Orderly w a) : Reliable (duties dir) w a := by
  cases a with
  | step i answered =>
    cases answered with
    | true => exact fun t ht => (h t ht).1
    | false => exact h
  | crash => exact h
  | _ => trivial

theorem Orderly.meets (h : Orderly w a) : Meets (rowLaw p).cond w a := by
  cases a with
  | step i answered =>
    cases answered with
    | true => exact fun t ht => (h t ht).2
    | false => trivial
  | _ => trivial

/-- What holds along a run. -/
structure OutboxOk (p : Provider) (dir : List (Nat × String)) (w : OutboxPool) : Prop where
  kept : Process.Kept (duties dir) w
  does : w.Does fun _ => Effect
  rows : (rowLaw p).PoolOk w

theorem OutboxOk.step (hdir : (dir.map (·.1)).Nodup) (hsids : (dir.map (·.2)).Nodup)
    (h : OutboxOk p dir w) (ha : Orderly w a) :
    OutboxOk p dir ((outboxSystem p).step w a) ∧
      RowsKept w.state ((outboxSystem p).step w a).state := by
  have hrows := Law.poolOk_step keeps_rowLaw h.rows ha.meets
  refine ⟨⟨?_, h.does.step does_prog a, hrows.poolOk⟩, ?_⟩
  · refine h.kept.step (honours_prog hdir hsids) (fun e db hok => ?_) ?_ ha.reliable
    · exact ⟨hok, fun k => ⟨fun hp => hp, fun hd => .inl hd⟩⟩
    · intro i j l u ok err hi _
      have hdoes := h.does _ (List.mem_of_getElem? hi) w.state
      exact watched (j := j) w.ghost h.kept.ok hdoes.1
  · cases a with
    | step i answered =>
      cases hi : w.threads[i]? with
      | none =>
        simp only [System.step, hi]
        exact .refl _
      | some t => exact (hrows.moves t hi).1
    | spawn j => exact .refl _
    | env e => exact .refl _
    | crash => exact .refl _

/-- The claims of the outbox at the end of a run. -/
structure OutboxKept (db : Db) (w : OutboxPool) : Prop where
  /-- A notice that is owed has its delivery, or a logout is about to write it. -/
  served : ∀ k ∈ w.ghost.owed, w.state.Served k ∨
    ∃ t ∈ w.threads, t.2.Fulfils (duties (db.sessions.map (·.name))) k
  idle : (∀ t ∈ w.threads, t.2.live = false) → ∀ k ∈ w.ghost.owed, w.state.Served k
  keyed : Table.Keyed (·.id) w.state.deliveries
  bound : ∀ d ∈ w.state.deliveries, d.attempts ≤ maxAttempts
  caused : ∀ d ∈ w.state.deliveries, d.status = .failed → w.ghost.Caused d.id

/-- Every run in which the steps are orderly. -/
theorem outbox_run (p : Provider) (db : Db) (hids : (db.sessions.map (·.id)).Nodup)
    (hsids : (db.sessions.map (·.sid)).Nodup) (hrows : db.deliveries = [])
    (acts : List (Act OutboxJob Nat))
    (hacts : Along (outboxSystem p).step Orderly (OutboxPool.initial db) acts) :
    OutboxKept db (acts.foldl (outboxSystem p).step (OutboxPool.initial db)) ∧
      Along (outboxSystem p).step
        (fun w a => RowsKept w.state ((outboxSystem p).step w a).state)
        (OutboxPool.initial db) acts := by
  have hdir : ((db.sessions.map (·.name)).map (·.1)).Nodup := by rwa [List.map_map]
  have hsids : ((db.sessions.map (·.name)).map (·.2)).Nodup := by rwa [List.map_map]
  have hinit : OutboxOk p (db.sessions.map (·.name)) (OutboxPool.initial db) := by
    have hledger : Ledger (OutboxPool.initial db).view := by
      have hnone : ∀ d ∈ db.deliveries, False := by simp [hrows]
      refine ⟨?_, fun d hd => (hnone d hd).elim, fun d hd => (hnone d hd).elim⟩
      show (db.deliveries.map (·.id)).Nodup
      rw [hrows]
      exact List.nodup_nil
    exact
      { kept :=
          { ok := rfl
            honours := fun t ht => absurd ht List.not_mem_nil
            kept := fun k hk => absurd hk List.not_mem_nil }
        does := fun t ht => absurd ht List.not_mem_nil
        rows := ⟨hledger, fun t ht => absurd ht List.not_mem_nil⟩ }
  obtain ⟨h, hkept⟩ := run_of_along (OutboxOk p (db.sessions.map (·.name)))
    (fun w a h ha => h.step hdir hsids ha) hinit hacts
  refine ⟨⟨fun k hk => ?_, h.kept.paid_of_idle, h.rows.inv.keyed, fun d hd => ?_, fun d hd => ?_⟩,
    hkept⟩
  · exact (h.kept.kept k hk).imp_right fun hd => hd.2
  · exact (h.rows.inv.rows d hd).bound
  · exact (h.rows.inv.rows d hd).failed

end Runs

/-! ## A logout that is lost, and a late result -/

/-- A provider with several accounts in a browser. -/
def exampleProvider : Provider where
  hash s := s
  issuer := "https://op.example"
  multiAccount := true
  maxBrowserAccounts := 4
  browserContainerTtlSecs := 86400
  sessionTtlSecs := 28800

/-- One browser with one account, which has given a token to one application. -/
def exampleDb : Db where
  now := 0
  users := [3]
  containers :=
    [{ id := 1, secretHash := "secret", webSessionId := some 2, webSignedOutAt := none
       lastSeenAt := 0, expiresAt := 86400, revokedAt := none }]
  sessions :=
    [{ id := 2, sessionHash := "session", userId := 3, authTime := 0, createdAt := 0, lastSeenAt := 0
       expiresAt := 28800, revokedAt := none, revokedReason := none, containerId := some 1
       sid := "sid" }]
  clients := [{ id := 7, active := true, backchannelLogoutUri := some "https://app.example/logout" }]
  sessionClients := [⟨2, 7⟩]
  deliveries := []
  nextDelivery := 1

/-- A request from the browser with the secret. -/
def exampleRequest : Request where
  cookies := ⟨some "secret", none⟩
  firstParty := true
  csrf := csrfFor exampleProvider "secret"
  draws := ⟨0, "", "", 0, "", ""⟩

/-- The application refuses the first notice. -/
def exampleLogout : OutboxJob :=
  .logoutGlobal exampleRequest ⟨1, fun _ => ⟨"first", .status 400⟩, []⟩

/-- It takes the second one. -/
def exampleRetry : OutboxJob := .retry [] (fun _ => ⟨"second", .status 204⟩) []

/-- The process stops after the revocation. -/
def lostActs : List (Act OutboxJob Nat) :=
  .spawn exampleLogout :: List.replicate 5 (.step 0 true) ++ [.crash]

/-- The logout has its answer and has not written it when the lease of its row ends. -/
def lateActs : List (Act OutboxJob Nat) :=
  .spawn exampleLogout :: List.replicate 11 (.step 0 true) ++
    .env 200 :: .spawn exampleRetry :: List.replicate 4 (.step 1 true)

/-- The session is revoked, its application has no delivery, and nothing is under way; and a
delivery that was made becomes a failed one. -/
theorem outbox_lost_and_late :
    let lost := lostActs.foldl (outboxSystem exampleProvider).step (OutboxPool.initial exampleDb)
    let late := lateActs.foldl (outboxSystem exampleProvider).step (OutboxPool.initial exampleDb)
    let later := (outboxSystem exampleProvider).step late (.step 0 true)
    (lost.threads.length = 0 ∧ lost.state.sessions.map (·.revokedReason) = [some .globalLogout] ∧
      lost.ghost.owed = [(7, "sid")] ∧ ¬ lost.state.Served (7, "sid")) ∧
    late.state.deliveries.map (·.status) = [.delivered] ∧
      later.state.deliveries.map (·.status) = [.failed] ∧ ¬ RowsKept late.state later.state := by
  decide +kernel

/-- The first attempt gets no answer and the second one is taken. -/
def orderlyActs : List (Act OutboxJob Nat) :=
  .spawn (.logoutGlobal exampleRequest ⟨1, fun _ => ⟨"first", .transient "timeout"⟩, []⟩) ::
    List.replicate 12 (.step 0 true) ++
    .env 200 :: .spawn exampleRetry :: List.replicate 4 (.step 1 true)

theorem outbox_run_orderly :
    let w := orderlyActs.foldl (outboxSystem exampleProvider).step (OutboxPool.initial exampleDb)
    w.ghost.owed = [(7, "sid")] ∧
      w.state.deliveries.map (fun d => (d.status, d.attempts)) = [(.delivered, 2)] ∧
      OutboxKept exampleDb w :=
  ⟨by decide +kernel, by decide +kernel,
    (outbox_run exampleProvider exampleDb (by decide) (by decide) rfl orderlyActs
      (by decide +kernel)).1⟩

end FloatCtf.Oidc.Accounts
