import FloatCtf.Oidc.AccountSteps
import FloatCtf.Process.Duty
import FloatCtf.Process.Table

/-!
# The container of a browser

Several tabs of a browser change one container.  A request decides on the view it has loaded, and
its writes find whatever the other tabs have made of the container since.

`browser_run` shows what holds in every run in which each write still fits the table: a session
comes into a container of which the request knows every live session, a revoked session is the
active account only where the request knows it, the session that becomes the active account is an
unrevoked one of the container, and sign-outs are written in the order of their times.  Then no user
has two live sessions in a container, no container has more than `maxBrowserAccounts`, the pointer
of a container is good where no request is under way, no secret comes back, and no session is
restored that a sign-out has left behind.
-/

namespace FloatCtf.Oidc.Accounts

open Process

/-! ## The system -/

/-- The requests of a browser. -/
inductive BrowserJob where
  | login (r : Request) (verified : Option Nat)
  | oidcLogin (r : Request) (userId : Nat)
  | restore (r : Request)
  | select (r : Request) (accountId : Nat)
  | logoutAccount (r : Request) (accountId : Option Nat)
  | logoutBrowser (r : Request)
  | logoutGlobal (r : Request) (draws : LogoutDraws)
  | endSession (r : Request) (hintSid : Option String) (hintSub : Option Nat) (draws : LogoutDraws)
  | migrate (r : Request) (userId : Nat) (window : Except AppError (Int × Int))

/-- The program of a request. -/
def BrowserJob.prog (p : Provider) : BrowserJob → AccountM Unit
  | login r verified => Accounts.login p r verified
  | oidcLogin r userId => Accounts.oidcLogin p r userId
  | restore r => Accounts.restore p r
  | select r accountId => selectAccount p r accountId
  | logoutAccount r accountId => Accounts.logoutAccount p r accountId
  | logoutBrowser r => Accounts.logoutBrowser p r
  | logoutGlobal r draws => Accounts.logoutGlobal p r draws
  | endSession r hintSid hintSub draws => endSessionConfirm p r hintSid hintSub draws
  | migrate r userId window => Accounts.migrate p r userId window

/-- What is noted of a run: the containers whose pointer a request had to clear, the secrets that a
sign-in has replaced, and the sessions that a sign-out of the main site has left behind. -/
structure BrowserNotes where
  cleared : List Nat := []
  retired : List String := []
  excluded : List (Nat × Session) := []

/-- What the notes learn of a statement. -/
def BrowserNotes.watch (_ : BrowserJob) (l : Stmt) (db : Db) (g : BrowserNotes) : BrowserNotes :=
  match l with
  | .revoke _ _ _ clears => { g with cleared := clears.toList ++ g.cleared }
  | .sweep _ c _ => { g with cleared := c :: g.cleared }
  | .rotate c _ =>
    { g with retired := (db.containers.filter (·.id = c)).map (·.secretHash) ++ g.retired }
  | .setWeb _ c _ (some t) _ =>
    { g with
      excluded := (db.containers.filter (·.id = c)).flatMap
        (fun _ => (db.sessions.filter (·.createdAt ≤ t)).map fun s => (c, s)) ++ g.excluded }
  | _ => g

/-- The requests of several tabs, with the notes as ghost state. -/
def browserSystem (p : Provider) : System Stmt Db AppError BrowserNotes BrowserJob Nat where
  prog := BrowserJob.prog p
  env d db := { db with now := db.now + d }
  watch := BrowserNotes.watch

/-- The requests of several tabs under way. -/
abbrev BrowserPool := Pool Stmt Db AppError BrowserNotes BrowserJob

/-- Nothing has been asked yet. -/
def BrowserPool.initial (db : Db) : BrowserPool := { state := db, ghost := {}, threads := [] }

/-- A request arrives, the request at index `i` makes its next statement, or time passes. -/
inductive TabAct where
  | request (j : BrowserJob)
  | step (i : Nat)
  | tick (d : Nat)

/-- An act of a tab in the pool. -/
def TabAct.act : TabAct → Act BrowserJob Nat
  | request j => .spawn j
  | step i => .step i true
  | tick d => .env d

/-- One step of the tabs, every statement answered. -/
def browserStep (p : Provider) (w : BrowserPool) (a : TabAct) : BrowserPool :=
  (browserSystem p).step w a.act

/-! ## What is to hold -/

/-- The session lives in this container. -/
def Session.livesIn (c : Nat) (now : Int) (s : Session) : Bool :=
  s.containerId = some c && s.isLive now

/-- The live sessions of a container. -/
def Db.liveIn (db : Db) (c : Nat) : List Session := db.sessions.filter (Session.livesIn c db.now)

/-- The active account is null or an unrevoked session of the container. -/
def PointerOk (db : Db) (c : Container) : Prop :=
  ∀ id ∈ c.webSessionId, ∃ s ∈ db.sessions, s.id = id ∧ s.revokedAt = none ∧
    s.containerId = some c.id

/-- The accounts fit their containers: one session for each user, and no more than there is room
for. -/
structure Accommodated (p : Provider) (db : Db) : Prop where
  containers : Table.Keyed (·.id) db.containers
  sessions : Table.Keyed (·.id) db.sessions
  users : ∀ c, Table.Keyed (·.userId) (db.liveIn c)
  room : ∀ c, (db.liveIn c).length ≤ p.maxBrowserAccounts

/-! ## The condition -/

/-- The write fits the table. -/
def Fits (l : Stmt) (db : Db) : Prop :=
  match l with
  | .move view id => (∀ c ∈ db.containers, c.webSessionId ≠ some id) ∧
      ∀ c ∈ view.container, db.liveIn c.id = []
  | .insertSession view s _ => (∀ t ∈ db.sessions,
        ¬ (t.id = s.id ∨ t.sessionHash = s.sessionHash ∨ t.sid = s.sid)) ∧
      ∀ c ∈ view.container, ∀ t ∈ db.liveIn c.id,
        ∃ t' ∈ view.accounts, t'.id = t.id ∧ t'.userId = t.userId
  | .revoke _ ids _ clears => ∀ c ∈ db.containers, ∀ id ∈ c.webSessionId, id ∈ ids →
      clears = some c.id
  | .setWeb view c s signedOut restore =>
      (∀ t ∈ s, ∃ r ∈ db.sessions, r.id = t.id ∧ r.createdAt = t.createdAt ∧ r.revokedAt = none ∧
        r.containerId = some c) ∧
      ∀ r ∈ db.containers, r.id = c →
        (∀ t ∈ signedOut, ∀ t' ∈ r.webSignedOutAt, t' ≤ t) ∧
        (restore = true → r.webSignedOutAt = view.container.bind (·.webSignedOutAt))
  | _ => True

/-- The secret that is drawn has not been used. -/
def NewSecret (l : Stmt) (db : Db) (g : BrowserNotes) : Prop :=
  match l with
  | .insertContainer hash | .rotate _ hash =>
      (∀ c ∈ db.containers, c.secretHash ≠ hash) ∧ hash ∉ g.retired
  | _ => True

instance (l : Stmt) (db : Db) : Decidable (Fits l db) := by
  unfold Fits
  split <;> infer_instance

instance (l : Stmt) (db : Db) (g : BrowserNotes) : Decidable (NewSecret l db g) := by
  unfold NewSecret
  split <;> infer_instance

/-- The next statement of a tab fits what is stored. -/
def Timely (w : BrowserPool) : TabAct → Prop
  | .step i => ∀ t ∈ w.next i, Fits t.2 w.state ∧ NewSecret t.2 w.state w.ghost
  | _ => True

instance (w : BrowserPool) (a : TabAct) : Decidable (Timely w a) :=
  match a with
  | .step i => inferInstanceAs (Decidable
      (∀ t ∈ w.next i, Fits t.2 w.state ∧ NewSecret t.2 w.state w.ghost))
  | .request _ | .tick _ => inferInstanceAs (Decidable True)

/-! ## Sessions of a container -/

section Change

variable {p : Provider} {l : Stmt} {db db' : Db}

theorem keyed_editContainer (h : Table.Keyed (·.id) db.containers) (id : Nat)
    {f : Container → Container} (hf : ∀ r, (f r).id = r.id) :
    Table.Keyed (·.id) (editContainer id f db).containers := by
  refine Table.keyed_map (fun r => ?_) h
  split_ifs
  · exact hf r
  · rfl

theorem keyed_editSessions (h : Table.Keyed (·.id) db.sessions) (q : Session → Bool)
    {f : Session → Session} (hf : ∀ s, (f s).id = s.id) :
    Table.Keyed (·.id) (editSessions q f db).sessions := by
  refine Table.keyed_map (fun s => ?_) h
  split_ifs
  · exact hf s
  · rfl

/-- Rows that leave the filter when they are edited. -/
theorem filter_edit_sublist {R : Type} {q P : R → Bool} {f : R → R} :
    ∀ {rows : List R}, (∀ r ∈ rows, q r = true → P (f r) = false) →
      ((rows.map fun r => if q r then f r else r).filter P).Sublist (rows.filter P)
  | [], _ => .slnil
  | r :: rows, h => by
    have ih := filter_edit_sublist fun r' hr' => h r' (List.mem_cons_of_mem r hr')
    rw [List.map_cons]
    by_cases hq : q r = true
    · rw [if_pos hq, List.filter_cons_of_neg (by simp [h r List.mem_cons_self hq])]
      exact ih.trans ((List.sublist_cons_self r rows).filter P)
    · rw [if_neg hq]
      by_cases hP : P r = true
      · rw [List.filter_cons_of_pos hP, List.filter_cons_of_pos hP]
        exact ih.cons_cons r
      · rw [List.filter_cons_of_neg hP, List.filter_cons_of_neg hP]
        exact ih

/-- No container gets a session that it had not. -/
theorem Accommodated.of_sublist (h : Accommodated p db)
    (hc : Table.Keyed (·.id) db'.containers) (hs : Table.Keyed (·.id) db'.sessions)
    (hsub : ∀ c, (db'.liveIn c).Sublist (db.liveIn c)) : Accommodated p db' where
  containers := hc
  sessions := hs
  users c := ((hsub c).map _).nodup (h.users c)
  room c := (hsub c).length_le.trans (h.room c)

theorem Accommodated.editContainer (h : Accommodated p db) (id : Nat) {f : Container → Container}
    (hf : ∀ r, (f r).id = r.id) : Accommodated p (editContainer id f db) :=
  h.of_sublist (keyed_editContainer h.containers id hf) h.sessions fun _ => .refl _

theorem Accommodated.revoke (h : Accommodated p db) (q : Session → Bool) (now : Int)
    (reason : RevokeReason) : Accommodated p (editSessions q (revokeAt now reason) db) := by
  refine h.of_sublist h.containers (keyed_editSessions h.sessions q fun _ => rfl) fun c => ?_
  refine filter_edit_sublist fun s _ _ => ?_
  simp [revokeAt, Session.livesIn, Session.isLive]

/-- The container that a session moves into was empty. -/
theorem Accommodated.move (hmax : 1 ≤ p.maxBrowserAccounts) (h : Accommodated p db) (id : Nat)
    (target : Option Nat) (htarget : ∀ c ∈ target, db.liveIn c = []) :
    Accommodated p (editSessions (fun s => s.id = id) (fun s => { s with containerId := target }) db) := by
  have hs := keyed_editSessions h.sessions (fun s => s.id = id)
    (f := fun s => { s with containerId := target }) fun _ => rfl
  have hstays (c : Nat) (hc : target ≠ some c) : ((editSessions (fun s => s.id = id)
      (fun s => { s with containerId := target }) db).liveIn c).Sublist (db.liveIn c) := by
    refine filter_edit_sublist fun s _ _ => ?_
    simp [Session.livesIn, hc]
  have hone (c : Nat) (hc : target = some c) : ((editSessions (fun s => s.id = id)
      (fun s => { s with containerId := target }) db).liveIn c).length ≤ 1 := by
    -- a session beside the one that moves was there before
    have hid (s : Session) (hs : s ∈ (editSessions (fun s => s.id = id)
        (fun s => { s with containerId := target }) db).sessions)
        (hP : s.livesIn c db.now = true) : s.id = id := by
      obtain ⟨t, ht, rfl⟩ := List.mem_map.1 hs
      by_cases hid : t.id = id
      · simp [hid]
      · rw [if_neg (by simpa using hid)] at hP
        have hmem : t ∈ db.liveIn c := List.mem_filter.2 ⟨ht, hP⟩
        rw [htarget c hc] at hmem
        exact absurd hmem List.not_mem_nil
    refine Table.length_filter_le_one hs fun s hmem s' hmem' hP hP' => ?_
    exact Table.eq_of_key hs hmem hmem' ((hid s hmem hP).trans (hid s' hmem' hP').symm)
  refine ⟨h.containers, hs, fun c => ?_, fun c => ?_⟩
  · by_cases hc : target = some c
    · have hlen := hone c hc
      match hlive : (editSessions (fun s => s.id = id)
          (fun s => { s with containerId := target }) db).liveIn c with
      | [] => exact List.nodup_nil
      | [_] => exact List.nodup_singleton _
      | _ :: _ :: _ =>
        rw [hlive] at hlen
        simp at hlen
    · exact ((hstays c hc).map _).nodup (h.users c)
  · by_cases hc : target = some c
    · exact (hone c hc).trans hmax
    · exact (hstays c hc).length_le.trans (h.room c)

/-- The request knows the sessions of the container, and they are few and not of the user. -/
theorem Accommodated.insert (h : Accommodated p db) {s : Session} {known : List Session}
    (hid : ∀ t ∈ db.sessions, t.id ≠ s.id) (hlen : known.length < p.maxBrowserAccounts)
    (husers : ∀ t ∈ known, t.userId ≠ s.userId)
    (hknown : ∀ c ∈ s.containerId, ∀ t ∈ db.liveIn c,
      ∃ t' ∈ known, t'.id = t.id ∧ t'.userId = t.userId) :
    Accommodated p { db with sessions := db.sessions ++ [s] } := by
  have hlive (c : Nat) : ({ db with sessions := db.sessions ++ [s] } : Db).liveIn c =
      db.liveIn c ++ [s].filter (Session.livesIn c db.now) :=
    List.filter_append ..
  refine ⟨h.containers, Table.keyed_append h.sessions hid, fun c => ?_, fun c => ?_⟩
  · rw [hlive]
    by_cases hs : s.livesIn c db.now = true
    · rw [List.filter_cons_of_pos hs, List.filter_nil]
      refine Table.keyed_append (h.users c) fun t ht => ?_
      rw [Session.livesIn, Bool.and_eq_true, decide_eq_true_eq] at hs
      obtain ⟨t', ht', -, huser⟩ := hknown c hs.1 t ht
      rw [← huser]
      exact husers t' ht'
    · rw [List.filter_cons_of_neg hs, List.filter_nil, List.append_nil]
      exact h.users c
  · rw [hlive]
    by_cases hs : s.livesIn c db.now = true
    · rw [List.filter_cons_of_pos hs, List.filter_nil, List.length_append, List.length_singleton]
      rw [Session.livesIn, Bool.and_eq_true, decide_eq_true_eq] at hs
      have hnodup : ((db.liveIn c).map (·.id)).Nodup :=
        (List.filter_sublist.map _).nodup h.sessions
      have hsub : (db.liveIn c).map (·.id) ⊆ known.map (·.id) := by
        intro id hid
        obtain ⟨t, ht, rfl⟩ := List.mem_map.1 hid
        obtain ⟨t', ht', hid, -⟩ := hknown c hs.1 t ht
        exact hid ▸ List.mem_map_of_mem ht'
      have hle := (List.subperm_of_subset hnodup hsub).length_le
      rw [List.length_map, List.length_map] at hle
      exact hle.trans_lt hlen
    · rw [List.filter_cons_of_neg hs, List.filter_nil, List.append_nil]
      exact h.room c

theorem Accommodated.change (hmax : 1 ≤ p.maxBrowserAccounts) (h : Accommodated p db)
    (hc : Change p l db db') (hf : Fits l db) : Accommodated p db' := by
  cases l with
  | clock => exact Eq.symm hc ▸ h
  | select => exact Eq.symm hc ▸ h
  | insertContainer hash =>
    rcases hc with rfl | ⟨c, -, -, hid, rfl⟩
    · exact h
    · exact h.of_sublist (Table.keyed_append h.containers hid) h.sessions fun _ => .refl _
  | renew =>
    obtain ⟨id, lastSeenAt, expiresAt, rfl⟩ := hc
    exact h.editContainer id fun _ => rfl
  | rotate c hash =>
    rcases hc with ⟨rfl, -⟩ | ⟨lastSeenAt, expiresAt, rfl⟩
    · exact h
    · exact h.editContainer c fun _ => rfl
  | move view id =>
    obtain rfl := hc
    refine h.move hmax id _ fun c hc => ?_
    obtain ⟨vc, hvc, rfl⟩ := Option.map_eq_some_iff.1 hc
    exact hf.2 vc hvc
  | revoke view ids reason clears =>
    obtain rfl := hc
    exact h.revoke _ db.now reason
  | sweep view c reason =>
    obtain rfl := hc
    exact h.revoke _ db.now reason
  | insertSession view s clears =>
    obtain ⟨⟨hlen, husers, hcid⟩, rfl | ⟨hid, rfl⟩⟩ := hc
    · exact h
    · refine h.insert hid hlen husers fun c hc => ?_
      rw [hcid] at hc
      obtain ⟨vc, hvc, rfl⟩ := Option.map_eq_some_iff.1 hc
      exact hf.2 vc hvc
  | setWeb view c s signedOut restore =>
    obtain ⟨-, rfl⟩ := hc
    exact h.editContainer c fun _ => rfl
  | revokeContainer c =>
    obtain rfl := hc
    exact h.editContainer c fun _ => rfl
  | _ =>
    obtain ⟨hcont, hsess, hnow⟩ := hc
    refine h.of_sublist (hcont ▸ h.containers) (hsess ▸ h.sessions) fun c => ?_
    unfold Db.liveIn
    rw [hsess, hnow]

end Change

/-! ## The pointer -/

/-- The statements after which the request clears the pointer of the container. -/
def Clears (l : Stmt) (k : Nat) : Prop :=
  match l with
  | .revoke _ _ _ clears => clears = some k
  | .sweep _ c _ => c = k
  | _ => False

/-- The active account of this container is right. -/
def PointersOk (k : Nat) (db : Db) : Prop := ∀ r ∈ db.containers, r.id = k → PointerOk db r

/-- Who clears the pointer of a container owes it a new one. -/
def pointers : Duties Stmt Db BrowserNotes Nat where
  ok _ := True
  cond := Fits
  opens l _ k := Clears l k
  due _ _ := True
  paid := PointersOk
  window _ := true
  owed := BrowserNotes.cleared

namespace Pointer

variable {p : Provider} {l : Stmt} {db db' : Db} {k : Nat}

theorem pointersOk_editContainer (h : PointersOk k db) (id : Nat) {f : Container → Container}
    (hf : ∀ r, (f r).id = r.id)
    (hp : ∀ r ∈ db.containers, r.id = id → (f r).webSessionId = r.webSessionId ∨
      PointerOk db (f r)) : PointersOk k (editContainer id f db) := by
  intro r' hr' hk
  obtain ⟨r, hr, rfl⟩ := List.mem_map.1 hr'
  by_cases hid : r.id = id
  · rw [if_pos hid] at hk ⊢
    rcases hp r hr hid with hsame | hok
    · have hr := h r hr ((hf r).symm.trans hk)
      unfold PointerOk at hr ⊢
      rwa [hsame, hf]
    · exact hok
  · rw [if_neg hid] at hk ⊢
    exact h r hr hk

/-- The session of the pointer is not edited. -/
theorem pointersOk_editSessions (h : PointersOk k db) {q : Session → Bool} {f : Session → Session}
    (hq : ∀ r ∈ db.containers, r.id = k → ∀ s ∈ db.sessions, r.webSessionId = some s.id →
      s.containerId = some k → q s = false) : PointersOk k (editSessions q f db) := by
  intro r hr hk id hid
  obtain ⟨s, hs, rfl, hrev, hcid⟩ := h r hr hk id hid
  have hsame : (if q s then f s else s) = s :=
    if_neg (by simp [hq r hr hk s hs hid (hk ▸ hcid)])
  refine ⟨s, ?_, rfl, hrev, hcid⟩
  exact hsame ▸ List.mem_map_of_mem hs

/-- What a statement leaves of a good pointer, unless the request goes on to clear it. -/
theorem pointersOk_change (hc : Change p l db db') (hf : Fits l db) (hk : ¬ Clears l k)
    (h : PointersOk k db) : PointersOk k db' := by
  cases l with
  | clock => exact Eq.symm hc ▸ h
  | select => exact Eq.symm hc ▸ h
  | insertContainer hash =>
    rcases hc with rfl | ⟨c, -, hnone, -, rfl⟩
    · exact h
    · intro r hr hid
      rcases List.mem_append.1 hr with hr | hr
      · exact h r hr hid
      · rw [List.mem_singleton.1 hr]
        intro id hid
        rw [hnone] at hid
        cases hid
  | renew =>
    obtain ⟨id, lastSeenAt, expiresAt, rfl⟩ := hc
    exact pointersOk_editContainer h id (fun _ => rfl) fun _ _ _ => .inl rfl
  | rotate c hash =>
    rcases hc with ⟨rfl, -⟩ | ⟨lastSeenAt, expiresAt, rfl⟩
    · exact h
    · exact pointersOk_editContainer h c (fun _ => rfl) fun _ _ _ => .inl rfl
  | move view id =>
    obtain rfl := hc
    refine pointersOk_editSessions h fun r hr _ s hs hpoint _ => ?_
    refine decide_eq_false fun hid => hf.1 r hr ?_
    rw [hpoint, hid]
  | revoke view ids reason clears =>
    obtain rfl := hc
    refine pointersOk_editSessions h fun r hr hid s hs hpoint _ => ?_
    refine Bool.and_eq_false_imp.2 fun hmem => absurd ?_ hk
    rw [← hid]
    exact hf r hr s.id hpoint (of_decide_eq_true hmem)
  | sweep view c reason =>
    obtain rfl := hc
    refine pointersOk_editSessions h fun r hr _ s hs _ hcid => ?_
    refine Bool.and_eq_false_imp.2 fun hmem => absurd ?_ hk
    have hmem := of_decide_eq_true hmem
    rw [hcid] at hmem
    exact (Option.some.inj hmem).symm
  | insertSession view s clears =>
    obtain ⟨-, rfl | ⟨-, rfl⟩⟩ := hc
    · exact h
    · intro r hr hid id hpoint
      obtain ⟨t, ht, hrest⟩ := h r hr hid id hpoint
      exact ⟨t, List.mem_append_left _ ht, hrest⟩
  | setWeb view c s signedOut restore =>
    obtain ⟨-, rfl⟩ := hc
    refine pointersOk_editContainer h c (fun _ => rfl) fun r hr hid => .inr fun id hpoint => ?_
    obtain ⟨t, ht, rfl⟩ := Option.map_eq_some_iff.1 hpoint
    obtain ⟨t', ht', hid', -, hrev, hcid⟩ := hf.1 t ht
    exact ⟨t', ht', hid', hrev, hid.symm ▸ hcid⟩
  | revokeContainer c =>
    obtain rfl := hc
    refine pointersOk_editContainer h c (fun _ => rfl) fun r hr hid => .inr fun id hpoint => ?_
    cases hpoint
  | _ =>
    obtain ⟨hcont, hsess, -⟩ := hc
    intro r hr hid id hpoint
    rw [hsess]
    exact h r (hcont ▸ hr) hid id hpoint

/-! ### The requests clear the pointer -/

/-- No session is revoked. -/
def leavesSessions : Stmt → Bool
  | .revoke .. | .sweep .. => false
  | _ => true

theorem honours_of_only {α : Type} {kind : Stmt → Bool} {q : AccountM α}
    (hkind : ∀ l, kind l = true → leavesSessions l = true) (hq : q.Does (Only p kind)) :
    q.Honours pointers := by
  refine Prog.honours_of_does hq fun l db db' k h hk => ?_
  have hl := hkind l h.1
  cases l with
  | revoke view ids reason clears => cases hl
  | sweep view c reason => cases hl
  | _ => exact hk.elim

theorem leavesSessions_of_loads (l : Stmt) (h : loads l = true) : leavesSessions l = true := by
  cases l <;> first | rfl | cases h

theorem leavesSessions_of_mails (l : Stmt) (h : mails l = true) : leavesSessions l = true := by
  cases l <;> first | rfl | cases h

theorem honours_load (draws : Draws) (cookies : Cookies) :
    (load p draws cookies).Honours pointers :=
  honours_of_only leavesSessions_of_loads (does_load draws cookies)

theorem honours_of_mail {α : Type} {q : AccountM α} (hq : q.Does (Mail p)) :
    q.Honours pointers :=
  honours_of_only leavesSessions_of_mails (hq.mono fun _ _ _ h => h.1)

theorem honours_check {α : Type} (r : Except AppError α) : (check r).Honours pointers := by
  cases r <;> trivial

theorem honours_activate (b : Browser) (session : Session) (restore : Bool) :
    (activate b session restore).Honours pointers := by
  unfold activate
  split
  · trivial
  · refine Prog.honours_seq ?_ fun _ => trivial
    exact fun _ _ => ⟨fun _ _ h => h.elim, fun _ _ => ⟨fun _ _ h => h.elim, trivial, trivial⟩,
      fun _ _ => ⟨fun _ _ h => h.elim, trivial, trivial⟩⟩

theorem incurs_revoke (view : Browser) (ids : List Nat) (reason : RevokeReason)
    (clears : Option Nat) :
    (revokeSessions view ids reason clears).Incurs pointers fun k => clears = some k := by
  unfold revokeSessions
  split_ifs
  · trivial
  · exact ⟨rfl, fun _ _ => ⟨fun _ _ h => h, trivial, .inl ⟨_, rfl⟩⟩⟩

theorem pointersOk_null (k : Nat) {f : Container → Container}
    (hf : ∀ r, (f r).webSessionId = none) (db : Db) : PointersOk k (editContainer k f db) := by
  intro r' hr' hid id hpoint
  obtain ⟨r, hr, rfl⟩ := List.mem_map.1 hr'
  by_cases hc : r.id = k
  · rw [if_pos hc, hf] at hpoint
    cases hpoint
  · rw [if_neg hc] at hid
    exact absurd hid hc

theorem fulfils_write {f : Db → Db} (hf : ∀ db, PointersOk k (f db)) :
    (write l f).Fulfils pointers k := ⟨rfl, fun db _ _ _ => .inl (hf db)⟩

/-- The pointer is null afterwards. -/
theorem fulfils_setWebSession {α : Type} (view : Browser) (c : Container) (signedOut : Bool)
    (f : Container → AccountM α) :
    (setWebSession view c none signedOut false >>= f).Fulfils pointers c.id := by
  refine Prog.Fulfils.bind ?_ f
  refine ⟨rfl, fun db _ _ _ => .inr (Prog.Fulfils.bind (fulfils_write fun db' => ?_) _)⟩
  exact pointersOk_null c.id (fun _ => rfl) db'

theorem honours_setWebSession {α : Type} {view : Browser} {c : Container} {s : Option Session}
    {signedOut restore : Bool} {f : Container → AccountM α} (hf : ∀ c, (f c).Honours pointers) :
    (setWebSession view c s signedOut restore >>= f).Honours pointers := by
  refine Prog.honours_seq ?_ hf
  exact fun _ _ => ⟨fun _ _ h => h.elim, fun _ _ => ⟨fun _ _ h => h.elim, trivial, trivial⟩,
    fun _ _ => ⟨fun _ _ h => h.elim, trivial, trivial⟩⟩

theorem honours_signOutAccount (b : Browser) (id : Nat) (reason : RevokeReason) :
    (signOutAccount b id reason).Honours pointers := by
  unfold signOutAccount
  split
  · trivial
  · refine (incurs_revoke ..).honours (fun _ k hk => ?_) fun _ => ?_
    · obtain ⟨c, hc, rfl⟩ := Option.map_eq_some_iff.1 hk
      obtain ⟨hview, hpoint⟩ := Option.filter_eq_some_iff.1 hc
      simp only [hview, of_decide_eq_true hpoint, ↓reduceIte]
      exact fulfils_setWebSession _ c true _
    · dsimp only
      split
      · trivial
      · exact Prog.honours_if (fun _ => honours_setWebSession fun _ => trivial) fun _ => trivial

theorem honours_signOutAccounts : ∀ (ss : List Session) (b : Browser),
    (signOutAccounts ss b).Honours pointers
  | [], _ => trivial
  | s :: ss, b => Prog.honours_seq (honours_signOutAccount b s.id .globalLogout)
      fun b => honours_signOutAccounts ss b

/-- The container goes, and its pointer with it. -/
theorem fulfils_revokeContainer (b : Browser) (c : Container) (reason : RevokeReason) :
    (revokeContainer b c reason).Fulfils pointers c.id := by
  refine ⟨rfl, fun db _ _ _ => .inr (fulfils_write fun db' => ?_)⟩
  exact pointersOk_null c.id (fun _ => rfl) db'

theorem honours_revokeContainer {b : Browser} {c : Container} {reason : RevokeReason} :
    (revokeContainer b c reason).Honours pointers := by
  refine fun db _ => ⟨fun _ k hk => ?_, fun _ _ => ⟨fun _ _ h => h.elim, trivial, trivial⟩, trivial⟩
  obtain rfl : c.id = k := hk
  refine fulfils_write fun db' => ?_
  exact pointersOk_null c.id (fun _ => rfl) db'

theorem honours_signOutBrowser (b : Browser) (reason : RevokeReason) :
    (signOutBrowser b reason).Honours pointers := by
  refine (incurs_revoke ..).honours (fun _ k hk => ?_) fun _ => ?_
  · obtain ⟨c, hc, rfl⟩ := Option.map_eq_some_iff.1 hk
    simp only [hc]
    exact (fulfils_revokeContainer b c reason).bind _
  · split
    · trivial
    · exact Prog.honours_seq honours_revokeContainer fun _ => trivial

theorem honours_globalLogout (hmulti : p.multiAccount = true) {draws : LogoutDraws} {b : Browser}
    {targets : List Session} : (globalLogout p draws b targets).Honours pointers := by
  refine Prog.honours_seq (honours_of_only (p := p) leavesSessions_of_loads (does_select _)) fun _ => ?_
  refine Prog.honours_seq ?_ fun _ => ?_
  · unfold revokeForLogout
    rw [if_pos hmulti]
    exact Prog.honours_if (fun _ => honours_signOutBrowser ..) fun _ =>
      honours_signOutAccounts targets b
  · refine Prog.honours_seq (honours_of_mail (does_enqueue _ _)) fun rows => ?_
    exact Prog.honours_seq (honours_of_mail (does_deliverBatch (p := p) _ _ rows)) fun _ => trivial

/-- The row of the new session is never refused, as the drawn values are new. -/
theorem fulfils_createSessionIn {α : Type} {view : Browser} {draws : Draws} {userId : Nat}
    {authTime ttlSecs : Int} {clears : Option Nat} {f : Session → AccountM α}
    (hf : ∀ s, (f s).Fulfils pointers k) :
    (createSessionIn view p draws userId authTime ttlSecs clears >>= f).Fulfils pointers k := by
  refine ⟨rfl, fun _ _ _ _ => .inr (Prog.fulfils_exec_bind rfl fun db _ hfits _ => ?_)⟩
  refine ⟨_, _, if_neg fun hclash => ?_, hf _⟩
  obtain ⟨t, ht, hsame⟩ := List.any_eq_true.1 hclash
  exact hfits.1 t ht (by simpa [or_assoc] using hsame)

theorem honours_createSessionIn {view : Browser} {draws : Draws} {userId : Nat}
    {authTime ttlSecs : Int} {clears : Option Nat} :
    (createSessionIn view p draws userId authTime ttlSecs clears).Honours pointers := by
  refine Prog.honours_seq (fun _ _ => ⟨fun _ _ h => h.elim, trivial, trivial⟩) fun now => ?_
  refine fun db _ => ⟨fun _ _ h => h.elim, ?_, trivial⟩
  unfold Prog.answer
  split <;> trivial

theorem honours_clearPointer (b : Browser) (drops : Bool) :
    (clearPointer b drops).Honours pointers := by
  unfold clearPointer
  split
  · trivial
  · exact Prog.honours_if (fun _ => honours_setWebSession fun _ => trivial) fun _ => trivial

theorem honours_placeAccount (draws : Draws) (b : Browser) (userId : Nat)
    (authTime ttlSecs : Int) :
    (placeAccount p draws b userId authTime ttlSecs).Honours pointers := by
  have hrest (kept : Browser) (clears : Option Nat) : (do
      let session ← createSessionIn kept p draws userId authTime ttlSecs clears
      let b ← clearPointer { b with accounts := session :: keptBy p b userId }
        (dropsPointer p draws b userId)
      pure (session, b) : AccountM (Session × Browser)).Honours pointers := by
    refine Prog.honours_seq honours_createSessionIn fun session => ?_
    exact Prog.honours_seq (honours_clearPointer ..) fun _ => trivial
  have hclears (kept : Browser) (clears : Option Nat) (k : Nat)
      (hk : (if dropsPointer p draws b userId then b.container.map (·.id) else none) = some k) :
      (do
      let session ← createSessionIn kept p draws userId authTime ttlSecs clears
      let b ← clearPointer { b with accounts := session :: keptBy p b userId }
        (dropsPointer p draws b userId)
      pure (session, b) : AccountM (Session × Browser)).Fulfils pointers k := by
    split_ifs at hk with hdrops
    obtain ⟨c, hc, rfl⟩ := Option.map_eq_some_iff.1 hk
    refine fulfils_createSessionIn fun session => Prog.Fulfils.bind ?_ _
    simp only [clearPointer, hc, hdrops, ↓reduceIte]
    exact fulfils_setWebSession _ c false _
  unfold placeAccount
  refine (incurs_revoke ..).honours (fun _ k hk => ?_) fun _ => ?_
  · exact (incurs_revoke ..).fulfils fun _ => hclears _ _ k hk
  · exact (incurs_revoke ..).honours (fun _ k hk => hclears _ _ k hk) fun _ => hrest _ _

theorem honours_addAccount (draws : Draws) (b : Browser) (userId : Nat) (authTime ttlSecs : Int) :
    (addAccount p draws b userId authTime ttlSecs).Honours pointers := by
  refine Prog.honours_seq (honours_of_only (p := p) (fun l h => h)
    (does_ensureContainer (fun _ => rfl) rfl draws b)) fun b => ?_
  refine Prog.honours_seq (honours_of_only (p := p) (fun l h => h)
    (does_rotateSecret (fun _ _ => rfl) rfl draws b)) fun b => ?_
  exact honours_placeAccount draws b userId authTime ttlSecs

theorem honours_clock : clock.Honours pointers :=
  fun _ _ => ⟨fun _ _ h => h.elim, trivial, trivial⟩

theorem honours_browserJob (hmulti : p.multiAccount = true) (j : BrowserJob) :
    (j.prog p).Honours pointers := by
  cases j with
  | login r verified =>
    refine Prog.honours_seq (honours_load ..) fun b => ?_
    refine Prog.honours_seq (honours_check _) fun _ => ?_
    split
    · trivial
    · refine Prog.honours_seq honours_clock fun now => ?_
      exact Prog.honours_seq (honours_addAccount ..) fun _ => honours_activate ..
  | oidcLogin r userId =>
    refine Prog.honours_seq (honours_load ..) fun b => ?_
    refine Prog.honours_seq honours_clock fun now => ?_
    exact Prog.honours_seq (honours_addAccount ..) fun _ => trivial
  | restore r =>
    refine Prog.honours_seq (honours_load ..) fun b => ?_
    refine Prog.honours_seq (honours_check _) fun _ => ?_
    refine Prog.honours_if (fun _ => trivial) fun _ => ?_
    split
    · exact honours_activate ..
    · trivial
    · trivial
  | select r accountId =>
    refine Prog.honours_seq (honours_load ..) fun b => ?_
    refine Prog.honours_seq (honours_check _) fun _ => ?_
    split
    · trivial
    · exact honours_activate ..
  | logoutAccount r accountId =>
    refine Prog.honours_seq (honours_load ..) fun b => ?_
    refine Prog.honours_seq (honours_check _) fun _ => ?_
    split
    · trivial
    · exact Prog.honours_seq (honours_signOutAccount ..) fun _ => trivial
  | logoutBrowser r =>
    refine Prog.honours_seq (honours_load ..) fun b => ?_
    refine Prog.honours_seq (honours_check _) fun _ => ?_
    exact Prog.honours_seq (honours_signOutBrowser ..) fun _ => trivial
  | logoutGlobal r draws =>
    refine Prog.honours_seq (honours_load ..) fun b => ?_
    refine Prog.honours_seq (honours_check _) fun _ => ?_
    split
    · trivial
    · exact Prog.honours_seq (honours_globalLogout hmulti) fun _ => trivial
  | endSession r hintSid hintSub draws =>
    refine Prog.honours_seq (honours_load ..) fun b => ?_
    exact Prog.honours_seq (honours_globalLogout hmulti) fun _ => trivial
  | migrate r userId window =>
    refine Prog.honours_seq (honours_load ..) fun b => ?_
    refine Prog.honours_seq (honours_check _) fun _ => ?_
    refine Prog.honours_if (fun _ => trivial) fun _ => ?_
    refine Prog.honours_seq ?_ fun _ => honours_activate ..
    unfold migratedSession
    split
    · trivial
    · exact Prog.honours_seq (honours_check _) fun _ => honours_addAccount ..

end Pointer

/-! ## Secrets -/

section Secrets

variable {p : Provider} {l : Stmt} {db db' : Db} {g : BrowserNotes} {j : BrowserJob}

/-- No container has a secret that was replaced, and no two have the same. -/
structure SecretsOk (db : Db) (g : BrowserNotes) : Prop where
  distinct : Table.Keyed (·.secretHash) db.containers
  retired : ∀ c ∈ db.containers, c.secretHash ∉ g.retired

theorem SecretsOk.edit (h : SecretsOk db g) (id : Nat) {f : Container → Container}
    (hf : ∀ r, (f r).secretHash = r.secretHash) : SecretsOk (editContainer id f db) g := by
  have hsame (r : Container) : (if r.id = id then f r else r).secretHash = r.secretHash := by
    split_ifs
    · exact hf r
    · rfl
  refine ⟨Table.keyed_map hsame h.distinct, fun r' hr' => ?_⟩
  obtain ⟨r, hr, rfl⟩ := List.mem_map.1 hr'
  rw [hsame]
  exact h.retired r hr

/-- The secret of one container is replaced by a new one. -/
theorem SecretsOk.rotate (h : SecretsOk db g) (hkeyed : Table.Keyed (·.id) db.containers) {c : Nat}
    {f : Container → Container} {hash : String} (hf : ∀ r, (f r).secretHash = hash)
    (hnew : NewSecret (.rotate c hash) db g) :
    SecretsOk (editContainer c f db) (BrowserNotes.watch j (.rotate c hash) db g) := by
  refine ⟨?_, fun r' hr' hmem => ?_⟩
  · unfold Table.Keyed editContainer
    rw [List.map_map]
    refine List.Nodup.map_on (fun r hr r' hr' heq => ?_) (List.Nodup.of_map _ hkeyed)
    simp only [Function.comp] at heq
    split_ifs at heq with hid hid' hid'
    · exact Table.eq_of_key hkeyed hr hr' (hid.trans hid'.symm)
    · rw [hf] at heq
      exact absurd heq.symm (hnew.1 r' hr')
    · rw [hf] at heq
      exact absurd heq (hnew.1 r hr)
    · exact Table.eq_of_key h.distinct hr hr' heq
  · obtain ⟨r, hr, rfl⟩ := List.mem_map.1 hr'
    simp only [BrowserNotes.watch, List.mem_append, List.mem_map, List.mem_filter,
      decide_eq_true_eq] at hmem
    by_cases hid : r.id = c
    · rw [if_pos hid, hf] at hmem
      rcases hmem with ⟨r₀, ⟨hr₀, -⟩, hhash⟩ | hmem
      · exact hnew.1 r₀ hr₀ hhash
      · exact hnew.2 hmem
    · rw [if_neg hid] at hmem
      rcases hmem with ⟨r₀, ⟨hr₀, hid₀⟩, hhash⟩ | hmem
      · obtain rfl := Table.eq_of_key h.distinct hr₀ hr hhash
        exact hid hid₀
      · exact h.retired r hr hmem

theorem SecretsOk.change (h : SecretsOk db g) (hkeyed : Table.Keyed (·.id) db.containers)
    (hc : Change p l db db') (hnew : NewSecret l db g) :
    SecretsOk db' (BrowserNotes.watch j l db g) := by
  cases l with
  | clock => exact Eq.symm hc ▸ h
  | select => exact Eq.symm hc ▸ h
  | insertContainer hash =>
    rcases hc with rfl | ⟨c, rfl, -, -, rfl⟩
    · exact h
    · refine ⟨Table.keyed_append h.distinct hnew.1, fun r hr => ?_⟩
      rcases List.mem_append.1 hr with hr | hr
      · exact h.retired r hr
      · rw [List.mem_singleton.1 hr]
        exact hnew.2
  | renew =>
    obtain ⟨id, lastSeenAt, expiresAt, rfl⟩ := hc
    exact h.edit id fun _ => rfl
  | rotate c hash =>
    rcases hc with ⟨-, r, hr, hsame⟩ | ⟨lastSeenAt, expiresAt, rfl⟩
    · exact absurd hsame (hnew.1 r hr)
    · exact h.rotate hkeyed (fun _ => rfl) hnew
  | move view id =>
    obtain rfl := hc
    exact ⟨h.distinct, h.retired⟩
  | revoke view ids reason clears =>
    obtain rfl := hc
    exact ⟨h.distinct, h.retired⟩
  | sweep view c reason =>
    obtain rfl := hc
    exact ⟨h.distinct, h.retired⟩
  | insertSession view s clears =>
    obtain ⟨-, rfl | ⟨-, rfl⟩⟩ := hc
    · exact h
    · exact ⟨h.distinct, h.retired⟩
  | setWeb view c s signedOut restore =>
    obtain ⟨-, rfl⟩ := hc
    have h := h.edit c
      (f := fun r =>
        { r with webSessionId := s.map (·.id), webSignedOutAt := signedOut.or r.webSignedOutAt })
      fun _ => rfl
    cases signedOut with
    | none => exact h
    | some t => exact ⟨h.distinct, h.retired⟩
  | revokeContainer c =>
    obtain rfl := hc
    exact h.edit c fun _ => rfl
  | _ =>
    obtain ⟨hcont, -, -⟩ := hc
    refine ⟨?_, ?_⟩
    · rw [hcont]
      exact h.distinct
    · rw [hcont]
      exact h.retired

end Secrets

/-! ## Sign-outs -/

section SignOuts

variable {p : Provider} {l : Stmt} {db db' : Db} {g : BrowserNotes} {j : BrowserJob}

/-- The last sign-out of a container only moves on, and a session stays what it is. -/
structure Carries (db db' : Db) : Prop where
  containers : ∀ r ∈ db.containers, ∃ r' ∈ db'.containers, r'.id = r.id ∧
    ∀ t ∈ r.webSignedOutAt, ∃ t' ∈ r'.webSignedOutAt, t ≤ t'
  sessions : ∀ s ∈ db.sessions, ∃ s' ∈ db'.sessions, s'.id = s.id ∧ s'.createdAt = s.createdAt

theorem Carries.refl (db : Db) : Carries db db :=
  ⟨fun r hr => ⟨r, hr, rfl, fun t ht => ⟨t, ht, le_refl t⟩⟩, fun s hs => ⟨s, hs, rfl, rfl⟩⟩

theorem carries_editContainer (id : Nat) {f : Container → Container} (hf : ∀ r, (f r).id = r.id)
    (hs : ∀ r ∈ db.containers, r.id = id →
      ∀ t ∈ r.webSignedOutAt, ∃ t' ∈ (f r).webSignedOutAt, t ≤ t') :
    Carries db (editContainer id f db) := by
  refine ⟨fun r hr => ⟨_, List.mem_map_of_mem hr, ?_⟩, (Carries.refl db).sessions⟩
  split_ifs with hid
  · exact ⟨hf r, hs r hr hid⟩
  · exact ⟨rfl, fun t ht => ⟨t, ht, le_refl t⟩⟩

theorem carries_editSessions (q : Session → Bool) {f : Session → Session}
    (hf : ∀ s, (f s).id = s.id ∧ (f s).createdAt = s.createdAt) :
    Carries db (editSessions q f db) := by
  refine ⟨(Carries.refl db).containers, fun s hs => ⟨_, List.mem_map_of_mem hs, ?_⟩⟩
  split_ifs
  · exact hf s
  · exact ⟨rfl, rfl⟩

theorem carries_change (hc : Change p l db db') (hf : Fits l db) : Carries db db' := by
  have hsame {r : Container} : ∀ t ∈ r.webSignedOutAt, ∃ t' ∈ r.webSignedOutAt, t ≤ t' :=
    fun t ht => ⟨t, ht, le_refl t⟩
  cases l with
  | clock => exact Eq.symm hc ▸ .refl db
  | select => exact Eq.symm hc ▸ .refl db
  | insertContainer hash =>
    rcases hc with rfl | ⟨c, -, -, -, rfl⟩
    · exact .refl db'
    · refine ⟨fun r hr => ⟨r, List.mem_append_left _ hr, rfl, hsame⟩, ?_⟩
      exact (Carries.refl db).sessions
  | renew =>
    obtain ⟨id, lastSeenAt, expiresAt, rfl⟩ := hc
    exact carries_editContainer id (fun _ => rfl) fun _ _ _ => hsame
  | rotate c hash =>
    rcases hc with ⟨rfl, -⟩ | ⟨lastSeenAt, expiresAt, rfl⟩
    · exact .refl db'
    · exact carries_editContainer c (fun _ => rfl) fun _ _ _ => hsame
  | move view id =>
    obtain rfl := hc
    refine carries_editSessions _ fun _ => ?_
    exact ⟨rfl, rfl⟩
  | revoke view ids reason clears =>
    obtain rfl := hc
    refine carries_editSessions _ fun _ => ?_
    exact ⟨rfl, rfl⟩
  | sweep view c reason =>
    obtain rfl := hc
    refine carries_editSessions _ fun _ => ?_
    exact ⟨rfl, rfl⟩
  | insertSession view s clears =>
    obtain ⟨-, rfl | ⟨-, rfl⟩⟩ := hc
    · exact .refl db'
    · refine ⟨(Carries.refl db).containers, fun s hs => ?_⟩
      exact ⟨s, List.mem_append_left _ hs, rfl, rfl⟩
  | setWeb view c s signedOut restore =>
    obtain ⟨-, rfl⟩ := hc
    refine carries_editContainer c (fun _ => rfl) fun r hr hid t ht => ?_
    cases signedOut with
    | none => exact ⟨t, ht, le_refl t⟩
    | some t' => exact ⟨t', rfl, (hf.2 r hr hid).1 t' rfl t ht⟩
  | revokeContainer c =>
    obtain rfl := hc
    exact carries_editContainer c (fun _ => rfl) fun _ _ _ => hsame
  | _ =>
    obtain ⟨hcont, hsess, -⟩ := hc
    refine ⟨?_, ?_⟩
    · rw [hcont]
      exact (Carries.refl db).containers
    · rw [hsess]
      exact (Carries.refl db).sessions

/-- A session that a sign-out has left behind is older than the last sign-out of its container. -/
def ExcludedOk (db : Db) (g : BrowserNotes) : Prop := ∀ e ∈ g.excluded,
  (∃ r ∈ db.containers, r.id = e.1 ∧ ∃ t ∈ r.webSignedOutAt, e.2.createdAt ≤ t) ∧
    ∃ s ∈ db.sessions, s.id = e.2.id ∧ s.createdAt = e.2.createdAt

theorem ExcludedOk.carry (h : ExcludedOk db g) (hc : Carries db db') : ExcludedOk db' g := by
  intro e he
  obtain ⟨⟨r, hr, hid, t, ht, hle⟩, s, hs, hsid, hcreated⟩ := h e he
  obtain ⟨r', hr', hid', hlater⟩ := hc.containers r hr
  obtain ⟨t', ht', hle'⟩ := hlater t ht
  obtain ⟨s', hs', hsid', hcreated'⟩ := hc.sessions s hs
  exact ⟨⟨r', hr', hid'.trans hid, t', ht', hle.trans hle'⟩,
    s', hs', hsid'.trans hsid, hcreated'.trans hcreated⟩

theorem ExcludedOk.change (h : ExcludedOk db g) (hc : Change p l db db') (hf : Fits l db) :
    ExcludedOk db' (BrowserNotes.watch j l db g) := by
  have hold := h.carry (carries_change hc hf)
  cases l with
  | setWeb view c s signedOut restore =>
    cases signedOut with
    | none => exact hold
    | some t =>
      obtain ⟨-, rfl⟩ := hc
      intro e he
      rcases List.mem_append.1 he with he | he
      · obtain ⟨r, hr, he⟩ := List.mem_flatMap.1 he
        obtain ⟨s₀, hs₀, rfl⟩ := List.mem_map.1 he
        obtain ⟨hr, hid⟩ := List.mem_filter.1 hr
        obtain ⟨hs₀, hle⟩ := List.mem_filter.1 hs₀
        have hid := of_decide_eq_true hid
        refine ⟨⟨_, List.mem_map_of_mem hr, ?_⟩, s₀, hs₀, rfl, rfl⟩
        rw [if_pos hid]
        exact ⟨hid, t, rfl, of_decide_eq_true hle⟩
      · exact hold e he
  | _ => exact hold

/-- The active account is not restored to a session that a sign-out has left behind. -/
def RestoresNew (l : Stmt) (g : BrowserNotes) : Prop :=
  match l with
  | .setWeb _ c (some s) _ true => ∀ e ∈ g.excluded, e.1 = c → e.2.id ≠ s.id
  | _ => True

theorem restoresNew (h : ExcludedOk db g) (hs : Table.Keyed (·.id) db.sessions)
    (hc : Change p l db db') (hf : Fits l db) : RestoresNew l g := by
  unfold RestoresNew
  split
  · next view c s signedOut =>
    rintro e he rfl hid
    obtain ⟨⟨r, hr, hrid, t, ht, hle⟩, s₀, hs₀, hsid, hcreated⟩ := h e he
    obtain ⟨r₀, s', hview, -, hsome, hyoung⟩ := hc.1 rfl
    obtain rfl : s = s' := Option.some.inj hsome
    obtain ⟨s₁, hs₁, hid₁, hcreated₁, -, -⟩ := hf.1 s rfl
    obtain rfl := Table.eq_of_key hs hs₀ hs₁ (hsid.trans (hid.trans hid₁.symm))
    have hsigned := (hf.2 r hr hrid).2 rfl
    rw [ht] at hsigned
    have hlt : t < s.createdAt := by
      have h := (List.mem_filter.1 hyoung).2
      rw [← hsigned] at h
      simpa using h
    omega
  · trivial

end SignOuts

/-! ## Runs -/

section Runs

variable {p : Provider} {w : BrowserPool} {a : TabAct}

theorem does_changes {α : Type} {kind : Stmt → Bool} {q : AccountM α} (hq : q.Does (Only p kind)) :
    q.Does (Change p) := hq.mono fun _ _ _ h => h.2

theorem does_changes_globalLogout {draws : LogoutDraws} {b : Browser} {targets : List Session} :
    (globalLogout p draws b targets).Does (Change p) := by
  have hmail {α : Type} {q : AccountM α} (hq : q.Does (Mail p)) : q.Does (Change p) :=
    hq.mono fun _ _ _ h => h.1.2
  refine Prog.does_bind (does_changes (does_select _)) fun _ => ?_
  refine Prog.does_bind (does_changes (does_revokeForLogout b targets)) fun _ => ?_
  refine Prog.does_bind (hmail (does_enqueue _ _)) fun rows => ?_
  exact Prog.does_bind (hmail (does_deliverBatch _ _ rows)) fun _ => trivial

theorem does_browserJob (hmax : 1 ≤ p.maxBrowserAccounts) (j : BrowserJob) :
    (j.prog p).Does (Change p) := by
  have hload (draws : Draws) (cookies : Cookies) : (load p draws cookies).Does (Change p) :=
    does_changes (does_load draws cookies)
  have hclock : clock.Does (Change p) := Prog.does_look (fun _ => rfl) _
  have hrestore (b : Browser) (s : Session) (r : Bool) (hr : r = true → s ∈ b.restorable) :
      (activate b s r).Does (Only p signsIn) := does_activate rfl (fun _ _ _ _ _ => rfl) hr
  have hactivate (b : Browser) (s : Session) : (activate b s false).Does (Change p) :=
    does_changes (hrestore b s false fun h => nomatch h)
  cases j with
  | login r verified =>
    refine Prog.does_bind (hload ..) fun b => Prog.does_bind (does_check _) fun _ => ?_
    split
    · trivial
    · refine Prog.does_bind hclock fun now => ?_
      exact Prog.does_bind (does_changes (does_addAccount hmax ..)) fun _ => hactivate ..
  | oidcLogin r userId =>
    refine Prog.does_bind (hload ..) fun b => Prog.does_bind hclock fun now => ?_
    exact Prog.does_bind (does_changes (does_addAccount hmax ..)) fun _ => trivial
  | restore r =>
    refine Prog.does_bind (hload ..) fun b => Prog.does_bind (does_check _) fun _ => ?_
    refine Prog.does_if (fun _ => trivial) fun _ => ?_
    split
    · next session hone =>
      refine does_changes (hrestore b session true fun _ => ?_)
      rw [hone]
      exact List.mem_singleton_self session
    · trivial
    · trivial
  | select r accountId =>
    refine Prog.does_bind (hload ..) fun b => Prog.does_bind (does_check _) fun _ => ?_
    split
    · trivial
    · exact hactivate ..
  | logoutAccount r accountId =>
    refine Prog.does_bind (hload ..) fun b => Prog.does_bind (does_check _) fun _ => ?_
    split
    · trivial
    · exact Prog.does_bind (does_changes (does_signOutAccount ..)) fun _ => trivial
  | logoutBrowser r =>
    refine Prog.does_bind (hload ..) fun b => Prog.does_bind (does_check _) fun _ => ?_
    exact Prog.does_bind (does_changes (does_signOutBrowser _ _)) fun _ => trivial
  | logoutGlobal r draws =>
    refine Prog.does_bind (hload ..) fun b => Prog.does_bind (does_check _) fun _ => ?_
    split
    · trivial
    · exact Prog.does_bind does_changes_globalLogout fun _ => trivial
  | endSession r hintSid hintSub draws =>
    refine Prog.does_bind (hload ..) fun b => ?_
    exact Prog.does_bind does_changes_globalLogout fun _ => trivial
  | migrate r userId window =>
    refine Prog.does_bind (hload ..) fun b => Prog.does_bind (does_check _) fun _ => ?_
    refine Prog.does_if (fun _ => trivial) fun _ => ?_
    refine Prog.does_bind ?_ fun _ => hactivate ..
    unfold migratedSession
    split
    · trivial
    · refine Prog.does_bind (does_check _) fun _ => ?_
      exact does_changes (does_addAccount hmax ..)

/-- What holds along a run. -/
structure BrowserOk (p : Provider) (w : BrowserPool) : Prop where
  accounts : Accommodated p w.state
  secrets : SecretsOk w.state w.ghost
  excluded : ExcludedOk w.state w.ghost
  pointer : ∀ k, PointersOk k w.state ∨ k ∈ w.ghost.cleared
  kept : Process.Kept pointers w
  does : w.Does fun _ => Change p

/-- The next statement of the request at index `i`, if it has one. -/
theorem browserStep_cases (p : Provider) (w : BrowserPool) (i : Nat) :
    (w.next i = none ∧ browserStep p w (.step i) = w) ∨ ∃ j l u ok err,
      w.threads[i]? = some (j, Prog.stmt l u ok err) ∧ w.next i = some (j, l) ∧
      (browserStep p w (.step i)).state = u w.state ∧
      (browserStep p w (.step i)).ghost = BrowserNotes.watch j l w.state w.ghost := by
  cases hi : w.threads[i]? with
  | none => exact .inl ⟨by simp [Pool.next, hi], by simp [browserStep, TabAct.act, System.step, hi]⟩
  | some t =>
    obtain ⟨j, q⟩ := t
    cases q with
    | ret a =>
      exact .inl ⟨by simp [Pool.next, hi], by simp [browserStep, TabAct.act, System.step, hi]⟩
    | fail e =>
      exact .inl ⟨by simp [Pool.next, hi], by simp [browserStep, TabAct.act, System.step, hi]⟩
    | stmt l u ok err =>
      refine .inr ⟨j, l, u, ok, err, rfl, by simp [Pool.next, hi], ?_, ?_⟩
      · simp [browserStep, TabAct.act, System.step, hi]
      · simp [browserStep, TabAct.act, System.step, hi, browserSystem]

/-- The request at index `i` restores no session that a sign-out has left behind. -/
def StepRestoresNew (w : BrowserPool) : TabAct → Prop
  | .step i => ∀ t ∈ w.next i, RestoresNew t.2 w.ghost
  | _ => True

theorem cleared_watch {j : BrowserJob} {l : Stmt} {db : Db} {g : BrowserNotes} {k : Nat} :
    k ∈ (BrowserNotes.watch j l db g).cleared ↔ Clears l k ∨ k ∈ g.cleared := by
  unfold BrowserNotes.watch Clears
  split
  · simp
  · simp [eq_comm]
  · simp
  · simp
  · split <;> simp_all

theorem watched_pointers {j : BrowserJob} {l : Stmt} {db db' : Db} (g : BrowserNotes)
    (hc : Change p l db db') (hf : Fits l db) :
    pointers.Watched l db db' g (BrowserNotes.watch j l db g) := by
  refine ⟨trivial, fun k hk => ?_⟩
  by_cases hclears : Clears l k
  · exact .inr ⟨hclears, .inl trivial⟩
  · have hold := (cleared_watch.1 hk).resolve_left hclears
    exact .inl ⟨hold, Pointer.pointersOk_change hc hf hclears, fun _ => .inl trivial⟩

theorem Timely.reliable (h : Timely w a) : Reliable pointers w a.act := by
  cases a with
  | step i => exact fun t ht => (h t ht).1
  | _ => trivial

theorem BrowserOk.kept_step (hmulti : p.multiAccount = true) (h : BrowserOk p w)
    (ha : Timely w a) : Process.Kept pointers (browserStep p w a) := by
  refine h.kept.step (Pointer.honours_browserJob hmulti) (fun d db _ => ?_) ?_ ha.reliable
  · refine ⟨trivial, fun k => ⟨fun hk => ?_, fun _ => .inl trivial⟩⟩
    exact hk
  · intro i j l u ok err hi hf
    exact watched_pointers (j := j) w.ghost (h.does _ (List.mem_of_getElem? hi) w.state).1 hf

/-- Time passes. -/
theorem Accommodated.tick {db : Db} (h : Accommodated p db) (d : Nat) :
    Accommodated p { db with now := db.now + d } := by
  refine h.of_sublist h.containers h.sessions fun c => ?_
  refine List.monotone_filter_right db.sessions fun s hs => ?_
  simp only [Session.livesIn, Session.isLive, Bool.and_eq_true, decide_eq_true_eq] at hs ⊢
  exact ⟨hs.1, hs.2.1, by omega⟩

theorem BrowserOk.step (hmulti : p.multiAccount = true) (hmax : 1 ≤ p.maxBrowserAccounts)
    (h : BrowserOk p w) (ha : Timely w a) :
    BrowserOk p (browserStep p w a) ∧ StepRestoresNew w a := by
  have hkept := h.kept_step hmulti ha
  have hdoes : (browserStep p w a).Does fun _ => Change p :=
    Pool.Does.step (S := browserSystem p) (does_browserJob hmax) h.does a.act
  cases a with
  | request j => exact ⟨⟨h.accounts, h.secrets, h.excluded, h.pointer, hkept, hdoes⟩, trivial⟩
  | tick d =>
    have hsecrets := h.secrets
    exact ⟨⟨h.accounts.tick d, ⟨hsecrets.distinct, hsecrets.retired⟩, h.excluded, h.pointer, hkept,
      hdoes⟩, trivial⟩
  | step i =>
    rcases browserStep_cases p w i with ⟨hnext, hsame⟩ | ⟨j, l, u, ok, err, hi, hnext, hs, hg⟩
    · rw [hsame]
      refine ⟨h, fun t ht => ?_⟩
      rw [hnext] at ht
      cases ht
    · have hc : Change p l w.state (u w.state) :=
        (h.does _ (List.mem_of_getElem? hi) w.state).1
      obtain ⟨hf, hnew⟩ := ha (j, l) hnext
      refine ⟨⟨?_, ?_, ?_, fun k => ?_, hkept, hdoes⟩, fun t ht => ?_⟩
      · rw [hs]
        exact h.accounts.change hmax hc hf
      · rw [hs, hg]
        exact h.secrets.change h.accounts.containers hc hnew
      · rw [hs, hg]
        exact h.excluded.change hc hf
      · rw [hs, hg, cleared_watch]
        by_cases hclears : Clears l k
        · exact .inr (.inl hclears)
        · exact (h.pointer k).imp (Pointer.pointersOk_change hc hf hclears) .inr
      · rw [hnext] at ht
        cases ht
        exact restoresNew h.excluded h.accounts.sessions hc hf

/-- What is claimed of the containers at the end of a run. -/
structure ContainersKept (p : Provider) (w : BrowserPool) : Prop where
  /-- No user has two live sessions in a container. -/
  users : ∀ c, ((w.state.liveIn c).map (·.userId)).Nodup
  room : ∀ c, (w.state.liveIn c).length ≤ p.maxBrowserAccounts
  /-- The active account is good where no request is under way. -/
  idle : (∀ t ∈ w.threads, t.2.live = false) → ∀ c ∈ w.state.containers, PointerOk w.state c
  /-- A secret that a sign-in has replaced opens nothing. -/
  secrets : ∀ value, p.hash value ∈ w.ghost.retired →
    w.state.containers.find? (fun c => c.secretHash = p.hash value && c.isValid w.state.now) = none

/-- Every run of the requests of a browser in which each write fits the table. -/
theorem browser_run (p : Provider) (hmulti : p.multiAccount = true)
    (hmax : 1 ≤ p.maxBrowserAccounts) (db : Db) (hdb : Accommodated p db)
    (hsecrets : (db.containers.map (·.secretHash)).Nodup)
    (hpointers : ∀ c ∈ db.containers, PointerOk db c) (acts : List TabAct)
    (hacts : Along (browserStep p) Timely (BrowserPool.initial db) acts) :
    ContainersKept p (acts.foldl (browserStep p) (BrowserPool.initial db)) ∧
      Along (browserStep p) StepRestoresNew (BrowserPool.initial db) acts := by
  have hinit : BrowserOk p (BrowserPool.initial db) :=
    { accounts := hdb
      secrets := ⟨hsecrets, fun _ _ => List.not_mem_nil⟩
      excluded := fun e he => absurd he List.not_mem_nil
      pointer := fun k => .inl fun r hr _ => hpointers r hr
      kept :=
        { ok := trivial
          honours := fun t ht => absurd ht List.not_mem_nil
          kept := fun k hk => absurd hk List.not_mem_nil }
      does := fun t ht => absurd ht List.not_mem_nil }
  obtain ⟨h, hrestores⟩ := run_of_along (BrowserOk p)
    (fun w a h ha => h.step hmulti hmax ha) hinit hacts
  refine ⟨⟨h.accounts.users, h.accounts.room, fun hq c hc => ?_, fun value hvalue => ?_⟩, hrestores⟩
  · rcases h.pointer c.id with hok | hcleared
    · exact hok c hc rfl
    · exact h.kept.paid_of_idle hq c.id hcleared c hc rfl
  · refine List.find?_eq_none.2 fun c hc hfound => h.secrets.retired c hc ?_
    have hhash : c.secretHash = p.hash value := by
      simpa using (Bool.and_eq_true_iff.1 hfound).1
    rwa [hhash]

end Runs

/-! ## Two tabs -/

/-- A provider with one account in a browser. -/
def tabProvider : Provider where
  hash s := s
  issuer := "https://op.example"
  multiAccount := true
  maxBrowserAccounts := 1
  browserContainerTtlSecs := 86400
  sessionTtlSecs := 28800

/-- A browser with one account. -/
def tabDb : Db where
  now := 0
  users := [3, 4]
  containers :=
    [{ id := 1, secretHash := "secret", webSessionId := some 2, webSignedOutAt := none
       lastSeenAt := 0, expiresAt := 86400, revokedAt := none }]
  sessions :=
    [{ id := 2, sessionHash := "session", userId := 3, authTime := 0, createdAt := 0
       lastSeenAt := 0, expiresAt := 28800, revokedAt := none, revokedReason := none
       containerId := some 1, sid := "sid" }]
  clients := []
  sessionClients := []
  deliveries := []
  nextDelivery := 1

/-- A request with this cookie, which draws its own names. -/
def tabRequest (secret : String) (n : Nat) (draw : String) : Request where
  cookies := ⟨some secret, none⟩
  firstParty := true
  csrf := csrfFor tabProvider secret
  draws := ⟨n, "c" ++ draw, "r" ++ draw, n, "s" ++ draw, "sid" ++ draw⟩

/-- Two tabs load the container, and then one after the other signs the user in. -/
def overlapActs : List TabAct :=
  [.request (.login (tabRequest "secret" 10 "A") (some 3)),
    .request (.login (tabRequest "secret" 11 "B") (some 3))] ++
    List.replicate 3 (.step 0) ++ List.replicate 3 (.step 1) ++
    List.replicate 12 (.step 0) ++ List.replicate 12 (.step 1)

/-- Nothing is under way, and the user has two live sessions where there is room for one. -/
theorem overlapping_logins :
    let w := overlapActs.foldl (browserStep tabProvider) (BrowserPool.initial tabDb)
    w.threads.map (·.2.live) = [false, false] ∧ (w.state.liveIn 1).map (·.userId) = [3, 3] ∧
      ¬ ((w.state.liveIn 1).map (·.userId)).Nodup ∧
      ¬ (w.state.liveIn 1).length ≤ tabProvider.maxBrowserAccounts := by
  decide +kernel

/-- One request after the other: the user signs in again, signs out, and another one signs in on the
pages of the identity provider and is restored. -/
def tabActs : List TabAct :=
  .request (.login (tabRequest "secret" 10 "A") (some 3)) :: List.replicate 14 (.step 0) ++
    .tick 5 :: .request (.logoutAccount (tabRequest "rA" 0 "") none) ::
    List.replicate 7 (.step 1) ++
    .tick 5 :: .request (.oidcLogin (tabRequest "rA" 11 "B") 4) :: List.replicate 12 (.step 2) ++
    .request (.restore (tabRequest "rB" 0 "")) :: List.replicate 6 (.step 3)

theorem accommodated_tabDb : Accommodated tabProvider tabDb := by
  have hlive (c : Nat) : ((tabDb.liveIn c).map (·.userId)).Nodup ∧ (tabDb.liveIn c).length ≤ 1 := by
    by_cases hc : c = 1
    · rw [hc]
      decide
    · have hnone : tabDb.liveIn c = [] := by
        refine List.filter_eq_nil_iff.2 fun s hs => ?_
        rw [List.mem_singleton.1 hs]
        simp [Session.livesIn, Ne.symm hc]
      rw [hnone]
      decide
  exact ⟨by decide, by decide, fun c => (hlive c).1, fun c => (hlive c).2⟩

theorem browser_run_tabs :
    let w := tabActs.foldl (browserStep tabProvider) (BrowserPool.initial tabDb)
    w.state.containers.map (·.webSessionId) = [some 11] ∧ w.ghost.retired = ["rA", "secret"] ∧
      w.ghost.excluded.map (·.2.id) = [2, 10] ∧ ContainersKept tabProvider w :=
  ⟨by decide +kernel, by decide +kernel, by decide +kernel,
    (browser_run tabProvider rfl (by decide) tabDb accommodated_tabDb (by decide)
      (by unfold PointerOk; decide) tabActs (by decide +kernel)).1⟩

end FloatCtf.Oidc.Accounts
