import FloatCtf.Oidc.Transaction
import FloatCtf.Process.Pool

/-!
# The session of an authorization transaction

Several tabs work on one transaction.  Two things are shown of the codes that are issued in it.

* `fresh_run`: a code is for a session whose password was entered in the transaction, or the
  transaction asks for no password and the session is young enough.
* `choice_run`: at most one request completes the transaction, and the session of a code is the one
  that the application has asked for and the user has chosen, after the last switch of the account.

The columns of the row carry both, and two writes do not keep them: a session that is bound to a row
with a password for another one, and a completion that does not look at what the tabs have chosen
since the row was read.
-/

namespace FloatCtf.Oidc.Authorize

open Process

/-! ## The system -/

/-- The requests of one browser on one authorization transaction. -/
inductive TxnJob where
  | start
  | loginPage (token : String)
  | loginSubmit (form : Form) (login : Login)
  | consentPage (token : String)
  | consentSubmit (form : Form) (action : ConsentAction)
  | selectAccountPage (token : String)
  | selectAccountSubmit (form : Form) (action : ChooserAction)

/-- The request that has made the transaction goes on with the row and the accounts of that
moment. -/
def TxnJob.next (p : Provider) (made : Db) : TxnJob → TxnM Next
  | start => advance p made.txn made.accounts
  | loginPage token => Authorize.loginPage p token
  | loginSubmit form login => Authorize.loginSubmit p form login
  | consentPage token => Authorize.consentPage p token
  | consentSubmit form action => Authorize.consentSubmit p form action
  | selectAccountPage token => Authorize.selectAccountPage p token
  | selectAccountSubmit form action => Authorize.selectAccountSubmit p form action

/-- What happens beside the transaction. -/
inductive TxnEnv where
  | tick (d : Nat)
  | signIn (s : SessionUser)
  | revoke (id : Nat)
  | touch (id : Nat)
  | setConsents (consents : List (Nat × List String))

/-- What happens beside the requests. -/
def TxnEnv.apply : TxnEnv → Db → Db
  | tick d, db => { db with now := db.now + d }
  | signIn s, db =>
    if db.sessions.any (·.id = s.id) then db else { db with sessions := db.sessions ++ [s] }
  | revoke id, db => editSession id (fun s => { s with revokedAt := some db.now }) db
  | touch id, db => editSession id (fun s => { s with lastSeenAt := db.now }) db
  | setConsents consents, db => { db with consents }

/-- What is noted of a run: the sessions whose password was entered, those that were confirmed,
the passwords since the last switch, the completions, and the codes with their times. -/
structure TxnNotes where
  passwords : List Nat := []
  confirmed : List Nat := []
  sinceSwitch : Option (List Nat) := none
  completions : Nat := 0
  issues : List (Issue × Int) := []

/-- What the notes learn of a statement, where it takes effect. -/
def TxnNotes.watch (_ : TxnJob) (l : Stmt) (db : Db) (g : TxnNotes) : TxnNotes :=
  match l with
  | .password s =>
    if db.txn.isLive db.now then
      { g with passwords := s :: g.passwords, sinceSwitch := g.sinceSwitch.map (s :: ·) }
    else g
  | .confirm s explicit hash =>
    if confirmable s explicit hash db then { g with confirmed := s :: g.confirmed } else g
  | .switch hash => if switchable hash db then { g with sinceSwitch := some [] } else g
  | .complete _ =>
    if db.txn.completedAt.isNone then { g with completions := g.completions + 1 } else g
  | .insertCode i => { g with issues := g.issues ++ [(i, db.now)] }
  | _ => g

/-- The requests on a transaction, with the notes as ghost state. -/
def txnSystem (p : Provider) (made : Db) : System Stmt Db AppError TxnNotes TxnJob TxnEnv where
  prog j := do
    let _ ← j.next p made
    pure ()
  env := TxnEnv.apply
  watch := TxnNotes.watch

/-- The requests of several tabs under way. -/
abbrev TxnPool := Pool Stmt Db AppError TxnNotes TxnJob

/-- Nothing has been asked yet. -/
def TxnPool.initial (db : Db) : TxnPool := { state := db, ghost := {}, threads := [] }

/-- A transaction as it is made. -/
structure Txn.New (t : Txn) : Prop where
  authenticatedAt : t.authenticatedAt = none
  completedAt : t.completedAt = none
  accountSelectedAt : t.accountSelectedAt = none
  accountSwitchRequestedAt : t.accountSwitchRequestedAt = none

/-! ## The conditions -/

/-- A session is bound to a row without a password, or to one with a password for itself. -/
def BindsOwn (l : Stmt) (v : Db × TxnNotes) : Prop :=
  match l with
  | .bind s => v.1.txn.authenticatedAt = none ∨ s ∈ v.2.passwords
  | _ => True

/-- The age that the application allows does not run out between the decision and the code, where
no password stands for the session. -/
def InTime (l : Stmt) (v : Db × TxnNotes) : Prop :=
  match l with
  | .insertCode i => freshInTxn i.txn i.session.id = true ∨
      ∀ m ∈ i.txn.maxAge, i.decidedAt - i.session.authTime ≤ m → v.1.now - i.session.authTime ≤ m
  | _ => True

/-- The request that completes the transaction with a code finds a row for which the session that it
has decided on is still usable. -/
def StillUsable (l : Stmt) (v : Db × TxnNotes) : Prop :=
  match l with
  | .complete (some i) => v.1.txn.completedAt.isSome = true ∨ isUsable v.1.txn i.session = true
  | _ => True

instance (l : Stmt) (v : Db × TxnNotes) : Decidable (BindsOwn l v) := by
  unfold BindsOwn
  split <;> infer_instance

instance (l : Stmt) (v : Db × TxnNotes) : Decidable (InTime l v) := by
  unfold InTime
  split <;> infer_instance

instance (l : Stmt) (v : Db × TxnNotes) : Decidable (StillUsable l v) := by
  unfold StillUsable
  split <;> infer_instance

/-! ## The law -/

/-- The columns that nothing changes. -/
def Txn.request (t : Txn) : Prompt × Option Int × Option String × Option String :=
  (t.prompt, t.maxAge, t.loginHint, t.idTokenHintSub)

/-- The session was confirmed in the transaction, or its password entered. -/
def TxnNotes.Chosen (g : TxnNotes) (s : Nat) : Prop := s ∈ g.confirmed ∨ s ∈ g.passwords

/-- Which of the conditions are assumed. -/
structure Assumed where
  bindsOwn : Prop
  inTime : Prop
  stillUsable : Prop

section Law

variable (p : Provider) (A : Assumed) (t₀ : Txn)

/-- What is to hold of a code that was issued at some time. -/
structure Sound (e : Issue × Int) (g : TxnNotes) : Prop where
  fresh : A.bindsOwn → A.inTime → e.1.session.id ∈ g.passwords ∨
    t₀.prompt.login = false ∧ ∀ m ∈ t₀.maxAge, e.2 - e.1.session.authTime ≤ m
  hint : ∀ sub ∈ t₀.idTokenHintSub, toString e.1.session.userId = sub
  selected : p.accountChooser = true → t₀.prompt.selectAccount = true → g.Chosen e.1.session.id
  several : A.bindsOwn → (candidates e.1.txn e.1.accounts).length ≤ 1 ∨
    (∃ c ∈ candidates e.1.txn e.1.accounts, g.Chosen c.id) ∨
    hinted t₀ (candidates e.1.txn e.1.accounts) = [e.1.session]
  switched : A.stillUsable → ∀ l ∈ g.sinceSwitch, e.1.session.id ∈ l

/-- What the columns of the row tell. -/
structure RowOk (v : Db × TxnNotes) : Prop where
  request : v.1.txn.request = t₀.request
  fresh : A.bindsOwn → ∀ s, freshInTxn v.1.txn s = true → s ∈ v.2.passwords
  chosen : ∀ s, accountConfirmed v.1.txn s = true → v.2.Chosen s
  settled : v.1.txn.authenticatedAt.isSome = true → v.1.txn.accountSelectedAt.isSome = true ∨
    v.1.txn.accountSwitchRequestedAt.isSome = true
  switched : v.1.txn.accountSwitchRequestedAt.isSome = v.2.sinceSwitch.isSome
  since : ∀ l ∈ v.2.sinceSwitch, ∀ s, accountConfirmed v.1.txn s = true → s ∈ l
  once : v.2.completions = if v.1.txn.completedAt.isSome then 1 else 0
  issued : v.2.issues ≠ [] → v.1.txn.completedAt.isSome = true
  codes : v.1.codes.map (fun c => (c.sessionId, c.userId, c.authTime, c.createdAt)) =
    v.2.issues.map fun e => (e.1.session.id, e.1.session.userId, e.1.session.authTime, e.2)
  sound : ∀ e ∈ v.2.issues, Sound p A t₀ e v.2

/-- What stays as it is: passwords and confirmations, and after the completion the choice. -/
structure Later (v v' : Db × TxnNotes) : Prop where
  passwords : v.2.passwords ⊆ v'.2.passwords
  confirmed : v.2.confirmed ⊆ v'.2.confirmed
  authenticated : v.1.txn.authenticatedAt.isSome = true → v'.1.txn.authenticatedAt.isSome = true
  completed : v.1.txn.completedAt.isSome = true →
    v'.1.txn.completedAt.isSome = true ∧ v'.2.sinceSwitch = v.2.sinceSwitch

theorem Later.refl (v : Db × TxnNotes) : Later v v :=
  ⟨fun _ h => h, fun _ h => h, fun h => h, fun h => ⟨h, rfl⟩⟩

theorem Later.trans {v v' v'' : Db × TxnNotes} (h : Later v v') (h' : Later v' v'') :
    Later v v'' where
  passwords := fun _ hs => h'.passwords (h.passwords hs)
  confirmed := fun _ hs => h'.confirmed (h.confirmed hs)
  authenticated := fun ha => h'.authenticated (h.authenticated ha)
  completed := fun hc => by
    obtain ⟨hc', heq⟩ := h.completed hc
    obtain ⟨hc'', heq'⟩ := h'.completed hc'
    exact ⟨hc'', heq'.trans heq⟩

/-- The three conditions, as far as they are assumed. -/
def Assumed.Holds (A : Assumed) (l : Stmt) (v : Db × TxnNotes) : Prop :=
  (A.bindsOwn → BindsOwn l v) ∧ (A.inTime → InTime l v) ∧ (A.stillUsable → StillUsable l v)

/-- The law of the transaction: its row stays as the property asks. -/
def txnLaw (made : Db) : Law (txnSystem p made) where
  rely := Later
  guar _ := Later
  inv := RowOk p A made.txn
  cond _ := A.Holds
  refl := .refl
  trans := Later.trans
  guar_refl _ := .refl
  rely_of_guar h := h

end Law

section Rules

variable {p : Provider} {A : Assumed} {made : Db} {j : TxnJob} {v v' : Db × TxnNotes} {t₀ : Txn}

theorem Later.chosen (h : Later v v') {s : Nat} (hs : v.2.Chosen s) : v'.2.Chosen s :=
  hs.imp (fun h' => h.confirmed h') fun h' => h.passwords h'

/-- The row stays, the rest of the state may change. -/
theorem RowOk.of_same (h : RowOk p A t₀ v) {db' : Db} (ht : db'.txn = v.1.txn)
    (hc : db'.codes = v.1.codes) : Later v (db', v.2) ∧ RowOk p A t₀ (db', v.2) := by
  refine ⟨⟨fun _ hs => hs, fun _ hs => hs, fun ha => ?_, fun hcomp => ⟨?_, rfl⟩⟩, ?_⟩
  · rw [ht]
    exact ha
  · rw [ht]
    exact hcomp
  · exact
      { request := by rw [ht]; exact h.request
        fresh := by rw [ht]; exact h.fresh
        chosen := by rw [ht]; exact h.chosen
        settled := by rw [ht]; exact h.settled
        switched := by rw [ht]; exact h.switched
        since := by rw [ht]; exact h.since
        once := by rw [ht]; exact h.once
        issued := by rw [ht]; exact h.issued
        codes := by rw [hc]; exact h.codes
        sound := h.sound }

/-! ### Writes on the row -/

/-- There is no code before the completion. -/
theorem RowOk.issues_eq_nil (h : RowOk p A t₀ v) (hc : v.1.txn.completedAt = none) :
    v.2.issues = [] := by
  by_contra hne
  have hsome := h.issued hne
  rw [hc] at hsome
  cases hsome

theorem RowOk.sinceSwitch_eq_none (h : RowOk p A t₀ v)
    (hs : v.1.txn.accountSwitchRequestedAt = none) : v.2.sinceSwitch = none := by
  have heq := h.switched
  rw [hs] at heq
  exact Option.isNone_iff_eq_none.1 (by simpa using heq.symm)

theorem live_inv {t : Txn} {now : Int} (h : t.isLive now = true) : t.completedAt = none :=
  Option.isNone_iff_eq_none.1 (Bool.and_eq_true_iff.1 h).1

theorem live_of_confirmable {s : Nat} {explicit : Bool} {hash : String} {db : Db}
    (h : confirmable s explicit hash db = true) : db.txn.completedAt = none := by
  simp only [confirmable, Bool.and_eq_true] at h
  exact live_inv h.1.1.1.1

theorem accountConfirmed_iff {t : Txn} {s : Nat} : accountConfirmed t s = true ↔
    t.accountSelectedAt.isSome = true ∧ t.accountSelectedSessionId = some s := by
  simp [accountConfirmed]

theorem freshInTxn_iff {t : Txn} {s : Nat} : freshInTxn t s = true ↔
    t.authenticatedAt.isSome = true ∧ t.sessionId = some s := by
  simp [freshInTxn]

/-- The effect of a hit on the transaction before it is completed. -/
theorem later_of_open {db db' : Db} {g g' : TxnNotes} (hc : db.txn.completedAt = none)
    (hp : g.passwords ⊆ g'.passwords) (hcf : g.confirmed ⊆ g'.confirmed)
    (ha : db.txn.authenticatedAt.isSome = true → db'.txn.authenticatedAt.isSome = true) :
    Later (db, g) (db', g') := by
  refine ⟨hp, hcf, ha, fun h => ?_⟩
  have h : db.txn.completedAt.isSome = true := h
  rw [hc] at h
  cases h

/-- A hit on the choice of a transaction that is not completed. -/
theorem RowOk.of_open {db : Db} {g g' : TxnNotes} {t' : Txn} (h : RowOk p A t₀ (db, g))
    (hnone : db.txn.completedAt = none) (hcomp : t'.completedAt = db.txn.completedAt)
    (hreq : t'.request = db.txn.request) (hcount : g'.completions = g.completions)
    (hissues : g'.issues = g.issues)
    (fresh : A.bindsOwn → ∀ s, freshInTxn t' s = true → s ∈ g'.passwords)
    (chosen : ∀ s, accountConfirmed t' s = true → g'.Chosen s)
    (settled : t'.authenticatedAt.isSome = true → t'.accountSelectedAt.isSome = true ∨
      t'.accountSwitchRequestedAt.isSome = true)
    (switched : t'.accountSwitchRequestedAt.isSome = g'.sinceSwitch.isSome)
    (since : ∀ l ∈ g'.sinceSwitch, ∀ s, accountConfirmed t' s = true → s ∈ l) :
    RowOk p A t₀ ({ db with txn := t' }, g') := by
  have hnil : g.issues = [] := h.issues_eq_nil hnone
  refine ⟨hreq.trans h.request, fresh, chosen, settled, switched, since, ?_, ?_, ?_, ?_⟩
  · show g'.completions = if t'.completedAt.isSome then 1 else 0
    rw [hcount, hcomp]
    exact h.once
  · intro hne
    exact absurd (hissues.trans hnil) hne
  · show db.codes.map _ = g'.issues.map _
    rw [hissues]
    exact h.codes
  · intro e he
    have he : e ∈ g'.issues := he
    rw [hissues, hnil] at he
    exact absurd he List.not_mem_nil

/-- The user confirms a session: nobody has entered a password, chosen or switched before. -/
theorem RowOk.confirm {db : Db} {g : TxnNotes} (h : RowOk p A t₀ (db, g)) {s : Nat}
    {explicit : Bool} {hash : String} (hit : confirmable s explicit hash db = true) {t' : Txn}
    (hreq : t'.request = db.txn.request) (hauth : t'.authenticatedAt = db.txn.authenticatedAt)
    (hcomp : t'.completedAt = db.txn.completedAt)
    (hsel : t'.accountSelectedAt.isSome = true) (hses : t'.accountSelectedSessionId = some s)
    (hswitch : t'.accountSwitchRequestedAt = db.txn.accountSwitchRequestedAt) :
    RowOk p A t₀ ({ db with txn := t' }, { g with confirmed := s :: g.confirmed }) := by
  simp only [confirmable, Bool.and_eq_true, Option.isNone_iff_eq_none] at hit
  obtain ⟨⟨⟨⟨hlive, hnoswitch⟩, hnosel⟩, -⟩, -⟩ := hit
  have hsince : g.sinceSwitch = none := h.sinceSwitch_eq_none hnoswitch
  refine h.of_open (live_inv hlive) hcomp hreq rfl rfl (fun _ x hx => ?_) (fun x hx => .inl ?_)
    (fun _ => .inl hsel) ?_ fun l hl => ?_
  · have hsome : db.txn.authenticatedAt.isSome = true := hauth ▸ (freshInTxn_iff.1 hx).1
    rcases h.settled hsome with h' | h'
    · rw [hnosel] at h'
      cases h'
    · rw [hnoswitch] at h'
      cases h'
  · have heq := (accountConfirmed_iff.1 hx).2
    rw [hses] at heq
    cases heq
    exact List.mem_cons_self
  · rw [hswitch]
    exact h.switched
  · have hl : g.sinceSwitch = some l := hl
    rw [hsince] at hl
    cases hl

/-- The user asks for another account. -/
theorem RowOk.switch {db : Db} {g : TxnNotes} (h : RowOk p A t₀ (db, g)) {hash : String}
    (hit : switchable hash db = true) {t' : Txn} (hreq : t'.request = db.txn.request)
    (hauth : t'.authenticatedAt = db.txn.authenticatedAt) (hid : t'.sessionId = db.txn.sessionId)
    (hcomp : t'.completedAt = db.txn.completedAt) (hsel : t'.accountSelectedAt = none)
    (hswitch : t'.accountSwitchRequestedAt.isSome = true) :
    RowOk p A t₀ ({ db with txn := t' }, { g with sinceSwitch := some [] }) := by
  have hlive := (Bool.and_eq_true_iff.1 hit).1
  have hnot (s : Nat) (hs : accountConfirmed t' s = true) : False := by
    have h' := (accountConfirmed_iff.1 hs).1
    rw [hsel] at h'
    cases h'
  refine h.of_open (live_inv hlive) hcomp hreq rfl rfl (fun hb x hx => h.fresh hb x ?_)
    (fun x hx => (hnot x hx).elim) (fun _ => .inr hswitch) hswitch
    fun l _ s hs => (hnot s hs).elim
  rw [freshInTxn_iff, hauth, hid] at hx
  exact freshInTxn_iff.2 hx

/-- A password is entered. -/
theorem RowOk.password {db : Db} {g : TxnNotes} (h : RowOk p A t₀ (db, g))
    (hlive : db.txn.isLive db.now = true) {s : Nat} {t' : Txn}
    (hreq : t'.request = db.txn.request) (hid : t'.sessionId = some s)
    (hcomp : t'.completedAt = db.txn.completedAt) (hsel : t'.accountSelectedAt.isSome = true)
    (hses : t'.accountSelectedSessionId = some s)
    (hswitch : t'.accountSwitchRequestedAt = db.txn.accountSwitchRequestedAt) :
    RowOk p A t₀ ({ db with txn := t' },
      { g with passwords := s :: g.passwords, sinceSwitch := g.sinceSwitch.map (s :: ·) }) := by
  have hown (x : Nat) (hx : accountConfirmed t' x = true) : x = s := by
    have heq := (accountConfirmed_iff.1 hx).2
    rw [hses] at heq
    exact (Option.some.inj heq).symm
  refine h.of_open (live_inv hlive) hcomp hreq rfl rfl (fun _ x hx => ?_)
    (fun x hx => .inr ?_) (fun _ => .inl hsel) ?_ fun l hl x hx => ?_
  · have heq := (freshInTxn_iff.1 hx).2
    rw [hid] at heq
    cases heq
    exact List.mem_cons_self
  · rw [hown x hx]
    exact List.mem_cons_self
  · rw [hswitch, Option.isSome_map]
    exact h.switched
  · obtain ⟨l₀, -, rfl⟩ := Option.map_eq_some_iff.1 hl
    rw [hown x hx]
    exact List.mem_cons_self

/-- A session is bound to the row. -/
theorem RowOk.bind {db : Db} {g : TxnNotes} (h : RowOk p A t₀ (db, g)) {s : SessionUser}
    {fresh : Bool} (hfresh : fresh = true → db.txn.authenticatedAt.isSome = true)
    (hown : A.bindsOwn → db.txn.authenticatedAt = none ∨ s.id ∈ g.passwords) {t' : Txn}
    (ht : t' = { db.txn with
      userId := some s.userId
      sessionId := some s.id
      authenticatedAt := if fresh then some db.now else db.txn.authenticatedAt }) :
    RowOk p A t₀ ({ db with txn := t' }, g) := by
  have hauth : t'.authenticatedAt.isSome = true → db.txn.authenticatedAt.isSome = true := by
    rw [ht]
    cases fresh with
    | true => exact fun _ => hfresh rfl
    | false => exact fun h => h
  have hrest : RowOk p A t₀ ({ db with txn := { t' with
      authenticatedAt := db.txn.authenticatedAt, sessionId := db.txn.sessionId } }, g) := by
    rw [ht]
    exact ⟨h.request, h.fresh, h.chosen, h.settled, h.switched, h.since, h.once, h.issued, h.codes,
      h.sound⟩
  refine ⟨hrest.request, fun hb x hx => ?_, hrest.chosen, fun ha => hrest.settled (hauth ha),
    hrest.switched, hrest.since, hrest.once, hrest.issued, hrest.codes, hrest.sound⟩
  obtain ⟨hsome, hid⟩ := freshInTxn_iff.1 hx
  have hid : some s.id = some x := by
    rw [ht] at hid
    exact hid
  cases hid
  rcases hown hb with hnone | hmem
  · have hsome := hauth hsome
    rw [hnone] at hsome
    cases hsome
  · exact hmem

theorem RowOk.complete {db : Db} {g : TxnNotes} (h : RowOk p A t₀ (db, g))
    (hnone : db.txn.completedAt = none) :
    RowOk p A t₀ ({ db with txn := { db.txn with completedAt := some db.now } },
      { g with completions := g.completions + 1 }) := by
  have hnil : g.issues = [] := h.issues_eq_nil hnone
  refine ⟨h.request, h.fresh, h.chosen, h.settled, h.switched, h.since, ?_, fun _ => rfl, h.codes,
    fun e he => ?_⟩
  · have honce : g.completions = if db.txn.completedAt.isSome then 1 else 0 := h.once
    rw [hnone] at honce
    show g.completions + 1 = 1
    rw [honce]
    rfl
  · have he : e ∈ g.issues := he
    rw [hnil] at he
    exact absurd he List.not_mem_nil

theorem RowOk.insertCode {db : Db} {g : TxnNotes} (h : RowOk p A t₀ (db, g))
    (hcomp : db.txn.completedAt.isSome = true) {i : Issue} {granted : List String}
    (hsound : Sound p A t₀ (i, db.now) g) :
    RowOk p A t₀ ({ db with
      codes := db.codes ++ [
        { sessionId := i.session.id, userId := i.session.userId, scopes := granted
          authTime := i.session.authTime, createdAt := db.now }] },
      { g with issues := g.issues ++ [(i, db.now)] }) := by
  refine ⟨h.request, h.fresh, h.chosen, h.settled, h.switched, h.since, h.once, fun _ => hcomp, ?_,
    fun e he => ?_⟩
  · show (db.codes ++ [_]).map _ = (g.issues ++ [_]).map _
    rw [List.map_append, List.map_append]
    exact congrArg (· ++ _) h.codes
  · have he : e ∈ g.issues ++ [(i, db.now)] := he
    have hadd {e : Issue × Int} (h : Sound p A t₀ e g) :
        Sound p A t₀ e { g with issues := g.issues ++ [(i, db.now)] } :=
      ⟨h.fresh, h.hint, h.selected, h.several, h.switched⟩
    rcases List.mem_append.1 he with he | he
    · exact hadd (h.sound e he)
    · rw [List.mem_singleton.1 he]
      exact hadd hsound

end Rules

/-! ## Requests -/

section Requests

variable {p : Provider} {A : Assumed} {made : Db} {j : TxnJob} {v v' : Db × TxnNotes} {t₀ : Txn}

/-- What a row that was read tells of the transaction, also later. -/
structure SnapOk (A : Assumed) (t₀ txn : Txn) (v : Db × TxnNotes) : Prop where
  request : txn.request = t₀.request
  fresh : A.bindsOwn → ∀ s, freshInTxn txn s = true → s ∈ v.2.passwords
  chosen : ∀ s, accountConfirmed txn s = true → v.2.Chosen s
  authenticated : txn.authenticatedAt.isSome = true → v.1.txn.authenticatedAt.isSome = true

theorem RowOk.snap (h : RowOk p A t₀ v) : SnapOk A t₀ v.1.txn v :=
  ⟨h.request, h.fresh, h.chosen, fun ha => ha⟩

theorem SnapOk.mono {txn : Txn} (h : SnapOk A t₀ txn v) (hv : Later v v') : SnapOk A t₀ txn v' :=
  ⟨h.request, fun hb s hs => hv.passwords (h.fresh hb s hs), fun s hs => hv.chosen (h.chosen s hs),
    fun ha => hv.authenticated (h.authenticated ha)⟩

/-! ### The decision -/

/-- A code or the consent: the account is confirmed where the application asks for a choice, and it
is fresh or young enough. -/
theorem decideStep_inv {prompt : Prompt} {maxAge : Option Int} {chooser b : Bool}
    {f : SessionFacts} {now : Int}
    (h : decideStep prompt maxAge chooser (some f) b now = .consent ∨
      decideStep prompt maxAge chooser (some f) b now = .issue) :
    (chooser = true → prompt.selectAccount = true → f.confirmedInTxn = true) ∧
      (f.freshInTxn = true ∨ requiresFreshLogin prompt maxAge f.authTime now = false) := by
  unfold decideStep at h
  constructor
  · intro hchooser hselect
    by_contra hnot
    simp only [hchooser, hselect, Bool.not_eq_true _ ▸ hnot] at h
    split_ifs at h <;> simp_all
  · by_contra hnot
    rw [not_or, Bool.not_eq_true, Bool.not_eq_false] at hnot
    simp only [hnot.1, hnot.2] at h
    split_ifs at h <;> simp_all

/-- What an evaluation has found. -/
structure Evaluated (p : Provider) (txn : Txn) (accounts : List SessionUser) (ev : Evaluation) :
    Prop where
  session : ev.session = (resolveSession txn (candidates txn accounts)).1
  step : ∀ s ∈ ev.session, ev.step = .consent ∨ ev.step = .issue →
    (p.accountChooser = true → txn.prompt.selectAccount = true →
      accountConfirmed txn s.id = true) ∧
    (freshInTxn txn s.id = true ∨
      requiresFreshLogin txn.prompt txn.maxAge s.authTime ev.decidedAt = false)

theorem safe_select {α : Type} {Q : α → Db × TxnNotes → Prop} {f : Db → α}
    (h : ∀ v', Later v v' → RowOk p A made.txn v' → Q (f v'.1) v') :
    (txnLaw p A made).Safe j Q (select f) v :=
  Law.safe_query (fun _ _ => rfl) fun v' hv hi _ => h v' hv hi

theorem safe_clock {Q : Int → Db × TxnNotes → Prop} (h : ∀ now v', Later v v' → Q now v') :
    (txnLaw p A made).Safe j Q clock v :=
  Law.safe_look (fun _ _ => rfl) fun v' hv _ => h _ v' hv

theorem safe_evaluate (txn : Txn) (accounts : List SessionUser) :
    (txnLaw p A made).Safe j (fun ev _ => Evaluated p txn accounts ev) (evaluate p txn accounts)
      v := by
  have hstep (facts : Option SessionFacts) (v₁ : Db × TxnNotes)
      (hfacts : ∀ s ∈ (resolveSession txn (candidates txn accounts)).1,
        ∃ consent, facts = some (factsOf txn s consent)) :
      (txnLaw p A made).Safe j (fun ev _ => Evaluated p txn accounts ev) (do
        let now ← clock
        pure { step := decideStep txn.prompt txn.maxAge p.accountChooser facts
                (resolveSession txn (candidates txn accounts)).2 now
               session := (resolveSession txn (candidates txn accounts)).1
               candidates := candidates txn accounts
               decidedAt := now }) v₁ := by
    refine Law.safe_bind (safe_clock fun now v' _ => ⟨rfl, fun s hs hstep => ?_⟩)
    obtain ⟨consent, rfl⟩ := hfacts s hs
    exact decideStep_inv (b := (resolveSession txn (candidates txn accounts)).2) hstep
  unfold evaluate
  rcases hres : resolveSession txn (candidates txn accounts) with ⟨session, ambiguous⟩
  rw [hres] at hstep
  simp only [hres]
  cases session with
  | none => exact hstep none v fun s hs => nomatch hs
  | some s =>
    refine Law.safe_bind (safe_select fun v₁ _ _ => ?_)
    refine hstep _ v₁ fun s' hs' => ?_
    cases hs'
    exact ⟨_, rfl⟩

/-- How the session of a transaction is found among the candidates. -/
theorem resolveSession_inv {txn : Txn} {cs : List SessionUser} {s : SessionUser}
    (h : (resolveSession txn cs).1 = some s) : s ∈ cs ∧
    (accountConfirmed txn s.id = true ∨ freshInTxn txn s.id = true ∨ cs.length ≤ 1 ∨
      hinted txn cs = [s]) := by
  unfold resolveSession at h
  split at h
  · rename_i bound hfind
    cases h
    have hbound := List.find?_some hfind
    rw [Bool.or_eq_true] at hbound
    exact ⟨List.mem_of_find?_eq_some hfind, hbound.imp_right .inl⟩
  · split at h
    · cases h
    · cases h
      exact ⟨List.mem_cons_self, .inr (.inr (.inl le_rfl))⟩
    · split at h
      · rename_i one hone
        cases h
        refine ⟨?_, .inr (.inr (.inr hone))⟩
        have hmem : s ∈ hinted txn cs := hone ▸ List.mem_cons_self
        unfold hinted at hmem
        split at hmem
        · exact (List.mem_filter.1 hmem).1
        · exact absurd hmem List.not_mem_nil
      · cases h

theorem isUsable_inv {txn : Txn} {s : SessionUser} (h : isUsable txn s = true) :
    (∀ sub ∈ txn.idTokenHintSub, toString s.userId = sub) ∧
      (txn.accountSwitchRequestedAt.isSome = true → accountConfirmed txn s.id = true) := by
  obtain ⟨hhint, hswitch⟩ := Bool.and_eq_true_iff.1 h
  refine ⟨fun sub hsub => ?_, fun hsome => ?_⟩
  · rw [Option.mem_def.1 hsub] at hhint
    exact (of_decide_eq_true hhint).symm
  · rcases Bool.or_eq_true_iff.1 hswitch with hnone | hconfirmed
    · rw [Option.isNone_iff_eq_none.1 hnone] at hsome
      cases hsome
    · exact hconfirmed

/-- What a request knows of the code that it is about to issue. -/
structure Vetted (p : Provider) (A : Assumed) (t₀ : Txn) (i : Issue) (v : Db × TxnNotes) :
    Prop where
  snap : SnapOk A t₀ i.txn v
  session : (resolveSession i.txn (candidates i.txn i.accounts)).1 = some i.session
  chosen : p.accountChooser = true → i.txn.prompt.selectAccount = true →
    accountConfirmed i.txn i.session.id = true
  fresh : freshInTxn i.txn i.session.id = true ∨
    requiresFreshLogin i.txn.prompt i.txn.maxAge i.session.authTime i.decidedAt = false

theorem Vetted.mono {i : Issue} (h : Vetted p A t₀ i v) (hv : Later v v') : Vetted p A t₀ i v' :=
  ⟨h.snap.mono hv, h.session, h.chosen, h.fresh⟩

theorem Evaluated.vetted {txn : Txn} {accounts : List SessionUser} {ev : Evaluation}
    (h : Evaluated p txn accounts ev) (hsnap : SnapOk A t₀ txn v) {s : SessionUser}
    (hs : ev.session = some s) (hstep : ev.step = .consent ∨ ev.step = .issue) :
    Vetted p A t₀ { txn, accounts, session := s, decidedAt := ev.decidedAt } v :=
  ⟨hsnap, h.session ▸ hs, (h.step s hs hstep).1, (h.step s hs hstep).2⟩

/-- A session that needs no password is asked for none, and it is young enough. -/
theorem requiresFreshLogin_inv {prompt : Prompt} {maxAge : Option Int} {authTime now : Int}
    (h : requiresFreshLogin prompt maxAge authTime now = false) :
    prompt.login = false ∧ ∀ m ∈ maxAge, now - authTime ≤ m := by
  unfold requiresFreshLogin at h
  split_ifs at h with hlogin
  refine ⟨Bool.not_eq_true _ ▸ hlogin, fun m hm => ?_⟩
  rw [Option.mem_def.1 hm] at h
  have hage := (Bool.or_eq_false_iff.1 h).1
  exact not_lt.1 (of_decide_eq_false hage)

/-- What the request knows makes the code sound. -/
theorem Vetted.sound {i : Issue} (h : Vetted p A t₀ i v) (htime : A.inTime → InTime (.insertCode i) v)
    (hswitched : A.stillUsable → ∀ l ∈ v.2.sinceSwitch, i.session.id ∈ l) :
    Sound p A t₀ (i, v.1.now) v.2 := by
  obtain ⟨hmem, hfound⟩ := resolveSession_inv h.session
  obtain ⟨hprompt, hage, hhint, hsub⟩ : i.txn.prompt = t₀.prompt ∧ i.txn.maxAge = t₀.maxAge ∧
      i.txn.loginHint = t₀.loginHint ∧ i.txn.idTokenHintSub = t₀.idTokenHintSub := by
    simpa [Txn.request] using h.snap.request
  refine ⟨fun hb ht => ?_, fun sub hmem' => ?_, fun hp hs => ?_, fun hb => ?_, hswitched⟩
  · rcases h.fresh with hfresh | hnot
    · exact .inl (h.snap.fresh hb _ hfresh)
    · rcases htime ht with hfresh | hin
      · exact .inl (h.snap.fresh hb _ hfresh)
      · obtain ⟨hlogin, hyoung⟩ := requiresFreshLogin_inv hnot
        rw [hage] at hin hyoung
        exact .inr ⟨hprompt ▸ hlogin, fun m hm => hin m hm (hyoung m hm)⟩
  · exact (isUsable_inv (List.mem_filter.1 hmem).2).1 sub (hsub ▸ hmem')
  · exact h.snap.chosen _ (h.chosen hp (hprompt ▸ hs))
  · rcases hfound with hconfirmed | hfresh | hone | hhinted
    · exact .inr (.inl ⟨_, hmem, h.snap.chosen _ hconfirmed⟩)
    · exact .inr (.inl ⟨_, hmem, .inr (h.snap.fresh hb _ hfresh)⟩)
    · exact .inl hone
    · refine .inr (.inr ?_)
      unfold hinted at hhinted ⊢
      rw [← hhint]
      exact hhinted

/-! ### Statements -/

theorem safe_write {l : Stmt} {f : Db → Db} (hl : (txnSystem p made).Unseen j l)
    (h : ∀ db g, RowOk p A made.txn (db, g) →
      Later (db, g) (f db, g) ∧ RowOk p A made.txn (f db, g)) :
    (txnLaw p A made).Safe j (fun _ _ => True) (write l f) v := by
  refine Law.safe_exec hl fun v' _ hi _ db' _ heq => ?_
  cases heq
  exact ⟨(h v'.1 v'.2 hi).1, (h v'.1 v'.2 hi).2, trivial⟩

/-- A conditional update, where it hits the row. -/
theorem safe_updateWhere {l : Stmt} {cond : Db → Bool} {f : Db → Txn → Txn}
    {P : Db × TxnNotes → Prop}
    (hmiss : ∀ db g, cond db = false → TxnNotes.watch j l db g = g)
    (hhit : ∀ db g, Later v (db, g) → RowOk p A made.txn (db, g) → A.Holds l (db, g) →
      cond db = true → ∀ db' g', db' = { db with txn := f db db.txn } →
      TxnNotes.watch j l db g = g' →
      Later (db, g) (db', g') ∧ RowOk p A made.txn (db', g') ∧ P (db', g')) :
    (txnLaw p A made).Safe j (fun r v' => ∀ t ∈ r, SnapOk A made.txn t v' ∧ P v')
      (updateWhere l cond f) v := by
  have hok (v' : Db × TxnNotes) (e : AppError) : (if cond v'.1 then
      Except.ok (({ v'.1 with txn := f v'.1 v'.1.txn } : Db), some (f v'.1 v'.1.txn))
      else .ok (v'.1, none)) ≠ Except.error e := by
    split_ifs <;> exact fun h => nomatch h
  refine Law.safe_exec_noted (fun v' e h => absurd h (hok v' e)) fun v' hv hi hc db' r hr => ?_
  split_ifs at hr with hcond
  · cases hr
    obtain ⟨hlater, hrow, hp⟩ := hhit v'.1 v'.2 hv hi hc hcond _ _ rfl rfl
    refine ⟨hlater, hrow, fun t ht => ⟨?_, hp⟩⟩
    cases ht
    exact hrow.snap
  · cases hr
    rw [show (txnSystem p made).watch j l v'.1 v'.2 = v'.2 from
      hmiss v'.1 v'.2 (Bool.not_eq_true _ ▸ hcond)]
    exact ⟨.refl _, hi, fun t ht => nomatch ht⟩

/-- The token of a page and the account that it shows are for nobody else. -/
theorem RowOk.csrf {db : Db} {g : TxnNotes} (h : RowOk p A t₀ (db, g)) (hash : String)
    (shown : Option Nat) : Later (db, g) (editTxn (fun t => { t with
      csrfHash := hash, accountChoiceSessionId := shown }) db, g) ∧
    RowOk p A t₀ (editTxn (fun t => { t with
      csrfHash := hash, accountChoiceSessionId := shown }) db, g) :=
  ⟨⟨fun _ hs => hs, fun _ hs => hs, fun ha => ha, fun hc => ⟨hc, rfl⟩⟩,
    ⟨h.request, h.fresh, h.chosen, h.settled, h.switched, h.since, h.once, h.issued, h.codes,
      h.sound⟩⟩

theorem safe_issueCsrf (token : String) :
    (txnLaw p A made).Safe j (fun _ _ => True) (issueCsrf p token) v :=
  safe_write (fun _ _ => rfl) fun db _ h => h.csrf (p.hash token) db.txn.accountChoiceSessionId

theorem safe_issueAccountChoiceCsrf (token : String) (s : Nat) :
    (txnLaw p A made).Safe j (fun _ _ => True) (issueAccountChoiceCsrf p token s) v :=
  safe_write (fun _ _ => rfl) fun _ _ h => h.csrf (p.hash token) (some s)

theorem safe_grantConsent (userId : Nat) (scopes : List String) :
    (txnLaw p A made).Safe j (fun _ _ => True) (grantConsent userId scopes) v :=
  safe_write (fun _ _ => rfl) fun _ _ h => h.of_same rfl rfl

theorem safe_touchSession (s : Nat) :
    (txnLaw p A made).Safe j (fun _ _ => True) (touchSession s) v :=
  safe_write (fun _ _ => rfl) fun _ _ h => h.of_same rfl rfl

theorem safe_revokeSessions (ids : List Nat) :
    (txnLaw p A made).Safe j (fun _ _ => True) (revokeSessions ids) v :=
  safe_write (fun _ _ => rfl) fun _ _ h => h.of_same rfl rfl

theorem safe_insertSession (s : SessionUser) :
    (txnLaw p A made).Safe j (fun _ _ => True) (insertSession s) v := by
  refine Law.safe_exec (fun _ _ => rfl) fun v' _ hi _ db' _ heq => ?_
  split_ifs at heq
  cases heq
  have hsame : Later v' ({ v'.1 with sessions := v'.1.sessions ++ [s] }, v'.2) ∧
      RowOk p A made.txn ({ v'.1 with sessions := v'.1.sessions ++ [s] }, v'.2) :=
    hi.of_same rfl rfl
  exact ⟨hsame.1, hsame.2, trivial⟩

theorem safe_bindTransactionUser {s : SessionUser} {fresh : Bool}
    (hfresh : fresh = true → v.1.txn.authenticatedAt.isSome = true) :
    (txnLaw p A made).Safe j (fun _ _ => True) (bindTransactionUser s fresh) v := by
  refine Law.safe_exec (fun _ _ => rfl) fun v' hv hi hc db' _ heq => ?_
  obtain ⟨db, g⟩ := v'
  cases heq
  have hfresh' (h : fresh = true) := hv.authenticated (hfresh h)
  refine ⟨⟨fun _ hs => hs, fun _ hs => hs, fun ha => ?_, fun hcomp => ⟨hcomp, rfl⟩⟩,
    RowOk.bind hi hfresh' (fun hb => hc.1 hb) rfl, trivial⟩
  cases fresh with
  | true => rfl
  | false => exact ha

theorem safe_confirmChoice (form : Form) (explicit : Bool) (s : SessionUser) :
    (txnLaw p A made).Safe j (fun r v' => ∀ t ∈ r, SnapOk A made.txn t v' ∧ True)
      (confirmChoice p form explicit s) v := by
  unfold confirmChoice
  split_ifs
  · refine safe_updateWhere (fun db g h => ?_) fun db g _ hi _ hit db' g' hdb hg => ?_
    · simp [TxnNotes.watch, h]
    · simp only [TxnNotes.watch, hit, if_true] at hg
      subst hdb hg
      exact ⟨later_of_open (live_of_confirmable hit) (fun _ h => h) (List.subset_cons_self _ _)
        fun ha => ha, hi.confirm hit rfl rfl rfl rfl rfl rfl, trivial⟩
  · refine safe_updateWhere (fun db g h => ?_) fun db g _ hi _ hit db' g' hdb hg => ?_
    · simp [TxnNotes.watch, h]
    · simp only [TxnNotes.watch, hit, if_true] at hg
      subst hdb hg
      exact ⟨later_of_open (live_of_confirmable hit) (fun _ h => h) (List.subset_cons_self _ _)
        fun ha => ha, hi.confirm hit rfl rfl rfl rfl rfl rfl, trivial⟩

theorem safe_requestAccountSwitch (presented draw : String) :
    (txnLaw p A made).Safe j (fun _ _ => True) (requestAccountSwitch p presented draw) v := by
  refine Law.safe_bind (Law.Safe.imp (fun _ _ _ => trivial) (safe_updateWhere
    (P := fun _ => True) (fun db g h => ?_) fun db g _ hi _ hit db' g' hdb hg => ?_))
  · simp [TxnNotes.watch, h]
  · simp only [TxnNotes.watch, hit, if_true] at hg
    subst hdb hg
    exact ⟨later_of_open (live_inv (Bool.and_eq_true_iff.1 hit).1) (fun _ h => h) (fun _ h => h)
      fun ha => ha, hi.switch hit rfl rfl rfl rfl rfl rfl, trivial⟩

theorem safe_bindPasswordLogin (s : SessionUser) :
    (txnLaw p A made).Safe j (fun r v' => ∀ t ∈ r, SnapOk A made.txn t v' ∧ True)
      (bindPasswordLogin s) v := by
  refine safe_updateWhere (fun db g h => ?_) fun db g _ hi _ hit db' g' hdb hg => ?_
  · simp [TxnNotes.watch, h]
  · simp only [TxnNotes.watch, hit, if_true] at hg
    subst hdb hg
    exact ⟨later_of_open (live_inv hit) (List.subset_cons_self _ _) (fun _ h => h) fun _ => rfl,
      hi.password hit rfl rfl rfl rfl rfl rfl, trivial⟩

/-- The request that completes the transaction with a code: the session is the one that the user
has switched to. -/
theorem safe_completeTransaction (issue : Option Issue) :
    (txnLaw p A made).Safe j (fun b v' => b = true → v'.1.txn.completedAt.isSome = true ∧
      ∀ i ∈ issue, A.stillUsable → ∀ l ∈ v'.2.sinceSwitch, i.session.id ∈ l)
      (completeTransaction issue) v := by
  refine Law.safe_bind (Law.Safe.imp (fun r v' h hr => ?_) (safe_updateWhere
    (P := fun v' => v'.1.txn.completedAt.isSome = true ∧
      ∀ i ∈ issue, A.stillUsable → ∀ l ∈ v'.2.sinceSwitch, i.session.id ∈ l)
    (fun db g h => ?_) fun db g _ hi hc hit db' g' hdb hg => ?_))
  · obtain ⟨t, ht⟩ := Option.isSome_iff_exists.1 hr
    exact (h t ht).2
  · simp only [TxnNotes.watch, h, Bool.false_eq_true, if_false]
  · simp only [TxnNotes.watch, hit, if_true] at hg
    subst hdb hg
    have hnone : db.txn.completedAt = none := Option.isNone_iff_eq_none.1 hit
    refine ⟨later_of_open hnone (fun _ h => h) (fun _ h => h) fun ha => ha, hi.complete hnone, rfl,
      fun i hi' hA l hl => ?_⟩
    cases hi'
    rcases hc.2.2 hA with hcomp | husable
    · have hcomp : db.txn.completedAt.isSome = true := hcomp
      rw [hnone] at hcomp
      cases hcomp
    · have hsome : db.txn.accountSwitchRequestedAt.isSome = true := by
        rw [hi.switched]
        exact Option.isSome_iff_exists.2 ⟨l, hl⟩
      exact hi.since l hl _ ((isUsable_inv husable).2 hsome)

theorem safe_insertCode {i : Issue} {granted : List String} (h : Vetted p A made.txn i v)
    (hcomp : v.1.txn.completedAt.isSome = true)
    (hswitched : A.stillUsable → ∀ l ∈ v.2.sinceSwitch, i.session.id ∈ l) :
    (txnLaw p A made).Safe j (fun _ _ => True) (insertCode i granted) v := by
  refine Law.safe_exec_noted (fun _ _ h => nomatch h) fun v' hv hi hc db' _ heq => ?_
  cases heq
  have hsound := (h.mono hv).sound (fun ht => hc.2.1 ht) fun hA l hl =>
    hswitched hA l ((hv.completed hcomp).2 ▸ hl)
  exact ⟨⟨fun _ h => h, fun _ h => h, fun ha => ha, fun hc' => ⟨hc', rfl⟩⟩,
    RowOk.insertCode hi (hv.completed hcomp).1 hsound, trivial⟩

/-! ### Pages -/

/-- The request keeps the law, wherever it starts from. -/
def Kept (p : Provider) (A : Assumed) (made : Db) (j : TxnJob) {α : Type} (m : TxnM α) : Prop :=
  ∀ v, (txnLaw p A made).Safe j (fun _ _ => True) m v

theorem safe_finishWithError (error : OAuthError) :
    (txnLaw p A made).Safe j (fun _ _ => True) (finishWithError error) v := by
  refine Law.safe_bind ((safe_completeTransaction none).imp fun b _ _ => ?_)
  cases b with
  | true => trivial
  | false => trivial

theorem safe_issueCode {i : Issue} {granted : List String} (h : Vetted p A made.txn i v) :
    (txnLaw p A made).Safe j (fun _ _ => True) (issueCode i granted) v := by
  refine Law.safe_bind ((safe_completeTransaction (some i)).and_rely.imp fun b v' hb => ?_)
  obtain ⟨hb, hv⟩ := hb
  cases b with
  | true =>
    obtain ⟨hcomp, hswitched⟩ := hb rfl
    refine Law.safe_seq (safe_insertCode (h.mono hv) hcomp (hswitched i rfl)) fun _ _ _ => ?_
    exact Law.safe_seq (safe_touchSession _) fun _ _ _ => trivial
  | false => trivial

theorem safe_proceed {txn : Txn} {accounts : List SessionUser} {s : SessionUser}
    {ev : Evaluation}
    (h : Vetted p A made.txn { txn, accounts, session := s, decidedAt := ev.decidedAt } v) :
    (txnLaw p A made).Safe j (fun _ _ => True) (proceed txn accounts s ev) v := by
  have hbind : (txnLaw p A made).Safe j (fun _ _ => True) (bindIfNeeded txn s) v := by
    refine Law.safe_ite (fun _ => ?_) fun _ => trivial
    exact safe_bindTransactionUser fun hf => h.snap.authenticated (freshInTxn_iff.1 hf).1
  refine Law.safe_seq hbind fun bound v' hv => ?_
  exact Law.safe_ite (fun _ => trivial) fun _ => safe_issueCode (h.mono hv)

theorem safe_advance {txn : Txn} (h : SnapOk A made.txn txn v) (accounts : List SessionUser) :
    (txnLaw p A made).Safe j (fun _ _ => True) (advance p txn accounts) v := by
  refine Law.safe_bind ((safe_evaluate txn accounts).and_rely.imp fun ev v' hev => ?_)
  obtain ⟨hev, hv⟩ := hev
  have hvet (s : SessionUser) (hs : ev.session = some s)
      (hstep : ev.step = .consent ∨ ev.step = .issue) :=
    hev.vetted (h.mono hv) hs hstep
  split
  · exact safe_finishWithError _
  · trivial
  · trivial
  · exact safe_proceed (hvet _ ‹_› (.inl ‹_›))
  · exact safe_proceed (hvet _ ‹_› (.inr ‹_›))
  · trivial
  · trivial

theorem safe_consentReady {txn : Txn} (h : SnapOk A made.txn txn v) (accounts : List SessionUser) :
    (txnLaw p A made).Safe j (fun r v' => SnapOk A made.txn txn v' ∧ ∀ x ∈ r,
      Vetted p A made.txn { txn, accounts, session := x.1, decidedAt := x.2.decidedAt } v')
      (consentReady p txn accounts) v := by
  refine Law.safe_bind ((safe_evaluate txn accounts).and_rely.imp fun ev v' hev => ?_)
  obtain ⟨hev, hv⟩ := hev
  refine ⟨h.mono hv, fun x hx => ?_⟩
  obtain ⟨s, hs, rfl⟩ := Option.map_eq_some_iff.1 hx
  obtain ⟨hsession, hready⟩ := Option.filter_eq_some_iff.1 hs
  simp only [Bool.and_eq_true, decide_eq_true_eq] at hready
  exact hev.vetted (h.mono hv) hsession (.inl hready.1.1)

theorem kept_withTransaction {f : Txn → TxnM Next}
    (hf : ∀ txn v, SnapOk A made.txn txn v →
      (txnLaw p A made).Safe j (fun _ _ => True) (f txn) v) :
    Kept p A made j (withTransaction f) := by
  refine fun v => Law.safe_bind (safe_select fun v' _ hi => ?_)
  split_ifs
  · exact hf _ v' hi.snap
  · trivial

theorem kept_withForm {form : Form} {f : Txn → TxnM Next}
    (hf : ∀ txn v, SnapOk A made.txn txn v →
      (txnLaw p A made).Safe j (fun _ _ => True) (f txn) v) :
    Kept p A made j (withForm p form f) :=
  kept_withTransaction fun txn v h => Law.safe_ite (fun _ => hf txn v h) fun _ => trivial

theorem safe_renderLogin (token : String) :
    (txnLaw p A made).Safe j (fun _ _ => True) (renderLogin p token) v :=
  Law.safe_seq (safe_issueCsrf token) fun _ _ _ => trivial

theorem safe_renderSelectAccount (token : String) (usable : List SessionUser) :
    (txnLaw p A made).Safe j (fun _ _ => True) (renderSelectAccount p token usable) v := by
  cases usable with
  | nil => trivial
  | cons first _ => exact Law.safe_seq (safe_issueAccountChoiceCsrf token _) fun _ _ _ => trivial

theorem safe_load {Q : List SessionUser → Db × TxnNotes → Prop}
    (h : ∀ accounts v', Later v v' → Q accounts v') : (txnLaw p A made).Safe j Q load v :=
  safe_select fun v' hv _ => h _ v' hv

theorem safe_establish (userId : Nat) (username : String) (sessionId : Nat) :
    (txnLaw p A made).Safe j (fun _ _ => True) (establish p userId username sessionId) v := by
  refine Law.safe_bind (safe_load fun accounts v₁ _ => ?_)
  refine Law.safe_bind (safe_clock fun now v₂ _ => ?_)
  refine Law.safe_seq (safe_revokeSessions _) fun _ v₃ _ => ?_
  exact Law.safe_seq (safe_insertSession _) fun _ _ _ => trivial

theorem safe_continueLogin (session : SessionUser) (accounts : List SessionUser) :
    (txnLaw p A made).Safe j (fun _ _ => True) (continueLogin p session accounts) v := by
  refine Law.safe_bind ((safe_bindPasswordLogin session).imp fun r v' hr => ?_)
  cases r with
  | none => trivial
  | some txn => exact safe_advance (hr txn rfl).1 accounts

theorem safe_continueAs (form : Form) (accounts : List SessionUser) (explicit : Bool)
    (s : SessionUser) :
    (txnLaw p A made).Safe j (fun _ _ => True) (continueAs p form accounts explicit s) v := by
  refine Law.safe_bind ((safe_confirmChoice form explicit s).imp fun r v' hr => ?_)
  cases r with
  | none => trivial
  | some txn => exact safe_advance (hr txn rfl).1 accounts

theorem safe_accountSwitch (form : Form) :
    (txnLaw p A made).Safe j (fun _ _ => True) (accountSwitch p form) v :=
  Law.safe_seq (safe_requestAccountSwitch _ _) fun _ _ _ =>
    Law.safe_ite (fun _ => trivial) fun _ => trivial

theorem kept_loginPage (token : String) : Kept p A made j (loginPage p token) :=
  kept_withTransaction fun _ _ _ => safe_renderLogin token

theorem kept_loginSubmit (form : Form) (login : Login) :
    Kept p A made j (loginSubmit p form login) := by
  refine kept_withForm fun txn v _ => Law.safe_ite (fun _ => safe_finishWithError _) fun _ => ?_
  cases login.verified with
  | none => exact safe_renderLogin _
  | some user =>
    refine Law.safe_ite (fun _ => safe_renderLogin _) fun _ => ?_
    exact Law.safe_seq (safe_establish _ _ _) fun _ _ _ => safe_continueLogin _ _

theorem kept_consentPage (token : String) : Kept p A made j (consentPage p token) := by
  refine kept_withTransaction fun txn v h => Law.safe_bind (safe_load fun accounts v₁ hv => ?_)
  refine Law.safe_bind ((safe_consentReady (h.mono hv) accounts).imp fun r v₂ hr => ?_)
  cases r with
  | none => exact safe_advance hr.1 accounts
  | some x =>
    refine Law.safe_bind (safe_select fun v₃ _ _ => ?_)
    exact Law.safe_seq (safe_issueCsrf token) fun _ _ _ => trivial

theorem safe_answerConsent {txn : Txn} (h : SnapOk A made.txn txn v)
    (allowed : Option (List String)) :
    (txnLaw p A made).Safe j (fun _ _ => True) (answerConsent p txn allowed) v := by
  refine Law.safe_bind (safe_load fun accounts v₁ hv => ?_)
  refine Law.safe_bind ((safe_consentReady (h.mono hv) accounts).imp fun r v₂ hr => ?_)
  cases r with
  | none => exact safe_advance hr.1 accounts
  | some x =>
    cases allowed with
    | none => exact safe_finishWithError _
    | some selected =>
      exact Law.safe_seq (safe_grantConsent _ _) fun _ v₃ hv₃ =>
        safe_issueCode ((hr.2 x rfl).mono hv₃)

theorem kept_consentSubmit (form : Form) (action : ConsentAction) :
    Kept p A made j (consentSubmit p form action) := by
  refine kept_withForm fun txn v h => ?_
  cases action with
  | switch => exact safe_accountSwitch form
  | allow selected => exact safe_answerConsent h (some selected)
  | deny => exact safe_answerConsent h none

theorem kept_selectAccountPage (token : String) : Kept p A made j (selectAccountPage p token) := by
  refine kept_withTransaction fun txn v _ => Law.safe_bind (safe_load fun accounts v₁ _ => ?_)
  refine Law.safe_bind ((safe_evaluate txn accounts).imp fun ev v₂ _ => ?_)
  split
  · exact Law.safe_ite (fun _ => trivial) fun _ => safe_renderSelectAccount token _
  · exact Law.safe_ite (fun _ => trivial) fun _ => safe_renderSelectAccount token _
  · trivial
  · trivial
  · trivial

theorem safe_chooseAccount (form : Form) {txn : Txn} (h : SnapOk A made.txn txn v)
    (account : Option Nat) :
    (txnLaw p A made).Safe j (fun _ _ => True) (chooseAccount p form txn account) v := by
  refine Law.safe_bind (safe_load fun accounts v₁ hv => ?_)
  dsimp only
  split
  · exact safe_continueAs form accounts _ _
  · refine Law.safe_ite (fun _ => ?_) fun _ => safe_renderSelectAccount _ _
    exact safe_advance (h.mono hv) []

theorem safe_chooserSignOut (form : Form) (txn : Txn) (gone : SessionUser → Bool) :
    (txnLaw p A made).Safe j (fun _ _ => True) (chooserSignOut p form txn gone) v := by
  refine Law.safe_bind (safe_load fun accounts v₁ _ => ?_)
  refine Law.safe_seq (safe_revokeSessions _) fun _ v₂ _ => ?_
  split
  · exact safe_renderLogin _
  · exact safe_renderSelectAccount _ _

theorem kept_selectAccountSubmit (form : Form) (action : ChooserAction) :
    Kept p A made j (selectAccountSubmit p form action) := by
  refine kept_withForm fun txn v h => ?_
  cases action with
  | cancel => exact safe_finishWithError _
  | other => exact safe_accountSwitch form
  | choose account => exact safe_chooseAccount form h account
  | logout account => exact safe_chooserSignOut form txn _
  | logoutAll => exact safe_chooserSignOut form txn _

theorem Txn.New.snap {t : Txn} (h : t.New) (v : Db × TxnNotes) : SnapOk A t t v := by
  have hfresh (s : Nat) : freshInTxn t s = false := by simp [freshInTxn, h.authenticatedAt]
  have hconfirmed (s : Nat) : accountConfirmed t s = false := by
    simp [accountConfirmed, h.accountSelectedAt]
  refine ⟨rfl, fun _ s hs => ?_, fun s hs => ?_, fun ha => ?_⟩
  · rw [hfresh] at hs
    cases hs
  · rw [hconfirmed] at hs
    cases hs
  · rw [h.authenticatedAt] at ha
    cases ha

end Requests

/-! ## Runs -/

variable {p : Provider} {A : Assumed}

theorem txnLaw_keeps {made : Db} (hnew : made.txn.New) : (txnLaw p A made).Keeps where
  prog j v _ := by
    have hnext : Kept p A made j (j.next p made) := by
      cases j with
      | start => exact fun v => safe_advance (hnew.snap v) _
      | loginPage token => exact kept_loginPage token
      | loginSubmit form login => exact kept_loginSubmit form login
      | consentPage token => exact kept_consentPage token
      | consentSubmit form action => exact kept_consentSubmit form action
      | selectAccountPage token => exact kept_selectAccountPage token
      | selectAccountSubmit form action => exact kept_selectAccountSubmit form action
    exact Law.safe_seq (hnext v) fun _ _ _ => trivial
  env e v h := by
    cases e with
    | signIn s =>
      show Later v ((TxnEnv.signIn s).apply v.1, v.2) ∧
        RowOk p A made.txn ((TxnEnv.signIn s).apply v.1, v.2)
      unfold TxnEnv.apply
      dsimp only
      split_ifs
      · exact ⟨.refl v, h⟩
      · exact h.of_same rfl rfl
    | tick d => exact h.of_same rfl rfl
    | revoke id => exact h.of_same rfl rfl
    | touch id => exact h.of_same rfl rfl
    | setConsents consents => exact h.of_same rfl rfl

/-- A transaction as it is made. -/
theorem RowOk.initial {db : Db} (h : db.txn.New) (hcodes : db.codes = []) :
    RowOk p A db.txn (TxnPool.initial db).view where
  request := rfl
  fresh hb := (h.snap (A := A) (TxnPool.initial db).view).fresh hb
  chosen := (h.snap (A := A) (TxnPool.initial db).view).chosen
  settled ha := by
    rw [show (TxnPool.initial db).view.1.txn = db.txn from rfl, h.authenticatedAt] at ha
    cases ha
  switched := by
    show db.txn.accountSwitchRequestedAt.isSome = _
    rw [h.accountSwitchRequestedAt]
    rfl
  since l hl := nomatch hl
  once := by
    show 0 = if db.txn.completedAt.isSome then 1 else 0
    rw [h.completedAt]
    rfl
  issued hne := absurd rfl hne
  codes := by
    show db.codes.map _ = _
    rw [hcodes]
    rfl
  sound e he := absurd he List.not_mem_nil

theorem rowOk_run {db : Db} (h : db.txn.New) (hcodes : db.codes = [])
    {acts : List (Act TxnJob TxnEnv)}
    (ha : Along (txnSystem p db).step (Meets fun _ => A.Holds) (TxnPool.initial db) acts) :
    RowOk p A db.txn (acts.foldl (txnSystem p db).step (TxnPool.initial db)).view :=
  (Law.poolOk_run (txnLaw_keeps h)
    ⟨RowOk.initial h hcodes, fun _ ht => absurd ht List.not_mem_nil⟩ ha).1.inv

/-- A code of the transaction was issued for the session of its issue. -/
theorem RowOk.mem_issues {t₀ : Txn} {v : Db × TxnNotes} (h : RowOk p A t₀ v) {c : Code}
    (hc : c ∈ v.1.codes) : ∃ e ∈ v.2.issues, e.1.session.id = c.sessionId ∧
      e.1.session.authTime = c.authTime ∧ e.2 = c.createdAt := by
  have hmem : (c.sessionId, c.userId, c.authTime, c.createdAt) ∈
      v.2.issues.map fun e => (e.1.session.id, e.1.session.userId, e.1.session.authTime, e.2) := by
    rw [← h.codes]
    exact List.mem_map_of_mem hc
  obtain ⟨e, he, heq⟩ := List.mem_map.1 hmem
  obtain ⟨hid, -, hauth, hat⟩ : _ ∧ _ ∧ _ ∧ _ := by simpa using heq
  exact ⟨e, he, hid, hauth, hat⟩

theorem fresh_run (p : Provider) (db : Db) (hnew : db.txn.New) (hcodes : db.codes = [])
    (acts : List (Act TxnJob TxnEnv))
    (ha : Along (txnSystem p db).step (Meets fun _ l v => BindsOwn l v ∧ InTime l v)
      (TxnPool.initial db) acts) :
    let w := acts.foldl (txnSystem p db).step (TxnPool.initial db)
    ∀ c ∈ w.state.codes, c.sessionId ∈ w.ghost.passwords ∨
      db.txn.prompt.login = false ∧ ∀ m ∈ db.txn.maxAge, c.createdAt - c.authTime ≤ m := by
  have hrow := rowOk_run (p := p) (A := ⟨True, True, False⟩) hnew hcodes
    (ha.imp fun w a h => h.imp fun _ _ _ hc => ⟨fun _ => hc.1, fun _ => hc.2, False.elim⟩)
  intro w c hc
  obtain ⟨e, he, hid, hauth, hat⟩ := hrow.mem_issues hc
  have hfresh := (hrow.sound e he).fresh trivial trivial
  rw [hid, hauth, hat] at hfresh
  exact hfresh

/-! ## A session that is lost -/

/-- A provider with several accounts in a browser. -/
def tabProvider : Provider where
  hash s := s
  accountChooser := true
  multiAccount := true
  maxBrowserAccounts := 3
  sessionTtlSecs := 28800

/-- A request for a login of at most 100 seconds, in a browser that user 5 is signed in to. -/
def tabDb : Db where
  now := 0
  txn :=
    { scopes := ["openid"], prompt := ⟨false, false, false, false⟩, maxAge := some 100
      loginHint := none, idTokenHintSub := none, csrfHash := "", userId := none, sessionId := none
      authenticatedAt := none, expiresAt := 600, completedAt := none
      accountChoiceSessionId := none, accountSelectedAt := none, accountSelectedSessionId := none
      accountSwitchRequestedAt := none }
  sessions :=
    [{ id := 2, userId := 5, username := "bob", authTime := 0, lastSeenAt := 0
       expiresAt := 28800, revokedAt := none }]
  consents := []
  codes := []

theorem tabDb_new : tabDb.txn.New := ⟨rfl, rfl, rfl, rfl⟩

/-- The request at index `i` goes on to its end. -/
def finish (i : Nat) : List (Act TxnJob TxnEnv) := List.replicate 20 (.step i true)

/-- User 4 signs in with the password in the transaction. -/
def passwordActs : List (Act TxnJob TxnEnv) :=
  [.spawn (.loginPage "a")] ++ finish 0 ++
    [.spawn (.loginSubmit ⟨"a", "x"⟩ ⟨false, some (4, "ann"), 1⟩)] ++ finish 1

/-- The session of the password is revoked, the consent page binds the session of user 5 to the
transaction while it is young, and the consent is given when it is not. -/
def lostActs : List (Act TxnJob TxnEnv) :=
  passwordActs ++ [.env (.revoke 1), .env (.tick 50), .spawn (.consentPage "b")] ++ finish 2 ++
    [.spawn (.consentPage "c")] ++ finish 3 ++
    [.env (.tick 150), .spawn (.consentSubmit ⟨"c", "y"⟩ (.allow []))] ++ finish 4

/-- A code for session 2: its password was not entered in the transaction, and it is 200 seconds
old where 100 are allowed. -/
theorem lost_session_counts_as_fresh :
    let w := lostActs.foldl (txnSystem tabProvider tabDb).step (TxnPool.initial tabDb)
    w.state.codes.map (fun c => (c.sessionId, c.createdAt - c.authTime)) = [(2, 200)] ∧
      w.ghost.passwords = [1] ∧
      ¬ ∀ c ∈ w.state.codes, c.sessionId ∈ w.ghost.passwords ∨
        tabDb.txn.prompt.login = false ∧ ∀ m ∈ tabDb.txn.maxAge, c.createdAt - c.authTime ≤ m := by
  decide +kernel

/-- The consent is given with the session of the password. -/
def keptActs : List (Act TxnJob TxnEnv) :=
  passwordActs ++ [.env (.tick 150), .spawn (.consentPage "b")] ++ finish 2 ++
    [.spawn (.consentSubmit ⟨"b", "y"⟩ (.allow []))] ++ finish 3

theorem fresh_run_kept :
    let w := keptActs.foldl (txnSystem tabProvider tabDb).step (TxnPool.initial tabDb)
    w.state.codes.map (fun c => (c.sessionId, c.createdAt - c.authTime)) = [(1, 150)] ∧
      ∀ c ∈ w.state.codes, c.sessionId ∈ w.ghost.passwords ∨
        tabDb.txn.prompt.login = false ∧ ∀ m ∈ tabDb.txn.maxAge, c.createdAt - c.authTime ≤ m :=
  ⟨by decide +kernel,
    fresh_run tabProvider tabDb tabDb_new rfl keptActs (by decide +kernel)⟩

/-! ## The choice of the account -/

/-- What the user and the application have asked for, of one code. -/
structure Asked (t₀ : Txn) (i : Issue) (g : TxnNotes) : Prop where
  hint : ∀ sub ∈ t₀.idTokenHintSub, toString i.session.userId = sub
  selected : t₀.prompt.selectAccount = true → g.Chosen i.session.id
  several : (candidates i.txn i.accounts).length ≤ 1 ∨
    (∃ c ∈ candidates i.txn i.accounts, g.Chosen c.id) ∨
    hinted t₀ (candidates i.txn i.accounts) = [i.session]
  switched : ∀ l ∈ g.sinceSwitch, i.session.id ∈ l

theorem choice_run (p : Provider) (hchooser : p.accountChooser = true) (db : Db)
    (hnew : db.txn.New) (hcodes : db.codes = []) (acts : List (Act TxnJob TxnEnv))
    (ha : Along (txnSystem p db).step (Meets fun _ l v => BindsOwn l v ∧ StillUsable l v)
      (TxnPool.initial db) acts) :
    let w := acts.foldl (txnSystem p db).step (TxnPool.initial db)
    w.ghost.completions ≤ 1 ∧
      w.state.codes.map (fun c => (c.sessionId, c.userId)) =
        w.ghost.issues.map (fun e => (e.1.session.id, e.1.session.userId)) ∧
      ∀ e ∈ w.ghost.issues, Asked db.txn e.1 w.ghost := by
  have hrow := rowOk_run (p := p) (A := ⟨True, False, True⟩) hnew hcodes
    (ha.imp fun w a h => h.imp fun _ _ _ hc => ⟨fun _ => hc.1, False.elim, fun _ => hc.2⟩)
  refine ⟨?_, ?_, fun e he => ?_⟩
  · show (acts.foldl (txnSystem p db).step (TxnPool.initial db)).view.2.completions ≤ 1
    rw [hrow.once]
    split_ifs <;> omega
  · have hmap := congrArg (List.map fun x : Nat × Nat × Int × Int => (x.1, x.2.1)) hrow.codes
    rwa [List.map_map, List.map_map] at hmap
  · have hsound := hrow.sound e he
    exact ⟨hsound.hint, hsound.selected hchooser, hsound.several trivial, hsound.switched trivial⟩

/-! ## Two tabs -/

/-- The transaction stands at the consent of user 5. -/
def consentActs : List (Act TxnJob TxnEnv) :=
  [.spawn .start] ++ finish 0 ++ [.spawn (.consentPage "a")] ++ finish 1

/-- The first tab gives the consent, the second one asks for another account before the first one
completes the transaction. -/
def racingActs : List (Act TxnJob TxnEnv) :=
  consentActs ++
    [.spawn (.consentSubmit ⟨"a", "x"⟩ (.allow [])), .spawn (.consentSubmit ⟨"a", "y"⟩ .switch)] ++
    List.replicate 5 (.step 2 true) ++ finish 3 ++ finish 2

/-- The switch was made, no password was entered after it, and a code was issued for the account
that the user has left. -/
theorem code_after_switch :
    let w := racingActs.foldl (txnSystem tabProvider tabDb).step (TxnPool.initial tabDb)
    w.state.codes.map (·.sessionId) = [2] ∧ w.ghost.sinceSwitch = some [] ∧
      ¬ ∀ e ∈ w.ghost.issues, ∀ l ∈ w.ghost.sinceSwitch, e.1.session.id ∈ l := by
  decide +kernel

/-- The user switches to another account with its password, and gives the consent. -/
def switchActs : List (Act TxnJob TxnEnv) :=
  consentActs ++ [.spawn (.consentSubmit ⟨"a", "x"⟩ .switch)] ++ finish 2 ++
    [.spawn (.loginPage "b")] ++ finish 3 ++
    [.spawn (.loginSubmit ⟨"b", "y"⟩ ⟨false, some (4, "ann"), 1⟩)] ++ finish 4 ++
    [.spawn (.consentPage "c")] ++ finish 5 ++
    [.spawn (.consentSubmit ⟨"c", "z"⟩ (.allow []))] ++ finish 6

theorem choice_run_switch :
    let w := switchActs.foldl (txnSystem tabProvider tabDb).step (TxnPool.initial tabDb)
    w.state.codes.map (·.sessionId) = [1] ∧ w.ghost.sinceSwitch = some [1] ∧
      w.ghost.completions ≤ 1 ∧
      w.state.codes.map (fun c => (c.sessionId, c.userId)) =
        w.ghost.issues.map (fun e => (e.1.session.id, e.1.session.userId)) ∧
      ∀ e ∈ w.ghost.issues, Asked tabDb.txn e.1 w.ghost :=
  ⟨by decide +kernel, by decide +kernel,
    choice_run tabProvider rfl tabDb tabDb_new rfl switchActs (by decide +kernel)⟩

end FloatCtf.Oidc.Authorize
