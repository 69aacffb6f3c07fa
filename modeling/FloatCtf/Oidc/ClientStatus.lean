import FloatCtf.Oidc.Clients
import FloatCtf.Process.Pool
import FloatCtf.Process.Table

/-!
# The status of applications

Requests of owners and administrators move the status of an application while others are under way.
Each writes the status that its machine allows from the status it read, so a write over a status
that has changed in between can undo a suspension.

`statusOrder_run` shows that in every interleaving in which the status that a request overwrites is
the one it read, only steps of the two machines are made, a suspension stands until an administrator
lifts it, and an application that was created pending becomes active only by an administrator.
It need not have been approved: `reinstated_unapproved` suspends a pending application, and
reinstates it.
-/

namespace FloatCtf.Oidc.Clients

open Process

/-! ## The system -/

/-- The requests on clients. -/
inductive ClientJob where
  | create (draw : NewClient) (user : Nat) (clientType : ClientType)
      (method : Option TokenAuthMethod) (input : ClientInput)
  | update (user : Nat) (clientId : String) (input : ClientInput)
  | rotate (user : Nat) (clientId secret : String) (revokePrevious : Bool)
  | owner (user : Nat) (clientId : String) (action : OwnerAction)
  | admin (reviewer : Nat) (clientId : String) (action : AdminAction) (reason : Option String)

/-- The program of a request. -/
def ClientJob.prog (cfg : Config) : ClientJob → ClientM Unit
  | create draw user clientType method input => createClient cfg draw user clientType method input
  | update user clientId input => updateMyClient cfg user clientId input
  | rotate user clientId secret revoke => rotateMySecret cfg user clientId secret revoke
  | owner user clientId action => ownerRequest user clientId action
  | admin reviewer clientId action reason => adminRequest reviewer clientId action reason

/-- What was committed: an application, or a write of a status over the one that was stored. -/
inductive Commit where
  | created (id : Nat) (status : ClientStatus)
  | moved (id : Nat) (stored next : ClientStatus) (action : StatusAction)
  deriving DecidableEq

/-- The client of a commit. -/
def Commit.id : Commit → Nat
  | created id _ => id
  | moved id _ _ _ => id

/-- The commits so far, the latest one first. -/
abbrev History := List Commit

/-- An administrator has suspended the application and none has reinstated it since. -/
def suspendedIn (id : Nat) : History → Bool
  | [] => false
  | .moved id' _ _ (.admin a) :: h =>
    if id' = id ∧ a = .suspend then true
    else if id' = id ∧ a = .reinstate then false
    else suspendedIn id h
  | _ :: h => suspendedIn id h

/-- The application was created pending and no administrator has made one of the actions since. -/
def pendingSince (actions : List AdminAction) (id : Nat) : History → Bool
  | [] => false
  | .created id' status :: h => if id' = id then status = .pending else pendingSince actions id h
  | .moved id' _ _ (.admin a) :: h =>
    if id' = id ∧ a ∈ actions then false else pendingSince actions id h
  | _ :: h => pendingSince actions id h

/-- What the history learns of a statement. -/
def note (l : Stmt) (db : Db) (h : History) : History :=
  match l with
  | .insertClient id clientId status =>
    if db.clashes id clientId then h else .created id status :: h
  | .setStatus id _ next action =>
    match db.clients.find? (·.id = id) with
    | some c => .moved id c.status next action :: h
    | none => h
  | _ => h

/-- The requests on clients, with the history as ghost state. -/
def clientSystem (cfg : Config) : System Stmt Db AppError History ClientJob Nat where
  prog := ClientJob.prog cfg
  env d db := { db with now := db.now + d }
  watch _ l db h := note l db h

/-- The requests under way. -/
abbrev ClientPool := Pool Stmt Db AppError History ClientJob

/-- No request has been made. -/
def ClientPool.initial (db : Db) : ClientPool := { state := db, ghost := [], threads := [] }

/-- The status that the request overwrites is the one it read. -/
def Current (_ : ClientJob) (l : Stmt) (v : Db × History) : Prop :=
  match l with
  | .setStatus id read _ _ => ∀ c ∈ v.1.clients, c.id = id → c.status = read
  | _ => True

instance (j : ClientJob) (l : Stmt) (v : Db × History) : Decidable (Current j l v) := by
  unfold Current
  split <;> infer_instance

/-! ## What statements do -/

/-- The row with the identifier is edited. -/
def edited (id : Nat) (f : Client → Client) (clients : List Client) : List Client :=
  clients.map fun c => if c.id = id then f c else c

/-- What a statement does to the rows. -/
def ClientStep (l : Stmt) (db db' : Db) : Prop :=
  match l with
  | .select => db'.clients = db.clients
  | .insertClient id clientId status =>
    if db.clashes id clientId then db'.clients = db.clients
    else ∃ c, c.id = id ∧ c.status = status ∧ db'.clients = db.clients ++ [c]
  | .updateClient id | .rotateSecret id => ∃ f : Client → Client,
      (∀ c, (f c).id = c.id ∧ (f c).status = c.status) ∧ db'.clients = edited id f db.clients
  | .setStatus id read next action => action.transition read = .ok next ∧ ∃ f : Client → Client,
      (∀ c, (f c).id = c.id ∧ (f c).status = next) ∧ db'.clients = edited id f db.clients

theorem edited_eq_self {clients : List Client} {id : Nat} (h : clients.any (·.id = id) = false)
    (f : Client → Client) : edited id f clients = clients := by
  have hne : ∀ c ∈ clients, c.id ≠ id := by simpa using h
  unfold edited
  conv_rhs => rw [← List.map_id clients]
  exact List.map_congr_left fun c hc => if_neg (hne c hc)

theorem does_updateRow {l : Stmt} {id : Nat} {f : Int → Client → Client}
    (h : ∀ db db' : Db, db'.clients = edited id (f db.now) db.clients → ClientStep l db db') :
    (updateRow l id f).Does ClientStep := by
  refine Prog.does_exec_after fun db => h db _ ?_
  unfold Prog.after
  cases hany : db.clients.any (·.id = id) with
  | true =>
    simp only [hany, ↓reduceIte]
    rfl
  | false =>
    simp only [hany, Bool.false_eq_true, ↓reduceIte]
    exact (edited_eq_self hany _).symm

theorem does_ensure {α : Type} (f : String → AppError) (x : Except String α) :
    (ensure f x).Does ClientStep := by
  cases x <;> trivial

theorem does_orNotFound (c : Option Client) : (orNotFound c).Does ClientStep := by
  cases c <;> trivial

theorem does_find (f : Db → Option Client) :
    (Prog.query .select .database f : ClientM (Option Client)).Does ClientStep :=
  Prog.does_query (fun _ => rfl) _ f

theorem does_create (cfg : Config) (draw : NewClient) (owner : Nat) (clientType : ClientType)
    (method : Option TokenAuthMethod) (input : ClientInput) :
    (create cfg draw owner clientType method input).Does ClientStep := by
  refine Prog.does_bind (does_ensure _ _) fun n => Prog.does_bind (does_ensure _ _) fun m => ?_
  refine Prog.does_exec_after fun db => ?_
  unfold Prog.after ClientStep
  cases hclash : db.clashes draw.id draw.clientId with
  | true => simp only [↓reduceIte, hclash]
  | false =>
    simp only [↓reduceIte, Bool.false_eq_true, hclash]
    exact ⟨_, rfl, rfl, rfl⟩

theorem does_update (cfg : Config) (client : Client) (input : ClientInput) :
    (update cfg client input).Does ClientStep := by
  refine Prog.does_bind (does_ensure _ _) fun n => does_updateRow fun db db' h => ?_
  exact ⟨applyInput n db.now, fun c => ⟨rfl, rfl⟩, h⟩

theorem does_rotateSecret (cfg : Config) (client : Client) (secret : String) (graceSecs : Int) :
    (rotateSecret cfg client secret graceSecs).Does ClientStep := by
  refine Prog.does_ite trivial (does_updateRow fun db db' h => ?_)
  exact ⟨applyRotation _ _ _ db.now, fun c => ⟨rfl, rfl⟩, h⟩

theorem does_setStatus {client : Client} {status : ClientStatus} {action : StatusAction}
    (h : action.transition client.status = .ok status) (reviewer : Option Nat)
    (reason : Option String) :
    (setStatus client status reviewer reason action).Does ClientStep := by
  refine does_updateRow fun db db' hdb => ⟨h, applyStatus status reviewer reason db.now, ?_, hdb⟩
  intro c
  cases reviewer <;> exact ⟨rfl, rfl⟩

/-- A request that moves the status, after it has found its row. -/
theorem does_transition (client : Client) (action : StatusAction) (reviewer : Option Nat)
    (reason : Option String) :
    (ensure .invalidState (action.transition client.status) >>= fun next =>
      setStatus client next reviewer reason action).Does ClientStep := by
  cases h : action.transition client.status with
  | error e => trivial
  | ok next => exact does_setStatus h reviewer reason

theorem does_job (cfg : Config) (j : ClientJob) : (j.prog cfg).Does ClientStep := by
  cases j with
  | create draw user clientType method input =>
    exact does_create cfg draw user clientType method input
  | update user clientId input =>
    exact Prog.does_bind (does_find _) fun c => Prog.does_bind (does_orNotFound c) fun m =>
      does_update cfg m input
  | rotate user clientId secret revoke =>
    exact Prog.does_bind (does_find _) fun c => Prog.does_bind (does_orNotFound c) fun m =>
      does_rotateSecret cfg m secret _
  | owner user clientId action =>
    exact Prog.does_bind (does_find _) fun c => Prog.does_bind (does_orNotFound c) fun m =>
      does_transition m (.owner action) none none
  | admin reviewer clientId action reason =>
    exact Prog.does_bind (does_find _) fun c => Prog.does_bind (does_orNotFound c) fun m =>
      does_transition m (.admin action) (some reviewer) reason

/-! ## The invariant -/

/-- A write of a status is a step of the machine of its request. -/
def Commit.Allowed : Commit → Prop
  | created _ _ => True
  | moved _ stored next action => action.transition stored = .ok next

/-- What a pending application can be before an administrator approves or reinstates it. -/
def ClientStatus.Unreviewed (status : ClientStatus) : Prop :=
  status = .pending ∨ status = .rejected ∨ status = .suspended

/-- The history is that of the clients that are there, and every move was allowed. -/
structure StatusInv (v : Db × History) : Prop where
  ids : (v.1.clients.map (·.id)).Nodup
  known : ∀ e ∈ v.2, e.id ∈ v.1.clients.map (·.id)
  allowed : ∀ e ∈ v.2, e.Allowed
  suspended : ∀ c ∈ v.1.clients, suspendedIn c.id v.2 = true → c.status = .suspended
  pending : ∀ c ∈ v.1.clients, pendingSince [.approve, .reinstate] c.id v.2 = true →
    c.status.Unreviewed

section Machines

variable {action : StatusAction} {read next : ClientStatus} {id id' : Nat} {h : History}

/-- Nobody but an administrator who reinstates takes an application out of its suspension. -/
theorem suspended_moved (ht : action.transition read = .ok next)
    (hread : suspendedIn id h = true → read = .suspended)
    (hs : suspendedIn id (.moved id read next action :: h) = true) : next = .suspended := by
  cases action with
  | owner a =>
    obtain rfl := hread hs
    cases a <;> cases ht
  | admin a =>
    cases a with
    | suspend => cases read <;> cases ht <;> rfl
    | reinstate => simp [suspendedIn] at hs
    | approve =>
      obtain rfl := hread (by simpa [suspendedIn] using hs)
      cases ht
    | reject =>
      obtain rfl := hread (by simpa [suspendedIn] using hs)
      cases ht

/-- Nobody but an administrator who approves or reinstates makes an application active. -/
theorem unreviewed_moved (ht : action.transition read = .ok next)
    (hread : pendingSince [.approve, .reinstate] id h = true → read.Unreviewed)
    (hs : pendingSince [.approve, .reinstate] id (.moved id read next action :: h) = true) :
    next.Unreviewed := by
  cases action with
  | owner a => rcases hread hs with rfl | rfl | rfl <;> cases a <;> cases ht
  | admin a =>
    cases a with
    | approve => simp [pendingSince] at hs
    | reinstate => simp [pendingSince] at hs
    | suspend => cases read <;> cases ht <;> exact .inr (.inr rfl)
    | reject =>
      cases read <;> cases ht
      exact .inr (.inl rfl)

theorem suspendedIn_moved_of_ne (hne : id ≠ id') :
    suspendedIn id' (.moved id read next action :: h) = suspendedIn id' h := by
  cases action <;> simp [suspendedIn, hne]

theorem pendingSince_moved_of_ne (actions : List AdminAction) (hne : id ≠ id') :
    pendingSince actions id' (.moved id read next action :: h) = pendingSince actions id' h := by
  cases action <;> simp [pendingSince, hne]

/-- Nothing was committed about an application that is not known. -/
theorem suspendedIn_of_unknown (hid : ∀ e ∈ h, e.id ≠ id) : suspendedIn id h = false := by
  induction h with
  | nil => rfl
  | cons e h ih =>
    have hrest := ih fun e' he' => hid e' (List.mem_cons_of_mem e he')
    have hne := hid e List.mem_cons_self
    cases e with
    | created id' status => exact hrest
    | moved id' stored next action => exact (suspendedIn_moved_of_ne hne).trans hrest

end Machines

theorem ids_edited {id : Nat} {f : Client → Client} (hf : ∀ c, (f c).id = c.id)
    (clients : List Client) : (edited id f clients).map (·.id) = clients.map (·.id) := by
  unfold edited
  rw [List.map_map]
  refine List.map_congr_left fun c _ => ?_
  simp only [Function.comp_apply]
  split_ifs
  · exact hf c
  · rfl

theorem StatusInv.edit {db db' : Db} {h : History} (hi : StatusInv (db, h)) {id : Nat}
    {f : Client → Client} (hf : ∀ c, (f c).id = c.id ∧ (f c).status = c.status)
    (hdb : db'.clients = edited id f db.clients) : StatusInv (db', h) := by
  have hids : db'.clients.map (·.id) = db.clients.map (·.id) := by
    rw [hdb, ids_edited fun c => (hf c).1]
  have hrow : ∀ c' ∈ db'.clients, ∃ c ∈ db.clients, c'.id = c.id ∧ c'.status = c.status := by
    intro c' hc'
    rw [hdb] at hc'
    obtain ⟨c, hc, rfl⟩ := List.mem_map.1 hc'
    split_ifs
    · exact ⟨c, hc, hf c⟩
    · exact ⟨c, hc, rfl, rfl⟩
  refine ⟨hids ▸ hi.ids, fun e he => hids ▸ hi.known e he, hi.allowed, fun c' hc' hs => ?_,
    fun c' hc' hs => ?_⟩
  · obtain ⟨c, hc, hid, hst⟩ := hrow c' hc'
    exact hst.trans (hi.suspended c hc (hid ▸ hs))
  · obtain ⟨c, hc, hid, hst⟩ := hrow c' hc'
    exact hst ▸ hi.pending c hc (hid ▸ hs)

theorem StatusInv.insert {db db' : Db} {h : History} (hi : StatusInv (db, h)) {c : Client}
    (hnew : ∀ x ∈ db.clients, x.id ≠ c.id) (hdb : db'.clients = db.clients ++ [c]) :
    StatusInv (db', .created c.id c.status :: h) := by
  have hunknown : ∀ e ∈ h, e.id ≠ c.id := by
    intro e he heq
    obtain ⟨x, hx, hxid⟩ := List.mem_map.1 (hi.known e he)
    exact hnew x hx (hxid.trans heq)
  have hids : db'.clients.map (·.id) = db.clients.map (·.id) ++ [c.id] := by simp [hdb]
  refine ⟨?_, fun e he => ?_, fun e he => ?_, fun x hx hs => ?_, fun x hx hs => ?_⟩
  · rw [hids]
    refine List.Nodup.append hi.ids (List.nodup_singleton _) ?_
    intro i hi' hc
    obtain ⟨x, hx, rfl⟩ := List.mem_map.1 hi'
    exact hnew x hx (List.mem_singleton.1 hc)
  · rw [hids]
    rcases List.mem_cons.1 he with rfl | he
    · exact List.mem_append_right _ List.mem_cons_self
    · exact List.mem_append_left _ (hi.known e he)
  · rcases List.mem_cons.1 he with rfl | he
    · trivial
    · exact hi.allowed e he
  · rw [hdb] at hx
    rcases List.mem_append.1 hx with hx | hx
    · exact hi.suspended x hx hs
    · rw [List.mem_singleton.1 hx] at hs
      rw [show suspendedIn c.id (.created c.id c.status :: h) = suspendedIn c.id h from rfl,
        suspendedIn_of_unknown hunknown] at hs
      cases hs
  · rw [hdb] at hx
    rcases List.mem_append.1 hx with hx | hx
    · refine hi.pending x hx ?_
      rwa [pendingSince, if_neg (hnew x hx).symm] at hs
    · rw [List.mem_singleton.1 hx] at hs ⊢
      rw [pendingSince, if_pos rfl] at hs
      exact .inl (by simpa using hs)

theorem StatusInv.move {db db' : Db} {h : History} (hi : StatusInv (db, h)) {id : Nat}
    {read next : ClientStatus} {action : StatusAction} (ht : action.transition read = .ok next)
    (hread : ∀ c ∈ db.clients, c.id = id → c.status = read) {f : Client → Client}
    (hf : ∀ c, (f c).id = c.id ∧ (f c).status = next) (hdb : db'.clients = edited id f db.clients)
    (hid : id ∈ db.clients.map (·.id)) : StatusInv (db', .moved id read next action :: h) := by
  have hids : db'.clients.map (·.id) = db.clients.map (·.id) := by
    rw [hdb, ids_edited fun c => (hf c).1]
  have hrow : ∀ c' ∈ db'.clients, ∃ c ∈ db.clients, c'.id = c.id ∧
      ((c.id = id ∧ c'.status = next) ∨ (c.id ≠ id ∧ c'.status = c.status)) := by
    intro c' hc'
    rw [hdb] at hc'
    obtain ⟨c, hc, rfl⟩ := List.mem_map.1 hc'
    split_ifs with heq
    · exact ⟨c, hc, (hf c).1, .inl ⟨heq, (hf c).2⟩⟩
    · exact ⟨c, hc, rfl, .inr ⟨heq, rfl⟩⟩
  refine ⟨hids ▸ hi.ids, fun e he => ?_, fun e he => ?_, fun c' hc' hs => ?_, fun c' hc' hs => ?_⟩
  · rw [hids]
    rcases List.mem_cons.1 he with rfl | he
    · exact hid
    · exact hi.known e he
  · rcases List.mem_cons.1 he with rfl | he
    · exact ht
    · exact hi.allowed e he
  · obtain ⟨c, hc, hcid, ⟨rfl, hst⟩ | ⟨hne, hst⟩⟩ := hrow c' hc'
    · rw [hst]
      refine suspended_moved ht (fun hs' => ?_) (hcid ▸ hs)
      exact (hread c hc rfl).symm.trans (hi.suspended c hc hs')
    · rw [hst]
      refine hi.suspended c hc ?_
      rwa [suspendedIn_moved_of_ne (hcid ▸ hne.symm), hcid] at hs
  · obtain ⟨c, hc, hcid, ⟨rfl, hst⟩ | ⟨hne, hst⟩⟩ := hrow c' hc'
    · rw [hst]
      refine unreviewed_moved ht (fun hs' => ?_) (hcid ▸ hs)
      exact hread c hc rfl ▸ hi.pending c hc hs'
    · rw [hst]
      refine hi.pending c hc ?_
      rwa [pendingSince_moved_of_ne _ (hcid ▸ hne.symm), hcid] at hs

/-- The rows are as they were. -/
theorem StatusInv.same {db db' : Db} {h : History} (hi : StatusInv (db, h))
    (hdb : db'.clients = db.clients) : StatusInv (db', h) where
  ids := by
    rw [hdb]
    exact hi.ids
  known e he := by
    rw [hdb]
    exact hi.known e he
  allowed := hi.allowed
  suspended c hc := hi.suspended c (hdb ▸ hc)
  pending c hc := hi.pending c (hdb ▸ hc)

/-- One statement under the condition. -/
theorem statusInv_step {l : Stmt} {db db' : Db} {h : History} {j : ClientJob}
    (hi : StatusInv (db, h)) (hc : Current j l (db, h)) (hs : ClientStep l db db') :
    StatusInv (db', note l db h) := by
  unfold Current at hc
  cases l with
  | select => exact hi.same hs
  | insertClient id clientId status =>
    simp only [ClientStep, note] at hs ⊢
    split_ifs at hs ⊢ with hclash
    · exact hi.same hs
    · obtain ⟨c, rfl, rfl, hdb⟩ := hs
      refine hi.insert (fun x hx heq => hclash ?_) hdb
      exact List.any_eq_true.2 ⟨x, hx, decide_eq_true (.inl heq)⟩
  | updateClient id =>
    obtain ⟨f, hf, hdb⟩ := hs
    exact hi.edit hf hdb
  | rotateSecret id =>
    obtain ⟨f, hf, hdb⟩ := hs
    exact hi.edit hf hdb
  | setStatus id read next action =>
    obtain ⟨ht, f, hf, hdb⟩ := hs
    simp only [note]
    cases hfind : db.clients.find? (·.id = id) with
    | some c =>
      have hmem := List.mem_of_find?_eq_some hfind
      have hid : c.id = id := by simpa using List.find?_some hfind
      dsimp only
      rw [hc c hmem hid]
      exact hi.move ht hc hf hdb (hid ▸ List.mem_map_of_mem hmem)
    | none =>
      have hnone : db.clients.any (·.id = id) = false := by
        simpa using List.find?_eq_none.1 hfind
      rw [edited_eq_self hnone] at hdb
      exact hi.same hdb

/-! ## Runs -/

/-- The law of the statuses. -/
def clientLaw (cfg : Config) : Law (clientSystem cfg) where
  rely _ _ := True
  guar _ _ _ := True
  inv := StatusInv
  cond := Current
  refl _ := trivial
  trans _ _ := trivial
  guar_refl _ _ := trivial
  rely_of_guar _ := trivial

theorem clientLaw_keeps (cfg : Config) : (clientLaw cfg).Keeps where
  prog j _ _ := Process.Law.safe_of_does (does_job cfg j) fun _ _ _ _ hi hc hs =>
    ⟨trivial, statusInv_step (j := j) hi hc hs⟩
  env _ v hi := by
    have hi : StatusInv (v.1, v.2) := hi
    exact ⟨trivial, hi.same rfl⟩

/-- Only steps of the machines are made, a suspension stands until it is lifted, and a pending
application becomes active by an administrator. -/
structure StatusOrder (w : ClientPool) : Prop where
  allowed : ∀ id stored next action, .moved id stored next action ∈ w.ghost →
    action.transition stored = .ok next
  suspended : ∀ c ∈ w.state.clients, suspendedIn c.id w.ghost = true → c.status = .suspended
  pending : ∀ c ∈ w.state.clients, pendingSince [.approve, .reinstate] c.id w.ghost = true →
    c.status ≠ .active

/-- In every run from applications with distinct keys in which the status that is overwritten is the
one that was read. -/
theorem statusOrder_run (cfg : Config) (db : Db) (hdb : (db.clients.map (·.id)).Nodup)
    (acts : List (Act ClientJob Nat))
    (hacts : Along (clientSystem cfg).step (Meets Current) (ClientPool.initial db) acts) :
    StatusOrder (acts.foldl (clientSystem cfg).step (ClientPool.initial db)) := by
  have hstart : StatusInv (ClientPool.initial db).view :=
    ⟨hdb, fun e he => absurd he List.not_mem_nil, fun e he => absurd he List.not_mem_nil,
      fun _ _ hs => (by cases hs), fun _ _ hs => (by cases hs)⟩
  have hok : (clientLaw cfg).PoolOk (ClientPool.initial db) :=
    ⟨hstart, fun t ht => absurd ht List.not_mem_nil⟩
  have hinv := (Process.Law.poolOk_run (clientLaw_keeps cfg) hok hacts).1.inv
  refine ⟨fun id stored next action h => hinv.allowed _ h, hinv.suspended, fun c hc hs heq => ?_⟩
  have := hinv.pending c hc hs
  rw [heq] at this
  rcases this with h | h | h <;> cases h

/-! ## A pending application -/

/-- Approval is required. -/
def reviewConfig : Config where
  requireClientApproval := true
  allowLoopbackRedirectUris := false
  secretRotationGraceSecs := 86400
  parse uri :=
    if uri = "https://app.example/cb" then
      .ok {
        scheme := "https", username := "", password := none, host := some "app.example"
        front := Text.encode "https://app.example/cb", query := none, fragment := none }
    else .error "relative URL without a base"
  hashSecret s := s

/-- An application with one redirect. -/
def reviewInput : ClientInput where
  name := "App"
  description := none
  homepageUrl := none
  logoUrl := none
  redirectUris := ["https://app.example/cb"]
  scopes := ["openid"]
  postLogoutRedirectUris := none
  backchannelLogoutUri := none

/-- No client is registered. -/
def reviewDb : Db := { now := 0, clients := [] }

/-- A client is registered while its owner and an administrator change its status. -/
def reviewSpawns : List (Act ClientJob Nat) :=
  [.spawn (.create ⟨1, "fctf_app", "fcs_s"⟩ 7 .confidential none reviewInput),
    .spawn (.admin 9 "fctf_app" .suspend none), .spawn (.admin 9 "fctf_app" .reinstate none),
    .spawn (.owner 7 "fctf_app" .disable), .spawn (.owner 7 "fctf_app" .enable)]

/-- One request after the other: the application is created, suspended and reinstated. -/
def reinstateActs : List (Act ClientJob Nat) :=
  reviewSpawns ++ [.step 0 true] ++ List.replicate 2 (.step 1 true) ++
    List.replicate 2 (.step 2 true)

/-- The application was created pending, was not approved, and is active. -/
theorem reinstated_unapproved :
    let w := reinstateActs.foldl (clientSystem reviewConfig).step (ClientPool.initial reviewDb)
    pendingSince [.approve] 1 w.ghost = true ∧
      w.state.clients.map (fun c => (c.id, c.status)) = [(1, .active)] := by
  decide +kernel

/-- Two more requests of the owner. -/
def ownerActs : List (Act ClientJob Nat) :=
  reinstateActs ++ List.replicate 2 (.step 3 true) ++ List.replicate 2 (.step 4 true)

theorem statusOrder_run_owner :
    let w := ownerActs.foldl (clientSystem reviewConfig).step (ClientPool.initial reviewDb)
    w.ghost.length = 5 ∧ StatusOrder w :=
  ⟨by decide +kernel, statusOrder_run reviewConfig reviewDb List.nodup_nil ownerActs
    (by decide +kernel)⟩

end FloatCtf.Oidc.Clients
