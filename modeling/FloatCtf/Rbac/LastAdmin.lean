import FloatCtf.Process.Locked
import FloatCtf.Rbac.RoleRequests

/-!
# The last account with full power

Requests that may take away full power lock the row of the built-in role, and count the accounts
that hold full power before they commit.  The count does not look at the status of the accounts, and
the deletion of accounts neither takes the lock nor counts.

`active_admin_run` shows that some active account has full power after every commit, in every
interleaving in which no deletion takes the last of them and the count is never satisfied by
accounts that are all disabled.  `last_admin_lost` is what happens otherwise.
-/

namespace FloatCtf.Rbac

open Process

/-! ## The system -/

/-- The requests that take the lock; the actor is whoever has passed the guard. -/
inductive LockedRequest where
  | patch (actor : AuthContext) (roleId : Nat) (body : PatchRoleRequest)
  | delete (actor : AuthContext) (roleId : Nat)
  | setRoles (actor : AuthContext) (userId : Nat) (roleIds : List Nat)

/-- The program of a request that takes the lock. -/
def LockedRequest.prog : LockedRequest → RoleM Unit
  | patch actor roleId body => patchRole actor roleId body
  | delete actor roleId => deleteRole actor roleId
  | setRoles actor userId roleIds => setUserRoles actor userId roleIds

/-- The requests that do not take it. -/
inductive FreeRequest where
  | create (actor : AuthContext) (draw : Nat) (body : CreateRoleRequest)
  | deleteUsers (ids : List Nat)

/-- The transaction that creates a role, undisturbed: it writes rows that nobody else sees before it
commits. -/
def createCommitted (actor : AuthContext) (draw : Nat) (body : CreateRoleRequest) (db : Db) : Db :=
  (createRole actor draw body).committed (fun _ => true) db

/-- The checks of `create_role` accept the body. -/
def createAccepted (actor : AuthContext) (draw : Nat) (body : CreateRoleRequest) (db : Db) : Bool :=
  ((createRole actor draw body).run (fun _ => true) db).2.isOk

/-- What a request beside the lock writes: a role that is accepted, or the deletion of accounts. -/
def FreeRequest.write : FreeRequest → Db → Option (Db → Db)
  | create actor draw body, db =>
    if createAccepted actor draw body db then some (createCommitted actor draw body) else none
  | deleteUsers ids, _ => some (·.adminDeleteUser ids)

/-- The requests on roles around the row lock of the super admin role. -/
def roleLock : LockSystem Stmt Db AppError LockedRequest FreeRequest where
  prog := LockedRequest.prog
  direct := FreeRequest.write

/-- The database and the transaction that holds the lock. -/
abbrev RoleWorld := Locked Stmt Db AppError

/-! ## Accounts with full power -/

/-- An active account has full power. -/
def Db.HasActiveAdmin (db : Db) : Prop :=
  ∃ u ∈ db.users, u.status = .active ∧ db.userHasGrantsAll u.id = true

instance (db : Db) : Decidable db.HasActiveAdmin :=
  inferInstanceAs (Decidable (∃ u ∈ db.users, u.status = .active ∧ db.userHasGrantsAll u.id = true))

/-- One of them is not in the list. -/
def Db.Spares (db : Db) (ids : List Nat) : Prop :=
  ∃ u ∈ db.users, u.id ∉ ids ∧ u.status = .active ∧ db.userHasGrantsAll u.id = true

instance (db : Db) (ids : List Nat) : Decidable (db.Spares ids) :=
  inferInstanceAs (Decidable
    (∃ u ∈ db.users, u.id ∉ ids ∧ u.status = .active ∧ db.userHasGrantsAll u.id = true))

/-- Where an account has full power, an active one has. -/
def Db.CountsActive (db : Db) : Prop := db.allPowerfulAccounts ≠ [] → db.HasActiveAdmin

instance (db : Db) : Decidable db.CountsActive :=
  inferInstanceAs (Decidable (db.allPowerfulAccounts ≠ [] → db.HasActiveAdmin))

/-- A deletion spares an active account with full power, among the committed rows and among those of
a request that has counted and is about to commit; and a request that counts finds an active account
if it finds any. -/
def Careful (w : RoleWorld) : LockAct LockedRequest FreeRequest → Prop
  | .step true => ∀ d ∈ w.draft, d.next = some .count → d.view.CountsActive
  | .direct (.deleteUsers ids) => w.state.Spares ids ∧
      ∀ d ∈ w.draft, d.done = true → d.view.Spares ids
  | _ => True

instance (w : RoleWorld) (a : LockAct LockedRequest FreeRequest) : Decidable (Careful w a) := by
  unfold Careful
  split <;> infer_instance

/-- A request that has not been accepted leaves the rows. -/
def RefusedUnchanged (w : RoleWorld) (a : LockAct LockedRequest FreeRequest) : Prop :=
  (∀ d ∈ w.draft, d.done = false) → (∀ e, a ≠ .direct e) → (roleLock.step w a).state = w.state

/-! ## What the requests keep -/

section Keeps

variable {db db' : Db}

theorem hasActiveAdmin_of_roles (h : db.HasActiveAdmin) (husers : db'.users = db.users)
    (hgrants : db'.userPlatformRoles = db.userPlatformRoles)
    (hfull : ∀ id, db.Full id → db'.Full id) : db'.HasActiveAdmin := by
  obtain ⟨u, hu, hactive, hpow⟩ := h
  obtain ⟨id, hid, hf⟩ := userHasGrantsAll_iff.1 hpow
  refine ⟨u, husers ▸ hu, hactive, userHasGrantsAll_iff.2 ⟨id, ?_, hfull id hf⟩⟩
  rw [mem_roleIdsOfUser] at hid ⊢
  rw [hgrants]
  exact hid

theorem hasActiveAdmin_createCommitted {actor : AuthContext} {draw : Nat} {body : CreateRoleRequest}
    (h : db.HasActiveAdmin) : (createCommitted actor draw body db).HasActiveAdmin := by
  unfold createCommitted
  rcases Prog.committed_cases (fun _ => true) (createRole actor draw body) db with hsame | ⟨_, hrun⟩
  · rw [hsame]
    exact h
  · have hchange := createRole_ok hrun
    generalize (createRole actor draw body).committed (fun _ => true) db = db' at hchange
    cases hchange with
    | create ordinary fresh covers =>
      refine hasActiveAdmin_of_roles h rfl rfl ?_
      rintro id ⟨r, hr, hid, hg⟩
      exact ⟨r, List.mem_append_left _ hr, hid, hg⟩

theorem write_create {actor : AuthContext} {draw : Nat} {body : CreateRoleRequest} {f : Db → Db}
    (h : FreeRequest.write (.create actor draw body) db = some f) :
    f = createCommitted actor draw body := by
  simp only [FreeRequest.write, Option.ite_none_right_eq_some, Option.some.injEq] at h
  exact h.2.symm

/-- Whoever is not in the list keeps its roles. -/
theorem Db.Spares.adminDeleteUser {ids : List Nat} (h : db.Spares ids) :
    (db.adminDeleteUser ids).HasActiveAdmin := by
  obtain ⟨u, hu, hnot, hactive, hpow⟩ := h
  obtain ⟨id, hid, hf⟩ := userHasGrantsAll_iff.1 hpow
  obtain ⟨g, hg, hgu, hgr⟩ := mem_roleIdsOfUser.1 hid
  have hkept : g ∈ db.userPlatformRoles.filter (·.userId ∉ ids) := by
    refine List.mem_filter.2 ⟨hg, ?_⟩
    rw [hgu]
    simpa using hnot
  refine ⟨u, List.mem_filter.2 ⟨hu, by simpa using hnot⟩, hactive,
    userHasGrantsAll_iff.2 ⟨id, mem_roleIdsOfUser.2 ⟨_, List.mem_map_of_mem hkept, hgu, hgr⟩, hf⟩⟩

/-- The check lets a request end only with an active account that has full power. -/
theorem settles_assertNotLastSuperAdmin (db : Db) :
    Settles (fun l v => l = Stmt.count → v.CountsActive) Db.HasActiveAdmin
      assertNotLastSuperAdmin db := by
  refine settles_query (fun v hc => ?_) db
  split_ifs with hn
  · trivial
  · refine hc rfl fun hnil => hn ?_
    rw [hnil]
    exact Nat.zero_lt_one

theorem settles_patchRole (actor : AuthContext) (roleId : Nat) (body : PatchRoleRequest) (db : Db) :
    Settles (fun l v => l = Stmt.count → v.CountsActive) Db.HasActiveAdmin
      (patchRole actor roleId body) db := by
  refine settles_bind (fun _ db => settles_bind (fun _ db => settles_bind (fun role db => ?_) db) db) db
  refine settles_bind (fun _ db => settles_bind (fun _ db => ?_) db) db
  split_ifs
  · trivial
  · refine settles_bind (fun _ db => settles_bind (fun _ db => settles_bind (fun _ db => ?_) db) db) db
    refine settles_bind (fun _ db => settles_bind (fun _ db => settles_bind (fun _ db => ?_) db) db) db
    exact settles_assertNotLastSuperAdmin db

theorem settles_deleteRole (actor : AuthContext) (roleId : Nat) (db : Db) :
    Settles (fun l v => l = Stmt.count → v.CountsActive) Db.HasActiveAdmin
      (deleteRole actor roleId) db := by
  refine settles_bind (fun _ db => settles_bind (fun _ db => settles_bind (fun role db => ?_) db) db) db
  split_ifs
  · trivial
  · refine settles_bind (fun _ db => settles_bind (fun _ db => settles_bind (fun _ db => ?_) db) db) db
    refine settles_bind (fun _ db => settles_bind (fun _ db => ?_) db) db
    exact settles_assertNotLastSuperAdmin db

theorem settles_setUserRoles (actor : AuthContext) (userId : Nat) (roleIds : List Nat) (db : Db) :
    Settles (fun l v => l = Stmt.count → v.CountsActive) Db.HasActiveAdmin
      (setUserRoles actor userId roleIds) db := by
  refine settles_bind (fun _ db => settles_bind (fun _ db => settles_bind (fun _ db => ?_) db) db) db
  refine settles_bind (fun _ db => settles_bind (fun _ db => settles_bind (fun _ db => ?_) db) db) db
  refine settles_bind (fun _ db => settles_bind (fun _ db => settles_bind (fun _ db => ?_) db) db) db
  refine settles_bind (fun _ db => settles_bind (fun _ db => settles_bind (fun _ db => ?_) db) db) db
  exact settles_assertNotLastSuperAdmin db

theorem settles_prog (r : LockedRequest) (db : Db) :
    Settles (fun l v => l = Stmt.count → v.CountsActive) Db.HasActiveAdmin r.prog db := by
  cases r with
  | patch actor roleId body => exact settles_patchRole actor roleId body db
  | delete actor roleId => exact settles_deleteRole actor roleId db
  | setRoles actor userId roleIds => exact settles_setUserRoles actor userId roleIds db

end Keeps

/-! ## Runs -/

theorem heeds_of_careful {w : RoleWorld}
    (hw : w.Ok (fun l v => l = Stmt.count → v.CountsActive) Db.HasActiveAdmin)
    {a : LockAct LockedRequest FreeRequest} (ha : Careful w a) :
    roleLock.Heeds (fun l v => l = Stmt.count → v.CountsActive) Db.HasActiveAdmin w a := by
  match a with
  | .begin _ | .commit | .rollback | .step false => trivial
  | .step true =>
    intro d hd l hl hcount
    exact ha d hd (hcount ▸ hl)
  | .direct (.deleteUsers ids) =>
    intro f hf
    cases hf
    exact ⟨ha.1.adminDeleteUser, fun d hd hdone => (ha.2 d hd hdone).adminDeleteUser⟩
  | .direct (.create actor draw body) =>
    intro f hf
    rw [Option.mem_def] at hf
    simp only [roleLock] at hf
    obtain rfl := write_create hf
    refine ⟨hasActiveAdmin_createCommitted hw.state, fun d hd hdone => ?_⟩
    refine hasActiveAdmin_createCommitted ?_
    have hsettles := hw.draft d hd
    obtain ⟨p, v⟩ := d
    cases p with
    | ret a => exact hsettles
    | fail e => cases hdone
    | stmt l u ok err => cases hdone

/-- An active account has full power after everything that was committed, and what was refused
leaves the rows as they were. -/
theorem active_admin_run {db : Db} (h : db.HasActiveAdmin)
    {acts : List (LockAct LockedRequest FreeRequest)}
    (ha : Along roleLock.step Careful (.initial db) acts) :
    (acts.foldl roleLock.step (.initial db)).state.HasActiveAdmin ∧
      Along roleLock.step RefusedUnchanged (.initial db) acts := by
  constructor
  · have hok := inv_of_along (Locked.Ok (fun l v => l = Stmt.count → v.CountsActive)
      Db.HasActiveAdmin) (fun w a hw hc => hw.step settles_prog (heeds_of_careful hw hc))
      (Locked.Ok.initial h) ha
    exact hok.state
  · exact along_of_forall (fun w a hd ha => roleLock.state_step_of_not_done hd ha) _ acts

/-! ## Runs on four accounts -/

/-- The accounts 1 and 2 have full power and 2 is disabled; 3 and 4 have no role. -/
def adminsDb : Db where
  users := [⟨1, .active⟩, ⟨2, .disabled⟩, ⟨3, .active⟩, ⟨4, .active⟩]
  platformRoles :=
    [{ id := 0, key := "super-admin", name := "Super Admin", description := "", isProtected := true
       grantsAll := true }]
  rolePermissions := []
  userPlatformRoles := [⟨1, 0, none⟩, ⟨2, 0, none⟩]

/-- The context of the account 1. -/
def adminContext : AuthContext := { userId := 1, permissions := .all, grantsAll := true }

/-- A request from its lock to its commit. -/
def wholeRequest (r : LockedRequest) : List (LockAct LockedRequest FreeRequest) :=
  .begin r :: List.replicate 12 (.step true) ++ [.commit]

/-- A deletion of two accounts beside the lock. -/
def deletionActs : List (LockAct LockedRequest FreeRequest) := [.direct (.deleteUsers [1, 2])]

/-- One request that takes the role from the last super admin. -/
def demotionActs : List (LockAct LockedRequest FreeRequest) :=
  wholeRequest (.setRoles adminContext 1 [])

theorem last_admin_lost : adminsDb.HasActiveAdmin ∧
    ¬ (deletionActs.foldl roleLock.step (.initial adminsDb)).state.HasActiveAdmin ∧
    ¬ (demotionActs.foldl roleLock.step (.initial adminsDb)).state.HasActiveAdmin := by
  decide +kernel

/-- The account 1 gives full power to 3 while 4 is deleted, 2 loses it, and the two requests that
would take it from 1 and 3 are made: the second one is refused. -/
def handoverActs : List (LockAct LockedRequest FreeRequest) :=
  [.begin (.setRoles adminContext 3 [0]), .step true, .direct (.deleteUsers [4])] ++
    List.replicate 12 (.step true) ++ [.commit] ++
    wholeRequest (.setRoles adminContext 2 []) ++ wholeRequest (.setRoles adminContext 1 []) ++
    wholeRequest (.setRoles adminContext 3 []) ++ [.rollback]

theorem active_admin_run_handover :
    (handoverActs.foldl roleLock.step (.initial adminsDb)).state.allPowerfulAccounts = [3] ∧
      (handoverActs.foldl roleLock.step (.initial adminsDb)).state.HasActiveAdmin ∧
      Along roleLock.step RefusedUnchanged (.initial adminsDb) handoverActs := by
  have h := @active_admin_run adminsDb (by decide +kernel) handoverActs (by decide +kernel)
  exact ⟨by decide +kernel, h.1, h.2⟩

end FloatCtf.Rbac
