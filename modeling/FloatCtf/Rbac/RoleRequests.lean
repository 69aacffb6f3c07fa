import FloatCtf.Process.Table
import FloatCtf.Rbac.Roles

/-!
# What the requests on roles do

The specification of each function of the role service: what a read returns in terms of the rows,
and what a request that returns has changed and checked (`RoleChange`).
-/

namespace FloatCtf.Rbac

open Process

/-! ## What roles and accounts have -/

namespace Db

variable (db : Db)

/-- The role has full power. -/
def Full (roleId : Nat) : Prop := ∃ r ∈ db.platformRoles, r.id = roleId ∧ r.grantsAll = true

instance (roleId : Nat) : Decidable (db.Full roleId) :=
  inferInstanceAs (Decidable (∃ r ∈ db.platformRoles, r.id = roleId ∧ r.grantsAll = true))

/-- The role gives the permission. -/
def Gives (roleId : Nat) (p : Permission) : Prop :=
  db.Full roleId ∨
    ∃ row ∈ db.rolePermissions, row.roleId = roleId ∧ Permission.fromStr row.permission = some p

/-- The permissions of a list of roles. -/
def permissionsOf (roleIds : List Nat) : PermissionSet :=
  if db.anyGrantsAll roleIds then .all
  else (PermissionSet.fromStrings (db.permissionStrings roleIds)).1

/-- The permissions of the account. -/
def effective (userId : Nat) : PermissionSet := db.permissionsOf (db.roleIdsOfUser userId)

/-- The account has the super admin role, or a role that grants all. -/
def hasAllAccess (userId : Nat) : Bool :=
  decide (platformRoleSuperAdmin ∈ db.roleIdsOfUser userId) || db.userHasGrantsAll userId

/-- The permissions that the role lists. -/
def listed (roleId : Nat) : PermissionSet :=
  (PermissionSet.fromStrings (db.permissionStrings [roleId])).1

/-- Roles have distinct identifiers, and grants and permissions are those of roles. -/
structure Consistent : Prop where
  keyed : Table.Keyed PlatformRole.id db.platformRoles
  granted : ∀ g ∈ db.userPlatformRoles, ∃ r ∈ db.platformRoles, r.id = g.roleId
  listed : ∀ row ∈ db.rolePermissions, ∃ r ∈ db.platformRoles, r.id = row.roleId

end Db

section Lookups

variable {db : Db} {ids : List Nat} {u id : Nat} {p : Permission}

theorem anyGrantsAll_iff : db.anyGrantsAll ids = true ↔ ∃ id ∈ ids, db.Full id := by
  simp only [Db.anyGrantsAll, List.any_eq_true, Bool.and_eq_true, decide_eq_true_eq]
  constructor
  · rintro ⟨r, hr, hid, hg⟩
    exact ⟨r.id, hid, r, hr, rfl, hg⟩
  · rintro ⟨id, hid, r, hr, rfl, hg⟩
    exact ⟨r, hr, hid, hg⟩

theorem mem_roleIdsOfUser :
    id ∈ db.roleIdsOfUser u ↔ ∃ g ∈ db.userPlatformRoles, g.userId = u ∧ g.roleId = id := by
  simp [Db.roleIdsOfUser, and_assoc]

theorem userHasGrantsAll_iff :
    db.userHasGrantsAll u = true ↔ ∃ id ∈ db.roleIdsOfUser u, db.Full id := anyGrantsAll_iff

theorem mem_listed {roleId : Nat} : p ∈ db.listed roleId ↔
    ∃ row ∈ db.rolePermissions, row.roleId = roleId ∧
      Permission.fromStr row.permission = some p := by
  simp [Db.listed, PermissionSet.mem_fromStrings, Db.permissionStrings, and_assoc]

theorem mem_fromStrings_permissionStrings :
    p ∈ (PermissionSet.fromStrings (db.permissionStrings ids)).1 ↔
      ∃ id ∈ ids, p ∈ db.listed id := by
  simp only [PermissionSet.mem_fromStrings, Db.permissionStrings, List.mem_map, List.mem_filter,
    decide_eq_true_eq, mem_listed]
  constructor
  · rintro ⟨raw, ⟨row, ⟨hrow, hid⟩, rfl⟩, hp⟩
    exact ⟨row.roleId, hid, row, hrow, rfl, hp⟩
  · rintro ⟨id, hid, row, hrow, rfl, hp⟩
    exact ⟨row.permission, ⟨row, ⟨hrow, hid⟩, rfl⟩, hp⟩

theorem gives_iff : db.Gives id p ↔ db.Full id ∨ p ∈ db.listed id := by
  rw [Db.Gives, mem_listed]

/-- The permissions of several roles are those that one of them gives. -/
theorem mem_permissionsOf : p ∈ db.permissionsOf ids ↔ ∃ id ∈ ids, db.Gives id p := by
  simp only [gives_iff]
  unfold Db.permissionsOf
  split_ifs with h
  · obtain ⟨id, hid, hfull⟩ := anyGrantsAll_iff.1 h
    simp only [PermissionSet.mem_all, true_iff]
    exact ⟨id, hid, .inl hfull⟩
  · have hnot : ∀ id ∈ ids, ¬ db.Full id := by
      intro id hid hfull
      exact h (anyGrantsAll_iff.2 ⟨id, hid, hfull⟩)
    rw [mem_fromStrings_permissionStrings]
    constructor
    · rintro ⟨id, hid, hp⟩
      exact ⟨id, hid, .inr hp⟩
    · rintro ⟨id, hid, hfull | hp⟩
      · exact absurd hfull (hnot id hid)
      · exact ⟨id, hid, hp⟩

theorem mem_effective : p ∈ db.effective u ↔ ∃ id ∈ db.roleIdsOfUser u, db.Gives id p :=
  mem_permissionsOf

theorem effective_of_grantsAll (h : db.userHasGrantsAll u = true) : db.effective u = .all :=
  if_pos h

theorem findRole_mem {r : PlatformRole} (h : db.findRole id = some r) :
    r ∈ db.platformRoles ∧ r.id = id := Table.mem_of_find h

end Lookups

/-! ## What the service functions return -/

section Returns

variable {ans : Stmt → Bool} {db db' : Db} {u : Nat}

theorem select_ok {α : Type} {f : Db → α} {a : α} (h : (select f).run ans db = (db', .ok a)) :
    db' = db ∧ a = f db := Prog.run_query_inv ans h

theorem check_ok {α : Type} {x : Except AppError α} {a : α}
    (h : (check x).run ans db = (db', .ok a)) : db' = db ∧ x = .ok a := by
  cases x with
  | error e => cases h
  | ok b =>
    cases h
    exact ⟨rfl, rfl⟩

theorem onlyIf_ok {c : Bool} {p : RoleM Unit} (h : (onlyIf c p).run ans db = (db', .ok ())) :
    c = true ∧ p.run ans db = (db', .ok ()) ∨ c = false ∧ db' = db := by
  cases c with
  | true => exact .inl ⟨rfl, h⟩
  | false =>
    cases h
    exact .inr ⟨rfl, rfl⟩

theorem orNotFound_ok {α : Type} {message : String} {o : Option α} {a : α}
    (h : orNotFound message o = .ok a) : o = some a := by
  cases o with
  | none => cases h
  | some b =>
    cases h
    rfl

theorem permissionsOfRoles_ok {ids : List Nat} {r : PermissionSet × List String}
    (h : (permissionsOfRoles ids).run ans db = (db', .ok r)) :
    db' = db ∧ r.1 = db.permissionsOf ids := by
  unfold permissionsOfRoles at h
  split_ifs at h with hnil
  · cases h
    refine ⟨rfl, ?_⟩
    subst hnil
    ext p
    simp [mem_permissionsOf]
  · obtain ⟨db₁, full, h₁, h⟩ := Prog.run_bind_inv ans h
    obtain ⟨rfl, rfl⟩ := select_ok h₁
    unfold Db.permissionsOf
    split_ifs at h with hfull
    · cases h
      exact ⟨rfl, (if_pos hfull).symm⟩
    · obtain ⟨db₂, rows, h₂, h⟩ := Prog.run_bind_inv ans h
      obtain ⟨rfl, rfl⟩ := select_ok h₂
      cases h
      exact ⟨rfl, (if_neg hfull).symm⟩

theorem effectivePermissions_ok {set : PermissionSet}
    (h : (effectivePermissions u).run ans db = (db', .ok set)) :
    db' = db ∧ set = db.effective u := by
  obtain ⟨db₁, ids, h₁, k₁⟩ := Prog.run_bind_inv ans h
  obtain ⟨rfl, rfl⟩ := select_ok h₁
  obtain ⟨db₂, r, h₂, k₂⟩ := Prog.run_bind_inv ans k₁
  obtain ⟨rfl, hr⟩ := permissionsOfRoles_ok h₂
  cases k₂
  exact ⟨rfl, hr⟩

theorem hasAllAccess_ok {b : Bool} (h : (hasAllAccess u).run ans db = (db', .ok b)) :
    db' = db ∧ b = db.hasAllAccess u := by
  obtain ⟨db₁, ids, h₁, h⟩ := Prog.run_bind_inv ans h
  obtain ⟨rfl, rfl⟩ := select_ok h₁
  unfold Db.hasAllAccess Db.userHasGrantsAll
  split_ifs at h with hnil hadmin
  · cases h
    refine ⟨rfl, ?_⟩
    rw [hnil]
    simp [Db.anyGrantsAll]
  · cases h
    simp [hadmin]
  · obtain ⟨rfl, rfl⟩ := select_ok h
    simp [hadmin]

/-- The guard reads the context of the account. -/
theorem requirePermission_ok {p : Permission} {actor : AuthContext}
    (h : (requirePermission u p).run ans db = (db', .ok actor)) :
    db' = db ∧ actor.userId = u ∧ actor.grantsAll = db.hasAllAccess u ∧
      (db.hasAllAccess u = false → actor.permissions = db.effective u) := by
  obtain ⟨db₁, a, h₁, h⟩ := Prog.run_bind_inv ans h
  have hsame : db' = db₁ ∧ actor = a := by
    split_ifs at h
    · cases h
      exact ⟨rfl, rfl⟩
    · cases h
  obtain ⟨rfl, rfl⟩ := hsame
  obtain ⟨db₂, full, h₂, h₁⟩ := Prog.run_bind_inv ans h₁
  obtain ⟨rfl, rfl⟩ := hasAllAccess_ok h₂
  split_ifs at h₁ with hfull
  · cases h₁
    refine ⟨rfl, rfl, rfl, fun hno => ?_⟩
    rw [hfull] at hno
    cases hno
  · obtain ⟨db₃, set, h₃, h₁⟩ := Prog.run_bind_inv ans h₁
    obtain ⟨rfl, rfl⟩ := effectivePermissions_ok h₃
    cases h₁
    exact ⟨rfl, rfl, rfl, fun _ => rfl⟩

theorem listedPermissions_ok {roleId : Nat} {set : PermissionSet}
    (h : (listedPermissions roleId).run ans db = (db', .ok set)) :
    db' = db ∧ set = db.listed roleId := by
  obtain ⟨db₁, rows, h₁, h⟩ := Prog.run_bind_inv ans h
  obtain ⟨rfl, rfl⟩ := select_ok h₁
  cases h
  exact ⟨rfl, rfl⟩

theorem rolesOfUser_ok {rs : List PlatformRole} (h : (rolesOfUser u).run ans db = (db', .ok rs)) :
    db' = db ∧ rs = db.rolesOfUser u := by
  obtain ⟨db₁, ids, h₁, h⟩ := Prog.run_bind_inv ans h
  obtain ⟨rfl, rfl⟩ := select_ok h₁
  split_ifs at h with hnil
  · cases h
    simp [Db.rolesOfUser, hnil]
  · exact select_ok h

theorem checkLockoutByChange_ok {actor : AuthContext} {roleId : Nat} {after : PermissionSet}
    (h : (checkLockoutByChange actor roleId after).run ans db = (db', .ok ())) : db' = db := by
  obtain ⟨db₁, left, h₁, k₁⟩ := Prog.run_bind_inv ans h
  obtain ⟨rfl, -⟩ := check_ok k₁
  obtain ⟨db₂, roles, h₂, k₂⟩ := Prog.run_bind_inv ans h₁
  obtain ⟨rfl, -⟩ := rolesOfUser_ok h₂
  split_ifs at k₂
  · exact (effectivePermissions_ok k₂).1
  · obtain ⟨db₃, r, h₃, k₃⟩ := Prog.run_bind_inv ans k₂
    obtain ⟨rfl, -⟩ := permissionsOfRoles_ok h₃
    dsimp only at k₃
    split at k₃ <;> cases k₃ <;> rfl

theorem checkLockoutByRemoval_ok {actor : AuthContext} {roleId : Nat}
    (h : (checkLockoutByRemoval actor roleId).run ans db = (db', .ok ())) : db' = db := by
  obtain ⟨db₁, left, h₁, k₁⟩ := Prog.run_bind_inv ans h
  obtain ⟨rfl, -⟩ := check_ok k₁
  obtain ⟨db₂, roles, h₂, k₂⟩ := Prog.run_bind_inv ans h₁
  obtain ⟨rfl, -⟩ := rolesOfUser_ok h₂
  dsimp only at k₂
  split at k₂
  · cases k₂
    rfl
  · obtain ⟨db₃, r, h₃, k₃⟩ := Prog.run_bind_inv ans k₂
    obtain ⟨rfl, -⟩ := permissionsOfRoles_ok h₃
    cases k₃
    rfl

theorem assertNotLastSuperAdmin_ok (h : assertNotLastSuperAdmin.run ans db = (db', .ok ())) :
    db' = db ∧ db.allPowerfulAccounts ≠ [] := by
  obtain ⟨db₁, n, h₁, h⟩ := Prog.run_bind_inv ans h
  obtain ⟨rfl, rfl⟩ := Prog.run_query_inv ans h₁
  split_ifs at h with hn
  · cases h
  · cases h
    exact ⟨rfl, fun hnil => hn (by simp [hnil])⟩

/-- The roles that a request names, in its order. -/
theorem findRequestedRoles_ok {ids : List Nat} {rs : List PlatformRole}
    (h : (findRequestedRoles ids).run ans db = (db', .ok rs)) :
    db' = db ∧ rs.map (·.id) = ids ∧ ∀ r ∈ rs, r ∈ db.platformRoles := by
  induction ids generalizing db db' rs with
  | nil =>
    cases h
    exact ⟨rfl, rfl, fun r hr => absurd hr List.not_mem_nil⟩
  | cons id ids ih =>
    obtain ⟨db₁, found, h₁, k₁⟩ := Prog.run_bind_inv ans h
    obtain ⟨rfl, rfl⟩ := select_ok h₁
    split at k₁
    · cases k₁
    · next role hrole =>
      obtain ⟨db₂, rest, h₂, k₂⟩ := Prog.run_bind_inv ans k₁
      obtain ⟨rfl, hids, hmem⟩ := ih h₂
      cases k₂
      obtain ⟨hr, hid⟩ := findRole_mem hrole
      refine ⟨rfl, by simp [hids, hid], fun r hr' => ?_⟩
      rcases List.mem_cons.1 hr' with rfl | hr'
      · exact hr
      · exact hmem r hr'

theorem beforeGrantsAll_ok {rs : List PlatformRole} {b : Bool}
    (h : (beforeGrantsAll u rs).run ans db = (db', .ok b)) :
    db' = db ∧ (rs = [] → b = db.userHasGrantsAll u) := by
  unfold beforeGrantsAll at h
  split_ifs at h with hnil
  · obtain ⟨rfl, rfl⟩ := select_ok h
    exact ⟨rfl, fun _ => rfl⟩
  · cases h
    exact ⟨rfl, fun hrs => absurd (by simp [hrs]) hnil⟩

/-- What the requested roles would give is what they give. -/
theorem simulatedEffectivePermissions_ok {rs : List PlatformRole} {set : PermissionSet}
    (h : (simulatedEffectivePermissions rs).run ans db = (db', .ok set)) :
    db' = db ∧ ∀ p, p ∈ set ↔ ∃ r ∈ rs, r.grantsAll = true ∨ p ∈ db.listed r.id := by
  unfold simulatedEffectivePermissions at h
  split_ifs at h with hany
  · cases h
    obtain ⟨r, hr, hg⟩ := List.any_eq_true.1 hany
    refine ⟨rfl, fun p => ⟨fun _ => ⟨r, hr, .inl hg⟩, fun _ => PermissionSet.mem_all p⟩⟩
  · obtain ⟨db₁, rows, h₁, h⟩ := Prog.run_bind_inv ans h
    obtain ⟨rfl, rfl⟩ := select_ok h₁
    cases h
    refine ⟨rfl, fun p => ?_⟩
    have hnone : ∀ r ∈ rs, r.grantsAll = false := by simpa using hany
    rw [mem_fromStrings_permissionStrings]
    constructor
    · rintro ⟨id, hid, hp⟩
      obtain ⟨r, hr, rfl⟩ := List.mem_map.1 hid
      exact ⟨r, hr, .inr hp⟩
    · rintro ⟨r, hr, hg | hp⟩
      · rw [hnone r hr] at hg
        cases hg
      · exact ⟨r.id, List.mem_map_of_mem hr, hp⟩

/-! ## What the loops write -/

theorem insertPermission_ok {row : RolePermission}
    (h : (insertPermission row).run ans db = (db', .ok ())) :
    (∃ r ∈ db.platformRoles, r.id = row.roleId) ∧
      db' = { db with rolePermissions := db.rolePermissions ++ [row] } := by
  have h := Prog.run_exec_inv ans h
  split_ifs at h with hc
  cases h
  simp only [Bool.or_eq_true, not_or] at hc
  cases hr : db.findRole row.roleId with
  | none => exact absurd (by simp [hr]) hc.2
  | some r =>
    obtain ⟨hmem, hid⟩ := findRole_mem hr
    exact ⟨⟨r, hmem, hid⟩, rfl⟩

theorem each_insertPermission_ok {roleId : Nat} {ps : List Permission}
    (h : (Prog.each ps fun p => insertPermission { roleId, permission := p.asStr }).run ans db =
      (db', .ok ())) :
    db' = { db with rolePermissions :=
      db.rolePermissions ++ ps.map fun p => { roleId, permission := p.asStr } } := by
  induction ps generalizing db with
  | nil =>
    cases h
    simp
  | cons p ps ih =>
    obtain ⟨db₁, _, h₁, h⟩ := Prog.run_bind_inv ans h
    obtain ⟨-, rfl⟩ := insertPermission_ok h₁
    rw [ih h]
    simp

theorem insertGrant_ok {row : UserRole} (h : (insertGrant row).run ans db = (db', .ok ())) :
    db' = { db with userPlatformRoles := db.userPlatformRoles ++ [row] } := by
  have h := Prog.run_exec_inv ans h
  split_ifs at h
  cases h
  rfl

theorem each_insertGrant_ok {userId : Nat} {by' : Option Nat} {rs : List PlatformRole}
    (h : (Prog.each rs fun r =>
      insertGrant { userId, roleId := r.id, grantedBy := by' }).run ans db = (db', .ok ())) :
    db' = { db with userPlatformRoles :=
      db.userPlatformRoles ++ rs.map fun r => { userId, roleId := r.id, grantedBy := by' } } := by
  induction rs generalizing db with
  | nil =>
    cases h
    simp
  | cons r rs ih =>
    obtain ⟨db₁, _, h₁, h⟩ := Prog.run_bind_inv ans h
    obtain rfl := insertGrant_ok h₁
    rw [ih h]
    simp

end Returns

/-! ## What a request does -/

/-- A request that changes roles or their accounts. -/
inductive Request where
  | create (draw : Nat) (body : CreateRoleRequest)
  | patch (roleId : Nat) (body : PatchRoleRequest)
  | delete (roleId : Nat)
  | setRoles (userId : Nat) (roleIds : List Nat)

/-- The program of a request of this actor. -/
def Request.prog (actor : AuthContext) : Request → RoleM Unit
  | create draw body => createRole actor draw body
  | patch roleId body => patchRole actor roleId body
  | delete roleId => deleteRole actor roleId
  | setRoles userId roleIds => setUserRoles actor userId roleIds

/-- The rows of the permissions of a role. -/
def rowsOf (roleId : Nat) (ps : PermissionSet) : List RolePermission :=
  ps.toList.map fun p => { roleId, permission := p.asStr }

/-- The guard lets the actor handle the permissions. -/
def AuthContext.Covers (actor : AuthContext) (ps : PermissionSet) : Prop :=
  actor.grantsAll = true ∨ ps ⊆ actor.permissions

/-- An edit of the name and the description. -/
def Renames (f : PlatformRole → PlatformRole) : Prop :=
  ∀ r, (f r).id = r.id ∧ (f r).isProtected = r.isProtected ∧ (f r).grantsAll = r.grantsAll

/-- The rows without a role. -/
def Db.dropRole (db : Db) (roleId : Nat) : Db :=
  { db with
    platformRoles := db.platformRoles.filter (·.id ≠ roleId)
    rolePermissions := db.rolePermissions.filter (·.roleId ≠ roleId)
    userPlatformRoles := db.userPlatformRoles.filter (·.roleId ≠ roleId) }

/-- The rows after the roles of an account were replaced. -/
def Db.assignRoles (db : Db) (userId : Nat) (rs : List PlatformRole)
    (grantedBy : Option Nat) : Db :=
  { db with
    userPlatformRoles := db.userPlatformRoles.filter (·.userId ≠ userId) ++
      rs.map fun r => { userId, roleId := r.id, grantedBy } }

/-- What a request that returns has done. -/
inductive RoleChange (actor : AuthContext) (db : Db) : Request → Db → Prop
  | create {body : CreateRoleRequest} {role : PlatformRole} {ps : PermissionSet}
      (ordinary : role.grantsAll = false) (fresh : ∀ r ∈ db.platformRoles, r.id ≠ role.id)
      (covers : actor.Covers ps) :
      RoleChange actor db (.create role.id body)
        { db with
          platformRoles := db.platformRoles ++ [role]
          rolePermissions := db.rolePermissions ++ rowsOf role.id ps }
  | rename {roleId : Nat} {body : PatchRoleRequest} {f : PlatformRole → PlatformRole}
      (renames : Renames f) :
      RoleChange actor db (.patch roleId body) { db with platformRoles := db.platformRoles.map f }
  | replace {roleId : Nat} {body : PatchRoleRequest} {f : PlatformRole → PlatformRole}
      {ps : PermissionSet} (renames : Renames f) (found : ∃ r ∈ db.platformRoles, r.id = roleId)
      (covers : actor.Covers ps) :
      RoleChange actor db (.patch roleId body)
        { db with
          platformRoles := db.platformRoles.map f
          rolePermissions := db.rolePermissions.filter (·.roleId ≠ roleId) ++ rowsOf roleId ps }
  | delete {roleId : Nat} :
      RoleChange actor db (.delete roleId) (db.dropRole roleId)
  | assign {userId : Nat} {rs : List PlatformRole} (found : ∀ r ∈ rs, r ∈ db.platformRoles)
      (spared : rs = [] → actor.grantsAll = true ∨ db.userHasGrantsAll userId = false)
      (before : actor.Covers (db.effective userId))
      (after : ∀ r ∈ rs, ∀ p, r.grantsAll = true ∨ p ∈ db.listed r.id →
        actor.grantsAll = true ∨ p ∈ actor.permissions) :
      RoleChange actor db (.setRoles userId (rs.map (·.id)))
        (db.assignRoles userId rs (some actor.userId))

section Requests

variable {ans : Stmt → Bool} {db db' : Db} {actor : AuthContext}

theorem assertSubset_ok {s : PermissionSet} {what : String}
    (h : EscalationGuard.assertSubset actor s what = .ok ()) : actor.Covers s := by
  unfold EscalationGuard.assertSubset at h
  split_ifs at h with hall hsub
  · exact .inl hall
  · exact .inr hsub

theorem checkRolePermissions_ok {before after : PermissionSet}
    (h : EscalationGuard.checkRolePermissions actor before after = .ok ()) :
    actor.Covers before ∧ actor.Covers after := by
  obtain ⟨_, hb, ha⟩ := except_bind_ok h
  exact ⟨assertSubset_ok hb, assertSubset_ok ha⟩

theorem checkTargetPermissions_ok {before after : PermissionSet}
    (h : EscalationGuard.checkTargetPermissions actor before after = .ok ()) :
    actor.Covers before ∧ actor.Covers after := by
  obtain ⟨_, hb, ha⟩ := except_bind_ok h
  exact ⟨assertSubset_ok hb, assertSubset_ok ha⟩

theorem checkTargetNotGrantsAll_ok {full : Bool}
    (h : EscalationGuard.checkTargetNotGrantsAll actor full = .ok ()) :
    actor.grantsAll = true ∨ full = false := by
  unfold EscalationGuard.checkTargetNotGrantsAll at h
  split_ifs at h with hc
  cases hg : actor.grantsAll <;> simp_all

theorem renames_updateRole (id : Nat) (name description : Option String) :
    Renames fun r => if r.id = id then
      { r with name := name.getD r.name, description := description.getD r.description }
    else r := by
  intro r
  dsimp only
  split_ifs
  · exact ⟨rfl, rfl, rfl⟩
  · exact ⟨rfl, rfl, rfl⟩

theorem createRole_ok {draw : Nat} {body : CreateRoleRequest}
    (h : (createRole actor draw body).run ans db = (db', .ok ())) :
    RoleChange actor db (.create draw body) db' := by
  obtain ⟨db₁, _, h₁, k₁⟩ := Prog.run_bind_inv ans h
  obtain ⟨rfl, -⟩ := check_ok h₁
  split at k₁
  · cases k₁
  obtain ⟨db₂, requested, h₂, k₂⟩ := Prog.run_bind_inv ans k₁
  obtain ⟨rfl, -⟩ := check_ok h₂
  obtain ⟨db₃, _, h₃, k₃⟩ := Prog.run_bind_inv ans k₂
  obtain ⟨rfl, hcovers⟩ := check_ok h₃
  obtain ⟨db₄, _, h₄, k₄⟩ := Prog.run_bind_inv ans k₃
  have hinsert := Prog.run_exec_inv ans h₄
  split_ifs at hinsert with htaken
  cases hinsert
  rw [each_insertPermission_ok k₄]
  have hfresh : ∀ r ∈ db₃.platformRoles, r.id ≠ draw := by
    intro r hr hid
    exact htaken (List.any_eq_true.2 ⟨r, hr, by simp [hid]⟩)
  have hcover := (checkRolePermissions_ok hcovers).2
  exact @RoleChange.create _ _ _ ⟨draw, _, _, _, false, false⟩ _ rfl hfresh hcover

theorem replacePermissions_ok {roleId : Nat} {ps : PermissionSet}
    (h : (replacePermissions roleId ps).run ans db = (db', .ok ())) :
    db' = { db with rolePermissions :=
      db.rolePermissions.filter (·.roleId ≠ roleId) ++ rowsOf roleId ps } := by
  obtain ⟨db₁, _, h₁, k₁⟩ := Prog.run_bind_inv ans h
  have hdel := Prog.run_exec_inv ans h₁
  cases hdel
  exact each_insertPermission_ok k₁

/-- The rows after the permissions of a role were replaced. -/
def Db.replaced (db : Db) (f : PlatformRole → PlatformRole) (roleId : Nat)
    (ps : PermissionSet) : Db :=
  { db with
    platformRoles := db.platformRoles.map f
    rolePermissions := db.rolePermissions.filter (·.roleId ≠ roleId) ++ rowsOf roleId ps }

/-- What an edit that returns has done: the permissions stay as they are, or they are replaced and
an actor that holds the role has been looked at afterwards. -/
structure Patched (ans : Stmt → Bool) (db db' : Db) (actor : AuthContext) (roleId : Nat)
    (body : PatchRoleRequest) (f : PlatformRole → PlatformRole) (after : PermissionSet) : Prop where
  renames : Renames f
  found : ∃ r ∈ db.platformRoles, r.id = roleId
  covers : actor.Covers after
  asked : patchedPermissions (db.listed roleId) body.permissions = .ok after
  written : body.permissions = none ∧ db' = { db with platformRoles := db.platformRoles.map f } ∨
    body.permissions.isSome = true ∧ db' = db.replaced f roleId after ∧
      (db'.holds actor.userId roleId = true →
        (checkLockoutByChange actor roleId after).run ans db' = (db', .ok ()))

theorem patchRole_spec {roleId : Nat} {body : PatchRoleRequest}
    (h : (patchRole actor roleId body).run ans db = (db', .ok ())) :
    ∃ f after, Patched ans db db' actor roleId body f after := by
  obtain ⟨db₁, _, h₁, k₁⟩ := Prog.run_bind_inv ans h
  obtain ⟨rfl, -⟩ := Prog.run_query_inv ans h₁
  obtain ⟨db₂, found, h₂, k₂⟩ := Prog.run_bind_inv ans k₁
  obtain ⟨rfl, rfl⟩ := select_ok h₂
  obtain ⟨db₃, role, h₃, k₃⟩ := Prog.run_bind_inv ans k₂
  obtain ⟨rfl, hrole⟩ := check_ok h₃
  obtain ⟨hmem, hid⟩ := findRole_mem (orNotFound_ok hrole)
  obtain ⟨db₄, before, h₄, k₄⟩ := Prog.run_bind_inv ans k₃
  obtain ⟨rfl, rfl⟩ := listedPermissions_ok h₄
  obtain ⟨db₅, after, h₅, k₅⟩ := Prog.run_bind_inv ans k₄
  obtain ⟨rfl, hasked⟩ := check_ok h₅
  split at k₅
  · cases k₅
  obtain ⟨db₆, _, h₆, k₆⟩ := Prog.run_bind_inv ans k₅
  obtain ⟨rfl, hcovers⟩ := check_ok h₆
  obtain ⟨db₇, name, h₇, k₇⟩ := Prog.run_bind_inv ans k₆
  obtain ⟨rfl, -⟩ := check_ok h₇
  obtain ⟨db₈, _, h₈, k₈⟩ := Prog.run_bind_inv ans k₇
  have hupd := Prog.run_exec_inv ans h₈
  cases hupd
  obtain ⟨db₉, _, h₉, k₉⟩ := Prog.run_bind_inv ans k₈
  obtain ⟨db₁₀, held, h₁₀, k₁₀⟩ := Prog.run_bind_inv ans k₉
  obtain ⟨rfl, rfl⟩ := select_ok h₁₀
  obtain ⟨db₁₁, _, h₁₁, k₁₁⟩ := Prog.run_bind_inv ans k₁₀
  obtain ⟨rfl, -⟩ := assertNotLastSuperAdmin_ok k₁₁
  have hlocked := onlyIf_ok h₁₁
  have hsame : db' = db₁₀ := by
    rcases hlocked with ⟨-, hlock⟩ | ⟨-, hsame⟩
    · exact checkLockoutByChange_ok hlock
    · exact hsame
  subst hsame
  have hrenames := renames_updateRole roleId name body.description
  refine ⟨_, after, hrenames, ⟨role, hmem, hid⟩, (checkRolePermissions_ok hcovers).2, hasked, ?_⟩
  rcases onlyIf_ok h₉ with ⟨hsome, hreplace⟩ | ⟨hnone, rfl⟩
  · refine .inr ⟨hsome, replacePermissions_ok hreplace, fun hheld => ?_⟩
    rcases hlocked with ⟨-, hlock⟩ | ⟨hno, -⟩
    · exact hlock
    · rw [hheld, hsome] at hno
      cases hno
  · exact .inl ⟨Option.not_isSome_iff_eq_none.1 (by simp [hnone]), rfl⟩

theorem patchRole_ok {roleId : Nat} {body : PatchRoleRequest}
    (h : (patchRole actor roleId body).run ans db = (db', .ok ())) :
    RoleChange actor db (.patch roleId body) db' := by
  obtain ⟨f, after, hp⟩ := patchRole_spec h
  rcases hp.written with ⟨-, rfl⟩ | ⟨-, rfl, -⟩
  · exact .rename hp.renames
  · exact .replace hp.renames hp.found hp.covers

/-- A deletion that returns: an actor that holds the role was looked at before. -/
theorem deleteRole_spec {roleId : Nat}
    (h : (deleteRole actor roleId).run ans db = (db', .ok ())) :
    db' = db.dropRole roleId ∧ (db.holds actor.userId roleId = true →
      (checkLockoutByRemoval actor roleId).run ans db = (db, .ok ())) := by
  obtain ⟨db₁, _, h₁, k₁⟩ := Prog.run_bind_inv ans h
  obtain ⟨rfl, -⟩ := Prog.run_query_inv ans h₁
  obtain ⟨db₂, found, h₂, k₂⟩ := Prog.run_bind_inv ans k₁
  obtain ⟨rfl, rfl⟩ := select_ok h₂
  obtain ⟨db₃, role, h₃, k₃⟩ := Prog.run_bind_inv ans k₂
  obtain ⟨rfl, -⟩ := check_ok h₃
  split at k₃
  · cases k₃
  obtain ⟨db₄, before, h₄, k₄⟩ := Prog.run_bind_inv ans k₃
  obtain ⟨rfl, rfl⟩ := listedPermissions_ok h₄
  obtain ⟨db₅, _, h₅, k₅⟩ := Prog.run_bind_inv ans k₄
  obtain ⟨rfl, -⟩ := check_ok h₅
  obtain ⟨db₆, held, h₆, k₆⟩ := Prog.run_bind_inv ans k₅
  obtain ⟨rfl, rfl⟩ := select_ok h₆
  obtain ⟨db₇, _, h₇, k₇⟩ := Prog.run_bind_inv ans k₆
  have hlocked := onlyIf_ok h₇
  have hsame : db₇ = db₆ := by
    rcases hlocked with ⟨-, hlock⟩ | ⟨-, hsame⟩
    · exact checkLockoutByRemoval_ok hlock
    · exact hsame
  subst hsame
  obtain ⟨db₈, _, h₈, k₈⟩ := Prog.run_bind_inv ans k₇
  obtain ⟨rfl, -⟩ := assertNotLastSuperAdmin_ok k₈
  have hdel := Prog.run_exec_inv ans h₈
  cases hdel
  refine ⟨rfl, fun hheld => ?_⟩
  rcases hlocked with ⟨-, hlock⟩ | ⟨hno, -⟩
  · exact hlock
  · rw [hheld] at hno
    cases hno

theorem deleteRole_ok {roleId : Nat} (h : (deleteRole actor roleId).run ans db = (db', .ok ())) :
    RoleChange actor db (.delete roleId) db' := by
  obtain ⟨rfl, -⟩ := deleteRole_spec h
  exact .delete

/-- What a replacement that returns has done: the requested roles are there, and what they give was
looked at before. -/
structure Assigned (ans : Stmt → Bool) (db db' : Db) (actor : AuthContext) (userId : Nat)
    (roleIds : List Nat) (rs : List PlatformRole) (after : PermissionSet) : Prop where
  ids : rs.map (·.id) = roleIds
  found : ∀ r ∈ rs, r ∈ db.platformRoles
  spared : rs = [] → actor.grantsAll = true ∨ db.userHasGrantsAll userId = false
  before : actor.Covers (db.effective userId)
  simulated : (simulatedEffectivePermissions rs).run ans db = (db, .ok after)
  covers : actor.Covers after
  unlocked : userId = actor.userId → EscalationGuard.checkSelfLockout actor after = .ok ()
  written : db' = db.assignRoles userId rs (some actor.userId)

theorem setUserRoles_spec {userId : Nat} {roleIds : List Nat}
    (h : (setUserRoles actor userId roleIds).run ans db = (db', .ok ())) :
    ∃ rs after, Assigned ans db db' actor userId roleIds rs after := by
  obtain ⟨db₁, _, h₁, k₁⟩ := Prog.run_bind_inv ans h
  obtain ⟨rfl, -⟩ := Prog.run_query_inv ans h₁
  obtain ⟨db₂, target, h₂, k₂⟩ := Prog.run_bind_inv ans k₁
  obtain ⟨rfl, rfl⟩ := select_ok h₂
  obtain ⟨db₃, _, h₃, k₃⟩ := Prog.run_bind_inv ans k₂
  obtain ⟨rfl, -⟩ := check_ok h₃
  obtain ⟨db₄, rs, h₄, k₄⟩ := Prog.run_bind_inv ans k₃
  obtain ⟨rfl, hids, hfound⟩ := findRequestedRoles_ok h₄
  obtain ⟨db₅, before, h₅, k₅⟩ := Prog.run_bind_inv ans k₄
  obtain ⟨rfl, rfl⟩ := effectivePermissions_ok h₅
  obtain ⟨db₆, full, h₆, k₆⟩ := Prog.run_bind_inv ans k₅
  obtain ⟨rfl, hfull⟩ := beforeGrantsAll_ok h₆
  obtain ⟨db₇, _, h₇, k₇⟩ := Prog.run_bind_inv ans k₆
  obtain ⟨rfl, hspared⟩ := check_ok h₇
  obtain ⟨db₈, after, h₈, k₈⟩ := Prog.run_bind_inv ans k₇
  obtain ⟨rfl, -⟩ := simulatedEffectivePermissions_ok h₈
  obtain ⟨db₉, _, h₉, k₉⟩ := Prog.run_bind_inv ans k₈
  obtain ⟨rfl, hcovers⟩ := check_ok h₉
  obtain ⟨db₁₀, _, h₁₀, k₁₀⟩ := Prog.run_bind_inv ans k₉
  have hlocked := onlyIf_ok h₁₀
  have hsame : db₁₀ = db₉ := by
    rcases hlocked with ⟨-, hlock⟩ | ⟨-, hsame⟩
    · exact (check_ok hlock).1
    · exact hsame
  subst hsame
  obtain ⟨db₁₁, _, h₁₁, k₁₁⟩ := Prog.run_bind_inv ans k₁₀
  have hdel := Prog.run_exec_inv ans h₁₁
  cases hdel
  obtain ⟨db₁₂, _, h₁₂, k₁₂⟩ := Prog.run_bind_inv ans k₁₁
  obtain ⟨rfl, -⟩ := assertNotLastSuperAdmin_ok k₁₂
  obtain ⟨hbefore, hcover⟩ := checkTargetPermissions_ok hcovers
  refine ⟨rs, after, hids, hfound, fun hnil => ?_, hbefore, h₈, hcover, fun hself => ?_,
    each_insertGrant_ok h₁₂⟩
  · rw [← hfull hnil]
    exact checkTargetNotGrantsAll_ok hspared
  · rcases hlocked with ⟨-, hlock⟩ | ⟨hno, -⟩
    · exact (check_ok hlock).2
    · simp [hself] at hno

theorem setUserRoles_ok {userId : Nat} {roleIds : List Nat}
    (h : (setUserRoles actor userId roleIds).run ans db = (db', .ok ())) :
    RoleChange actor db (.setRoles userId roleIds) db' := by
  obtain ⟨rs, after, hs⟩ := setUserRoles_spec h
  obtain ⟨-, hafter⟩ := simulatedEffectivePermissions_ok hs.simulated
  rw [← hs.ids, hs.written]
  refine .assign hs.found hs.spared hs.before fun r hr p hp => ?_
  exact hs.covers.imp id fun hsub => hsub ((hafter p).2 ⟨r, hr, hp⟩)

theorem roleChange_of_run {r : Request} (h : (r.prog actor).run ans db = (db', .ok ())) :
    RoleChange actor db r db' := by
  cases r with
  | create draw body => exact createRole_ok h
  | patch roleId body => exact patchRole_ok h
  | delete roleId => exact deleteRole_ok h
  | setRoles userId roleIds => exact setUserRoles_ok h

end Requests

end FloatCtf.Rbac
