import FloatCtf.Net.Text
import FloatCtf.Process.Prog
import FloatCtf.Rbac.Permission

/-!
# Roles and the accounts that hold them

An account holds roles, a role lists permissions or grants all of them, and the effective
permissions of an account are the union over its roles.  An administrator creates, edits and deletes
roles and replaces the roles of an account; each request is one transaction, and all but the
creation of a role first lock the row of the built-in role.

A transaction is a program of its statements.  The requests take the authorization context of their
actor, which the guard has read before.
-/

namespace FloatCtf.Rbac

open Process

/-! ## Rows -/

/-- The status of an account. -/
inductive AccountStatus where
  | active
  | disabled
  deriving DecidableEq

/-- An account. -/
structure User where
  id : Nat
  status : AccountStatus
  deriving DecidableEq

/-- A platform role; one that grants all needs no list of permissions. -/
structure PlatformRole where
  id : Nat
  key : String
  name : String
  description : String
  isProtected : Bool
  grantsAll : Bool
  deriving DecidableEq

/-- A permission that a role lists. -/
structure RolePermission where
  roleId : Nat
  permission : String
  deriving DecidableEq

/-- A role that an account has. -/
structure UserRole where
  userId : Nat
  roleId : Nat
  grantedBy : Option Nat
  deriving DecidableEq

/-- The tables that the role functions read and write. -/
structure Db where
  users : List User
  platformRoles : List PlatformRole
  rolePermissions : List RolePermission
  userPlatformRoles : List UserRole
  deriving DecidableEq

/-- The identifier of the built-in role. -/
def platformRoleSuperAdmin : Nat := 0

/-- The errors of the requests, with their messages. -/
inductive AppError where
  | validation (message : String)
  | notFound (message : String)
  | forbidden (message : String)
  | conflict (message : String)
  | database
  deriving DecidableEq

/-! ## Reads -/

namespace Db

variable (db : Db)

/-- The account with this id. -/
def findUser (id : Nat) : Option User := db.users.find? (·.id = id)

/-- The role with this id. -/
def findRole (id : Nat) : Option PlatformRole := db.platformRoles.find? (·.id = id)

/-- The roles of an account. -/
def roleIdsOfUser (userId : Nat) : List Nat :=
  (db.userPlatformRoles.filter (·.userId = userId)).map (·.roleId)

/-- The stored strings of several roles. -/
def permissionStrings (roleIds : List Nat) : List String :=
  (db.rolePermissions.filter (·.roleId ∈ roleIds)).map (·.permission)

/-- One of the roles has full power. -/
def anyGrantsAll (roleIds : List Nat) : Bool :=
  db.platformRoles.any fun r => decide (r.id ∈ roleIds) && r.grantsAll

/-- One of the account's roles grants all. -/
def userHasGrantsAll (userId : Nat) : Bool := db.anyGrantsAll (db.roleIdsOfUser userId)

/-- The roles of an account as rows. -/
def rolesOfUser (userId : Nat) : List PlatformRole :=
  db.platformRoles.filter (·.id ∈ db.roleIdsOfUser userId)

/-- The account has the role. -/
def holds (userId roleId : Nat) : Bool :=
  db.userPlatformRoles.any fun g => g.userId = userId && g.roleId = roleId

/-- The accounts that hold a role with full power. -/
def allPowerfulAccounts : List Nat :=
  ((db.userPlatformRoles.filter fun g => db.anyGrantsAll [g.roleId]).map (·.userId)).dedup

end Db

/-! ## Statements -/

/-- What kind of statement is sent. -/
inductive Stmt where
  | lock
  | select
  | count
  | insertRole
  | updateRole
  | deleteRole
  | deletePermissions
  | insertPermission
  | deleteGrants
  | insertGrant
  deriving DecidableEq

/-- A request on roles, statement by statement. -/
abbrev RoleM := Prog Stmt Db AppError

/-- A read that can fail like any statement. -/
def select {α : Type} (f : Db → α) : RoleM α := .query .select .database f

/-- A pure check inside a request. -/
def check {α : Type} : Except AppError α → RoleM α
  | .ok a => pure a
  | .error e => .fail e

/-- Runs the program where the condition holds. -/
def onlyIf (c : Bool) (p : RoleM Unit) : RoleM Unit := if c then p else pure ()

/-- A missing row is an error with this message. -/
def orNotFound {α : Type} (message : String) : Option α → Except AppError α
  | some a => .ok a
  | none => .error (.notFound message)

/-- Inserts a role whose id and key are free. -/
def insertRole (role : PlatformRole) : RoleM Unit :=
  .exec .insertRole .database fun db =>
    if db.platformRoles.any fun r => r.id = role.id || r.key = role.key then .error .database
    else .ok ({ db with platformRoles := db.platformRoles ++ [role] }, ())

/-- Inserts a permission of a role that is there, once. -/
def insertPermission (row : RolePermission) : RoleM Unit :=
  .exec .insertPermission .database fun db =>
    if row ∈ db.rolePermissions || (db.findRole row.roleId).isNone then .error .database
    else .ok ({ db with rolePermissions := db.rolePermissions ++ [row] }, ())

/-- Changes the name and the description where they are given. -/
def updateRole (id : Nat) (name description : Option String) : RoleM Unit :=
  .exec .updateRole .database fun db =>
    .ok ({ db with
      platformRoles := db.platformRoles.map fun r =>
        if r.id = id then
          { r with name := name.getD r.name, description := description.getD r.description }
        else r }, ())

/-- Removes what a role lists. -/
def deletePermissions (roleId : Nat) : RoleM Unit :=
  .exec .deletePermissions .database fun db =>
    .ok ({ db with rolePermissions := db.rolePermissions.filter (·.roleId ≠ roleId) }, ())

/-- The permissions and the grants of the role go with it. -/
def deleteRoleRow (id : Nat) : RoleM Unit :=
  .exec .deleteRole .database fun db =>
    .ok ({ db with
      platformRoles := db.platformRoles.filter (·.id ≠ id)
      rolePermissions := db.rolePermissions.filter (·.roleId ≠ id)
      userPlatformRoles := db.userPlatformRoles.filter (·.roleId ≠ id) }, ())

/-- Takes all roles from an account. -/
def deleteGrants (userId : Nat) : RoleM Unit :=
  .exec .deleteGrants .database fun db =>
    .ok ({ db with userPlatformRoles := db.userPlatformRoles.filter (·.userId ≠ userId) }, ())

/-- Gives a role to an account; both have to be there. -/
def insertGrant (row : UserRole) : RoleM Unit :=
  .exec .insertGrant .database fun db =>
    if db.holds row.userId row.roleId || (db.findUser row.userId).isNone ||
        (db.findRole row.roleId).isNone then .error .database
    else .ok ({ db with userPlatformRoles := db.userPlatformRoles ++ [row] }, ())

/-! ## Authorization -/

/-- Who makes a request, as it was resolved at the start. -/
structure AuthContext where
  userId : Nat
  permissions : PermissionSet
  grantsAll : Bool
  deriving DecidableEq

/-- The actor has the permission. -/
def AuthContext.has (actor : AuthContext) (p : Permission) : Bool :=
  actor.grantsAll || decide (p ∈ actor.permissions)

/-- The permissions of a list of roles, and the stored names that are unknown. -/
def permissionsOfRoles (roleIds : List Nat) : RoleM (PermissionSet × List String) :=
  if roleIds = [] then pure (∅, [])
  else do
    let full ← select fun db => db.anyGrantsAll roleIds
    if full then pure (.all, [])
    else
      let rows ← select fun db => db.permissionStrings roleIds
      pure (PermissionSet.fromStrings rows)

/-- The account has the super admin role, or a role that grants all. -/
def hasAllAccess (userId : Nat) : RoleM Bool := do
  let roleIds ← select fun db => db.roleIdsOfUser userId
  if roleIds = [] then pure false
  else if platformRoleSuperAdmin ∈ roleIds then pure true
  else select fun db => db.anyGrantsAll roleIds

/-- The permissions of all roles of an account. -/
def resolvePermissions (userId : Nat) : RoleM PermissionSet := do
  let roleIds ← select fun db => db.roleIdsOfUser userId
  let (set, _) ← permissionsOfRoles roleIds
  pure set

/-- The actor of a request, from what is stored. -/
def resolveAuthContext (userId : Nat) : RoleM AuthContext := do
  let grantsAll ← hasAllAccess userId
  if grantsAll then pure { userId, permissions := .all, grantsAll }
  else
    let permissions ← resolvePermissions userId
    pure { userId, permissions, grantsAll }

/-- The guard of a request. -/
def requirePermission (userId : Nat) (p : Permission) : RoleM AuthContext := do
  let actor ← resolveAuthContext userId
  if actor.has p then pure actor
  else .fail (.forbidden ("没有权限执行该操作（需要 " ++ p.asStr ++ "）"))

/-! ## The escalation guard -/

namespace EscalationGuard

variable (actor : AuthContext)

/-- Nobody hands out more than they have. -/
def assertSubset (subject : PermissionSet) (what : String) : Except AppError Unit :=
  if actor.grantsAll then .ok ()
  else if subject ⊆ actor.permissions then .ok ()
  else
    let exceeded := (subject.toList.filter (· ∉ actor.permissions)).map (·.asStr)
    .error (.forbidden ("反提权拒绝：" ++ what ++ " 超出你自身的权限（" ++
      ", ".intercalate exceeded ++ "）。\n你不能授予或保留自己没有的权限。"))

/-- The actor covers a role before and after its change. -/
def checkRolePermissions (before after : PermissionSet) : Except AppError Unit := do
  assertSubset actor before "该角色**变更前**的权限集"
  assertSubset actor after "该角色**变更后**的权限集"

/-- The actor covers an account before and after its change. -/
def checkTargetPermissions (before after : PermissionSet) : Except AppError Unit := do
  assertSubset actor before "目标账号**变更前**的有效权限"
  assertSubset actor after "目标账号**变更后**的有效权限"

/-- Only full power may touch an account with full power. -/
def checkTargetNotGrantsAll (targetGrantsAll : Bool) : Except AppError Unit :=
  if targetGrantsAll && !actor.grantsAll then
    .error (.forbidden "你不能修改全权账号（super-admin）的角色集合")
  else .ok ()

/-- Without full power, an actor keeps the permission to manage roles. -/
def checkSelfLockout (after : PermissionSet) : Except AppError Unit :=
  if actor.grantsAll then .ok ()
  else if .rolesManage ∈ after then .ok ()
  else .error (.forbidden ("自锁死防护：这会让**你自己**失去 roles.manage，之后无法再修改角色/权限。\n" ++
    "请先由另一位管理员授予你该权限，或保留至少一个持有它的角色。"))

end EscalationGuard

/-! ## The last account with full power -/

/-- The row lock that every change of roles takes first. -/
def lockSuperAdminRole : RoleM Unit := .query .lock .database fun _ => ()

/-- The refusal that protects the last super admin. -/
def lastSuperAdmin : AppError :=
  .forbidden ("最后一个超管保护：该操作会让平台不再有任何全权账号，从而无法恢复。\n" ++
    "请先给另一个账号授予 super-admin 角色。")

/-- Somebody has full power after the change. -/
def assertNotLastSuperAdmin : RoleM Unit := do
  let remaining ← .query .count .database fun db => db.allPowerfulAccounts.length
  if remaining < 1 then .fail lastSuperAdmin else pure ()

/-! ## Service functions -/

/-- The permissions of an account as it stands. -/
def effectivePermissions (userId : Nat) : RoleM PermissionSet := do
  let roleIds ← select fun db => db.roleIdsOfUser userId
  let (set, _) ← permissionsOfRoles roleIds
  pure set

/-- The permissions that the roles would give, without writing anything. -/
def simulatedEffectivePermissions (roles : List PlatformRole) : RoleM PermissionSet :=
  if roles.any (·.grantsAll) then pure .all
  else do
    let rows ← select fun db => db.permissionStrings (roles.map (·.id))
    pure (PermissionSet.fromStrings rows).1

/-- The roles of an account, read in two statements. -/
def rolesOfUser (userId : Nat) : RoleM (List PlatformRole) := do
  let roleIds ← select fun db => db.roleIdsOfUser userId
  if roleIds = [] then pure []
  else select fun db => db.platformRoles.filter (·.id ∈ roleIds)

/-- What the actor will have when the role lists `after`. -/
def permissionsAfterRoleChange (actorId changedRoleId : Nat) (after : PermissionSet) :
    RoleM PermissionSet := do
  let roles ← rolesOfUser actorId
  if !roles.any (·.id = changedRoleId) then effectivePermissions actorId
  else
    let otherIds := (roles.filter (·.id ≠ changedRoleId)).map (·.id)
    let (merged, _) ← permissionsOfRoles otherIds
    match roles.find? (·.id = changedRoleId) with
    | some role => pure (if role.grantsAll then .all else merged ∪ after)
    | none => pure (merged ∪ after)

/-- What the actor will have without the role. -/
def permissionsAfterRoleRemoval (actorId removedRoleId : Nat) : RoleM PermissionSet := do
  let roles ← rolesOfUser actorId
  let others := roles.filter (·.id ≠ removedRoleId)
  if others.isEmpty then pure ∅
  else
    let (set, _) ← permissionsOfRoles (others.map (·.id))
    pure (if others.any (·.grantsAll) then .all else set)

/-! ## Requests -/

/-- The permissions of a list of names, all of which have to be known. -/
def parsePermissions (raw : List String) : Except AppError PermissionSet :=
  let (set, unknown) := PermissionSet.fromStrings raw
  if unknown.isEmpty then .ok set
  else .error (.validation ("包含未知权限: " ++ ", ".intercalate unknown ++
    "（权限目录以代码为准，请核对 /api/admin/permissions）"))

/-- A character of a role key. -/
def isKeyChar (c : Char) : Bool :=
  (('a' ≤ c && c ≤ 'z') || ('0' ≤ c && c ≤ '9')) || c = '-'

/-- The checks of a role key: its length, its first character and the rest. -/
def validateRoleKey (key : String) : Except AppError Unit :=
  let key := Text.trim key
  match key.toList with
  | [] => .error (.validation "角色 key 长度必须为 1..=64")
  | first :: rest =>
    if 64 < key.utf8ByteSize then .error (.validation "角色 key 长度必须为 1..=64")
    else if !('a' ≤ first && first ≤ 'z') then
      .error (.validation "角色 key 必须以小写字母开头（^[a-z][a-z0-9-]\x7b1,63\x7d$）")
    else if !rest.all isKeyChar then
      .error (.validation "角色 key 只允许小写字母、数字与连字符")
    else if key.utf8ByteSize < 2 then .error (.validation "角色 key 至少 2 个字符")
    else .ok ()

/-- The body of a request that creates a role. -/
structure CreateRoleRequest where
  key : String
  name : String
  description : Option String
  permissions : List String

/-- The body of a request that changes a role; what is missing stays. -/
structure PatchRoleRequest where
  name : Option String
  description : Option String
  permissions : Option (List String)

/-- Lists the permissions one by one. -/
def insertPermissions (roleId : Nat) (permissions : PermissionSet) : RoleM Unit :=
  .each permissions.toList fun p => insertPermission { roleId, permission := p.asStr }

/-- `draw` is the fresh identifier. -/
def createRole (actor : AuthContext) (draw : Nat) (body : CreateRoleRequest) : RoleM Unit := do
  check (validateRoleKey body.key)
  if Text.trim body.name = "" then .fail (.validation "角色名称不能为空")
  else
    let requested ← check (parsePermissions body.permissions)
    check (EscalationGuard.checkRolePermissions actor ∅ requested)
    insertRole
      { id := draw, key := Text.trim body.key, name := Text.trim body.name
        description := body.description.getD "", isProtected := false, grantsAll := false }
    insertPermissions draw requested

/-- The message for a role that is not there. -/
def roleNotFound (roleId : Nat) : String := "角色 " ++ toString roleId ++ " 不存在"

/-- The known permissions that the role lists. -/
def listedPermissions (roleId : Nat) : RoleM PermissionSet := do
  let rows ← select fun db => db.permissionStrings [roleId]
  pure (PermissionSet.fromStrings rows).1

/-- The name that an edit writes. -/
def patchedName : Option String → Except AppError (Option String)
  | none => .ok none
  | some name =>
    if Text.trim name = "" then .error (.validation "角色名称不能为空")
    else .ok (some (Text.trim name))

/-- The permissions of the role after an edit that may replace them. -/
def patchedPermissions (before : PermissionSet) :
    Option (List String) → Except AppError PermissionSet
  | some raw => parsePermissions raw
  | none => .ok before

/-- Replaces what a role lists. -/
def replacePermissions (roleId : Nat) (permissions : PermissionSet) : RoleM Unit := do
  deletePermissions roleId
  insertPermissions roleId permissions

/-- An actor that holds the edited role keeps the permission to manage roles. -/
def checkLockoutByChange (actor : AuthContext) (roleId : Nat) (after : PermissionSet) :
    RoleM Unit := do
  let left ← permissionsAfterRoleChange actor.userId roleId after
  check (EscalationGuard.checkSelfLockout actor left)

/-- `patch_role`: changes a role within what the actor covers. -/
def patchRole (actor : AuthContext) (roleId : Nat) (body : PatchRoleRequest) : RoleM Unit := do
  lockSuperAdminRole
  let found ← select fun db => db.findRole roleId
  let role ← check (orNotFound (roleNotFound roleId) found)
  let before ← listedPermissions roleId
  let after ← check (patchedPermissions before body.permissions)
  if role.isProtected && body.permissions.isSome then
    .fail (.conflict "内置角色的权限集不可修改（它是引导不变式的一部分）")
  else
    check (EscalationGuard.checkRolePermissions actor before after)
    let name ← check (patchedName body.name)
    updateRole roleId name body.description
    onlyIf body.permissions.isSome (replacePermissions roleId after)
    let held ← select fun db => db.holds actor.userId roleId
    onlyIf (held && body.permissions.isSome) (checkLockoutByChange actor roleId after)
    assertNotLastSuperAdmin

/-- An actor that holds the role to be deleted keeps the permission to manage roles. -/
def checkLockoutByRemoval (actor : AuthContext) (roleId : Nat) : RoleM Unit := do
  let left ← permissionsAfterRoleRemoval actor.userId roleId
  check (EscalationGuard.checkSelfLockout actor left)

/-- `delete_role`: removes a role that is not protected. -/
def deleteRole (actor : AuthContext) (roleId : Nat) : RoleM Unit := do
  lockSuperAdminRole
  let found ← select fun db => db.findRole roleId
  let role ← check (orNotFound (roleNotFound roleId) found)
  if role.isProtected then
    .fail (.conflict "系统内置角色不可删除（它是引导不变式的一部分）")
  else
    let before ← listedPermissions roleId
    check (EscalationGuard.checkRolePermissions actor before ∅)
    let held ← select fun db => db.holds actor.userId roleId
    onlyIf held (checkLockoutByRemoval actor roleId)
    deleteRoleRow roleId
    assertNotLastSuperAdmin

/-- Every requested role must exist. -/
def findRequestedRoles : List Nat → RoleM (List PlatformRole)
  | [] => pure []
  | id :: ids => do
    let found ← select fun db => db.findRole id
    match found with
    | none => .fail (.validation (roleNotFound id))
    | some role => do
      let rest ← findRequestedRoles ids
      pure (role :: rest)

/-- Whether the target has full power, read only when its roles are to be taken away. -/
def beforeGrantsAll (userId : Nat) (requested : List PlatformRole) : RoleM Bool :=
  if requested.isEmpty then select fun db => db.userHasGrantsAll userId else pure false

/-- `set_user_roles`: replaces the roles of an account. -/
def setUserRoles (actor : AuthContext) (userId : Nat) (roleIds : List Nat) : RoleM Unit := do
  lockSuperAdminRole
  let target ← select fun db => db.findUser userId
  let _ ← check (orNotFound ("账号 " ++ toString userId ++ " 不存在") target)
  let requested ← findRequestedRoles roleIds
  let before ← effectivePermissions userId
  let full ← beforeGrantsAll userId requested
  check (EscalationGuard.checkTargetNotGrantsAll actor full)
  let after ← simulatedEffectivePermissions requested
  check (EscalationGuard.checkTargetPermissions actor before after)
  onlyIf (userId = actor.userId) (check (EscalationGuard.checkSelfLockout actor after))
  deleteGrants userId
  .each requested fun role =>
    insertGrant { userId, roleId := role.id, grantedBy := some actor.userId }
  assertNotLastSuperAdmin

/-- `DELETE … WHERE id IN …`; the grants of the accounts go with them, and the grants that they made
forget who made them. -/
def Db.adminDeleteUser (db : Db) (ids : List Nat) : Db :=
  { db with
    users := db.users.filter (·.id ∉ ids)
    userPlatformRoles := (db.userPlatformRoles.filter (·.userId ∉ ids)).map fun g =>
      { g with grantedBy := g.grantedBy.filter (· ∉ ids) } }

end FloatCtf.Rbac
