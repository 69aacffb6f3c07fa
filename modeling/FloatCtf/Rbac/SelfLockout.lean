import FloatCtf.Rbac.Escalation

/-!
# An actor keeps the permission to manage roles

Before or after its write, a request computes what the actor, or the account whose roles it
replaces, has after it.  Three functions do so, one for each kind of request, each with its own
treatment of full power and of roles that are not held.

`lockout_spec` shows that each of them gives what the account has after the write, and that an actor
without full power that manages roles still manages them after its request.
-/

namespace FloatCtf.Rbac

open Process

/-! ## What the functions compute -/

/-- The statements of a request are answered. -/
def answered (_ : Stmt) : Bool := true

section Reads

variable {ans : Stmt → Bool} {db db' : Db} {u roleId : Nat} {p : Permission}

theorem run_select {α : Type} (f : Db → α) : (select f).run answered db = (db, .ok (f db)) := rfl

theorem run_permissionsOfRoles (ids : List Nat) : ∃ unknown,
    (permissionsOfRoles ids).run answered db = (db, .ok (db.permissionsOf ids, unknown)) := by
  have hany (h : ids = []) : db.permissionsOf ids = ∅ := by
    ext p
    simp [h, mem_permissionsOf]
  unfold permissionsOfRoles
  split_ifs with hnil
  · exact ⟨[], by rw [hany hnil]; rfl⟩
  · rw [Prog.run_bind, run_select]
    cases hfull : db.anyGrantsAll ids with
    | true => exact ⟨[], by simp [Db.permissionsOf, hfull]⟩
    | false =>
      refine ⟨(PermissionSet.fromStrings (db.permissionStrings ids)).2, ?_⟩
      simp [Db.permissionsOf, hfull, run_select]

theorem run_effectivePermissions :
    (effectivePermissions u).run answered db = (db, .ok (db.effective u)) := by
  obtain ⟨unknown, hrun⟩ := @run_permissionsOfRoles db (db.roleIdsOfUser u)
  simp only [effectivePermissions, Prog.run_bind, run_select, hrun, Prog.run_pure, Db.effective]

theorem run_rolesOfUser : (rolesOfUser u).run answered db = (db, .ok (db.rolesOfUser u)) := by
  unfold rolesOfUser
  rw [Prog.run_bind, run_select]
  by_cases hnil : db.roleIdsOfUser u = []
  · simp [hnil, Db.rolesOfUser]
  · simp [hnil, Db.rolesOfUser, run_select]

theorem mem_rolesOfUser {r : PlatformRole} :
    r ∈ db.rolesOfUser u ↔ r ∈ db.platformRoles ∧ r.id ∈ db.roleIdsOfUser u := by
  simp [Db.rolesOfUser]

/-- The roles of an account are there. -/
theorem exists_rolesOfUser (hok : db.Consistent) {id : Nat} :
    id ∈ db.roleIdsOfUser u ↔ ∃ r ∈ db.rolesOfUser u, r.id = id := by
  constructor
  · intro hid
    obtain ⟨g, hg, -, rfl⟩ := mem_roleIdsOfUser.1 hid
    obtain ⟨r, hr, hrid⟩ := hok.granted g hg
    exact ⟨r, mem_rolesOfUser.2 ⟨hr, hrid ▸ hid⟩, hrid⟩
  · rintro ⟨r, hr, rfl⟩
    exact (mem_rolesOfUser.1 hr).2

/-- The roles of an account without one of them. -/
theorem mem_otherRoles (hok : db.Consistent) {id : Nat} :
    id ∈ ((db.rolesOfUser u).filter (·.id ≠ roleId)).map (·.id) ↔
      id ∈ db.roleIdsOfUser u ∧ id ≠ roleId := by
  rw [exists_rolesOfUser hok]
  simp only [List.mem_map, List.mem_filter, decide_eq_true_eq]
  constructor
  · rintro ⟨r, ⟨hr, hne⟩, rfl⟩
    exact ⟨⟨r, hr, rfl⟩, hne⟩
  · rintro ⟨⟨r, hr, rfl⟩, hne⟩
    exact ⟨r, ⟨hr, hne⟩, rfl⟩

theorem full_iff_grantsAll (hok : db.Consistent) {r : PlatformRole} (hr : r ∈ db.platformRoles) :
    db.Full r.id ↔ r.grantsAll = true := by
  constructor
  · rintro ⟨r', hr', hid, hg⟩
    rwa [← Table.eq_of_key hok.keyed hr' hr hid]
  · exact fun hg => ⟨r, hr, rfl, hg⟩

/-- What an account has when a role lists `after`. -/
def HasAfterChange (db : Db) (u roleId : Nat) (after : PermissionSet) (p : Permission) : Prop :=
  (∃ id ∈ db.roleIdsOfUser u, id ≠ roleId ∧ db.Gives id p) ∨
    roleId ∈ db.roleIdsOfUser u ∧ (db.Full roleId ∨ p ∈ after)

theorem permissionsAfterRoleChange_ok (hok : db.Consistent) {after set : PermissionSet}
    (h : (permissionsAfterRoleChange u roleId after).run ans db = (db', .ok set)) :
    p ∈ set ↔ HasAfterChange db u roleId after p := by
  obtain ⟨db₁, rs, h₁, k₁⟩ := Prog.run_bind_inv ans h
  obtain ⟨rfl, rfl⟩ := rolesOfUser_ok h₁
  have hheld : (db₁.rolesOfUser u).any (·.id = roleId) = true ↔
      roleId ∈ db₁.roleIdsOfUser u := by
    rw [exists_rolesOfUser hok]
    simp
  unfold HasAfterChange
  split_ifs at k₁ with hno
  · have hnot : roleId ∉ db₁.roleIdsOfUser u := by
      rw [← hheld]
      simpa using hno
    obtain ⟨-, rfl⟩ := effectivePermissions_ok k₁
    rw [mem_effective]
    constructor
    · rintro ⟨id, hid, hg⟩
      exact .inl ⟨id, hid, fun heq => hnot (heq ▸ hid), hg⟩
    · rintro (⟨id, hid, -, hg⟩ | ⟨hid, -⟩)
      · exact ⟨id, hid, hg⟩
      · exact absurd hid hnot
  · have hid : roleId ∈ db₁.roleIdsOfUser u := hheld.1 (by simpa using hno)
    obtain ⟨db₂, r, h₂, k₂⟩ := Prog.run_bind_inv ans k₁
    obtain ⟨-, hr⟩ := permissionsOfRoles_ok h₂
    have hothers : p ∈ r.1 ↔ ∃ id ∈ db₁.roleIdsOfUser u, id ≠ roleId ∧ db₁.Gives id p := by
      rw [hr, mem_permissionsOf]
      simp only [mem_otherRoles hok, and_assoc]
    obtain ⟨role, hrole, hroleId⟩ := (exists_rolesOfUser hok).1 hid
    have hfind : (db₁.rolesOfUser u).find? (·.id = roleId) = some role := by
      have hkeyed : Table.Keyed PlatformRole.id (db₁.rolesOfUser u) :=
        hok.keyed.sublist (List.filter_sublist.map _)
      exact hroleId ▸ Table.find_of_mem hkeyed hrole
    have hfull : db₁.Full roleId ↔ role.grantsAll = true :=
      hroleId ▸ full_iff_grantsAll hok (mem_rolesOfUser.1 hrole).1
    dsimp only at k₂
    rw [hfind] at k₂
    cases k₂
    rw [← hothers, hfull]
    by_cases hg : role.grantsAll = true <;> simp [hg, hid]

theorem permissionsAfterRoleRemoval_ok (hok : db.Consistent) {set : PermissionSet}
    (h : (permissionsAfterRoleRemoval u roleId).run ans db = (db', .ok set)) :
    p ∈ set ↔ ∃ id ∈ db.roleIdsOfUser u, id ≠ roleId ∧ db.Gives id p := by
  obtain ⟨db₁, rs, h₁, k₁⟩ := Prog.run_bind_inv ans h
  obtain ⟨rfl, rfl⟩ := rolesOfUser_ok h₁
  have hothers : p ∈ db₁.permissionsOf (((db₁.rolesOfUser u).filter (·.id ≠ roleId)).map (·.id)) ↔
      ∃ id ∈ db₁.roleIdsOfUser u, id ≠ roleId ∧ db₁.Gives id p := by
    rw [mem_permissionsOf]
    simp only [mem_otherRoles hok, and_assoc]
  rw [← hothers]
  dsimp only at k₁
  by_cases hnone : ((db₁.rolesOfUser u).filter (·.id ≠ roleId)).isEmpty = true
  · rw [if_pos hnone] at k₁
    cases k₁
    rw [List.isEmpty_iff.1 hnone]
    simp [mem_permissionsOf]
  · rw [if_neg hnone] at k₁
    obtain ⟨db₂, r, h₂, k₂⟩ := Prog.run_bind_inv ans k₁
    obtain ⟨-, hr⟩ := permissionsOfRoles_ok h₂
    cases k₂
    split_ifs with hfull
    · obtain ⟨role, hrole, hg⟩ := List.any_eq_true.1 hfull
      have hmem := (mem_rolesOfUser.1 (List.mem_filter.1 hrole).1).1
      have hgives : db₁.Gives role.id p := .inl ((full_iff_grantsAll hok hmem).2 hg)
      exact iff_of_true (PermissionSet.mem_all p)
        (mem_permissionsOf.2 ⟨role.id, List.mem_map_of_mem hrole, hgives⟩)
    · rw [hr]

/-- The three functions return. -/
theorem run_permissionsAfterRoleChange (after : PermissionSet) : ∃ set,
    (permissionsAfterRoleChange u roleId after).run answered db = (db, .ok set) := by
  unfold permissionsAfterRoleChange
  rw [Prog.run_bind, run_rolesOfUser]
  dsimp only
  split_ifs
  · exact ⟨_, run_effectivePermissions⟩
  · obtain ⟨unknown, hrun⟩ := @run_permissionsOfRoles db
      (((db.rolesOfUser u).filter (·.id ≠ roleId)).map (·.id))
    rw [Prog.run_bind, hrun]
    dsimp only
    split <;> exact ⟨_, rfl⟩

theorem run_permissionsAfterRoleRemoval : ∃ set,
    (permissionsAfterRoleRemoval u roleId).run answered db = (db, .ok set) := by
  unfold permissionsAfterRoleRemoval
  rw [Prog.run_bind, run_rolesOfUser]
  dsimp only
  by_cases hnone : ((db.rolesOfUser u).filter (·.id ≠ roleId)).isEmpty = true
  · rw [if_pos hnone]
    exact ⟨_, rfl⟩
  · obtain ⟨unknown, hrun⟩ := @run_permissionsOfRoles db
      (((db.rolesOfUser u).filter (·.id ≠ roleId)).map (·.id))
    rw [if_neg hnone, Prog.run_bind, hrun]
    exact ⟨_, rfl⟩

theorem run_simulatedEffectivePermissions (rs : List PlatformRole) : ∃ set,
    (simulatedEffectivePermissions rs).run answered db = (db, .ok set) := by
  unfold simulatedEffectivePermissions
  split_ifs <;> exact ⟨_, rfl⟩

end Reads

/-! ## What the writes do -/

section Writes

variable {ans : Stmt → Bool} {db db' : Db} {u roleId : Nat} {p : Permission}

/-- The role lists other permissions, and no role gains or loses full power. -/
theorem gives_replaced {f : PlatformRole → PlatformRole} (hf : Renames f) (after : PermissionSet)
    (id : Nat) : (db.replaced f roleId after).Gives id p ↔
      db.Full id ∨ (id ≠ roleId ∧ p ∈ db.listed id) ∨ (id = roleId ∧ p ∈ after) := by
  have hfull : (db.replaced f roleId after).Full id ↔ db.Full id := full_map hf rfl id
  rw [gives_iff, hfull, mem_listed, mem_listed]
  refine or_congr_right ?_
  simp only [Db.replaced, List.mem_append, List.mem_filter, decide_eq_true_eq]
  constructor
  · rintro ⟨row, ⟨hrow, hne⟩ | hrow, rfl, hp⟩
    · exact .inl ⟨hne, row, hrow, rfl, hp⟩
    · exact .inr (mem_listed_rowsOf hrow rfl hp)
  · rintro (⟨hne, row, hrow, rfl, hp⟩ | ⟨rfl, hp⟩)
    · exact ⟨row, .inl ⟨hrow, hne⟩, rfl, hp⟩
    · have hrow : ⟨id, p.asStr⟩ ∈ rowsOf id after :=
        List.mem_map.2 ⟨p, PermissionSet.mem_toList.2 hp, rfl⟩
      exact ⟨_, .inr hrow, rfl, Permission.fromStr_asStr p⟩

/-- What an account has, by the role and the others. -/
theorem mem_effective_split : p ∈ db.effective u ↔
    (∃ id ∈ db.roleIdsOfUser u, id ≠ roleId ∧ db.Gives id p) ∨
      roleId ∈ db.roleIdsOfUser u ∧ db.Gives roleId p := by
  rw [mem_effective]
  constructor
  · rintro ⟨id, hid, hg⟩
    by_cases hrole : id = roleId
    · exact .inr ⟨hrole ▸ hid, hrole ▸ hg⟩
    · exact .inl ⟨id, hid, hrole, hg⟩
  · rintro (⟨id, hid, -, hg⟩ | ⟨hid, hg⟩)
    · exact ⟨id, hid, hg⟩
    · exact ⟨roleId, hid, hg⟩

theorem hasAfterChange_listed :
    HasAfterChange db u roleId (db.listed roleId) p ↔ p ∈ db.effective u := by
  rw [@mem_effective_split _ _ roleId, HasAfterChange, @gives_iff _ roleId]

/-- A role that the account does not hold does not matter. -/
theorem hasAfterChange_of_not_mem (h : roleId ∉ db.roleIdsOfUser u) (after : PermissionSet) :
    HasAfterChange db u roleId after p ↔ p ∈ db.effective u := by
  simp [@mem_effective_split _ _ roleId, HasAfterChange, h]

/-- The roles of the accounts stay, and the role lists other permissions. -/
theorem mem_effective_replaced {f : PlatformRole → PlatformRole} (hf : Renames f)
    (after : PermissionSet) :
    p ∈ (db.replaced f roleId after).effective u ↔ HasAfterChange db u roleId after p := by
  have hids : (db.replaced f roleId after).roleIdsOfUser u = db.roleIdsOfUser u := rfl
  rw [@mem_effective_split _ _ roleId, hids, HasAfterChange]
  simp only [gives_replaced hf, gives_iff, ne_eq, not_true_eq_false, false_and, true_and, false_or]
  refine or_congr_left (exists_congr fun id => and_congr_right fun _ => ?_)
  exact and_congr_right fun hne => by simp [hne]

/-- What is computed after the write is what is computed before it. -/
theorem hasAfterChange_replaced {f : PlatformRole → PlatformRole} (hf : Renames f)
    (after : PermissionSet) :
    HasAfterChange (db.replaced f roleId after) u roleId after p ↔
      HasAfterChange db u roleId after p := by
  have hids : (db.replaced f roleId after).roleIdsOfUser u = db.roleIdsOfUser u := rfl
  have hfull : (db.replaced f roleId after).Full roleId ↔ db.Full roleId :=
    full_map hf rfl roleId
  simp only [HasAfterChange, hids, hfull, gives_replaced hf, gives_iff]
  refine or_congr_left (exists_congr fun id => and_congr_right fun _ => ?_)
  exact and_congr_right fun hne => by simp [hne]

/-- An edit that does not ask for permissions leaves them as they are. -/
theorem effective_renamed {f : PlatformRole → PlatformRole} (hf : Renames f) :
    Db.effective { db with platformRoles := db.platformRoles.map f } u = db.effective u := by
  ext p
  have hfull (id : Nat) : Db.Full { db with platformRoles := db.platformRoles.map f } id ↔
      db.Full id := full_map hf rfl id
  have hgives (id : Nat) : Db.Gives { db with platformRoles := db.platformRoles.map f } id p ↔
      db.Gives id p := or_congr_left (hfull id)
  simp only [mem_effective, hgives]
  rfl

theorem mem_effective_dropRole : p ∈ (db.dropRole roleId).effective u ↔
    ∃ id ∈ db.roleIdsOfUser u, id ≠ roleId ∧ db.Gives id p := by
  rw [mem_effective]
  refine exists_congr fun id => ?_
  rw [mem_roleIds_dropRole, and_assoc]
  refine and_congr_right fun _ => and_congr_right fun hne => ⟨gives_dropRole, fun hg => ?_⟩
  rcases hg with hf | ⟨row, hrow, rfl, hp⟩
  · exact .inl (full_dropRole.2 ⟨hf, hne⟩)
  · exact .inr ⟨row, List.mem_filter.2 ⟨hrow, decide_eq_true hne⟩, rfl, hp⟩

theorem mem_effective_assignRoles (hok : db.Consistent) {rs : List PlatformRole} {g : Option Nat}
    (hrs : ∀ r ∈ rs, r ∈ db.platformRoles) : p ∈ (db.assignRoles u rs g).effective u ↔
      ∃ r ∈ rs, r.grantsAll = true ∨ p ∈ db.listed r.id := by
  have hgives (id : Nat) : (db.assignRoles u rs g).Gives id p ↔ db.Gives id p := Iff.rfl
  simp only [mem_effective, mem_roleIds_assignRoles, hgives, gives_iff]
  constructor
  · rintro ⟨id, ⟨hne, -⟩ | ⟨-, hid⟩, hg⟩
    · exact absurd rfl hne
    · obtain ⟨r, hr, rfl⟩ := List.mem_map.1 hid
      exact ⟨r, hr, hg.imp_left (full_iff_grantsAll hok (hrs r hr)).1⟩
  · rintro ⟨r, hr, hg⟩
    exact ⟨r.id, .inr ⟨trivial, List.mem_map_of_mem hr⟩,
      hg.imp_left (full_iff_grantsAll hok (hrs r hr)).2⟩

/-- The permissions that an edit leaves are those that were computed for it. -/
theorem Patched.mem_effective {actor : AuthContext} {body : PatchRoleRequest}
    {f : PlatformRole → PlatformRole} {after : PermissionSet}
    (h : Patched ans db db' actor roleId body f after) :
    p ∈ db'.effective u ↔ HasAfterChange db u roleId after p := by
  rcases h.written with ⟨hnone, rfl⟩ | ⟨-, rfl, -⟩
  · have hasked := h.asked
    rw [hnone] at hasked
    cases hasked
    rw [effective_renamed h.renames, hasAfterChange_listed]
  · exact mem_effective_replaced h.renames after

end Writes

/-! ## The lockout -/

section Lockout

variable {ans : Stmt → Bool} {db db' : Db} {actor : AuthContext}

theorem checkSelfLockout_ok {after : PermissionSet} (hplain : actor.grantsAll = false)
    (h : EscalationGuard.checkSelfLockout actor after = .ok ()) : .rolesManage ∈ after := by
  unfold EscalationGuard.checkSelfLockout at h
  split_ifs at h with hall hmem
  · rw [hplain] at hall
    cases hall
  · exact hmem

theorem holds_iff {userId roleId : Nat} :
    db.holds userId roleId = true ↔ roleId ∈ db.roleIdsOfUser userId := by
  rw [mem_roleIdsOfUser]
  simp [Db.holds]

theorem patch_keeps (hok : db.Consistent) (hplain : actor.grantsAll = false) {roleId : Nat}
    {body : PatchRoleRequest} (h : (patchRole actor roleId body).run ans db = (db', .ok ()))
    (hact : .rolesManage ∈ db.effective actor.userId) :
    .rolesManage ∈ db'.effective actor.userId := by
  have hok' := (patchRole_ok h).consistent hok
  obtain ⟨f, after, hp⟩ := patchRole_spec h
  by_cases hheld : roleId ∈ db.roleIdsOfUser actor.userId
  · rcases hp.written with ⟨-, rfl⟩ | ⟨-, rfl, hlock⟩
    · rwa [effective_renamed hp.renames]
    · obtain ⟨db₁, left, h₁, k₁⟩ := Prog.run_bind_inv ans (hlock (holds_iff.2 hheld))
      have hleft := checkSelfLockout_ok hplain (check_ok k₁).2
      rw [permissionsAfterRoleChange_ok hok' h₁, hasAfterChange_replaced hp.renames] at hleft
      rwa [mem_effective_replaced hp.renames]
  · rwa [hp.mem_effective, hasAfterChange_of_not_mem hheld]

theorem delete_keeps (hok : db.Consistent) (hplain : actor.grantsAll = false) {roleId : Nat}
    (h : (deleteRole actor roleId).run ans db = (db', .ok ()))
    (hact : .rolesManage ∈ db.effective actor.userId) :
    .rolesManage ∈ db'.effective actor.userId := by
  obtain ⟨rfl, hlock⟩ := deleteRole_spec h
  rw [mem_effective_dropRole]
  by_cases hheld : roleId ∈ db.roleIdsOfUser actor.userId
  · obtain ⟨db₁, left, h₁, k₁⟩ := Prog.run_bind_inv ans (hlock (holds_iff.2 hheld))
    have hleft := checkSelfLockout_ok hplain (check_ok k₁).2
    rwa [permissionsAfterRoleRemoval_ok hok h₁] at hleft
  · obtain ⟨id, hid, hg⟩ := mem_effective.1 hact
    exact ⟨id, hid, fun heq => hheld (heq ▸ hid), hg⟩

theorem setRoles_keeps (hok : db.Consistent) (hplain : actor.grantsAll = false) {userId : Nat}
    {roleIds : List Nat} (h : (setUserRoles actor userId roleIds).run ans db = (db', .ok ()))
    (hact : .rolesManage ∈ db.effective actor.userId) :
    .rolesManage ∈ db'.effective actor.userId := by
  obtain ⟨rs, after, hs⟩ := setUserRoles_spec h
  rw [hs.written]
  by_cases hself : userId = actor.userId
  · subst hself
    rw [mem_effective_assignRoles hok hs.found]
    have hleft := checkSelfLockout_ok hplain (hs.unlocked rfl)
    rwa [(simulatedEffectivePermissions_ok hs.simulated).2] at hleft
  · obtain ⟨id, hid, hg⟩ := mem_effective.1 hact
    have hother : id ∈ (db.assignRoles userId rs (some actor.userId)).roleIdsOfUser actor.userId :=
      mem_roleIds_assignRoles.2 (.inl ⟨Ne.symm hself, hid⟩)
    exact mem_effective.2 ⟨id, hother, hg⟩

/-- A new role is nobody's. -/
theorem create_keeps {draw : Nat} {body : CreateRoleRequest}
    (h : RoleChange actor db (.create draw body) db') {u : Nat}
    (hact : .rolesManage ∈ db.effective u) : .rolesManage ∈ db'.effective u := by
  obtain ⟨id, hid, hg⟩ := mem_effective.1 hact
  cases h with
  | create ordinary fresh covers =>
    refine mem_effective.2 ⟨id, hid, ?_⟩
    rcases hg with ⟨r, hr, hrid, hfull⟩ | ⟨row, hrow, hrest⟩
    · exact .inl ⟨r, List.mem_append_left _ hr, hrid, hfull⟩
    · exact .inr ⟨row, List.mem_append_left _ hrow, hrest⟩

/-- The built-in role has full power. -/
def Db.Rooted (db : Db) : Prop :=
  ∀ r ∈ db.platformRoles, r.id = platformRoleSuperAdmin → r.grantsAll = true

instance (db : Db) : Decidable db.Rooted :=
  inferInstanceAs (Decidable (∀ r ∈ db.platformRoles, _ → _))

/-- Then an account without a role of full power has no full access. -/
theorem hasAllAccess_of_plain (hok : db.Consistent) (hroot : db.Rooted) {u : Nat}
    (h : db.userHasGrantsAll u = false) : db.hasAllAccess u = false := by
  rw [Db.hasAllAccess, h, Bool.or_false, decide_eq_false_iff_not]
  intro hadmin
  obtain ⟨r, hr, hid⟩ := (exists_rolesOfUser hok).1 hadmin
  have hmem := (mem_rolesOfUser.1 hr).1
  have hfull : db.Full platformRoleSuperAdmin := ⟨r, hmem, hid, hroot r hmem hid⟩
  rw [Bool.eq_false_iff] at h
  exact h (userHasGrantsAll_iff.2 ⟨_, hadmin, hfull⟩)

/-- A request of an actor without full power leaves it the permission to manage roles. -/
theorem step_keeps (hok : db.Consistent) (hroot : db.Rooted) (o : Op)
    (hplain : db.userHasGrantsAll o.actor = false)
    (hact : .rolesManage ∈ db.effective o.actor) :
    .rolesManage ∈ (db.step o).effective o.actor := by
  have hno := hasAllAccess_of_plain hok hroot hplain
  rcases Prog.committed_cases o.ans o.prog db with hsame | ⟨_, hrun⟩
  · rwa [Db.step, hsame]
  · obtain ⟨db₁, actor, h₁, k₁⟩ := Prog.run_bind_inv o.ans hrun
    obtain ⟨rfl, hid, hall, -⟩ := requirePermission_ok h₁
    rw [← hid] at hact ⊢
    have hctx := hall.trans hno
    cases hr : o.request with
    | create draw body =>
      rw [hr] at k₁
      exact create_keeps (createRole_ok k₁) hact
    | patch roleId body =>
      rw [hr] at k₁
      exact patch_keeps hok hctx k₁ hact
    | delete roleId =>
      rw [hr] at k₁
      exact delete_keeps hok hctx k₁ hact
    | setRoles userId roleIds =>
      rw [hr] at k₁
      exact setRoles_keeps hok hctx k₁ hact

end Lockout

/-! ## The specification -/

/-- What `p` computes in `db` is what the account has in `db'`. -/
def Predicts (p : RoleM PermissionSet) (db : Db) (u : Nat) (db' : Db) : Prop :=
  ∃ set, p.run answered db = (db, .ok set) ∧
    (effectivePermissions u).run answered db' = (db', .ok set)

theorem predicts_of_iff {p : RoleM PermissionSet} {db db' : Db} {u : Nat}
    (hp : ∃ set, p.run answered db = (db, .ok set))
    (hset : ∀ set, p.run answered db = (db, .ok set) → ∀ q, q ∈ set ↔ q ∈ db'.effective u) :
    Predicts p db u db' := by
  obtain ⟨set, hrun⟩ := hp
  have heq : set = db'.effective u := Finset.ext (hset set hrun)
  exact ⟨set, hrun, heq ▸ run_effectivePermissions⟩

/-- What is claimed of every request: an actor keeps the power to manage roles, and the predictions
come true. -/
structure LockoutSpec (db : Db) : Prop where
  /-- An actor that manages roles without full power manages them after its request. -/
  keeps : ∀ o : Op, db.userHasGrantsAll o.actor = false → .rolesManage ∈ db.effective o.actor →
    .rolesManage ∈ (db.step o).effective o.actor
  /-- What an edit leaves to an account. -/
  change : ∀ actor roleId body ans db',
    (patchRole actor roleId body).run ans db = (db', .ok ()) → ∃ after,
      patchedPermissions (db.listed roleId) body.permissions = .ok after ∧
      ∀ u, Predicts (permissionsAfterRoleChange u roleId after) db u db'
  /-- What a deletion leaves to an account. -/
  removal : ∀ actor roleId ans db', (deleteRole actor roleId).run ans db = (db', .ok ()) →
    ∀ u, Predicts (permissionsAfterRoleRemoval u roleId) db u db'
  /-- What the requested roles give to an account. -/
  simulated : ∀ actor userId roleIds ans db',
    (setUserRoles actor userId roleIds).run ans db = (db', .ok ()) → ∃ rs,
      (findRequestedRoles roleIds).run answered db = (db, .ok rs) ∧
      Predicts (simulatedEffectivePermissions rs) db userId db'

theorem run_findRequestedRoles {db : Db} (hok : db.Consistent) {rs : List PlatformRole}
    (hrs : ∀ r ∈ rs, r ∈ db.platformRoles) :
    (findRequestedRoles (rs.map (·.id))).run answered db = (db, .ok rs) := by
  induction rs with
  | nil => rfl
  | cons r rs ih =>
    have hfind : db.findRole r.id = some r := Table.find_of_mem hok.keyed (hrs r List.mem_cons_self)
    have hrest := ih fun r' hr' => hrs r' (List.mem_cons_of_mem r hr')
    simp only [List.map_cons, findRequestedRoles, Prog.run_bind, run_select, hfind, hrest,
      Prog.run_pure]

/-- In every graph of roles. -/
theorem lockout_spec (db : Db) (hok : db.Consistent) (hroot : db.Rooted) : LockoutSpec db where
  keeps o hplain hact := step_keeps hok hroot o hplain hact
  change actor roleId body ans db' h := by
    obtain ⟨f, after, hp⟩ := patchRole_spec h
    refine ⟨after, hp.asked, fun u => ?_⟩
    refine predicts_of_iff (run_permissionsAfterRoleChange after) fun set hrun q => ?_
    rw [permissionsAfterRoleChange_ok hok hrun, hp.mem_effective]
  removal actor roleId ans db' h u := by
    obtain ⟨rfl, -⟩ := deleteRole_spec h
    refine predicts_of_iff run_permissionsAfterRoleRemoval fun set hrun q => ?_
    rw [permissionsAfterRoleRemoval_ok hok hrun, mem_effective_dropRole]
  simulated actor userId roleIds ans db' h := by
    obtain ⟨rs, after, hs⟩ := setUserRoles_spec h
    refine ⟨rs, hs.ids ▸ run_findRequestedRoles hok hs.found, ?_⟩
    refine predicts_of_iff (run_simulatedEffectivePermissions rs) fun set hrun q => ?_
    rw [(simulatedEffectivePermissions_ok hrun).2, hs.written,
      mem_effective_assignRoles hok hs.found]

/-- The account 3 empties the role that lets it manage roles, which is refused, and renames it. -/
theorem lockout_spec_staff : staffDb.Rooted ∧ staffDb.userHasGrantsAll 3 = false ∧
    .rolesManage ∈ staffDb.effective 3 ∧
    staffDb.step ⟨3, .patch 8 ⟨none, none, some ["users.read"]⟩, answered⟩ = staffDb ∧
    staffDb.step ⟨3, .patch 8 ⟨some "Staff", none, some ["roles.manage"]⟩, answered⟩ ≠ staffDb ∧
    LockoutSpec staffDb :=
  ⟨by decide +kernel, by decide +kernel, by decide +kernel, by decide +kernel, by decide +kernel,
    lockout_spec staffDb staffDb_consistent (by decide +kernel)⟩

end FloatCtf.Rbac
