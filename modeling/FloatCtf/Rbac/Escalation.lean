import FloatCtf.Process.Trace
import FloatCtf.Rbac.RoleRequests

/-!
# Requests of accounts without full power

An account that manages roles may give away what it has.  The guard compares the permissions of the
edited role, or of the target account, before and after the change with those of the actor; an
account or a role with full power counts as the whole catalogue there, which is also the permission
set of an actor that was given every single permission.

`sheltered_run` shows that requests of accounts without full power leave the accounts with full
power alone and spread no permission that none of the actors had, as long as an actor with the whole
catalogue does not touch full power and no role is deleted that an account with full power holds.
`catalogue_grants_power` is what happens otherwise.
-/

namespace FloatCtf.Rbac

open Process

/-! ## What a request leaves alone -/

/-- The accounts with full power and their roles are the same, and a permission that an account has
gained is one of `ps`. -/
structure Sheltered (db db' : Db) (ps : Permission → Prop) : Prop where
  power : ∀ u, db'.userHasGrantsAll u = db.userHasGrantsAll u
  roles : ∀ u, db.userHasGrantsAll u = true →
    ∀ id, id ∈ db'.roleIdsOfUser u ↔ id ∈ db.roleIdsOfUser u
  spread : ∀ u, ∀ p ∈ db'.effective u, p ∈ db.effective u ∨ ps p

theorem Sheltered.refl (db : Db) (ps : Permission → Prop) : Sheltered db db ps :=
  ⟨fun _ => rfl, fun _ _ _ => Iff.rfl, fun _ _ => .inl⟩

theorem Sheltered.trans {a b c : Db} {ps : Permission → Prop} (h : Sheltered a b ps)
    (h' : Sheltered b c ps) : Sheltered a c ps := by
  refine ⟨fun u => (h'.power u).trans (h.power u), fun u hu id => ?_, fun u p hp => ?_⟩
  · rw [h'.roles u ((h.power u).trans hu), h.roles u hu]
  · rcases h'.spread u p hp with hp | hp
    · exact h.spread u p hp
    · exact .inr hp

/-- The condition of the law: an actor that has the whole catalogue, but not full power, touches no
full power, and no role is deleted that an account with full power holds. -/
def Contained (db : Db) (actor : Nat) : Request → Prop
  | .create _ _ | .patch _ _ => True
  | .delete roleId => ∀ g ∈ db.userPlatformRoles, g.roleId = roleId →
      db.userHasGrantsAll g.userId = false
  | .setRoles userId roleIds => db.effective actor ≠ .all ∨
      (db.anyGrantsAll roleIds = false ∧ (db.userHasGrantsAll userId = false ∨ roleIds = []))

instance (db : Db) (actor : Nat) (r : Request) : Decidable (Contained db actor r) := by
  cases r <;> unfold Contained <;> infer_instance

section Changes

variable {db db' : Db} {ps : Permission → Prop}

/-- The grants stay, and the roles change within `ps`. -/
theorem sheltered_of_grants (hgrants : db'.userPlatformRoles = db.userPlatformRoles)
    (hfull : ∀ g ∈ db.userPlatformRoles, db'.Full g.roleId ↔ db.Full g.roleId)
    (hlist : ∀ g ∈ db.userPlatformRoles, ∀ p ∈ db'.listed g.roleId, p ∈ db.listed g.roleId ∨ ps p) :
    Sheltered db db' ps := by
  have hids (u : Nat) : db'.roleIdsOfUser u = db.roleIdsOfUser u := by
    unfold Db.roleIdsOfUser
    rw [hgrants]
  refine ⟨fun u => ?_, fun u _ id => by rw [hids], fun u p hp => ?_⟩
  · rw [Bool.eq_iff_iff, userHasGrantsAll_iff, userHasGrantsAll_iff, hids]
    refine exists_congr fun id => and_congr_right fun hid => ?_
    obtain ⟨g, hg, -, rfl⟩ := mem_roleIdsOfUser.1 hid
    exact hfull g hg
  · obtain ⟨id, hid, hp⟩ := mem_effective.1 hp
    rw [hids] at hid
    obtain ⟨g, hg, -, rfl⟩ := mem_roleIdsOfUser.1 hid
    rcases gives_iff.1 hp with hf | hl
    · exact .inl (mem_effective.2 ⟨_, hid, gives_iff.2 (.inl ((hfull g hg).1 hf))⟩)
    · rcases hlist g hg p hl with hl | hl
      · exact .inl (mem_effective.2 ⟨_, hid, gives_iff.2 (.inr hl)⟩)
      · exact .inr hl

theorem full_map {f : PlatformRole → PlatformRole} (hf : Renames f)
    (hroles : db'.platformRoles = db.platformRoles.map f) (id : Nat) :
    db'.Full id ↔ db.Full id := by
  unfold Db.Full
  rw [hroles]
  constructor
  · rintro ⟨r, hr, rfl, hg⟩
    obtain ⟨r₀, hr₀, rfl⟩ := List.mem_map.1 hr
    exact ⟨r₀, hr₀, (hf r₀).1.symm, (hf r₀).2.2 ▸ hg⟩
  · rintro ⟨r, hr, rfl, hg⟩
    exact ⟨f r, List.mem_map_of_mem hr, (hf r).1, (hf r).2.2.trans hg⟩

theorem mem_listed_rowsOf {roleId id : Nat} {set : PermissionSet} {p : Permission}
    {row : RolePermission} (hrow : row ∈ rowsOf roleId set) (hid : row.roleId = id)
    (hp : Permission.fromStr row.permission = some p) : id = roleId ∧ p ∈ set := by
  obtain ⟨q, hq, rfl⟩ := List.mem_map.1 hrow
  rw [Permission.fromStr_asStr] at hp
  cases hp
  exact ⟨hid.symm, PermissionSet.mem_toList.1 hq⟩

theorem mem_roleIds_dropRole {roleId u id : Nat} :
    id ∈ (db.dropRole roleId).roleIdsOfUser u ↔ id ∈ db.roleIdsOfUser u ∧ id ≠ roleId := by
  simp only [mem_roleIdsOfUser, Db.dropRole, List.mem_filter, decide_eq_true_eq]
  constructor
  · rintro ⟨g, ⟨hg, hne⟩, hu, rfl⟩
    exact ⟨⟨g, hg, hu, rfl⟩, hne⟩
  · rintro ⟨⟨g, hg, hu, rfl⟩, hne⟩
    exact ⟨g, ⟨hg, hne⟩, hu, rfl⟩

theorem full_dropRole {roleId id : Nat} :
    (db.dropRole roleId).Full id ↔ db.Full id ∧ id ≠ roleId := by
  simp only [Db.Full, Db.dropRole, List.mem_filter, decide_eq_true_eq]
  constructor
  · rintro ⟨r, ⟨hr, hne⟩, rfl, hg⟩
    exact ⟨⟨r, hr, rfl, hg⟩, hne⟩
  · rintro ⟨⟨r, hr, rfl, hg⟩, hne⟩
    exact ⟨r, ⟨hr, hne⟩, rfl, hg⟩

theorem gives_dropRole {roleId id : Nat} {p : Permission} (h : (db.dropRole roleId).Gives id p) :
    db.Gives id p := by
  rcases h with hf | ⟨row, hrow, hid, hp⟩
  · exact .inl (full_dropRole.1 hf).1
  · exact .inr ⟨row, (List.mem_filter.1 hrow).1, hid, hp⟩

/-- The role goes, and no account with full power held it. -/
theorem sheltered_dropRole {roleId : Nat} (h : ∀ g ∈ db.userPlatformRoles, g.roleId = roleId →
    db.userHasGrantsAll g.userId = false) : Sheltered db (db.dropRole roleId) ps := by
  have hne {u id : Nat} (hu : db.userHasGrantsAll u = true) (hid : id ∈ db.roleIdsOfUser u) :
      id ≠ roleId := by
    rintro rfl
    obtain ⟨g, hg, rfl, hrole⟩ := mem_roleIdsOfUser.1 hid
    rw [h g hg hrole] at hu
    cases hu
  have hroles (u : Nat) (hu : db.userHasGrantsAll u = true) (id : Nat) :
      id ∈ (db.dropRole roleId).roleIdsOfUser u ↔ id ∈ db.roleIdsOfUser u := by
    rw [mem_roleIds_dropRole]
    exact ⟨fun hid => hid.1, fun hid => ⟨hid, hne hu hid⟩⟩
  refine ⟨fun u => ?_, hroles, fun u p hp => .inl ?_⟩
  · rw [Bool.eq_iff_iff]
    constructor
    · intro hu
      obtain ⟨id, hid, hf⟩ := userHasGrantsAll_iff.1 hu
      exact userHasGrantsAll_iff.2
        ⟨id, (mem_roleIds_dropRole.1 hid).1, (full_dropRole.1 hf).1⟩
    · intro hu
      obtain ⟨id, hid, hf⟩ := userHasGrantsAll_iff.1 hu
      exact userHasGrantsAll_iff.2
        ⟨id, (hroles u hu id).2 hid, full_dropRole.2 ⟨hf, hne hu hid⟩⟩
  · obtain ⟨id, hid, hg⟩ := mem_effective.1 hp
    exact mem_effective.2 ⟨id, (mem_roleIds_dropRole.1 hid).1, gives_dropRole hg⟩

theorem mem_roleIds_assignRoles {userId u id : Nat} {rs : List PlatformRole} {g : Option Nat} :
    id ∈ (db.assignRoles userId rs g).roleIdsOfUser u ↔
      (u ≠ userId ∧ id ∈ db.roleIdsOfUser u) ∨ (u = userId ∧ id ∈ rs.map (·.id)) := by
  simp only [mem_roleIdsOfUser, Db.assignRoles, List.mem_append, List.mem_filter, List.mem_map,
    decide_eq_true_eq]
  constructor
  · rintro ⟨g, ⟨hg, hne⟩ | ⟨r, hr, rfl⟩, rfl, rfl⟩
    · exact .inl ⟨hne, g, hg, rfl, rfl⟩
    · exact .inr ⟨rfl, r, hr, rfl⟩
  · rintro (⟨hne, g, hg, rfl, rfl⟩ | ⟨rfl, r, hr, rfl⟩)
    · exact ⟨g, .inl ⟨hg, hne⟩, rfl, rfl⟩
    · exact ⟨_, .inr ⟨r, hr, rfl⟩, rfl, rfl⟩

/-- The roles of an account without full power are replaced by roles without full power. -/
theorem sheltered_assignRoles {userId : Nat} {rs : List PlatformRole} {g : Option Nat}
    (hfull : ∀ r ∈ rs, ¬ db.Full r.id) (htarget : db.userHasGrantsAll userId = false)
    (hps : ∀ r ∈ rs, ∀ p ∈ db.listed r.id, ps p) :
    Sheltered db (db.assignRoles userId rs g) ps := by
  have hother {u : Nat} (hu : u ≠ userId) (id : Nat) :
      id ∈ (db.assignRoles userId rs g).roleIdsOfUser u ↔ id ∈ db.roleIdsOfUser u := by
    rw [mem_roleIds_assignRoles]
    simp [hu]
  have hself {id : Nat} (hid : id ∈ (db.assignRoles userId rs g).roleIdsOfUser userId) :
      ∃ r ∈ rs, r.id = id := by
    rw [mem_roleIds_assignRoles] at hid
    simpa using hid
  refine ⟨fun u => ?_, fun u hu => ?_, fun u p hp => ?_⟩
  · by_cases hu : u = userId
    · subst hu
      rw [htarget, Bool.eq_false_iff]
      intro hpow
      obtain ⟨id, hid, hf⟩ := userHasGrantsAll_iff.1 hpow
      obtain ⟨r, hr, rfl⟩ := hself hid
      exact hfull r hr hf
    · rw [Bool.eq_iff_iff, userHasGrantsAll_iff, userHasGrantsAll_iff]
      exact exists_congr fun id => and_congr_left fun _ => hother hu id
  · refine hother ?_
    rintro rfl
    rw [htarget] at hu
    cases hu
  · obtain ⟨id, hid, hgives⟩ := mem_effective.1 hp
    by_cases hu : u = userId
    · subst hu
      obtain ⟨r, hr, rfl⟩ := hself hid
      rcases gives_iff.1 hgives with hf | hl
      · exact absurd hf (hfull r hr)
      · exact .inr (hps r hr p hl)
    · exact .inl (mem_effective.2 ⟨id, (hother hu id).1 hid, hgives⟩)

/-- One request of an account without full power. -/
theorem RoleChange.sheltered {actor : AuthContext} {r : Request} (hc : RoleChange actor db r db')
    (hok : db.Consistent) (hordinary : actor.grantsAll = false)
    (hperm : actor.permissions = db.effective actor.userId)
    (hcond : Contained db actor.userId r) : Sheltered db db' (· ∈ actor.permissions) := by
  have hcover {set : PermissionSet} (h : actor.Covers set) : set ⊆ actor.permissions := by
    rcases h with h | h
    · rw [hordinary] at h
      cases h
    · exact h
  cases hc with
  | @create body role set ordinary fresh covers =>
    have hne (g : UserRole) (hg : g ∈ db.userPlatformRoles) : g.roleId ≠ role.id := by
      obtain ⟨r, hr, hid⟩ := hok.granted g hg
      exact hid ▸ fresh r hr
    refine sheltered_of_grants rfl (fun g hg => ?_) fun g hg p hp => .inl ?_
    · unfold Db.Full
      simp [or_and_right, exists_or, (hne g hg).symm]
    · obtain ⟨row, hrow, hid, hp⟩ := mem_listed.1 hp
      rcases List.mem_append.1 hrow with hrow | hrow
      · exact mem_listed.2 ⟨row, hrow, hid, hp⟩
      · exact absurd (mem_listed_rowsOf hrow hid hp).1 (hne g hg)
  | rename renames =>
    exact sheltered_of_grants rfl (fun g _ => full_map renames rfl g.roleId) fun g _ p hp => .inl hp
  | @replace roleId body f set renames found covers =>
    refine sheltered_of_grants rfl (fun g _ => full_map renames rfl g.roleId) fun g _ p hp => ?_
    obtain ⟨row, hrow, hid, hp⟩ := mem_listed.1 hp
    rcases List.mem_append.1 hrow with hrow | hrow
    · exact .inl (mem_listed.2 ⟨row, (List.mem_filter.1 hrow).1, hid, hp⟩)
    · exact .inr (hcover covers (mem_listed_rowsOf hrow hid hp).2)
  | delete => exact sheltered_dropRole hcond
  | @assign userId rs found spared before after =>
    have hafter (r : PlatformRole) (hr : r ∈ rs) (p : Permission)
        (hp : r.grantsAll = true ∨ p ∈ db.listed r.id) : p ∈ actor.permissions := by
      rcases after r hr p hp with h | h
      · rw [hordinary] at h
        cases h
      · exact h
    -- whoever may see full power on either side of the change has the whole catalogue
    have hwhole (h : ∀ p, p ∈ actor.permissions) : db.effective actor.userId = .all := by
      rw [← hperm]
      exact Finset.Subset.antisymm (PermissionSet.subset_all _) fun p _ => h p
    have hfull : ∀ r ∈ rs, ¬ db.Full r.id := by
      rintro r hr ⟨r', hr', hid, hg⟩
      have heq : r' = r := Table.eq_of_key hok.keyed hr' (found r hr) hid
      subst heq
      rcases hcond with hne | ⟨hnone, -⟩
      · exact hne (hwhole fun p => hafter r' hr p (.inl hg))
      · rw [anyGrantsAll_iff.2 ⟨r'.id, List.mem_map_of_mem hr, r', hr', rfl, hg⟩] at hnone
        cases hnone
    have htarget : db.userHasGrantsAll userId = false := by
      rw [Bool.eq_false_iff]
      intro hpow
      rcases hcond with hne | ⟨-, hno | hnil⟩
      · rw [effective_of_grantsAll hpow] at before
        exact hne (hwhole fun p => hcover before (PermissionSet.mem_all p))
      · rw [hno] at hpow
        cases hpow
      · rcases spared (List.map_eq_nil_iff.1 hnil) with h | h
        · rw [hordinary] at h
          cases h
        · rw [h] at hpow
          cases hpow
    exact sheltered_assignRoles hfull htarget fun r hr p hp => hafter r hr p (.inr hp)

/-- The references between the tables stay whole. -/
theorem RoleChange.consistent {actor : AuthContext} {r : Request} (hc : RoleChange actor db r db')
    (hok : db.Consistent) : db'.Consistent := by
  have hrowsOf {roleId : Nat} {set : PermissionSet} {row : RolePermission}
      (hrow : row ∈ rowsOf roleId set) : row.roleId = roleId := by
    obtain ⟨q, -, rfl⟩ := List.mem_map.1 hrow
    rfl
  have hmap {f : PlatformRole → PlatformRole} (hf : Renames f) {id : Nat}
      (h : ∃ r ∈ db.platformRoles, r.id = id) : ∃ r ∈ db.platformRoles.map f, r.id = id := by
    obtain ⟨r, hr, rfl⟩ := h
    exact ⟨f r, List.mem_map_of_mem hr, (hf r).1⟩
  cases hc with
  | @create body role set ordinary fresh covers =>
    refine ⟨Table.keyed_append hok.keyed fresh, fun g hg => ?_, fun row hrow => ?_⟩
    · obtain ⟨r, hr, hid⟩ := hok.granted g hg
      exact ⟨r, List.mem_append_left _ hr, hid⟩
    · rcases List.mem_append.1 hrow with hrow | hrow
      · obtain ⟨r, hr, hid⟩ := hok.listed row hrow
        exact ⟨r, List.mem_append_left _ hr, hid⟩
      · exact ⟨role, by simp, (hrowsOf hrow).symm⟩
  | rename renames =>
    exact ⟨Table.keyed_map (fun r => (renames r).1) hok.keyed,
      fun g hg => hmap renames (hok.granted g hg), fun row hrow => hmap renames (hok.listed row hrow)⟩
  | replace renames found covers =>
    refine ⟨Table.keyed_map (fun r => (renames r).1) hok.keyed,
      fun g hg => hmap renames (hok.granted g hg), fun row hrow => hmap renames ?_⟩
    rcases List.mem_append.1 hrow with hrow | hrow
    · exact hok.listed row (List.mem_filter.1 hrow).1
    · rw [hrowsOf hrow]
      exact found
  | @delete roleId =>
    have hkept {id : Nat} (h : ∃ r ∈ db.platformRoles, r.id = id) (hne : id ≠ roleId) :
        ∃ r ∈ (db.dropRole roleId).platformRoles, r.id = id := by
      obtain ⟨r, hr, rfl⟩ := h
      exact ⟨r, List.mem_filter.2 ⟨hr, by simpa using hne⟩, rfl⟩
    refine ⟨hok.keyed.sublist (List.filter_sublist.map _), fun g hg => ?_, fun row hrow => ?_⟩
    · obtain ⟨hg, hne⟩ := List.mem_filter.1 hg
      exact hkept (hok.granted g hg) (by simpa using hne)
    · obtain ⟨hrow, hne⟩ := List.mem_filter.1 hrow
      exact hkept (hok.listed row hrow) (by simpa using hne)
  | @assign userId rs found spared before after =>
    refine ⟨hok.keyed, fun g hg => ?_, hok.listed⟩
    rcases List.mem_append.1 hg with hg | hg
    · exact hok.granted g (List.mem_filter.1 hg).1
    · obtain ⟨r, hr, rfl⟩ := List.mem_map.1 hg
      exact ⟨r, found r hr, rfl⟩

end Changes

/-! ## Runs -/

/-- A request of an account; a statement of it succeeds as `ans` says. -/
structure Op where
  actor : Nat
  request : Request
  ans : Stmt → Bool

/-- The guard, and then the transaction. -/
def Op.prog (o : Op) : RoleM Unit := do
  let actor ← requirePermission o.actor .rolesManage
  o.request.prog actor

/-- The database behind an operation. -/
def Db.step (db : Db) (o : Op) : Db := o.prog.committed o.ans db

/-- The account has no full power when its request starts. -/
def Ordinary (db : Db) (o : Op) : Prop := db.hasAllAccess o.actor = false

instance (db : Db) (o : Op) : Decidable (Ordinary db o) :=
  inferInstanceAs (Decidable (db.hasAllAccess o.actor = false))

theorem step_cases (db : Db) (o : Op) (ho : Ordinary db o) :
    db.step o = db ∨ ∃ actor : AuthContext, actor.userId = o.actor ∧ actor.grantsAll = false ∧
      actor.permissions = db.effective o.actor ∧ RoleChange actor db o.request (db.step o) := by
  rcases Prog.committed_cases o.ans o.prog db with hsame | ⟨_, hrun⟩
  · exact .inl hsame
  · obtain ⟨db₁, actor, h₁, k₁⟩ := Prog.run_bind_inv o.ans hrun
    obtain ⟨rfl, hid, hall, hperm⟩ := requirePermission_ok h₁
    exact .inr ⟨actor, hid, hall.trans ho, hperm ho, roleChange_of_run k₁⟩

theorem sheltered_step {db : Db} (hok : db.Consistent) {o : Op} (ho : Ordinary db o)
    (hc : Contained db o.actor o.request) :
    (db.step o).Consistent ∧ Sheltered db (db.step o) (· ∈ db.effective o.actor) := by
  rcases step_cases db o ho with hsame | ⟨actor, hid, hall, hperm, hchange⟩
  · rw [hsame]
    exact ⟨hok, .refl db _⟩
  · rw [← hid] at hc hperm ⊢
    rw [← hperm]
    exact ⟨hchange.consistent hok, hchange.sheltered hok hall hperm hc⟩

/-- No request of accounts without full power changes who has full power and what roles these
accounts have, and what spreads is what one of the actors had when the sequence began. -/
theorem sheltered_run {db : Db} (hok : db.Consistent) {ops : List Op}
    (h : Along Db.step (fun db o => Ordinary db o ∧ Contained db o.actor o.request) db ops) :
    Sheltered db (ops.foldl Db.step db) fun p => ∃ o ∈ ops, p ∈ db.effective o.actor := by
  let acting (p : Permission) : Prop := ∃ o ∈ ops, p ∈ db.effective o.actor
  let Inv (db' : Db) : Prop := db'.Consistent ∧ Sheltered db db' acting
  have hinv : Inv (ops.foldl Db.step db) := by
    refine inv_of_along Inv (fun db' o hdb' hc => ?_) ⟨hok, .refl db acting⟩ h.mem
    obtain ⟨⟨ho, hcont⟩, hmem⟩ := hc
    obtain ⟨hok', hs⟩ := sheltered_step hdb'.1 ho hcont
    refine ⟨hok', hdb'.2.trans ⟨hs.power, hs.roles, fun u p hp => ?_⟩⟩
    rcases hs.spread u p hp with hp | hp
    · exact .inl hp
    · -- what the actor has by now, it had at the start or came from another actor
      rcases hdb'.2.spread o.actor p hp with hp | hp
      · exact .inr ⟨o, hmem, hp⟩
      · exact .inr hp
  exact hinv.2

/-! ## Two runs -/

/-- The protected role with every permission. -/
def superAdminRole : PlatformRole :=
  { id := 0, key := "super-admin", name := "Super Admin", description := "", isProtected := true
    grantsAll := true }

/-- A role without permissions. -/
def customRole (id : Nat) (key : String) : PlatformRole :=
  { id, key, name := key, description := "", isProtected := false, grantsAll := false }

/-- The account 1 has full power, 2 has every single permission, 3 manages roles, 4 has no role. -/
def staffDb : Db where
  users := [1, 2, 3, 4].map fun id => { id, status := .active }
  platformRoles := [superAdminRole, customRole 7 "operator", customRole 8 "staffing"]
  rolePermissions := rowsOf 7 .all ++ rowsOf 8 {.rolesManage, .usersRead}
  userPlatformRoles :=
    [{ userId := 1, roleId := 0, grantedBy := none }, { userId := 2, roleId := 7, grantedBy := none },
      { userId := 3, roleId := 8, grantedBy := none }]

theorem staffDb_consistent : staffDb.Consistent :=
  ⟨by decide +kernel, by decide +kernel, by decide +kernel⟩

/-- The account 2 gives full power to 4 and then replaces the roles of 1. -/
def takeoverOps : List Op :=
  [{ actor := 2, request := .setRoles 4 [0], ans := fun _ => true },
    { actor := 2, request := .setRoles 1 [8], ans := fun _ => true }]

theorem catalogue_grants_power :
    staffDb.Consistent ∧ Along Db.step Ordinary staffDb takeoverOps ∧
      staffDb.userHasGrantsAll 4 = false ∧
      (takeoverOps.foldl Db.step staffDb).userHasGrantsAll 4 = true ∧
      staffDb.userHasGrantsAll 1 = true ∧
      staffDb.roleIdsOfUser 1 = [0] ∧
      (takeoverOps.foldl Db.step staffDb).roleIdsOfUser 1 = [8] :=
  ⟨staffDb_consistent, by decide +kernel, by decide +kernel, by decide +kernel, by decide +kernel,
    by decide +kernel, by decide +kernel⟩

/-- The account 3 makes a role, gives it to 4, empties it and deletes it. -/
def staffingOps : List Op :=
  [{ actor := 3, request := .create 9 ⟨"reader", "Reader", none, ["users.read"]⟩
     ans := fun _ => true },
    { actor := 3, request := .setRoles 4 [9], ans := fun _ => true },
    { actor := 3, request := .patch 9 ⟨some "Nobody", none, some []⟩, ans := fun _ => true },
    { actor := 3, request := .delete 9, ans := fun _ => true }]

theorem sheltered_run_staffing :
    ((staffingOps.take 2).foldl Db.step staffDb).effective 4 = {.usersRead} ∧
      Sheltered staffDb (staffingOps.foldl Db.step staffDb) fun p =>
        ∃ o ∈ staffingOps, p ∈ staffDb.effective o.actor :=
  ⟨by decide +kernel, sheltered_run staffDb_consistent (by decide +kernel)⟩

end FloatCtf.Rbac
