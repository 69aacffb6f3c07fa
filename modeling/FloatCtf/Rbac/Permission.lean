import Mathlib.Data.Finset.Dedup
import Mathlib.Data.Finset.Lattice.Lemmas

/-!
# The catalogue of platform permissions

The code is the authority on which permissions exist: a role stores their stable strings, and a
string that is not in the catalogue is ignored when it is read and refused when it is
written. -/

namespace FloatCtf.Rbac

/-- The permissions of the platform. -/
inductive Permission where
  | usersRead
  | usersManage
  | rolesRead
  | rolesManage
  | challengesRead
  | challengesManage
  | gameboxesRead
  | gameboxesManage
  | weaponsRead
  | weaponsManage
  | eventsRead
  | eventsManage
  | eventsParticipantsManage
  | eventsLifecycleManage
  | awdRead
  | awdManage
  | awdpRead
  | awdpManage
  | announcementsManage
  | discussionsModerate
  | settingsRead
  | settingsManage
  | systemRead
  | logsRead
  | schedulerManage
  | dockerRead
  | dockerManage
  | databaseExecute
  | terminalOpen
  deriving DecidableEq

namespace Permission

/-- In the order of their declaration. -/
def all : List Permission :=
  [usersRead, usersManage, rolesRead, rolesManage, challengesRead, challengesManage,
    gameboxesRead, gameboxesManage, weaponsRead, weaponsManage, eventsRead, eventsManage,
    eventsParticipantsManage, eventsLifecycleManage, awdRead, awdManage, awdpRead, awdpManage,
    announcementsManage, discussionsModerate, settingsRead, settingsManage, systemRead, logsRead,
    schedulerManage, dockerRead, dockerManage, databaseExecute, terminalOpen]

/-- The string that is stored. -/
def asStr : Permission → String
  | usersRead => "users.read"
  | usersManage => "users.manage"
  | rolesRead => "roles.read"
  | rolesManage => "roles.manage"
  | challengesRead => "challenges.read"
  | challengesManage => "challenges.manage"
  | gameboxesRead => "gameboxes.read"
  | gameboxesManage => "gameboxes.manage"
  | weaponsRead => "weapons.read"
  | weaponsManage => "weapons.manage"
  | eventsRead => "events.read"
  | eventsManage => "events.manage"
  | eventsParticipantsManage => "events.participants.manage"
  | eventsLifecycleManage => "events.lifecycle.manage"
  | awdRead => "awd.read"
  | awdManage => "awd.manage"
  | awdpRead => "awdp.read"
  | awdpManage => "awdp.manage"
  | announcementsManage => "announcements.manage"
  | discussionsModerate => "discussions.moderate"
  | settingsRead => "settings.read"
  | settingsManage => "settings.manage"
  | systemRead => "system.read"
  | logsRead => "logs.read"
  | schedulerManage => "scheduler.manage"
  | dockerRead => "docker.read"
  | dockerManage => "docker.manage"
  | databaseExecute => "database.execute"
  | terminalOpen => "terminal.open"

/-- The permission of a key. -/
def fromStr (s : String) : Option Permission := all.find? (·.asStr = s)

theorem mem_all (p : Permission) : p ∈ all := by
  cases p <;> decide

@[simp] theorem fromStr_asStr (p : Permission) : fromStr p.asStr = some p := by
  cases p <;> decide

end Permission

/-- The union of the permissions of several roles; nothing is denied. -/
abbrev PermissionSet := Finset Permission

namespace PermissionSet

/-- What a role with full power grants. -/
def all : PermissionSet := Permission.all.toFinset

/-- The members in the order of the catalogue. -/
def toList (s : PermissionSet) : List Permission := Permission.all.filter (· ∈ s)

/-- The keys of a set. -/
def toStrings (s : PermissionSet) : List String := s.toList.map (·.asStr)

/-- The set of the known strings, and the unknown ones. -/
def fromStrings (items : List String) : PermissionSet × List String :=
  ((items.filterMap Permission.fromStr).toFinset,
    items.filter fun raw => (Permission.fromStr raw).isNone)

@[simp] theorem mem_all (p : Permission) : p ∈ all := List.mem_toFinset.2 p.mem_all

theorem subset_all (s : PermissionSet) : s ⊆ all := fun p _ => mem_all p

theorem mem_fromStrings {items : List String} {p : Permission} :
    p ∈ (fromStrings items).1 ↔ ∃ raw ∈ items, Permission.fromStr raw = some p := by
  simp [fromStrings]

@[simp] theorem mem_toList {s : PermissionSet} {p : Permission} : p ∈ s.toList ↔ p ∈ s := by
  simp [toList, Permission.mem_all]

/-- A set that is written is read back. -/
@[simp] theorem fromStrings_toStrings (s : PermissionSet) : (fromStrings s.toStrings).1 = s := by
  ext p
  rw [mem_fromStrings]
  constructor
  · rintro ⟨raw, hraw, hp⟩
    obtain ⟨q, hq, rfl⟩ := List.mem_map.1 hraw
    rw [Permission.fromStr_asStr] at hp
    cases hp
    exact mem_toList.1 hq
  · intro hp
    exact ⟨p.asStr, List.mem_map_of_mem (mem_toList.2 hp), Permission.fromStr_asStr p⟩

end PermissionSet

end FloatCtf.Rbac
