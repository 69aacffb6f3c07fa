import FloatCtf.Events.TeamRoster
import FloatCtf.Process.Table

/-!
# Nobody is enrolled without a team

The constraints keep the rows of the teams in step with each other.  What they do not keep is that
an enrolled user has a team: it is owed by every operation, and `remove_team` pays it for the
members that it has read before it deletes the teams.  The law of this file asks that it has read
all of them, and that no event starts while a player's operation holds its row.
-/

namespace FloatCtf.Events

open Process

/-! ## The law -/

section Law

variable (e : Nat)

/-- Every user who is enrolled in the event has a team. -/
def NobodyWithoutTeam (rows : List Row) : Prop :=
  ∀ u, Row.user ⟨e, u⟩ ∈ rows → ∃ m, Row.member m ∈ rows ∧ m.eventId = e ∧ m.userId = u

/-- The deletion of teams of the event finds no member that `remove_team` has not read. -/
def MembersRead (s : Rows World Row Key) : Deletion → Prop
  | .teams eventId ids memberIds => eventId = e → ∀ m ∈ s.committed.filterMap Row.toMember,
      m.eventId = e → m.teamId ∈ ids → m.userId ∈ memberIds
  | .rows => True

instance (s : Rows World Row Key) (l : Deletion) : Decidable (MembersRead e s l) := by
  unfold MembersRead
  split <;> infer_instance

/-- The event does not start while its row is locked. -/
def NoStartUnderLock (s : Rows World Row Key) : Change → Prop
  | .tick now => s.locks.any (·.2 = .event e) → ∀ ev ∈ s.env.event e,
      ev.notStarted s.env.now = true → ev.notStarted (max s.env.now now) = true
  | .edit _ _ _ _ => True

instance (s : Rows World Row Key) (a : Change) : Decidable (NoStartUnderLock e s a) := by
  unfold NoStartUnderLock
  split <;> infer_instance

/-- The event is open for its players. -/
def World.Open (w : World) : Prop :=
  ∃ ev, w.event e = some ev ∧ ev.allowJoin = true ∧ ev.notStarted w.now = true

/-- Whose membership the transaction has deleted, it has deleted the enrollment of. -/
def Settled (i : Nat) (s : Rows World Row Key) : Prop :=
  ∀ m, s.Deleted i (.member m) → m.eventId = e → s.Deleted i (.user ⟨e, m.userId⟩)

/-- Whom the transaction has enrolled, it has made a member. -/
def Joined (i : Nat) (s : Rows World Row Key) : Prop :=
  ∀ u, s.Inserted i (.user ⟨e, u⟩) → ∃ m, s.Inserted i (.member m) ∧ m.eventId = e ∧ m.userId = u

/-- What a request leaves behind: its rows are settled, its members joined, and its event is
open. -/
structure Ends (op : Operation) (i : Nat) (s : Rows World Row Key) : Prop where
  settled : Settled e i s
  joined : Joined e i s
  isOpen : op.playerEvent = some e → s.env.Open e

/-- What belongs to the row of the event: its columns, and whether it has started. -/
def eventPart (k : Key) (w : World) : Option (Event × Bool) :=
  if k = .event e then (w.event e).map fun ev => (ev, ev.notStarted w.now) else none

/-- The law of a roster: what a request on the event may rely on and has to leave. -/
def rosterLaw : TxnLaw Deletion World Row Key Operation Change (Option (Event × Bool)) where
  part := eventPart e
  cond l s := MembersRead e s l
  calm a s := NoStartUnderLock e s a
  ends := Ends e
  good := NobodyWithoutTeam e

instance (l : Deletion) (s : Rows World Row Key) : Decidable ((rosterLaw e).cond l s) :=
  inferInstanceAs (Decidable (MembersRead e s l))

instance (a : Change) (s : Rows World Row Key) : Decidable ((rosterLaw e).calm a s) :=
  inferInstanceAs (Decidable (NoStartUnderLock e s a))

end Law

section Keys

variable {e u t : Nat} {k : Key} {r : Row}

theorem user_key : Key.user e u ∈ rosterSchema.keys r ↔ r = .user ⟨e, u⟩ := by
  rcases r with t | ⟨e', u'⟩ | m
  · simp [rosterSchema]
  · simp [rosterSchema, eq_comm]
  · simp only [rosterSchema]
    split <;> simp

theorem team_key : Key.team e t ∈ rosterSchema.keys r ↔
    ∃ team, r = .team team ∧ team.eventId = e ∧ team.id = t := by
  rcases r with team | u | m
  · simp [rosterSchema, eq_comm]
  · simp [rosterSchema]
  · simp only [rosterSchema]
    split <;> simp

theorem mem_refs : k ∈ rosterSchema.refs r ↔ ∃ m, r = .member m ∧
    (k = .team m.eventId m.teamId ∨ k = .user m.eventId m.userId) := by
  rcases r with team | u | m <;> simp [rosterSchema]

theorem rosterSchema_flat : rosterSchema.Flat := by
  intro r r' k hk hk'
  obtain ⟨m, -, rfl | rfl⟩ := mem_refs.1 hk'
  · obtain ⟨team, rfl, -⟩ := team_key.1 hk
    rfl
  · rw [user_key.1 hk]
    rfl

end Keys

/-! ## What stays between two statements -/

section Stable

variable {e i : Nat} {s s' : Rows World Row Key}

/-- Two states that differ only beside the event. -/
abbrev Around (e i : Nat) (s s' : Rows World Row Key) : Prop :=
  s.Beside rosterSchema (rosterLaw e).part i s'

theorem Settled.around (h : Settled e i s) (hb : Around e i s s') : Settled e i s' :=
  fun m hm hme => (hb.del _).2 (h m ((hb.del _).1 hm) hme)

theorem Joined.around (h : Joined e i s) (hb : Around e i s s') : Joined e i s' := by
  intro u hu
  obtain ⟨m, hm, hme⟩ := h u ((hb.ins _).1 hu)
  exact ⟨m, (hb.ins _).2 hm, hme⟩

/-- The transaction has locked the row of the event, which is open. -/
def Locks (e i : Nat) (s : Rows World Row Key) : Prop :=
  (i, Key.event e) ∈ s.locks ∧ s.env.Open e

theorem Locks.around (h : Locks e i s) (hb : Around e i s s') : Locks e i s' := by
  obtain ⟨hl, ev, hev, hallow, hstart⟩ := h
  refine ⟨(hb.locks _).2 hl, ?_⟩
  have hpart := hb.env _ hl
  simp only [rosterLaw, eventPart, ↓reduceIte, hev, Option.map_some] at hpart
  obtain ⟨ev', hev', heq⟩ := Option.map_eq_some_iff.1 hpart
  simp only [Prod.mk.injEq] at heq
  obtain ⟨rfl, hsame⟩ := heq
  exact ⟨ev', hev', hallow, by rw [hsame, hstart]⟩

/-- The transaction has written nothing. -/
structure NoRows (i : Nat) (s : Rows World Row Key) : Prop where
  ins : ∀ r, ¬ s.Inserted i r
  del : ∀ r, ¬ s.Deleted i r

theorem NoRows.around (h : NoRows i s) (hb : Around e i s s') : NoRows i s' :=
  ⟨fun r hr => h.ins r ((hb.ins r).1 hr), fun r hr => h.del r ((hb.del r).1 hr)⟩

theorem NoRows.lock (h : NoRows i s) (k : Key) : NoRows i (s.lock i k) := ⟨h.ins, h.del⟩

end Stable

/-! ## Statements -/

section Statements

variable {e i : Nat} {s s' : Rows World Row Key} {α β : Type}

/-- The program keeps the law of the event and ends in `Q`. -/
abbrev Safely (e i : Nat) (p : RosterM α) (Q : α → Rows World Row Key → Prop)
    (s : Rows World Row Key) : Prop :=
  p.Safe rosterSchema (rosterLaw e) i Q s

theorem safe_ofOption {Q : β → Rows World Row Key → Prop} {message : String} {o : Option α}
    {k : α → RosterM β} (h : ∀ a, o = some a → Safely e i (k a) Q s) :
    Safely e i (ofOption message o >>= k) Q s := by
  cases o with
  | none => trivial
  | some a => exact h a rfl

theorem safe_ofExcept {Q : β → Rows World Row Key → Prop} {x : Except AppError α}
    {k : α → RosterM β} (h : ∀ a, x = .ok a → Safely e i (k a) Q s) :
    Safely e i (ofExcept x >>= k) Q s := by
  cases x with
  | error e => trivial
  | ok a => exact h a rfl

theorem requireRosterMutable_ok {event : Event} {now : Int}
    (h : requireRosterMutable event now = .ok ()) :
    event.allowJoin = true ∧ event.notStarted now = true := by
  unfold requireRosterMutable at h
  split at h
  · cases h
  · next hallow =>
    split at h
    · next hstart => exact ⟨by simpa using hallow, hstart⟩
    · cases h

/-- A player's operation goes on with the event locked and open. -/
theorem safe_openRoster {eventId : Nat} {visible : Bool} (h : NoRows i s) :
    Safely e i (openRoster eventId visible)
      (fun _ s => NoRows i s ∧ (i, Key.event eventId) ∈ s.locks ∧
        (eventId = e → Locks e i s)) s := by
  unfold openRoster lockEvent
  rw [Txn.bind_assoc]
  refine Txn.safe_lockRow fun s₁ hb₁ _ _ => ?_
  have hrows₁ := (h.around hb₁).lock (.event eventId)
  have hlock₁ : (i, Key.event eventId) ∈ (s₁.lock i (.event eventId)).locks := List.mem_cons_self
  refine safe_ofOption fun event hevent => ?_
  obtain ⟨hevent, -⟩ := Option.filter_eq_some_iff.1 hevent
  refine safe_ofExcept fun _ _ => Txn.safe_ask fun s₂ hb₂ _ => ?_
  have hrows₂ := hrows₁.around hb₂
  have hlock₂ := (hb₂.locks _).2 hlock₁
  cases hmutable : requireRosterMutable event s₂.env.now with
  | error _ => trivial
  | ok _ =>
    obtain ⟨hallow, hstart⟩ := requireRosterMutable_ok hmutable
    have hlocks : eventId = e → Locks e i s₂ := by
      rintro rfl
      refine ⟨hlock₂, ?_⟩
      have hpart := hb₂.env _ hlock₁
      have henv : (s₁.lock i (.event eventId)).env = s₁.env := rfl
      simp only [rosterLaw, eventPart, ↓reduceIte, henv, hevent, Option.map_some] at hpart
      obtain ⟨event', hevent', heq⟩ := Option.map_eq_some_iff.1 hpart
      simp only [Prod.mk.injEq] at heq
      obtain ⟨rfl, -⟩ := heq
      exact ⟨event', hevent', hallow, hstart⟩
    exact fun s₃ hb₃ _ => ⟨hrows₂.around hb₃, (hb₃.locks _).2 hlock₂,
      fun heq => (hlocks heq).around hb₃⟩

/-- The transaction deletes nothing, and it enrolls nobody else. -/
structure Adding (i eventId : Nat) (userId : Option Nat) (s : Rows World Row Key) : Prop where
  users : ∀ u, s.Inserted i (.user u) → u.eventId = eventId ∧ some u.userId = userId
  del : ∀ r, ¬ s.Deleted i r

theorem Adding.around {eventId : Nat} {userId : Option Nat} (h : Adding i eventId userId s)
    (hb : Around e i s s') : Adding i eventId userId s' :=
  ⟨fun u hu => h.users u ((hb.ins _).1 hu), fun r hr => h.del r ((hb.del r).1 hr)⟩

theorem NoRows.adding (h : NoRows i s) (eventId : Nat) (userId : Option Nat) :
    Adding i eventId userId s :=
  ⟨fun _ hu => absurd hu (h.ins _), h.del⟩

theorem Adding.settled {eventId : Nat} {userId : Option Nat} (h : Adding i eventId userId s) :
    Settled e i s := fun _ hm => absurd hm (h.del _)

theorem Adding.joined {eventId : Nat} (h : Adding i eventId none s) : Joined e i s :=
  fun _ hu => nomatch (h.users _ hu).2

theorem safe_insertTeam {eventId : Nat} {name : String} {description : Option String}
    {taken : AppError} {userId : Option Nat} (h : Adding i eventId userId s) :
    Safely e i (insertTeam eventId name description taken)
      (fun _ s => Adding i eventId userId s) s := by
  refine Txn.safe_insertRow fun s₁ hb₁ _ _ => Txn.safe_pure fun s₂ hb₂ _ => ?_
  have h₁ := h.around hb₁
  refine Adding.around ⟨fun u hu => ?_, fun r hr => ?_⟩ hb₂
  · rcases Rows.inserted_insert.1 hu with hu | hu
    · exact h₁.users u hu
    · cases hu
  · exact h₁.del r (Rows.deleted_insert.1 hr)

theorem safe_enroll {eventId userId : Nat} (h : Adding i eventId none s) :
    Safely e i (enroll eventId userId) (fun _ s => Adding i eventId (some userId) s) s := by
  have hsome : ∀ {s : Rows World Row Key}, Adding i eventId none s →
      Adding i eventId (some userId) s :=
    fun h => ⟨fun _ hu => (nomatch (h.users _ hu).2), h.del⟩
  refine Txn.safe_query fun s₁ hb₁ _ => ?_
  have h₁ := h.around hb₁
  split
  · refine Txn.safe_insertRow fun s₂ hb₂ _ _ => Txn.safe_pure fun s₃ hb₃ _ => ?_
    have h₂ := hsome (h₁.around hb₂)
    refine Adding.around ⟨fun u hu => ?_, fun r hr => ?_⟩ hb₃
    · rcases Rows.inserted_insert.1 hu with hu | hu
      · exact h₂.users u hu
      · cases hu
        exact ⟨rfl, rfl⟩
    · exact h₂.del r (Rows.deleted_insert.1 hr)
  · exact Txn.safe_pure fun s₂ hb₂ _ => hsome (h₁.around hb₂)

theorem safe_insertMember {m : EventTeamMember} (h : Adding i m.eventId (some m.userId) s) :
    Safely e i (insertMember m) (fun _ s => Settled e i s ∧ Joined e i s) s := by
  refine Txn.safe_insertRow fun s₁ hb₁ _ _ => Txn.safe_pure fun s₂ hb₂ _ => ?_
  have h₁ := h.around hb₁
  refine ⟨Settled.around (fun m' hm' => ?_) hb₂, Joined.around (fun u hu => ?_) hb₂⟩
  · exact absurd (Rows.deleted_insert.1 hm') (h₁.del _)
  · rcases Rows.inserted_insert.1 hu with hu | hu
    · obtain ⟨he, hu⟩ := h₁.users _ hu
      cases hu
      exact ⟨m, Rows.inserted_insert.2 (.inr rfl), he.symm, rfl⟩
    · cases hu

/-- A membership that goes with some teams is one of theirs. -/
theorem member_of_doomed {eventId : Nat} {ids : List Nat} {v : Version Row} {m : EventTeamMember}
    (hm : v.row = .member m)
    (hd : s.doomed rosterSchema i (Row.isTeamOf eventId ids) v = true) :
    m.eventId = eventId ∧ m.teamId ∈ ids := by
  rcases Rows.doomed_iff.1 hd with ⟨-, hp⟩ | ⟨t, -, ⟨-, hp⟩, k, hk, hkt⟩
  · rw [hm] at hp
    cases hp
  · obtain ⟨m', hm', hk⟩ := mem_refs.1 hk
    obtain rfl : m = m' := by simpa [hm] using hm'
    rcases hk with rfl | rfl
    · obtain ⟨team, hrow, he, hid⟩ := team_key.1 hkt
      rw [hrow] at hp
      have hp : team.eventId = eventId ∧ team.id ∈ ids := by simpa [Row.isTeamOf] using hp
      exact ⟨he ▸ hp.1, hid ▸ hp.2⟩
    · rw [user_key.1 hkt] at hp
      cases hp

/-- The deletion of a membership takes no other along. -/
theorem member_of_doomed_member {m₀ m : EventTeamMember} {v : Version Row}
    (hm : v.row = .member m)
    (hd : s.doomed rosterSchema i (Row.isMember m₀.eventId m₀.teamId m₀.userId) v = true) :
    m.eventId = m₀.eventId ∧ m.userId = m₀.userId := by
  rcases Rows.doomed_iff.1 hd with ⟨-, hp⟩ | ⟨t, -, ⟨-, hp⟩, k, hk, hkt⟩
  · rw [hm] at hp
    have hp : m.eventId = m₀.eventId ∧ m.teamId = m₀.teamId ∧ m.userId = m₀.userId := by
      simpa [Row.isMember] using hp
    exact ⟨hp.1, hp.2.2⟩
  · obtain ⟨m', -, hk⟩ := mem_refs.1 hk
    rcases hk with rfl | rfl
    · obtain ⟨team, hrow, -⟩ := team_key.1 hkt
      rw [hrow] at hp
      cases hp
    · rw [user_key.1 hkt] at hp
      cases hp

/-- A membership that goes with some enrollments is one of theirs. -/
theorem user_of_doomed {eventId : Nat} {ids : List Nat} {v : Version Row} {m : EventTeamMember}
    (hm : v.row = .member m)
    (hd : s.doomed rosterSchema i (Row.isUserOf eventId ids) v = true) :
    ∃ t ∈ s.versions, t.row = .user ⟨m.eventId, m.userId⟩ ∧
      s.doomed rosterSchema i (Row.isUserOf eventId ids) t = true := by
  rcases Rows.doomed_iff.1 hd with ⟨-, hp⟩ | ⟨t, ht, htarget, k, hk, hkt⟩
  · rw [hm] at hp
    cases hp
  · obtain ⟨m', hm', hk⟩ := mem_refs.1 hk
    obtain rfl : m = m' := by simpa [hm] using hm'
    rcases hk with rfl | rfl
    · obtain ⟨team, hrow, -⟩ := team_key.1 hkt
      rw [hrow] at htarget
      cases htarget.2
    · exact ⟨t, ht, user_key.1 hkt, Rows.doomed_iff.2 (.inl htarget)⟩

/-- The enrollments of some users are deleted, and the memberships that were deleted before are
theirs. -/
theorem settled_deleteUsers {eventId : Nat} {ids : List Nat} (hs : s.Sound rosterSchema)
    (h : ∀ m, s.Deleted i (.member m) → m.eventId = e → eventId = e ∧ m.userId ∈ ids) :
    Settled e i (s.delete rosterSchema i (Row.isUserOf eventId ids)) := by
  intro m hm hme
  rcases Rows.deleted_delete.1 hm with hold | ⟨v, hv, hrow, hd⟩
  · obtain ⟨heq, hmem⟩ := h m hold hme
    obtain ⟨v, hv, hrow, hdel⟩ := hold
    have href : Key.user e m.userId ∈ rosterSchema.refs v.row :=
      mem_refs.2 ⟨m, hrow, .inr (by rw [hme])⟩
    obtain ⟨t, ht, hkt, htins, htdel⟩ := hs.linked v hv _ href
    have htrow : t.row = .user ⟨e, m.userId⟩ := user_key.1 hkt
    by_cases hgone : t.del = some i
    · exact Rows.deleted_delete.2 (.inl ⟨t, ht, htrow, hgone⟩)
    · -- The enrollment is there and is seen, so it is one of those that are deleted.
      have hfree : free i t.ins = true := by
        rcases htins with htins | htins
        · rw [htins]
          rfl
        · rw [htins]
          exact hs.owned v hv i hdel
      have hseen : t.seenBy i = true := by simp [Version.seenBy, hfree, hgone]
      have hp : Row.isUserOf eventId ids t.row = true := by
        rw [htrow]
        simp [Row.isUserOf, heq, hmem]
      exact Rows.deleted_delete.2 (.inr ⟨t, ht, htrow, Rows.doomed_iff.2 (.inl ⟨hseen, hp⟩)⟩)
  · obtain ⟨t, ht, htrow, htd⟩ := user_of_doomed hrow hd
    exact Rows.deleted_delete.2 (.inr ⟨t, ht, hme ▸ htrow, htd⟩)

/-- The transaction inserts nothing, and the memberships of the event that it has deleted are those
of some users. -/
structure Removing (e i eventId : Nat) (ids : List Nat) (s : Rows World Row Key) : Prop where
  ins : ∀ r, ¬ s.Inserted i r
  members : ∀ m, s.Deleted i (.member m) → m.eventId = e → eventId = e ∧ m.userId ∈ ids

theorem Removing.around {eventId : Nat} {ids : List Nat} (h : Removing e i eventId ids s)
    (hb : Around e i s s') : Removing e i eventId ids s' :=
  ⟨fun r hr => h.ins r ((hb.ins r).1 hr), fun m hm => h.members m ((hb.del _).1 hm)⟩

theorem NoRows.removing (h : NoRows i s) (eventId : Nat) (ids : List Nat) :
    Removing e i eventId ids s :=
  ⟨h.ins, fun _ hm => absurd hm (h.del _)⟩

theorem Removing.joined {eventId : Nat} {ids : List Nat} (h : Removing e i eventId ids s) :
    Joined e i s := fun _ hu => absurd hu (h.ins _)

theorem Removing.settled {eventId : Nat} (h : Removing e i eventId [] s) : Settled e i s :=
  fun m hm hme => nomatch (h.members m hm hme).2

theorem safe_deleteUsers {eventId : Nat} {ids : List Nat} (h : Removing e i eventId ids s) :
    Safely e i (deleteUsers eventId ids) (fun _ s => Settled e i s ∧ Joined e i s) s := by
  intro s₁ hb₁ hs₁ _ _ s₂ hb₂ _
  have h₁ := h.around hb₁
  refine ⟨(settled_deleteUsers hs₁ h₁.members).around hb₂, Joined.around (fun u hu => ?_) hb₂⟩
  exact absurd (Rows.inserted_delete.1 hu) (h₁.ins _)

theorem safe_deleteMember {m : EventTeamMember} (h : NoRows i s) :
    Safely e i (deleteMember m) (fun _ s => Removing e i m.eventId [m.userId] s) s := by
  refine Txn.safe_deleteRows fun s₁ hb₁ _ _ _ => Txn.safe_pure fun s₂ hb₂ _ => ?_
  have h₁ := h.around hb₁
  refine Removing.around ⟨fun r hr => h₁.ins r (Rows.inserted_delete.1 hr), fun m' hm' hme => ?_⟩ hb₂
  rcases Rows.deleted_delete.1 hm' with hold | ⟨v, -, hrow, hd⟩
  · exact absurd hold (h₁.del _)
  · obtain ⟨he, hu⟩ := member_of_doomed_member hrow hd
    exact ⟨he ▸ hme, by simp [hu]⟩

end Statements

/-! ## Operations -/

section Operations

variable {e i : Nat} {s : Rows World Row Key}

theorem safe_locks {α : Type} (p : RosterM α) (h : Locks e i s) :
    Safely e i p (fun _ s => Locks e i s) s :=
  Txn.safe_of_locks (fun _ _ hb h => h.around hb)
    (fun _ _ henv hl h => ⟨hl _ h.1, henv ▸ h.2⟩) p h

/-- A player's operation: what it does with the event locked. -/
theorem safe_player {α : Type} {eventId : Nat} {visible : Bool} {rest : RosterM α}
    (hrest : ∀ s, NoRows i s → (i, Key.event eventId) ∈ s.locks →
      Safely e i rest (fun _ s => Settled e i s ∧ Joined e i s) s) (h : NoRows i s) :
    Safely e i (openRoster eventId visible >>= fun _ => rest)
      (fun _ s => (Settled e i s ∧ Joined e i s) ∧ (eventId = e → s.env.Open e)) s := by
  refine Txn.safe_bind ((safe_openRoster h).mono fun _ s' hs' => ?_)
  obtain ⟨hrows, hlock, hlocks⟩ := hs'
  by_cases heq : eventId = e
  · exact ((hrest s' hrows hlock).and (safe_locks rest (hlocks heq))).mono
      fun _ _ h => ⟨h.1, fun _ => h.2.2⟩
  · exact (hrest s' hrows hlock).mono fun _ _ h => ⟨h, fun h => absurd h heq⟩

theorem safe_createTeam {eventId userId : Nat} {name : String} (h : NoRows i s) :
    Safely e i (createTeam eventId userId name)
      (fun _ s => (Settled e i s ∧ Joined e i s) ∧ (eventId = e → s.env.Open e)) s := by
  refine safe_player (fun s hs _ => ?_) h
  refine Txn.safe_query fun s₁ hb₁ _ => ?_
  split
  · trivial
  refine Txn.safe_bind ((safe_insertTeam ((hs.around hb₁).adding eventId none)).mono ?_)
  intro team s₂ h₂
  refine Txn.safe_bind ((safe_enroll h₂).mono fun _ s₃ h₃ => ?_)
  refine Txn.safe_bind ((safe_insertMember h₃).mono fun _ s₄ h₄ => ?_)
  exact Txn.safe_pure fun s₅ hb₅ _ => ⟨h₄.1.around hb₅, h₄.2.around hb₅⟩

theorem safe_joinTeam {eventId teamId userId : Nat} (h : NoRows i s) :
    Safely e i (joinTeam eventId teamId userId)
      (fun _ s => (Settled e i s ∧ Joined e i s) ∧ (eventId = e → s.env.Open e)) s := by
  refine safe_player (fun s hs _ => ?_) h
  refine Txn.safe_query fun s₁ hb₁ _ => ?_
  split
  · trivial
  refine Txn.safe_query fun s₂ hb₂ _ => safe_ofOption fun team _ => ?_
  refine Txn.safe_bind ((safe_enroll (((hs.around hb₁).around hb₂).adding eventId none)).mono ?_)
  intro _ s₃ h₃
  refine Txn.safe_bind ((safe_insertMember h₃).mono fun _ s₄ h₄ => ?_)
  exact Txn.safe_pure fun s₅ hb₅ _ => ⟨h₄.1.around hb₅, h₄.2.around hb₅⟩

theorem of_findMember {eventId teamId userId : Nat} {rows : List Row} {m : EventTeamMember}
    (h : ((rows.filterMap Row.toMember).find? fun m =>
      m.eventId = eventId ∧ m.teamId = teamId ∧ m.userId = userId) = some m) :
    m.eventId = eventId ∧ m.userId = userId := by
  have hm := List.find?_some h
  simp only [decide_eq_true_eq] at hm
  exact ⟨hm.1, hm.2.2⟩

/-- A member leaves: the membership and the enrollment. -/
theorem safe_leave {m : EventTeamMember} (h : NoRows i s) :
    Safely e i (do deleteMember m; let _ ← deleteUsers m.eventId [m.userId])
      (fun _ s => Settled e i s ∧ Joined e i s) s := by
  refine Txn.safe_bind ((safe_deleteMember h).mono fun _ s₁ h₁ => ?_)
  refine Txn.safe_bind ((safe_deleteUsers h₁).mono fun _ s₂ h₂ => ?_)
  exact Txn.safe_pure fun s₃ hb₃ _ => ⟨h₂.1.around hb₃, h₂.2.around hb₃⟩

theorem safe_leaveTeam {eventId teamId userId : Nat} (h : NoRows i s) :
    Safely e i (leaveTeam eventId teamId userId)
      (fun _ s => (Settled e i s ∧ Joined e i s) ∧ (eventId = e → s.env.Open e)) s := by
  refine safe_player (fun s hs _ => ?_) h
  refine Txn.safe_query fun s₁ hb₁ _ => safe_ofOption fun m hm => ?_
  obtain ⟨rfl, rfl⟩ := of_findMember hm
  split
  · trivial
  refine Txn.safe_query fun s₂ hb₂ _ => ?_
  split
  · trivial
  · exact safe_leave ((hs.around hb₁).around hb₂)

/-- With the event locked, the members of a team that a transaction reads are all there are. -/
theorem members_read {eventId teamId : Nat} (hs : s.Sound rosterSchema) (h : NoRows i s)
    (hlock : (i, Key.event eventId) ∈ s.locks) {m : EventTeamMember} (hm : s.Has (.member m))
    (he : m.eventId = eventId) (ht : m.teamId = teamId) :
    m.userId ∈ (((s.visible i).filterMap Row.toMember).filter fun m =>
      m.eventId = eventId ∧ m.teamId ∈ [teamId]).map (·.userId) := by
  obtain ⟨v, hv, hrow⟩ := hm
  have hfree : free i v.ins = true := by
    refine hs.guarded _ hlock v hv (List.mem_append_right _ ?_)
    simp [hrow, rosterSchema, he]
  have hdel : v.del ≠ some i := fun hdel => h.del _ ⟨v, hv, hrow, hdel⟩
  have hseen : v.seenBy i = true := by simp [Version.seenBy, hfree, hdel]
  have hvisible : Row.member m ∈ s.visible i :=
    List.mem_map.2 ⟨v, List.mem_filter.2 ⟨hv, hseen⟩, hrow⟩
  refine List.mem_map.2 ⟨m, List.mem_filter.2 ⟨List.mem_filterMap.2 ⟨_, hvisible, rfl⟩, ?_⟩, rfl⟩
  simp [he, ht]

/-- A team is deleted, and every member that it has then is one of some users. -/
theorem safe_deleteTeam {team : EventTeam} {eventId : Nat} {ids : List Nat} (h : NoRows i s)
    (hids : ∀ s', Around e i s s' → ∀ m, s'.Has (.member m) → m.eventId = team.eventId →
      m.teamId = team.id → eventId = m.eventId ∧ m.userId ∈ ids) :
    Safely e i (deleteTeam team) (fun _ s => Removing e i eventId ids s) s := by
  refine Txn.safe_deleteRows fun s₁ hb₁ _ _ _ => Txn.safe_pure fun s₂ hb₂ _ => ?_
  have h₁ := h.around hb₁
  refine Removing.around ⟨fun r hr => h₁.ins r (Rows.inserted_delete.1 hr), fun m hm hme => ?_⟩ hb₂
  rcases Rows.deleted_delete.1 hm with hold | ⟨v, hv, hrow, hd⟩
  · exact absurd hold (h₁.del _)
  · obtain ⟨he, ht⟩ := member_of_doomed hrow hd
    obtain ⟨heq, hmem⟩ := hids s₁ hb₁ m ⟨v, hv, hrow⟩ he (by simpa using ht)
    exact ⟨heq.trans hme, hmem⟩

/-- The enrollments of the members of a deleted team, if it had any. -/
theorem safe_deleteUsersOf {eventId : Nat} {ids : List Nat} (h : Removing e i eventId ids s) :
    Safely e i (if !ids.isEmpty then do let _ ← deleteUsers eventId ids else pure ())
      (fun _ s => Settled e i s ∧ Joined e i s) s := by
  cases ids with
  | nil => exact Txn.safe_pure fun s₁ hb₁ _ => ⟨h.settled.around hb₁, h.joined.around hb₁⟩
  | cons u ids =>
    refine Txn.safe_bind ((safe_deleteUsers h).mono fun _ s₁ h₁ => ?_)
    exact Txn.safe_pure fun s₂ hb₂ _ => ⟨h₁.1.around hb₂, h₁.2.around hb₂⟩

theorem safe_quitTeam {eventId teamId userId : Nat} (h : NoRows i s) :
    Safely e i (quitTeam eventId teamId userId)
      (fun _ s => (Settled e i s ∧ Joined e i s) ∧ (eventId = e → s.env.Open e)) s := by
  refine safe_player (fun s hs hlock => ?_) h
  refine Txn.safe_query fun s₁ hb₁ _ => safe_ofOption fun m hm => ?_
  obtain ⟨rfl, rfl⟩ := of_findMember hm
  refine Txn.safe_query fun s₂ hb₂ _ => safe_ofOption fun team hteam => ?_
  have h₂ := (hs.around hb₁).around hb₂
  have hlock₂ := (hb₂.locks _).2 ((hb₁.locks _).2 hlock)
  split
  · obtain ⟨htid, hteid⟩ : team.id = teamId ∧ team.eventId = m.eventId := by
      simpa using List.find?_some hteam
    refine Txn.safe_query fun s₃ hb₃ hs₃ => ?_
    have hlock₃ := (hb₃.locks _).2 hlock₂
    refine Txn.safe_bind ((safe_deleteTeam (h₂.around hb₃) fun s₄ hb₄ m' hm' he ht => ?_).mono
      fun _ s₅ h₅ => safe_deleteUsersOf h₅)
    -- Under the lock no member has come to the team since the list was read.
    have hshares : Key.event m.eventId ∈ rosterSchema.refs (.member m') ++
        rosterSchema.shares (.member m') := by
      simp [rosterSchema, he, hteid]
    have hread := hb₄.held _ hlock₃ _ hshares hm'
    exact ⟨(he.trans hteid).symm, members_read hs₃ (h₂.around hb₃) hlock₃ hread (he.trans hteid)
      (ht.trans htid)⟩
  · exact safe_leave h₂

theorem safe_teamEvent {α : Type} {Q : α → Rows World Row Key → Prop} {eventId : Nat}
    {k : Event → RosterM α} (h : ∀ event s', Around e i s s' → Safely e i (k event) Q s') :
    Safely e i (teamEvent eventId >>= k) Q s := by
  unfold teamEvent
  rw [Txn.bind_assoc]
  refine Txn.safe_ask fun s₁ hb₁ _ => ?_
  rw [Txn.bind_assoc]
  refine safe_ofOption fun event _ => ?_
  split
  · trivial
  · exact h event s₁ hb₁

theorem safe_addTeam {eventId : Nat} {name : String} {description : Option String}
    (h : NoRows i s) :
    Safely e i (addTeam eventId name description) (fun _ s => Settled e i s ∧ Joined e i s) s := by
  refine safe_teamEvent fun event s₁ hb₁ => ?_
  exact (safe_insertTeam ((h.around hb₁).adding event.id none)).mono
    fun _ _ h => ⟨h.settled, h.joined⟩

theorem safe_addUserToTeam {eventId teamId userId : Nat} (h : NoRows i s) :
    Safely e i (addUserToTeam eventId teamId userId)
      (fun _ s => Settled e i s ∧ Joined e i s) s := by
  refine safe_teamEvent fun event s₁ hb₁ => ?_
  refine Txn.safe_query fun s₂ hb₂ _ => safe_ofOption fun team _ => ?_
  refine Txn.safe_ask fun s₃ hb₃ _ => ?_
  split
  · trivial
  refine Txn.safe_query fun s₄ hb₄ _ => ?_
  split
  · trivial
  have h₄ := (((h.around hb₁).around hb₂).around hb₃).around hb₄
  refine Txn.safe_bind ((safe_enroll (h₄.adding eventId none)).mono fun _ s₅ h₅ => ?_)
  refine Txn.safe_bind ((safe_insertMember h₅).mono fun _ s₆ h₆ => ?_)
  exact Txn.safe_pure fun s₇ hb₇ _ => ⟨h₆.1.around hb₇, h₆.2.around hb₇⟩

theorem safe_removeUserFromTeam {eventId teamId : Nat} {ids : List Nat} (h : NoRows i s) :
    Safely e i (removeUserFromTeam eventId teamId ids)
      (fun _ s => Settled e i s ∧ Joined e i s) s := by
  refine Txn.safe_query fun s₁ hb₁ _ => ?_
  split
  · split
    · trivial
    · refine Txn.safe_pure fun s₂ hb₂ _ => ?_
      have h₂ := ((h.around hb₁).around hb₂).adding eventId none
      exact ⟨h₂.settled, h₂.joined⟩
  · split
    · trivial
    · exact safe_deleteUsers ((h.around hb₁).removing _ _)

/-- The teams are deleted, and every member that they have then has been read. -/
theorem safe_deleteTeams {eventId : Nat} {ids users : List Nat} (h : NoRows i s) :
    Safely e i (deleteTeams eventId ids users) (fun _ s => Removing e i eventId users s) s := by
  intro s₁ hb₁ _ hw hread s₂ hb₂ _
  have h₁ := h.around hb₁
  refine Removing.around ⟨fun r hr => h₁.ins r (Rows.inserted_delete.1 hr), fun m hm hme => ?_⟩ hb₂
  rcases Rows.deleted_delete.1 hm with hold | ⟨v, hv, hrow, hd⟩
  · exact absurd hold (h₁.del _)
  · obtain ⟨he, ht⟩ := member_of_doomed hrow hd
    have hins : v.ins = none :=
      (free_iff.1 (Rows.deleteWaits_eq_false hw hv hd).1).resolve_right
        fun hins => h₁.ins _ ⟨v, hv, hrow, hins⟩
    have hcommitted : Row.member m ∈ s₁.committed :=
      List.mem_map.2 ⟨v, List.mem_filter.2 ⟨hv, by simp [hins]⟩, hrow⟩
    have hmem : m ∈ s₁.committed.filterMap Row.toMember :=
      List.mem_filterMap.2 ⟨_, hcommitted, rfl⟩
    exact ⟨he ▸ hme, hread (he ▸ hme) m hmem hme ht⟩

theorem safe_removeTeam {eventId : Nat} {ids : List Nat} (h : NoRows i s) :
    Safely e i (removeTeam eventId ids) (fun _ s => Settled e i s ∧ Joined e i s) s := by
  refine Txn.safe_query fun s₁ hb₁ _ => ?_
  refine Txn.safe_bind ((safe_deleteTeams (h.around hb₁)).mono fun count s₂ h₂ => ?_)
  split
  · refine Txn.safe_bind ((safe_deleteUsers h₂).mono fun _ s₃ h₃ => ?_)
    exact Txn.safe_pure fun s₄ hb₄ _ => ⟨h₃.1.around hb₄, h₃.2.around hb₄⟩
  · next hempty =>
    have hnil : ∀ ids : List Nat, ¬ (!ids.isEmpty) = true → ids = [] := by simp
    rw [hnil _ hempty] at h₂
    exact Txn.safe_pure fun s₃ hb₃ _ => ⟨h₂.settled.around hb₃, h₂.joined.around hb₃⟩

/-- Every operation, started with nothing written, ends with what it owes. -/
theorem safe_prog (op : Operation) (h : NoRows i s) :
    Safely e i op.prog (fun _ => Ends e op i) s := by
  have hadmin : ∀ {α : Type} {p : RosterM α}, op.playerEvent = none →
      Safely e i p (fun _ s => Settled e i s ∧ Joined e i s) s →
      Safely e i p (fun _ => Ends e op i) s :=
    fun hnone hp => hp.mono fun _ _ h => ⟨h.1, h.2, fun hop => by rw [hnone] at hop; cases hop⟩
  have hplayer : ∀ {α : Type} {p : RosterM α} {eventId : Nat}, op.playerEvent = some eventId →
      Safely e i p
        (fun _ s => (Settled e i s ∧ Joined e i s) ∧ (eventId = e → s.env.Open e)) s →
      Safely e i p (fun _ => Ends e op i) s :=
    fun hsome hp => hp.mono fun _ _ h =>
      ⟨h.1.1, h.1.2, fun hop => h.2 (Option.some.inj (hsome.symm.trans hop))⟩
  cases op with
  | createTeam eventId userId name => exact Txn.safe_discard (hplayer rfl (safe_createTeam h))
  | quitTeam eventId teamId userId => exact hplayer rfl (safe_quitTeam h)
  | joinTeam eventId teamId userId => exact Txn.safe_discard (hplayer rfl (safe_joinTeam h))
  | leaveTeam eventId teamId userId => exact hplayer rfl (safe_leaveTeam h)
  | addTeam eventId name description => exact Txn.safe_discard (hadmin rfl (safe_addTeam h))
  | removeTeam eventId ids => exact Txn.safe_discard (hadmin rfl (safe_removeTeam h))
  | addUserToTeam eventId teamId userId => exact Txn.safe_discard (hadmin rfl (safe_addUserToTeam h))
  | removeUserFromTeam eventId teamId ids => exact Txn.safe_discard (hadmin rfl (safe_removeUserFromTeam h))

end Operations

/-! ## Runs -/

section Runs

variable {e : Nat}

/-- The commit of an operation that owes nothing leaves nobody without a team. -/
theorem nobodyWithoutTeam_commit {op : Operation} {i : Nat} {s : Rows World Row Key}
    (hs : s.Sound rosterSchema) (hgood : NobodyWithoutTeam e s.committed) (h : Ends e op i s) :
    NobodyWithoutTeam e (s.visible i) := by
  intro u hu
  obtain ⟨v, hv, hrow⟩ := List.mem_map.1 hu
  obtain ⟨hv, hseen⟩ := List.mem_filter.1 hv
  simp only [Version.seenBy, Bool.and_eq_true, bne_iff_ne, ne_eq] at hseen
  -- A membership that goes would take the enrollment along.
  have hkept : ∀ vm ∈ s.versions, ∀ m, vm.row = .member m → m.eventId = e → m.userId = u →
      vm.del ≠ some i := by
    rintro vm hvm m hm he rfl hdel
    obtain ⟨v', hv', hrow', hdel'⟩ := h.settled m ⟨vm, hvm, hm, hdel⟩ he
    have hsame := hs.eq_of_key hv hv' (user_key.2 hrow) (user_key.2 hrow')
    exact hseen.2 (hsame ▸ hdel')
  have hfound : ∃ vm ∈ s.versions, ∃ m, vm.row = .member m ∧ m.eventId = e ∧ m.userId = u ∧
      free i vm.ins = true := by
    rcases free_iff.1 hseen.1 with hins | hins
    · have hcommitted : Row.user ⟨e, u⟩ ∈ s.committed :=
        List.mem_map.2 ⟨v, List.mem_filter.2 ⟨hv, by simp [hins]⟩, hrow⟩
      obtain ⟨m, hm, he, hu⟩ := hgood u hcommitted
      obtain ⟨vm, hvm, hm⟩ := List.mem_map.1 hm
      obtain ⟨hvm, hnone⟩ := List.mem_filter.1 hvm
      exact ⟨vm, hvm, m, hm, he, hu, by simp [free, Option.isNone_iff_eq_none.1 hnone]⟩
    · obtain ⟨m, ⟨vm, hvm, hm, hmine⟩, he, hu⟩ := h.joined u ⟨v, hv, hrow, hins⟩
      exact ⟨vm, hvm, m, hm, he, hu, by simp [free, hmine]⟩
  obtain ⟨vm, hvm, m, hm, he, hu, hfree⟩ := hfound
  have hdel := hkept vm hvm m hm he hu
  exact ⟨m, List.mem_map.2 ⟨vm, List.mem_filter.2 ⟨hvm, by simp [Version.seenBy, hfree, hdel]⟩, hm⟩,
    he, hu⟩

theorem World.event_edit {eventId : Nat} (hidden allowJoin : Bool) (startTime : Int) (w : World)
    (hne : e ≠ eventId) :
    ((Change.edit eventId hidden allowJoin startTime).act w).event e = w.event e := by
  have hkey : ∀ ev : Event, (if ev.id = eventId then { ev with hidden, allowJoin, startTime }
      else ev).id = ev.id := by
    intro ev
    split <;> rfl
  simp only [World.event, Change.act]
  rw [Table.find_map hkey]
  cases hev : w.events.find? (·.id = e) with
  | none => rfl
  | some ev =>
    have hid : ev.id = e := (Table.mem_of_find hev).2
    rw [Option.map_some, if_neg (hid ▸ hne)]

/-- What happens beside the operations leaves what belongs to a locked event. -/
theorem eventPart_edit {s : Rows World Row Key} {a : Change} (hcalm : NoStartUnderLock e s a)
    (hfree : ∀ l ∈ s.locks, some l.2 ≠ a.writes) {l : Nat × Key} (hl : l ∈ s.locks) :
    eventPart e l.2 (a.act s.env) = eventPart e l.2 s.env := by
  unfold eventPart
  split
  · next hkey =>
    cases a with
    | tick now =>
      have hlocked : s.locks.any (·.2 = .event e) = true :=
        List.any_eq_true.2 ⟨l, hl, by simpa using hkey⟩
      have hsame : ∀ ev, s.env.event e = some ev →
          ev.notStarted (max s.env.now now) = ev.notStarted s.env.now := by
        intro ev hev
        cases hstart : ev.notStarted s.env.now with
        | true => exact hcalm hlocked ev hev hstart
        | false =>
          simp only [Event.notStarted, decide_eq_false_iff_not] at hstart ⊢
          omega
      have henv : (Change.tick now).act s.env = { s.env with now := max s.env.now now } := rfl
      have hevent : ({ s.env with now := max s.env.now now } : World).event e = s.env.event e := rfl
      rw [henv, hevent]
      cases hev : s.env.event e with
      | none => rfl
      | some ev => simp [hsame ev hev]
    | edit eventId hidden allowJoin startTime =>
      have hne : e ≠ eventId := by
        rintro rfl
        exact hfree l hl (by rw [hkey]; rfl)
      rw [World.event_edit hidden allowJoin startTime s.env hne]
      rfl
  · rfl

theorem roster_keeps (e : Nat) : TxnLaw.Keeps roster (rosterLaw e) where
  flat := rosterSchema_flat
  prog op _ _ _ h := safe_prog op ⟨h.ins, h.del⟩
  commit _ _ _ hs hgood h := nobodyWithoutTeam_commit hs hgood h
  edit _ _ hcalm hfree _ hl := eventPart_edit hcalm hfree hl

/-- The rows of a member in the event. -/
def Row.isMembership (e userId : Nat) : Row → Bool
  | .member m => m.eventId = e ∧ m.userId = userId
  | _ => false

/-- The row of a captain of the team. -/
def Row.isCaptain (e teamId : Nat) : Row → Bool
  | .member m => m.eventId = e ∧ m.teamId = teamId ∧ m.role = .captain
  | _ => false

/-- What holds of the committed rows of an event. -/
structure RosterOk (e : Nat) (rows : List Row) : Prop where
  oneTeam : ∀ u, (rows.filter (Row.isMembership e u)).length ≤ 1
  oneCaptain : ∀ t, (rows.filter (Row.isCaptain e t)).length ≤ 1
  team : ∀ m, Row.member m ∈ rows → m.eventId = e →
    ∃ t, Row.team t ∈ rows ∧ t.eventId = e ∧ t.id = m.teamId
  enrolled : ∀ u, Row.user ⟨e, u⟩ ∈ rows ↔
    ∃ m, Row.member m ∈ rows ∧ m.eventId = e ∧ m.userId = u

theorem rosterOk_of_sound {s : Rows World Row Key} (hs : s.Sound rosterSchema)
    (h : NobodyWithoutTeam e s.committed) : RosterOk e s.committed where
  oneTeam u := by
    refine Schema.length_filter_le_one (k := .member e u) hs.committed_apart fun r hr => ?_
    cases r with
    | member m =>
      have hm : m.eventId = e ∧ m.userId = u := by simpa [Row.isMembership] using hr
      simp [rosterSchema, hm]
    | _ => cases hr
  oneCaptain t := by
    refine Schema.length_filter_le_one (k := .captain e t) hs.committed_apart fun r hr => ?_
    cases r with
    | member m =>
      have hm : m.eventId = e ∧ m.teamId = t ∧ m.role = .captain := by
        simpa [Row.isCaptain] using hr
      simp [rosterSchema, hm]
    | _ => cases hr
  team m hm he := by
    have href : Key.team e m.teamId ∈ rosterSchema.refs (.member m) :=
      mem_refs.2 ⟨m, rfl, .inl (by rw [he])⟩
    obtain ⟨r, hr, hk⟩ := hs.committed_linked hm href
    obtain ⟨team, rfl, hte, htid⟩ := team_key.1 hk
    exact ⟨team, hr, hte, htid⟩
  enrolled u := by
    refine ⟨h u, ?_⟩
    rintro ⟨m, hm, rfl, rfl⟩
    have href : Key.user m.eventId m.userId ∈ rosterSchema.refs (.member m) :=
      mem_refs.2 ⟨m, rfl, .inr rfl⟩
    obtain ⟨r, hr, hk⟩ := hs.committed_linked hm href
    rwa [← user_key.1 hk]

/-- The action commits an operation that has returned. -/
def Commits (w : RosterDb) (a : RdbAct Operation Change) (op : Operation) : Prop :=
  ∃ n t, a = .commit n ∧ w.sessions[n]? = some t ∧ t.prog = .ret () ∧ t.job = op

/-- An action that changes the rows is the commit of an operation, and if a player has made it, the
event is open. -/
def ChangesInTime (e : Nat) (w : RosterDb) (a : RdbAct Operation Change) : Prop :=
  (roster.step w a).rows.committed ≠ w.rows.committed →
    ∃ op, Commits w a op ∧ (op.playerEvent = some e → w.rows.env.Open e)

theorem changesInTime_of_fulfils {w : RosterDb} {a : RdbAct Operation Change}
    (h : (rosterLaw e).Fulfils w a) : ChangesInTime e w a := by
  intro hchange
  by_contra hno
  refine hchange (TxnLaw.committed_step roster w fun n t x ha hn hprog => hno ?_)
  refine ⟨t.job, ⟨n, t, ha, hn, hprog, rfl⟩, ?_⟩
  subst ha
  have hends := h t hn
  rw [hprog] at hends
  exact hends.isOpen

/-- The constraints of the tables. -/
structure Valid (rows : List Row) : Prop where
  apart : rows.Pairwise rosterSchema.Apart
  linked : ∀ r ∈ rows, ∀ k ∈ rosterSchema.refs r, ∃ r' ∈ rows, k ∈ rosterSchema.keys r'

/-- In every run in which `remove_team` has read all members and no event starts under a lock, the
roster of the event is in step, only commits change it, and those of players only in time. -/
theorem roster_run {env : World} {rows : List Row} {nextId : Nat} (hvalid : Valid rows)
    (h : NobodyWithoutTeam e rows) {acts : List (RdbAct Operation Change)}
    (ha : Along roster.step (rosterLaw e).Heeds (Rdb.quiet env rows nextId) acts) :
    RosterOk e (acts.foldl roster.step (Rdb.quiet env rows nextId)).rows.committed ∧
      Along roster.step (ChangesInTime e) (Rdb.quiet env rows nextId) acts := by
  have hstart : TxnLaw.DbOk roster (rosterLaw e) (Rdb.quiet env rows nextId) :=
    TxnLaw.dbOk_quiet hvalid.apart hvalid.linked h
  obtain ⟨hok, hfulfils⟩ := TxnLaw.dbOk_run (roster_keeps e) hstart ha
  exact ⟨rosterOk_of_sound hok.sound hok.good,
    hfulfils.imp fun _ _ h => changesInTime_of_fulfils h⟩

/-! ## A member nobody has read -/

/-- An event of teams that has not begun. -/
def springEvent : Event := ⟨1, false, 1000, true, .competition, .team, none⟩

/-- A team of one, before the event. -/
def springRows : List Row :=
  [.team ⟨1, 1, "red", none⟩, .user ⟨1, 10⟩, .member ⟨1, 1, 10, .captain⟩]

/-- The event with what its players have joined. -/
def spring : RosterDb := Rdb.quiet ⟨0, [springEvent], [10, 20]⟩ springRows 2

/-- An administrator removes the team, and reads its members before another user joins it. -/
def joinWhileRemoved : List (RdbAct Operation Change) :=
  [.begin (.removeTeam 1 [1]), .step 0, .begin (.joinTeam 1 1 20)] ++ List.replicate 7 (.step 1) ++
    [.commit 1, .step 0, .step 0, .commit 0]

/-- The user who has joined is enrolled without a team. -/
theorem enrolled_without_team :
    (joinWhileRemoved.foldl roster.step spring).rows.committed = [.user ⟨1, 20⟩] ∧
    ¬ RosterOk 1 (joinWhileRemoved.foldl roster.step spring).rows.committed := by
  have hrows : (joinWhileRemoved.foldl roster.step spring).rows.committed = [.user ⟨1, 20⟩] := by
    decide +kernel
  refine ⟨hrows, fun h => ?_⟩
  obtain ⟨m, hm, -⟩ := (h.enrolled 20).1 (by rw [hrows]; decide)
  rw [hrows] at hm
  simp at hm

/-- The user joins first. -/
def joinThenRemoved : List (RdbAct Operation Change) :=
  [.begin (.joinTeam 1 1 20)] ++ List.replicate 7 (.step 0) ++
    [.commit 0, .begin (.removeTeam 1 [1]), .step 0, .step 0, .step 0, .commit 0]

theorem roster_run_spring :
    Along roster.step (rosterLaw 1).Heeds spring joinThenRemoved ∧
    RosterOk 1 (joinThenRemoved.foldl roster.step spring).rows.committed ∧
      Along roster.step (ChangesInTime 1) spring joinThenRemoved := by
  have hvalid : Valid springRows := ⟨by decide, by decide⟩
  have hteams : NobodyWithoutTeam 1 springRows := by
    intro u hu
    have hu : u = 10 := by simpa [springRows] using hu
    exact ⟨⟨1, 1, 10, .captain⟩, by simp [springRows], rfl, hu.symm⟩
  have hheeds : Along roster.step (rosterLaw 1).Heeds spring joinThenRemoved := by decide +kernel
  exact ⟨hheeds, roster_run hvalid hteams hheeds⟩

end Runs

end FloatCtf.Events
