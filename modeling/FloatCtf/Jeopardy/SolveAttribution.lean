import FloatCtf.Jeopardy.Submission
import FloatCtf.Process.Prog
import FloatCtf.Process.Table
import FloatCtf.Process.Trace
import Mathlib.Algebra.GroupWithZero.Nat

/-!
# Who scores

A solve that scores should come from an instance of its event and challenge that belongs to the
subject.  The scoring transaction takes the challenge from the instance and checks the flag, the
publication and the ban, but neither the event nor the owner of the instance, although a comment
says that they are checked elsewhere: `borrowed_instance_scores` scores with the instance of another
player.

`attribution_run` shows that every solve of a run is rightful when each request presents an instance
of its own event and subject, and `rightful_iff_own` that nothing else is missing.
-/

namespace FloatCtf.Jeopardy

open Process

variable {P : Type}

/-! ## Rightful solves -/

/-- The instance belongs to the player, or to the team. -/
def Instance.ownedBy (i : Instance) (userId : Nat) : Option Nat → Prop
  | none => i.userId = userId
  | some teamId => i.teamId = some teamId

instance (i : Instance) (userId : Nat) (t : Option Nat) : Decidable (i.ownedBy userId t) :=
  match t with
  | none => inferInstanceAs (Decidable (i.userId = userId))
  | some teamId => inferInstanceAs (Decidable (i.teamId = some teamId))

/-- The subject is the player or, in a team event, the team of the player, and is not banned. -/
def SubjectOf (db : Db P) (userId eventId : Nat) (mode : ParticipantMode) : Option Nat → Prop
  | none => mode = .individual ∧
      ∃ u ∈ db.users, u.eventId = eventId ∧ u.userId = userId ∧ u.banned = false
  | some teamId => mode = .team ∧
      (∃ m ∈ db.members, m.eventId = eventId ∧ m.userId = userId ∧ m.teamId = teamId) ∧
      ∃ t ∈ db.teams, t.id = teamId ∧ t.banned = false

instance (db : Db P) (userId eventId : Nat) (mode : ParticipantMode) (t : Option Nat) :
    Decidable (SubjectOf db userId eventId mode t) := by
  cases t <;> unfold SubjectOf <;> infer_instance

/-- What entitles the player to the solve, apart from the ownership of the instance. -/
def Earned (db : Db P) (userId : Nat) (req : FlagRequest) (s : Solve P) (i : Instance) : Prop :=
  req.instanceId = some i.id ∧ i.runtimeState = .running ∧ i.challengeId = s.challengeId ∧
    i.flag = Text.trim req.flag ∧
    (∃ c ∈ db.eventChallenges, c.eventId = s.eventId ∧ c.challengeId = s.challengeId ∧
      c.hidden = false) ∧
    s.userId = userId ∧
    ∃ e ∈ db.events, e.id = s.eventId ∧ eventTimeStatus e db.now = .ongoing ∧
      SubjectOf db userId s.eventId e.participantMode s.teamId

/-- The solve was earned with an instance of its event that belongs to its subject. -/
def Rightful (db : Db P) (userId : Nat) (req : FlagRequest) (s : Solve P) : Prop :=
  ∃ i ∈ db.instances, Earned db userId req s i ∧ i.eventId = s.eventId ∧
    i.ownedBy userId s.teamId

instance (db : Db P) (userId : Nat) (req : FlagRequest) (s : Solve P) :
    Decidable (Rightful db userId req s) := by
  unfold Rightful Earned
  infer_instance

/-- The instance that the request presents is one of the event of the request, and it belongs to
the player or, in a team event, to the team of the player. -/
def Own (db : Db P) (userId : Nat) (req : FlagRequest) : Prop :=
  match db.requestedEvent req with
  | .error _ => True
  | .ok e => ∀ i ∈ req.instanceId.bind db.runningInstance, i.eventId = e.id ∧
      i.ownedBy userId
        (if e.participantMode = .team then db.findTeamIdForUser e.id userId else none)

instance (db : Db P) (userId : Nat) (req : FlagRequest) : Decidable (Own db userId req) := by
  unfold Own
  split <;> infer_instance

/-! ## What a scoring request has passed -/

theorem orError_ok {α : Type} {e : String} {o : Option α} {a : α} (h : orError e o = .ok a) :
    o = some a := by
  cases o with
  | none => cases h
  | some b => cases h; rfl

theorem mapError_ok {α : Type} {f : String → String} {x : Except String α} {a : α}
    (h : x.mapError f = .ok a) : x = .ok a := by
  cases x with
  | error e => cases h
  | ok b => cases h; rfl

variable {db db' : Db P} {s : Solve P}

/-- What the handler has checked when a solve scores. -/
structure Passed (db : Db P) (userId : Nat) (req : FlagRequest) (s : Solve P) (e : Event)
    (i : Instance) : Prop where
  event : db.requestedEvent req = .ok e
  inst : req.instanceId.bind db.runningInstance = some i
  earned : Earned db userId req s i
  eventId : s.eventId = e.id
  team : s.teamId = if e.participantMode = .team then db.findTeamIdForUser e.id userId else none

theorem runningInstance_id {id : Nat} {i : Instance} (h : db.runningInstance id = some i) :
    i ∈ db.instances ∧ i.id = id ∧ i.runtimeState = .running :=
  ⟨List.mem_of_find?_eq_some h, by simpa using List.find?_some h⟩

theorem requestedEvent_mem {req : FlagRequest} {e : Event} (h : db.requestedEvent req = .ok e) :
    e ∈ db.events := by
  unfold Db.requestedEvent at h
  split at h
  · exact List.mem_of_find?_eq_some (orError_ok h)
  · exact List.mem_of_find?_eq_some (orError_ok h)

theorem shouldOngoing_ok {e : Event} {now : Int} (h : shouldOngoing e now = .ok ()) :
    eventTimeStatus e now = .ongoing := by
  unfold shouldOngoing at h
  cases hs : eventTimeStatus e now with
  | notStarted => simp [hs] at h
  | ongoing => rfl
  | ended => simp [hs] at h

/-- A request that presents an instance of its own event and subject scores rightfully. -/
theorem Passed.rightful {userId : Nat} {req : FlagRequest} {e : Event} {i : Instance}
    (hp : Passed db userId req s e i) (how : Own db userId req) : Rightful db userId req s := by
  rw [Own, hp.event] at how
  obtain ⟨hevent, howned⟩ := how i hp.inst
  obtain ⟨instanceId, hreq, hrun⟩ := Option.bind_eq_some_iff.1 hp.inst
  refine ⟨i, (runningInstance_id hrun).1, hp.earned, hevent.trans hp.eventId.symm, ?_⟩
  rw [hp.team]
  exact howned

section Scoring

variable [Add P] {dynamicScore : P → Nat → P}

theorem recordSolve_scored {req : SubmitRequest} {teamId : Option Nat} {challengeId : Nat}
    {points : P} (h : recordSolve db req teamId challengeId points = .ok (db', .scored s)) :
    s = ⟨req.eventId, challengeId, req.userId, teamId, points⟩ ∧
      ∃ db₁, award db req teamId points = .ok db₁ := by
  obtain ⟨db₁, ha, h⟩ := except_bind_ok h
  dsimp only at h
  split_ifs at h
  · cases h
  · cases h
    exact ⟨rfl, db₁, ha⟩

/-- The subject that is awarded points is there and is not banned. -/
theorem award_ok {req : SubmitRequest} {teamId : Option Nat} {points : P} {db₁ : Db P}
    (h : award db req teamId points = .ok db₁) : match teamId with
      | none => ∃ u ∈ db.users, u.eventId = req.eventId ∧ u.userId = req.userId ∧ u.banned = false
      | some t => ∃ r ∈ db.teams, r.id = t ∧ r.banned = false := by
  cases teamId with
  | none =>
    simp only [award, Db.awardUserPoints] at h
    split_ifs at h with hlen
    obtain ⟨u, hu⟩ := List.length_eq_one_iff.1 hlen
    have hmem : u ∈ db.users.filter (·.takes req.eventId req.userId) := by simp [hu]
    rw [List.mem_filter] at hmem
    exact ⟨u, hmem.1, by simpa [EventUser.takes, and_assoc] using hmem.2⟩
  | some t =>
    simp only [award, Db.awardTeamPoints] at h
    split_ifs at h with hlen
    obtain ⟨r, hr⟩ := List.length_eq_one_iff.1 hlen
    have hmem : r ∈ db.teams.filter (·.takes t) := by simp [hr]
    rw [List.mem_filter] at hmem
    exact ⟨r, hmem.1, by simpa [EventTeam.takes] using hmem.2⟩

/-- What the transaction has checked when it scores. -/
theorem scoreInTransaction_scored {req : SubmitRequest}
    (h : scoreInTransaction dynamicScore db req = .ok (db', .scored s)) :
    ∃ i, db.runningInstance req.instanceId = some i ∧ i.flag = req.flag ∧
      (∃ c, db.findEventChallenge req.eventId i.challengeId = some c ∧ c.hidden = false) ∧
      scoringTeam db req = .ok s.teamId ∧ s.eventId = req.eventId ∧ s.userId = req.userId ∧
      s.challengeId = i.challengeId ∧
      ∃ db₁ points, award db req s.teamId points = .ok db₁ := by
  obtain ⟨i, hi, h⟩ := except_bind_ok h
  obtain ⟨c, hc, h⟩ := except_bind_ok h
  split_ifs at h with hhidden hchallenge hflag
  obtain ⟨t, ht, h⟩ := except_bind_ok h
  split_ifs at h
  · cases h
  obtain ⟨rfl, db₁, ha⟩ := recordSolve_scored h
  refine ⟨i, orError_ok hi, ?_, ⟨c, orError_ok hc, by simpa using hhidden⟩, ht, rfl, rfl, rfl,
    db₁, _, ha⟩
  exact (not_not.1 hflag).symm

theorem submit_scored {req : SubmitRequest} {removed : Bool}
    (h : submit dynamicScore db req removed = .ok (db', some s)) :
    ∃ db₁, scoreInTransaction dynamicScore db req = .ok (db₁, .scored s) := by
  obtain ⟨⟨db₁, outcome⟩, hscore, h⟩ := except_bind_ok h
  cases outcome with
  | alreadySolved => cases h
  | scored r =>
    dsimp only at h
    cases ht : r.teamId <;> rw [ht] at h <;> cases h <;> exact ⟨db₁, hscore⟩

/-- The subject of a solve that scores. -/
theorem subjectOf_award {e : Event} {userId instanceId : Nat} {flag : String} {t : Option Nat}
    (ht : scoringTeam db ⟨e.id, userId, instanceId, flag, decide (e.participantMode = .team)⟩ =
      .ok t) {db₁ : Db P} {points : P}
    (ha : award db ⟨e.id, userId, instanceId, flag, decide (e.participantMode = .team)⟩ t points =
      .ok db₁) :
    SubjectOf db userId e.id e.participantMode t ∧
      t = if e.participantMode = .team then db.findTeamIdForUser e.id userId else none := by
  have hrow := award_ok ha
  simp only [scoringTeam, decide_eq_true_eq] at ht
  split_ifs at ht with hteam
  · cases hfind : db.findTeamIdForUser e.id userId with
    | none => simp [hfind, orError, Except.map] at ht
    | some teamId =>
      simp only [hfind, orError, Except.map, Except.ok.injEq] at ht
      subst ht
      obtain ⟨m, hm, hmt⟩ := Option.map_eq_some_iff.1 hfind
      have hkey : m.eventId = e.id ∧ m.userId = userId := by simpa using List.find?_some hm
      refine ⟨⟨hteam, ⟨m, List.mem_of_find?_eq_some hm, hkey.1, hkey.2, hmt⟩, hrow⟩, ?_⟩
      rw [if_pos hteam]
  · cases ht
    refine ⟨⟨?_, hrow⟩, (if_neg hteam).symm⟩
    cases hmode : e.participantMode with
    | individual => rfl
    | team => exact absurd hmode hteam

theorem submitCompetition_scored {e : Event} {userId instanceId : Nat} {flag : String}
    {removed : Bool}
    (h : submitCompetition dynamicScore db e userId instanceId flag removed = .ok (db', some s)) :
    eventTimeStatus e db.now = .ongoing ∧ ∃ i, db.runningInstance instanceId = some i ∧
      i.flag = flag ∧
      (∃ c ∈ db.eventChallenges, c.eventId = e.id ∧ c.challengeId = i.challengeId ∧
        c.hidden = false) ∧
      s.eventId = e.id ∧ s.userId = userId ∧ s.challengeId = i.challengeId ∧
      SubjectOf db userId e.id e.participantMode s.teamId ∧
      s.teamId = if e.participantMode = .team then db.findTeamIdForUser e.id userId else none := by
  obtain ⟨_, -, h⟩ := except_bind_ok h
  obtain ⟨_, hon, h⟩ := except_bind_ok h
  dsimp only at h
  split_ifs at h
  obtain ⟨db₁, hscore⟩ := submit_scored h
  obtain ⟨i, hi, hflag, ⟨c, hc, hhidden⟩, ht, heid, huid, hcid, db₂, points, ha⟩ :=
    scoreInTransaction_scored hscore
  have hckey : c.eventId = e.id ∧ c.challengeId = i.challengeId := by
    simpa using List.find?_some hc
  obtain ⟨hsub, hteam⟩ := subjectOf_award ht ha
  exact ⟨shouldOngoing_ok hon, i, hi, hflag,
    ⟨c, List.mem_of_find?_eq_some hc, hckey.1, hckey.2, hhidden⟩, heid, huid, hcid, hsub, hteam⟩

theorem submitFlag_scored [Zero P] {userId : Nat} {req : FlagRequest} {removed : Bool}
    (h : handleSubmitFlag dynamicScore db userId req removed = .ok (db', some s)) :
    ∃ e i, Passed db userId req s e i := by
  obtain ⟨e, he, h⟩ := except_bind_ok h
  have h := mapError_ok h
  unfold submitFlag at h
  split_ifs at h
  · obtain ⟨_, -, h⟩ := except_bind_ok h
    obtain ⟨_, -, h⟩ := except_bind_ok h
    cases h
  obtain ⟨instanceId, hid, h⟩ := except_bind_ok h
  have hid := orError_ok hid
  obtain ⟨hon, i, hi, hflag, hchallenge, heid, huid, hcid, hsub, hteam⟩ :=
    submitCompetition_scored h
  obtain ⟨-, hiid, hrun⟩ := runningInstance_id hi
  refine ⟨e, i, he, by rw [hid]; exact hi, ⟨hid.trans (congrArg some hiid.symm), hrun, hcid.symm,
    hflag, ?_, huid, e, requestedEvent_mem he, heid.symm, hon, ?_⟩, heid, hteam⟩
  · rw [heid, hcid]
    exact hchallenge
  · rw [heid]
    exact hsub

/-- A solve that scores is rightful exactly when the request presents an instance of its own event
and subject. -/
theorem rightful_iff_own [Zero P] {userId : Nat} {req : FlagRequest} {removed : Bool}
    (hids : (db.instances.map (·.id)).Nodup)
    (h : handleSubmitFlag dynamicScore db userId req removed = .ok (db', some s)) :
    Rightful db userId req s ↔ Own db userId req := by
  obtain ⟨e, i, hp⟩ := submitFlag_scored h
  refine ⟨?_, hp.rightful⟩
  rintro ⟨i', hi', hearned, hevent, howned⟩
  rw [Own, hp.event]
  intro i'' hi''
  rw [hp.inst] at hi''
  cases hi''
  obtain ⟨instanceId, -, hrun⟩ := Option.bind_eq_some_iff.1 hp.inst
  have hid : i'.id = i.id := Option.some.inj (hearned.1.symm.trans hp.earned.1)
  obtain rfl := Table.eq_of_key hids hi' (runningInstance_id hrun).1 hid
  rw [← hp.team]
  exact ⟨hevent.trans hp.eventId, howned⟩

end Scoring

/-! ## Runs -/

/-- The board, the solves that scored and those of them that are not rightful. -/
structure Board (P : Type) where
  db : Db P
  scored : List (Solve P)
  wrong : List (Solve P)

/-- A player submits, or anything else happens to the tables. -/
inductive BoardOp (P : Type) where
  | submit (userId : Nat) (req : FlagRequest) (removed : Bool)
  | change (db : Db P)

variable [Add P] [Zero P]

/-- The board behind an operation, with the solves that were scored and those that should not have
been. -/
def Board.step (dynamicScore : P → Nat → P) (w : Board P) : BoardOp P → Board P
  | .submit userId req removed =>
    match handleSubmitFlag dynamicScore w.db userId req removed with
    | .ok (db, some s) =>
      { db
        scored := w.scored ++ [s]
        wrong := if Rightful w.db userId req s then w.wrong else w.wrong ++ [s] }
    | .ok (db, none) => { w with db }
    | .error _ => w
  | .change db => { w with db }

/-- A submission is for an instance of the player's own. -/
def OwnInstance (w : Board P) : BoardOp P → Prop
  | .submit userId req _ => Own w.db userId req
  | .change _ => True

instance (w : Board P) (o : BoardOp P) : Decidable (OwnInstance w o) := by
  cases o <;> unfold OwnInstance <;> infer_instance

theorem wrong_step (dynamicScore : P → Nat → P) {w : Board P} (h : w.wrong = []) {o : BoardOp P}
    (ho : OwnInstance w o) : (w.step dynamicScore o).wrong = [] := by
  cases o with
  | change db => exact h
  | submit userId req removed =>
    simp only [Board.step]
    cases hs : handleSubmitFlag dynamicScore w.db userId req removed with
    | error e => exact h
    | ok r =>
      obtain ⟨db, _ | s⟩ := r
      · exact h
      · obtain ⟨e, i, hp⟩ := submitFlag_scored hs
        dsimp only
        rw [if_pos (hp.rightful ho)]
        exact h

/-- In every run in which the requests present instances of their own event and subject, every solve
that scores is rightful. -/
theorem attribution_run (dynamicScore : P → Nat → P) (db : Db P) (ops : List (BoardOp P))
    (hops : Along (Board.step dynamicScore) OwnInstance ⟨db, [], []⟩ ops) :
    (ops.foldl (Board.step dynamicScore) ⟨db, [], []⟩).wrong = [] :=
  inv_of_along (fun w => w.wrong = []) (fun _ _ h ho => wrong_step dynamicScore h ho) rfl hops

/-! ## Somebody else's instance -/

/-- An individual competition with two players, and a running instance of the first. -/
def boardDb : Db Nat where
  now := 10
  events := [⟨1, .jeopardy, .competition, .individual, none, 0, some 100⟩]
  challenges := [5]
  instances := [⟨8, 1, 5, 1, none, "flag", .running⟩]
  eventChallenges := [⟨1, 5, 100, false⟩]
  users := [⟨1, 1, 0, false⟩, ⟨1, 2, 0, false⟩]
  teams := []
  members := []
  solves := []

/-- The second player presents it, with its flag. -/
def borrowOps : List (BoardOp Nat) := [.submit 2 ⟨some 1, some 8, "flag"⟩ true]

theorem borrowed_instance_scores :
    (borrowOps.foldl (Board.step fun p _ => p) ⟨boardDb, [], []⟩).wrong = [⟨1, 5, 2, none, 100⟩] ∧
      (borrowOps.foldl (Board.step fun p _ => p) ⟨boardDb, [], []⟩).db.users =
        [⟨1, 1, 0, false⟩, ⟨1, 2, 100, false⟩] := by
  decide +kernel

/-- The first player presents it, without the event; the other one has no instance. -/
def ownOps : List (BoardOp Nat) :=
  [.submit 1 ⟨none, some 8, " flag "⟩ true, .submit 2 ⟨some 1, some 9, "flag"⟩ true]

theorem attribution_run_own :
    (ownOps.foldl (Board.step fun p _ => p) ⟨boardDb, [], []⟩).scored = [⟨1, 5, 1, none, 100⟩] ∧
      (ownOps.foldl (Board.step fun p _ => p) ⟨boardDb, [], []⟩).wrong = [] :=
  ⟨by decide +kernel, attribution_run (fun p _ => p) boardDb ownOps (by decide +kernel)⟩

end FloatCtf.Jeopardy
