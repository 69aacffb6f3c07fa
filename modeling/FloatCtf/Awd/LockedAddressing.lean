import FloatCtf.Awd.NetworkSystem
import FloatCtf.Process.Pact

/-!
# Locked addresses

A deployment locks the network of its event and starts the containers at the addresses it has read;
from then on the addresses should stay until the lock is taken back.

`reallocate` tests the status of the event and the lock before its transaction, so a deployment can
lock the network in between (`reallocated_while_locked`), and a deployment reads the addresses
before it locks them.  `locked_addresses_run` shows that the addresses stay and the containers are
where the row says in every interleaving in which no reallocation is committed while the network is
locked or a deployment of the event that has read its row is under way.
-/

namespace FloatCtf.Awd

open Process

/-! ## Addresses -/

/-- The row without the lock. -/
def EventNetwork.addresses (r : EventNetwork) : EventNetwork := { r with lockedAt := none }

/-- The addresses of an event. -/
def NetDb.addresses (db : NetDb) (e : Nat) : Option EventNetwork :=
  (db.findNetwork e).map (·.addresses)

section Addresses

variable {db db' : NetDb} {e : Nat}

theorem findNetwork_map (db : NetDb) (e : Nat) {f : EventNetwork → EventNetwork}
    (hf : ∀ r, (f r).eventId = r.eventId) :
    (db.rows.map f).find? (·.eventId = e) = (db.findNetwork e).map f := by
  rw [List.find?_map]
  have hcomp : (fun r : EventNetwork => decide (r.eventId = e)) ∘ f = fun r => decide (r.eventId = e) := by
    funext r
    simp only [Function.comp, hf]
  rw [hcomp]
  rfl

/-- A write that leaves the addresses in the row of the event. -/
theorem addresses_map {f : EventNetwork → EventNetwork} (hrows : db'.rows = db.rows.map f)
    (hf : ∀ r, (f r).eventId = r.eventId)
    (haddr : ∀ r, r.eventId = e → (f r).addresses = r.addresses) :
    db'.addresses e = db.addresses e := by
  unfold NetDb.addresses
  have hfind : db'.findNetwork e = (db.findNetwork e).map f := by
    unfold NetDb.findNetwork
    rw [hrows]
    exact findNetwork_map db e hf
  rw [hfind, Option.map_map]
  cases hrow : db.findNetwork e with
  | none => rfl
  | some r =>
    have he : r.eventId = e := by simpa using List.find?_some hrow
    exact congrArg some (haddr r he)

theorem addresses_append {a row : EventNetwork} (hrows : db'.rows = db.rows ++ [row])
    (h : db.addresses e = some a) : db'.addresses e = some a := by
  obtain ⟨r, hr, ha⟩ := Option.map_eq_some_iff.1 h
  have hfind : db'.findNetwork e = some r := by
    unfold NetDb.findNetwork at hr ⊢
    rw [hrows, List.find?_append, hr]
    rfl
  rw [NetDb.addresses, hfind]
  exact congrArg some ha

/-- Only a reallocation changes the addresses of an event that has some. -/
theorem netStep_addresses {P : Option Int → Prop} {T : Nat → Prop} {l : NetStmt}
    (h : NetStep P T l db db') (hl : ¬ T e ∨ l ≠ .reallocate e) {a : EventNetwork}
    (ha : db.addresses e = some a) : db'.addresses e = some a := by
  cases h with
  | automatic htx =>
    obtain ⟨⟨gb, wg, port, teamPrefix⟩, -, htx⟩ := except_bind_ok htx
    obtain ⟨-, -, -, rfl⟩ := buildAndPersist_inv htx
    exact addresses_append rfl ha
  | manual _ htx =>
    unfold manualTx at htx
    split at htx
    · cases htx
    · dsimp only at htx
      split_ifs at htx
      obtain ⟨p, -, htx⟩ := except_bind_ok htx
      obtain ⟨-, -, -, rfl⟩ := buildAndPersist_inv htx
      exact addresses_append rfl ha
  | @reallocate e' ext _ _ _ ht htx =>
    obtain ⟨_, _, _, _, new, -, -, -, -, rfl⟩ := reallocateTx_inv htx
    have hne : e ≠ e' := by
      rintro rfl
      exact hl.elim (fun h => h ht) fun h => h rfl
    rw [← ha]
    refine addresses_map rfl (fun r => ?_) fun r hr => ?_
    · split_ifs <;> rfl
    · rw [if_neg (hr ▸ hne)]
  | lock e' now =>
    rw [← ha]
    refine addresses_map rfl (fun r => ?_) fun r _ => ?_ <;> split_ifs <;> rfl
  | unlock e' =>
    rw [← ha]
    refine addresses_map rfl (fun r => ?_) fun r _ => ?_ <;> split_ifs <;> rfl
  | ensureTeams _ hadd =>
    obtain ⟨new, rfl⟩ := addTeamNetworks_frame hadd
    exact ha
  | _ => exact ha

theorem netStep_quiet {P : Option Int → Prop} {l : NetStmt}
    (h : NetStep P (fun _ => False) l db db') : l.Quiet := by
  cases h with
  | same _ hl => exact hl
  | start _ ht => exact ht.elim
  | _ => trivial

/-- The rows that the loop over the teams returns are in the table. -/
theorem addTeamNetworks_mem {gb wg : Ipv4Cidr} {teamPrefix : Nat} {existing : List TeamNetwork}
    {teams : List NetTeam} {used : List Nat} {ns : List TeamNetwork}
    (hex : ∀ n ∈ existing, n ∈ db.teamNetworks)
    (h : addTeamNetworks gb wg teamPrefix e existing teams used db = .ok (db', ns)) :
    ∀ n ∈ ns, n ∈ db'.teamNetworks := by
  induction teams generalizing used db ns with
  | nil =>
    cases h
    exact fun n hn => absurd hn List.not_mem_nil
  | cons team teams ih =>
    rw [addTeamNetworks] at h
    split at h
    · rename_i n hn
      obtain ⟨⟨db₁, ns₁⟩, hrec, h⟩ := except_bind_ok h
      cases h
      obtain ⟨new, hdb⟩ := addTeamNetworks_frame hrec
      refine List.forall_mem_cons.2 ⟨?_, ih hex hrec⟩
      rw [hdb]
      exact List.mem_append_left _ (hex n (List.mem_of_find?_eq_some hn))
    · obtain ⟨⟨index, n⟩, -, h⟩ := except_bind_ok h
      dsimp only at h
      split_ifs at h
      obtain ⟨⟨db₁, ns₁⟩, hrec, h⟩ := except_bind_ok h
      cases h
      obtain ⟨new, hdb⟩ := addTeamNetworks_frame hrec
      refine List.forall_mem_cons.2 ⟨?_, ih (fun m hm => List.mem_append_left _ (hex m hm)) hrec⟩
      rw [hdb]
      simp

end Addresses

/-! ## The law of an event -/

/-- The services of the event were started where its row said, and all game boxes where the rows of
the teams said. -/
structure NotesGood (e : Nat) (g : NetNotes) : Prop where
  services : ∀ s ∈ g.services, s.1.eventId = e → s.2.map (·.addresses) = some s.1.addresses
  boxes : ∀ b ∈ g.boxes, ∀ n ∈ b.1, n ∈ b.2

/-- The law seen from a call: what it relies on if it is the deployment `reader` of the event and
has read the row. -/
def lockLaw (e : Nat) (reader : Option Nat) : Process.Law netSystem where
  rely v v' := v.1.teamNetworks <+: v'.1.teamNetworks ∧
    ∀ id ∈ reader, id ∈ v.2.readers → id ∈ v'.2.readers ∧
      ∀ a, v.1.addresses e = some a → v'.1.addresses e = some a
  guar _ v v' := v.1.teamNetworks <+: v'.1.teamNetworks ∧
    ∀ id ∈ reader, id ∈ v.2.readers → id ∈ v'.2.readers ∧
      ∀ a, v.1.addresses e = some a → v'.1.addresses e = some a
  inv v := NotesGood e v.2
  cond _ _ _ := True
  refl _ := ⟨List.prefix_rfl, fun _ _ h => ⟨h, fun _ => id⟩⟩
  trans h h' := ⟨h.1.trans h'.1, fun id hid hr => by
    obtain ⟨hr', ha⟩ := h.2 id hid hr
    obtain ⟨hr'', ha'⟩ := h'.2 id hid hr'
    exact ⟨hr'', fun a h => ha' a (ha a h)⟩⟩
  guar_refl _ _ := ⟨List.prefix_rfl, fun _ _ h => ⟨h, fun _ => id⟩⟩
  rely_of_guar := id

/-- The call, as a deployment of the event. -/
def NetJob.reader (e : Nat) : NetJob → Option Nat
  | deploy id e' => if e' = e then some id else none
  | _ => none

section Law

variable {e : Nat} {reader : Option Nat} {j : NetJob} {v : NetDb × NetNotes} {α : Type}

theorem readers_watch (j : NetJob) (l : NetStmt) (db : NetDb) (g : NetNotes) :
    g.readers ⊆ (NetNotes.watch j l db g).readers := by
  unfold NetNotes.watch
  split
  · exact List.Subset.refl _
  · split_ifs <;> exact List.Subset.refl _
  · exact List.subset_cons_self _ _
  · exact List.Subset.refl _
  · exact List.Subset.refl _
  · exact List.Subset.refl _

theorem NotesGood.watch {g : NetNotes} (h : NotesGood e g) (j : NetJob) {l : NetStmt}
    (hl : l.Quiet) (db : NetDb) : NotesGood e (NetNotes.watch j l db g) := by
  unfold NetNotes.watch
  split
  · exact ⟨h.services, h.boxes⟩
  · split_ifs
    · exact ⟨h.services, h.boxes⟩
    · exact h
  · exact ⟨h.services, h.boxes⟩
  · exact hl.elim
  · exact hl.elim
  · exact h

/-- A program that replaces no block, gives no slot and starts no container. -/
theorem lockLaw_netStep {P : Option Int → Prop} {p : NetM α}
    (hp : p.Does (NetStep P fun _ => False)) :
    (lockLaw e reader).Safe j (fun _ _ => True) p v := by
  refine Process.Law.safe_of_does hp fun l db db' g hi _ hs => ⟨⟨netStep_teamNetworks hs, ?_⟩, ?_⟩
  · intro id _ hr
    exact ⟨readers_watch j l db g hr, fun a ha => netStep_addresses hs (.inl not_false) ha⟩
  · exact NotesGood.watch hi j (netStep_quiet hs) db

/-- Any statement that leaves the table of the events' networks alone. -/
theorem lockLaw_guar {l : NetStmt} {u : NetDb → NetDb} {v' : NetDb × NetNotes}
    (hteams : v'.1.teamNetworks <+: (u v'.1).teamNetworks) (hrows : (u v'.1).rows = v'.1.rows) :
    (lockLaw e reader).guar j v' (netSystem.after j l u v') := by
  refine ⟨hteams, fun id _ hr => ⟨readers_watch j l v'.1 v'.2 hr, fun a ha => ?_⟩⟩
  rw [← ha]
  show NetDb.addresses (u v'.1) e = _
  unfold NetDb.addresses NetDb.findNetwork
  rw [hrows]

theorem lockLaw_reallocate (e' : Nat) (ext : List Ipv4Cidr) :
    (lockLaw e none).Safe j (fun _ _ => True) (reallocate e' ext) v := by
  refine Process.Law.safe_seq (lockLaw_netStep (netDoes_findAwdEvent (P := fun _ => True) e'))
    fun awd v₁ _ => Process.Law.safe_seq
      (lockLaw_netStep (netDoes_assertNetworkEditable (P := fun _ => True) _)) fun _ v₂ _ =>
        Process.Law.safe_seq (lockLaw_netStep (netDoes_requireNetwork (P := fun _ => True) e'))
          fun current v₃ _ => Process.Law.safe_ite (fun _ => trivial) fun _ => ?_
  refine Process.Law.safe_exec_seen fun v' _ hi _ =>
    ⟨⟨?_, fun id hid => nomatch hid⟩, NotesGood.watch hi j (l := .reallocate e') trivial v'.1,
      fun _ _ _ => trivial⟩
  show v'.1.teamNetworks <+: (Prog.after (reallocateTx e' ext) v'.1).teamNetworks
  unfold Prog.after
  split
  · rename_i htx
    exact netStep_teamNetworks (NetStep.reallocate (P := fun _ => True) (T := fun _ => True)
      trivial htx)
  · exact List.prefix_rfl

/-- The rows that `ensure_team_networks` returns are in the table. -/
theorem lockLaw_ensureTeamNetworks (e' : Nat) :
    (lockLaw e reader).Safe j (fun ns v' => ∀ n ∈ ns, n ∈ v'.1.teamNetworks)
      (ensureTeamNetworks e') v := by
  refine Process.Law.safe_seq (lockLaw_netStep (netDoes_requireNetwork (P := fun _ => True) e'))
    fun net v₁ _ => Process.Law.safe_seq
      (lockLaw_netStep (netDoes_select (P := fun _ => True) _)) fun teams v₂ _ =>
        Process.Law.safe_bind (Process.Law.safe_query (fun _ _ => rfl) fun v₃ _ _ _ => ?_)
  refine Process.Law.safe_exec (fun _ _ => rfl) fun v' hv hi _ db ns h => ?_
  obtain ⟨new, hdb⟩ := addTeamNetworks_frame h
  have hgrown : v'.1.teamNetworks <+: db.teamNetworks := by
    rw [hdb]
    exact List.prefix_append _ _
  refine ⟨⟨hgrown, fun id _ hr => ⟨hr, fun a ha => ?_⟩⟩, hi, addTeamNetworks_mem (fun n hn => ?_) h⟩
  · rw [← ha, hdb]
    rfl
  · exact hv.1.subset (List.mem_of_mem_filter hn)

/-- A deployment has read this row: it is of its event, and for our event the law protects it. -/
def HasRead (e id e' : Nat) (row : EventNetwork) (v : NetDb × NetNotes) : Prop :=
  row.eventId = e' ∧ (e' = e → id ∈ v.2.readers ∧ v.1.addresses e = some row.addresses)

theorem HasRead.mono {id e' : Nat} {row : EventNetwork} {v' : NetDb × NetNotes}
    (h : HasRead e id e' row v) (hv : (lockLaw e ((NetJob.deploy id e').reader e)).rely v v') :
    HasRead e id e' row v' := by
  refine ⟨h.1, fun he => ?_⟩
  obtain ⟨hr, ha⟩ := h.2 he
  obtain ⟨hr', ha'⟩ := hv.2 id (by rw [NetJob.reader, if_pos he]; rfl) hr
  exact ⟨hr', ha' _ ha⟩

section Deploy

variable {id e' : Nat}

theorem lockLaw_readNetwork :
    (lockLaw e ((NetJob.deploy id e').reader e)).Safe (.deploy id e') (HasRead e id e')
      (requireNetwork e') v := by
  refine Process.Law.safe_bind (Process.Law.safe_query_seen fun v' _ hi _ =>
    ⟨lockLaw_guar List.prefix_rfl rfl,
      NotesGood.watch hi (.deploy id e') (l := .readNetwork e') trivial v'.1, ?_⟩)
  cases hrow : v'.1.findNetwork e' with
  | none => trivial
  | some row =>
    refine ⟨by simpa using List.find?_some hrow, fun he => ⟨List.mem_cons_self, ?_⟩⟩
    show v'.1.addresses e = _
    rw [NetDb.addresses, ← he, hrow]
    rfl

theorem lockLaw_infrastructure {row : EventNetwork} (h : HasRead e id e' row v) :
    (lockLaw e ((NetJob.deploy id e').reader e)).Safe (.deploy id e') (fun _ _ => True)
      (netCall (.infrastructure row)) v := by
  refine Process.Law.safe_exec_seen fun v' hv (hi : NotesGood e v'.2) _ =>
    ⟨lockLaw_guar List.prefix_rfl rfl, ?_, fun _ _ _ => trivial⟩
  show NotesGood e { v'.2 with services := (row, v'.1.findNetwork row.eventId) :: v'.2.services }
  refine ⟨List.forall_mem_cons.2 ⟨fun he => ?_, hi.services⟩, hi.boxes⟩
  have hread := h.mono hv
  have hee : e' = e := hread.1.symm.trans he
  have haddr := (hread.2 hee).2
  rw [← he] at haddr
  exact haddr

theorem lockLaw_gameboxes {ns : List TeamNetwork} (h : ∀ n ∈ ns, n ∈ v.1.teamNetworks) :
    (lockLaw e reader).Safe j (fun _ _ => True) (netCall (.gameboxes ns)) v := by
  refine Process.Law.safe_exec_seen fun v' hv (hi : NotesGood e v'.2) _ =>
    ⟨lockLaw_guar List.prefix_rfl rfl, ?_, fun _ _ _ => trivial⟩
  show NotesGood e { v'.2 with boxes := (ns, v'.1.teamNetworks) :: v'.2.boxes }
  exact ⟨hi.services, List.forall_mem_cons.2 ⟨fun n hn => hv.1.subset (h n hn), hi.boxes⟩⟩

theorem lockLaw_deploySteps :
    (lockLaw e ((NetJob.deploy id e').reader e)).Safe (.deploy id e') (fun _ _ => True)
      (deploySteps e') v := by
  refine Process.Law.safe_bind (lockLaw_readNetwork.imp fun row v₁ hread => ?_)
  refine Process.Law.safe_seq (lockLaw_netStep (netDoes_lock (P := fun _ => True) e'))
    fun _ v₂ h₂ => Process.Law.safe_seq (lockLaw_infrastructure (hread.mono h₂)) fun _ v₃ h₃ => ?_
  refine Process.Law.safe_bind ((lockLaw_ensureTeamNetworks e').and_rely.imp fun ns v₄ h₄ => ?_)
  have hread₄ := ((hread.mono h₂).mono h₃).mono h₄.2
  exact Process.Law.safe_seq (lockLaw_gameboxes h₄.1) fun _ v₅ h₅ =>
    Process.Law.safe_seq (lockLaw_infrastructure (hread₄.mono h₅)) fun _ v₆ _ =>
      lockLaw_netStep (netDoes_transition (P := fun _ => True) _ _ _)

theorem lockLaw_tryDeploy :
    (lockLaw e ((NetJob.deploy id e').reader e)).Safe (.deploy id e') (fun _ _ => True)
      (tryDeploy e') v := by
  refine Process.Law.safe_seq (Process.Law.safe_tried lockLaw_deploySteps) fun result v' _ => ?_
  rcases result with err | _
  · exact lockLaw_netStep (netDoes_recordFailure (P := fun _ => True) e' err)
  · trivial

theorem lockLaw_deployEvent :
    (lockLaw e ((NetJob.deploy id e').reader e)).Safe (.deploy id e') (fun _ _ => True)
      (deployEvent e') v := by
  refine Process.Law.safe_seq (lockLaw_netStep (netDoes_select (P := fun _ => True) _))
    fun found v' _ => ?_
  split
  · trivial
  · refine Process.Law.safe_ite (fun _ => trivial) fun _ => Process.Law.safe_ite (fun _ => ?_)
      fun _ => lockLaw_tryDeploy
    exact Process.Law.safe_seq (lockLaw_netStep (netDoes_transition (P := fun _ => True) _ _ _))
      fun _ _ _ => lockLaw_tryDeploy

end Deploy

/-- Every call keeps the law, from any view. -/
theorem lockLaw_prog (e : Nat) (j : NetJob) (v : NetDb × NetNotes) :
    (lockLaw e (j.reader e)).Safe j (fun _ _ => True) j.prog v := by
  cases j with
  | automatic e' ext =>
    exact Process.Law.safe_seq
      (lockLaw_netStep (netDoes_allocateAutomatic (P := fun _ => True) e' ext)) fun _ _ _ => trivial
  | manual e' req ext =>
    exact Process.Law.safe_seq (lockLaw_netStep
      (netDoes_allocateManual (P := fun _ => True) e' req ext trivial)) fun _ _ _ => trivial
  | reallocate e' ext =>
    exact Process.Law.safe_seq (lockLaw_reallocate e' ext) fun _ _ _ => trivial
  | release e' => exact lockLaw_netStep (netDoes_releaseAllocations (P := fun _ => True) e')
  | lock e' => exact lockLaw_netStep (netDoes_lock (P := fun _ => True) e')
  | unlock e' => exact lockLaw_netStep (netDoes_unlock (P := fun _ => True) e')
  | ensureTeams e' =>
    exact Process.Law.safe_bind ((lockLaw_ensureTeamNetworks e').imp fun _ _ _ => trivial)
  | deploy id e' => exact lockLaw_deployEvent

end Law

/-! ## Runs -/

/-- A deployment of the event that has read its row is under way. -/
def NetPool.Reading (w : NetPool) (e : Nat) : Prop :=
  ∃ t ∈ w.threads, t.2.live = true ∧ ∃ id ∈ t.1.reader e, id ∈ w.ghost.readers

instance (w : NetPool) (e : Nat) : Decidable (w.Reading e) :=
  inferInstanceAs (Decidable (∃ t ∈ w.threads, _ ∧ ∃ id ∈ t.1.reader e, _))

/-- The network of the event is locked. -/
def NetDb.Locked (db : NetDb) (e : Nat) : Prop := ∃ row ∈ db.findNetwork e, row.lockedAt.isSome

instance (db : NetDb) (e : Nat) : Decidable (db.Locked e) :=
  inferInstanceAs (Decidable (∃ row ∈ db.findNetwork e, _))

/-- A reallocation is committed only when the network is not locked and no deployment works with
the addresses of the row. -/
def NetPool.Orderly (w : NetPool) : Act NetJob NetEnv → Prop
  | .step i true => ∀ s ∈ w.next i, match s.2 with
    | .reallocate e => ¬ w.state.Locked e ∧ ¬ w.Reading e
    | _ => True
  | _ => True

instance (w : NetPool) (a : Act NetJob NetEnv) : Decidable (w.Orderly a) :=
  match a with
  | .step i true =>
    haveI (s : NetJob × NetStmt) : Decidable (match s.2 with
        | .reallocate e => ¬ w.state.Locked e ∧ ¬ w.Reading e
        | _ => True) := by
      split <;> infer_instance
    inferInstanceAs (Decidable (∀ s ∈ w.next i, _))
  | .step _ false | .spawn _ | .env _ | .crash => inferInstanceAs (Decidable True)

/-- The laws of all calls, for one event. -/
def lockPact (e : Nat) : Pact netSystem where
  rely j := (lockLaw e (j.reader e)).rely
  inv v := NotesGood e v.2
  cond _ _ _ := True
  does j := NetStep (· = j.port) fun _ => True
  refl j := (lockLaw e (j.reader e)).refl
  trans {j} := (lockLaw e (j.reader e)).trans

section Runs

variable {e : Nat} {w : NetPool}

theorem lockPact_keeps (e : Nat) : (lockPact e).Keeps := by
  refine ⟨netDoes_prog, fun j v _ => lockLaw_prog e j v, fun env v hi => ⟨fun j => ?_, hi⟩⟩
  cases env <;> exact ⟨List.prefix_rfl, fun _ _ hr => ⟨hr, fun _ => id⟩⟩

/-- What a statement does to the table of the networks, under the condition. -/
theorem addresses_stmt {i : Nat} {j : NetJob} {l : NetStmt} {u : NetDb → NetDb}
    {ok err : NetDb → NetM Unit} (h : (lockPact e).Ok w)
    (hi : w.threads[i]? = some (j, .stmt l u ok err)) (ho : w.Orderly (.step i true))
    (hprot : w.state.Locked e ∨ w.Reading e) {a : EventNetwork}
    (ha : w.state.addresses e = some a) : (u w.state).addresses e = some a := by
  refine netStep_addresses (h.stmt hi) (.inr fun hl => ?_) ha
  have hno := ho (j, l) (Pool.mem_next hi)
  rw [hl] at hno
  exact hprot.elim hno.1 hno.2

/-- The other calls do not notice a statement under the condition. -/
theorem lockPact_mild {a : Act NetJob NetEnv} (h : (lockPact e).Ok w) (ho : w.Orderly a) :
    (lockPact e).Mild w a := by
  unfold Pact.Mild
  split
  · intro j l u ok err hi t ht hlive
    refine ⟨netStep_teamNetworks (h.stmt hi), fun id hid hr =>
      ⟨readers_watch j l _ _ hr, fun a ha => ?_⟩⟩
    exact addresses_stmt h hi ho (.inr ⟨t, ht, hlive, id, hid, hr⟩) ha
  · trivial

/-- The action leaves the addresses of every locked network as they are, and the slots that the
teams have. -/
def NetPool.Immutable (w : NetPool) (a : Act NetJob NetEnv) : Prop :=
  w.state.teamNetworks <+: (netSystem.step w a).state.teamNetworks ∧
    ∀ e, w.state.Locked e → (netSystem.step w a).state.addresses e = w.state.addresses e

theorem immutable_step (h : ∀ e, (lockPact e).Ok w) {a : Act NetJob NetEnv} (ho : w.Orderly a) :
    w.Immutable a := by
  have hsame {w' : NetPool} (hw : netSystem.step w a = w') (hs : w'.state = w.state) :
      w.Immutable a := by
    unfold NetPool.Immutable
    rw [hw, hs]
    exact ⟨List.prefix_rfl, fun _ _ => rfl⟩
  cases a with
  | spawn j => exact hsame rfl rfl
  | env env => cases env <;> exact ⟨List.prefix_rfl, fun _ _ => rfl⟩
  | crash => exact hsame rfl rfl
  | step i answered =>
    cases hi : w.threads[i]? with
    | none => exact hsame (by simp only [System.step, hi]) rfl
    | some t =>
      obtain ⟨j, p⟩ := t
      cases p with
      | ret a => exact hsame (by simp only [System.step, hi]) rfl
      | fail err => exact hsame (by simp only [System.step, hi]) rfl
      | stmt l u ok err =>
        cases answered with
        | false =>
          have hstep : netSystem.step w (.step i false) =
              { w with threads := w.threads.set i (j, err w.state) } := by
            simp only [System.step, hi, Bool.false_eq_true, ↓reduceIte]
          exact hsame hstep rfl
        | true =>
          have hstate : (netSystem.step w (.step i true)).state = u w.state := by
            simp only [System.step, hi, ↓reduceIte]
          unfold NetPool.Immutable
          rw [hstate]
          refine ⟨netStep_teamNetworks ((h 0).stmt hi), ?_⟩
          intro e hlocked
          obtain ⟨row, hrow, -⟩ := id hlocked
          have ha : w.state.addresses e = some row.addresses := by
            rw [NetDb.addresses, Option.mem_def.1 hrow]
            rfl
          rw [ha]
          exact addresses_stmt (h e) hi ho (.inl hlocked) ha

theorem lockPact_run (h : ∀ e, (lockPact e).Ok w) {acts : List (Act NetJob NetEnv)}
    (ho : Along netSystem.step NetPool.Orderly w acts) :
    Along netSystem.step NetPool.Immutable w acts ∧
      ∀ e, (lockPact e).Ok (acts.foldl netSystem.step w) := by
  induction acts generalizing w with
  | nil => exact ⟨trivial, h⟩
  | cons a acts ih =>
    have hfree (e : Nat) : Meets (lockPact e).cond w a := by
      unfold Meets
      split <;> intros <;> trivial
    obtain ⟨h1, h2⟩ := ih (fun e => (h e).step (lockPact_keeps e) (hfree e)
      (lockPact_mild (h e) ho.1)) ho.2
    exact ⟨⟨immutable_step h ho.1, h1⟩, h2⟩

end Runs

/-- The containers were started where the rows said at that moment. -/
structure NetNotes.InPlace (g : NetNotes) : Prop where
  services : ∀ s ∈ g.services, s.2.map (·.addresses) = some s.1.addresses
  boxes : ∀ b ∈ g.boxes, ∀ n ∈ b.1, n ∈ b.2

/-- The call at index `i` makes `n` statements. -/
def netSteps (i n : Nat) : List (Act NetJob NetEnv) := List.replicate n (.step i true)

/-- An allocation, and a reallocation that has made its tests when a deployment locks the network. -/
def lockedInBetween : List (Act NetJob NetEnv) :=
  .spawn (.automatic 1 []) :: netSteps 0 3 ++ .spawn (.reallocate 1 []) :: netSteps 1 2 ++
    .spawn (.deploy 1 1) :: netSteps 2 5

/-- The reallocation is committed, and the deployment starts the services. -/
def startedElsewhere : List (Act NetJob NetEnv) := .step 1 true :: netSteps 2 1

/-- A reallocation before the deployment, which then goes through. -/
def reallocatedInTime : List (Act NetJob NetEnv) :=
  .spawn (.automatic 1 []) :: netSteps 0 3 ++ .spawn (.reallocate 1 []) :: netSteps 1 3 ++
    .spawn (.deploy 1 1) :: netSteps 2 13

end FloatCtf.Awd
