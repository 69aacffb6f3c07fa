import FloatCtf.Awd.RecordFrame
import FloatCtf.Awd.RoundClock
import FloatCtf.Awd.WireguardService

/-!
# Bans and the peers on the host

No peer of a banned team is on the host, as long as a team is unbanned, and the host restored, only
when no other banned team has active peers, and keys are rotated only for teams that are not banned:
the restoration goes by the status of the peers, which a ban leaves alone, and the rotation does not
look at the bans.
-/

namespace FloatCtf.Awd

open Process

/-! ## The machine -/

/-- A call of an administrator or of a player; `restoreHost` may find the interface empty. -/
inductive WgOp where
  | ban (teamId : Nat)
  | unban (teamId : Nat)
  | ensurePeer (userId teamId publicKey : Nat)
  | rotate (peerId publicKey : Nat)
  | revoke (peerId : Nat)
  | pause (up : Ext → Bool)
  | resume (up : Ext → Bool)
  | restoreHost (lost : Bool)

namespace WgWorld

/-- One operation on bans and peers. -/
def step (w : WgWorld) : WgOp → WgWorld
  | .ban teamId => (w.banTeam teamId).1
  | .unban teamId => (w.unbanTeam teamId).1
  | .ensurePeer userId teamId publicKey => (w.ensurePeerForUser userId teamId publicKey).1
  | .rotate peerId publicKey => (w.rotatePeerKeys peerId publicKey).1
  | .revoke peerId => (w.revokePeer peerId).1
  | .pause up => { w with db := (pauseEvent.run (answers up) w.db).1 }
  | .resume up => { w with db := (resumeEvent.run (answers up) w.db).1 }
  | .restoreHost lost =>
    (if lost then { w with host := [] } else w).restoreActivePeersToHost.1

/-- The key is on the host. -/
def Installed (w : WgWorld) (publicKey : Nat) : Prop := publicKey ∈ w.host.map (·.publicKey)

/-- No peer of a banned team is on the host. -/
def Enforced (w : WgWorld) : Prop :=
  ∀ p ∈ w.peers, w.banned p.teamId = true → ¬ w.Installed p.publicKey

/-- No banned team but `teamId` has an active peer. -/
def NoOtherBanned (w : WgWorld) (teamId : Option Nat) : Prop :=
  ∀ p ∈ w.peers, p.status = .active → w.banned p.teamId = true → some p.teamId = teamId

instance (w : WgWorld) (k : Nat) : Decidable (w.Installed k) :=
  inferInstanceAs (Decidable (_ ∈ _))

instance (w : WgWorld) : Decidable w.Enforced := inferInstanceAs (Decidable (∀ p ∈ w.peers, _))

instance (w : WgWorld) (t : Option Nat) : Decidable (w.NoOtherBanned t) :=
  inferInstanceAs (Decidable (∀ p ∈ w.peers, _))

/-- An event without peers and without bans. -/
structure Fresh (w : WgWorld) : Prop where
  peers : w.peers = []
  bans : w.db.bans = []
  host : w.host = []

end WgWorld

/-- The steps that keep the bans: see the header.  A rotation draws a key that no peer has. -/
def KeepsBans (w : WgWorld) : WgOp → Prop
  | .unban teamId => w.NoOtherBanned (some teamId)
  | .restoreHost _ => w.NoOtherBanned none
  | .rotate peerId publicKey =>
    (∀ p ∈ w.peers, p.id = peerId → w.banned p.teamId = false) ∧
      ∀ p ∈ w.peers, p.publicKey ≠ publicKey
  | _ => True

instance (w : WgWorld) : (op : WgOp) → Decidable (KeepsBans w op)
  | .unban _ | .restoreHost _ => inferInstanceAs (Decidable (w.NoOtherBanned _))
  | .rotate _ _ => inferInstanceAs (Decidable ((∀ p ∈ w.peers, _) ∧ ∀ p ∈ w.peers, _))
  | .ban _ | .ensurePeer _ _ _ | .revoke _ | .pause _ | .resume _ =>
    inferInstanceAs (Decidable True)

/-! ## The host -/

namespace WgWorld

variable {w : WgWorld} {k x : Nat}

theorem installed_addPeer {ip : Nat} :
    (w.addPeer k ip).Installed x ↔ k = x ∨ w.Installed x := by
  have hmap : ((w.host.filter (·.publicKey ≠ k)).map (fun h =>
      if h.allowedIp = some ip then { h with allowedIp := none } else h)).map (·.publicKey) =
      (w.host.filter (·.publicKey ≠ k)).map (·.publicKey) := by
    rw [List.map_map]
    refine List.map_congr_left fun h _ => ?_
    dsimp only [Function.comp]
    split_ifs <;> rfl
  rw [Installed, addPeer, List.map_append, hmap, List.mem_append, List.map_singleton,
    List.mem_singleton, Installed, eq_comm (a := k)]
  simp only [List.mem_map, List.mem_filter, decide_eq_true_eq]
  constructor
  · rintro (⟨h, ⟨hh, -⟩, rfl⟩ | rfl)
    · exact .inr ⟨h, hh, rfl⟩
    · exact .inl rfl
  · rintro (rfl | ⟨h, hh, rfl⟩)
    · exact .inr rfl
    · by_cases hk : h.publicKey = k
      · exact .inr hk
      · exact .inl ⟨h, ⟨hh, hk⟩, rfl⟩

theorem installed_removePeer : (w.removePeer k).Installed x ↔ x ≠ k ∧ w.Installed x := by
  simp only [Installed, removePeer, List.mem_map, List.mem_filter, decide_eq_true_eq]
  constructor
  · rintro ⟨h, ⟨hh, hk⟩, rfl⟩
    exact ⟨hk, h, hh, rfl⟩
  · rintro ⟨hk, h, hh, rfl⟩
    exact ⟨h, ⟨hh, hk⟩, rfl⟩

theorem installed_restorePeersToHost (peers : List WgPeer) :
    (w.restorePeersToHost peers).Installed x ↔
      (∃ p ∈ peers, p.publicKey = x) ∨ w.Installed x := by
  unfold restorePeersToHost
  induction peers generalizing w with
  | nil => simp
  | cons p ps ih =>
    rw [List.foldl_cons, ih, installed_addPeer]
    simp only [List.mem_cons, exists_eq_or_imp]
    rw [or_left_comm, or_assoc]

theorem installed_removePeers (peers : List WgPeer) :
    (peers.foldl (fun w peer => w.removePeer peer.publicKey) w).Installed x ↔
      (∀ p ∈ peers, p.publicKey ≠ x) ∧ w.Installed x := by
  induction peers generalizing w with
  | nil => simp
  | cons p ps ih =>
    rw [List.foldl_cons, ih, installed_removePeer]
    simp only [List.forall_mem_cons]
    tauto

/-- What the commands on the host leave alone. -/
structure SameRows (w w' : WgWorld) : Prop where
  db : w'.db = w.db
  networks : w'.networks = w.networks
  peers : w'.peers = w.peers

theorem sameRows_foldl {f : WgWorld → WgPeer → WgWorld} (hf : ∀ w p, SameRows w (f w p))
    (peers : List WgPeer) : SameRows w (peers.foldl f w) := by
  induction peers generalizing w with
  | nil => exact ⟨rfl, rfl, rfl⟩
  | cons p ps ih =>
    have h := hf w p
    have h' := @ih (f w p)
    exact ⟨h'.db.trans h.db, h'.networks.trans h.networks, h'.peers.trans h.peers⟩

theorem sameRows_restorePeersToHost (peers : List WgPeer) :
    SameRows w (w.restorePeersToHost peers) :=
  sameRows_foldl (f := fun w p => w.addPeer p.publicKey p.assignedIp)
    (fun _ _ => ⟨rfl, rfl, rfl⟩) peers

theorem sameRows_removePeers (peers : List WgPeer) :
    SameRows w (peers.foldl (fun w peer => w.removePeer peer.publicKey) w) :=
  sameRows_foldl (f := fun w p => w.removePeer p.publicKey) (fun _ _ => ⟨rfl, rfl, rfl⟩) peers

/-! ## The invariant -/

/-- What the run keeps: the rows have distinct ids and keys, the active peers of the teams that are
not banned are on the host, and those of the banned teams are not. -/
structure Inv (w : WgWorld) : Prop where
  ids : (w.peers.map (·.id)).Nodup
  below : ∀ p ∈ w.peers, p.id < w.db.nextId
  keys : (w.peers.map (·.publicKey)).Nodup
  row : ∀ p ∈ w.peers, w.db.networkRow = true
  enforced : w.Enforced
  restored : ∀ p ∈ w.peers, p.status = .active → w.banned p.teamId = false →
    w.Installed p.publicKey

theorem Fresh.inv (h : w.Fresh) : w.Inv := by
  have hno (p : WgPeer) : p ∉ w.peers := by
    rw [h.peers]
    exact List.not_mem_nil
  refine ⟨?_, fun p hp => absurd hp (hno p), ?_, fun p hp => absurd hp (hno p),
    fun p hp => absurd hp (hno p), fun p hp => absurd hp (hno p)⟩
  · rw [h.peers]
    exact List.nodup_nil
  · rw [h.peers]
    exact List.nodup_nil

/-- Rows are the same, and the host follows the bans. -/
theorem Inv.of_sameRows {w' : WgWorld} (h : w.Inv) (hp : w'.peers = w.peers)
    (hid : w.db.nextId ≤ w'.db.nextId) (hrow : w'.db.networkRow = w.db.networkRow)
    (henf : w'.Enforced)
    (hres : ∀ p ∈ w.peers, p.status = .active → w'.banned p.teamId = false →
      w'.Installed p.publicKey) : w'.Inv := by
  refine ⟨by rw [hp]; exact h.ids, ?_, by rw [hp]; exact h.keys, ?_, henf, ?_⟩
  · rw [hp]
    exact fun p hmem => (h.below p hmem).trans_le hid
  · rw [hp, hrow]
    exact h.row
  · rw [hp]
    exact hres

theorem publicKey_inj (h : w.Inv) {p q : WgPeer} (hp : p ∈ w.peers) (hq : q ∈ w.peers)
    (he : p.publicKey = q.publicKey) : p = q := List.inj_on_of_nodup_map h.keys hp hq he

theorem id_inj (h : w.Inv) {p q : WgPeer} (hp : p ∈ w.peers) (hq : q ∈ w.peers)
    (he : p.id = q.id) : p = q := List.inj_on_of_nodup_map h.ids hp hq he

/-! ## Bans -/

theorem banned_completeUnban {t u : Nat} :
    (w.completeUnban t).banned u = true ↔ w.banned u = true ∧ u ≠ t := by
  simp only [banned, Db.teamBanned, completeUnban, List.any_eq_true, List.mem_map,
    decide_eq_true_eq]
  constructor
  · rintro ⟨_, ⟨b, hb, rfl⟩, hteam, hact⟩
    by_cases hc : b.teamId = t ∧ b.status = .active
    · rw [if_pos hc] at hact
      cases hact
    · rw [if_neg hc] at hteam hact
      exact ⟨⟨b, hb, hteam, hact⟩, fun he => hc ⟨hteam.trans he, hact⟩⟩
  · rintro ⟨⟨b, hb, hteam, hact⟩, hne⟩
    exact ⟨b, ⟨b, hb, if_neg fun hc => hne (hteam.symm.trans hc.1)⟩, hteam, hact⟩

/-- A ban takes the peers of the team off the host. -/
theorem inv_ban (h : w.Inv) (t : Nat) : (w.banTeam t).1.Inv := by
  unfold banTeam createBan
  by_cases hb : w.banned t = true
  · rw [if_pos hb]
    exact h
  · rw [if_neg hb]
    set v : WgWorld := { w with db := { w.db with bans := w.db.bans ++ [⟨t, .active⟩] } } with hv
    have hban (u : Nat) : v.banned u = true ↔ w.banned u = true ∨ u = t := by
      simp only [hv, banned, Db.teamBanned, List.any_append, List.any_cons, List.any_nil,
        Bool.or_false, Bool.or_eq_true, decide_eq_true_eq, and_true, eq_comm (a := t)]
    have hnew (v' : WgWorld) (hrows : SameRows v v')
        (hinst : ∀ x, v'.Installed x ↔ (∀ p ∈ w.peers, p.teamId = t → p.publicKey ≠ x) ∧
          w.Installed x) : v'.Inv := by
      have hban' (u : Nat) : v'.banned u = v.banned u := by rw [banned, hrows.db, banned]
      refine h.of_sameRows hrows.peers (by rw [hrows.db]) (by rw [hrows.db]) ?_ ?_
      · intro p hp hpb
        rw [hrows.peers] at hp
        rw [hban', hban] at hpb
        rw [hinst]
        rintro ⟨hno, hin⟩
        rcases hpb with hpb | hpt
        · exact h.enforced p hp hpb hin
        · exact hno p hp hpt rfl
      · intro p hp hact hpb
        have hnot := mt (hban p.teamId).2 (by rw [← hban', hpb]; exact Bool.false_ne_true)
        rw [not_or] at hnot
        rw [hinst]
        refine ⟨fun q hq hqt he => ?_, h.restored p hp hact (Bool.eq_false_of_not_eq_true hnot.1)⟩
        exact hnot.2 (publicKey_inj h hq hp he ▸ hqt)
    unfold suspendTeamPeersFromHost
    by_cases hrow : w.db.networkRow = true
    · have hrow' : (!v.db.networkRow) = false := by simp [hv, hrow]
      simp only [hrow', Bool.false_eq_true, if_false]
      refine hnew _ (sameRows_removePeers _) fun x => ?_
      rw [installed_removePeers]
      simp only [List.mem_filter, decide_eq_true_eq, and_imp]
      exact Iff.rfl
    · have hno (p : WgPeer) (hp : p ∈ w.peers) : False := hrow (h.row p hp)
      have hrow' : (!v.db.networkRow) = true := by simp [hv, hrow]
      simp only [hrow', if_true]
      exact hnew _ ⟨rfl, rfl, rfl⟩ fun x =>
        ⟨fun hin => ⟨fun p hp => (hno p hp).elim, hin⟩, fun hin => hin.2⟩

/-- An unban puts the active peers of the event on the host. -/
theorem inv_restore {v : WgWorld} (h : w.Inv) (hp : v.peers = w.peers)
    (hid : w.db.nextId ≤ v.db.nextId) (hrow : v.db.networkRow = w.db.networkRow)
    (hban : ∀ p ∈ w.peers, v.banned p.teamId = true → w.banned p.teamId = true)
    (hhost : ∀ x, v.Installed x → w.Installed x)
    (hfree : ∀ p ∈ w.peers, p.status = .active → v.banned p.teamId = false) :
    v.restoreActivePeersToHost.1.Inv := by
  unfold restoreActivePeersToHost
  by_cases hr : w.db.networkRow = true
  · have hrow' : (!v.db.networkRow) = false := by simp [hrow, hr]
    simp only [hrow', Bool.false_eq_true, if_false]
    have hsame := sameRows_restorePeersToHost (w := v) (v.peers.filter (·.status = .active))
    have hbanned (u : Nat) : (v.restorePeersToHost (v.peers.filter (·.status = .active))).banned u =
        v.banned u := by rw [banned, hsame.db, banned]
    refine h.of_sameRows (hsame.peers.trans hp) (by rw [hsame.db]; exact hid)
      (by rw [hsame.db, hrow]) ?_ ?_
    · intro p hmem hpb
      rw [hsame.peers, hp] at hmem
      rw [hbanned] at hpb
      rw [installed_restorePeersToHost]
      rintro (⟨q, hq, he⟩ | hin)
      · obtain ⟨hq, hact⟩ := List.mem_filter.1 hq
        rw [hp] at hq
        have hqp := publicKey_inj h hq hmem he
        exact Bool.false_ne_true ((hfree q hq (of_decide_eq_true hact)).symm.trans (hqp ▸ hpb))
      · exact h.enforced p hmem (hban p hmem hpb) (hhost _ hin)
    · intro p hmem hact _
      rw [installed_restorePeersToHost]
      exact .inl ⟨p, List.mem_filter.2 ⟨hp ▸ hmem, decide_eq_true hact⟩, rfl⟩
  · have hno (p : WgPeer) (hmem : p ∈ w.peers) : False := hr (h.row p hmem)
    have hrow' : (!v.db.networkRow) = true := by simp [hrow, hr]
    simp only [hrow', if_true]
    exact h.of_sameRows hp hid hrow (fun p hmem => (hno p (hp ▸ hmem)).elim)
      fun p hmem => (hno p hmem).elim

theorem inv_unban (h : w.Inv) {t : Nat} (hc : w.NoOtherBanned (some t)) :
    (w.unbanTeam t).1.Inv := by
  unfold unbanTeam
  by_cases hb : w.banned t = true
  · simp only [hb, Bool.not_true, Bool.false_eq_true, if_false]
    refine inv_restore h rfl le_rfl rfl (fun p _ hpb => (banned_completeUnban.1 hpb).1)
      (fun x hx => hx) fun p hp hact => Bool.eq_false_of_not_eq_true fun hpb => ?_
    obtain ⟨hpb, hne⟩ := banned_completeUnban.1 hpb
    exact hne (Option.some.inj (hc p hp hact hpb))
  · simp only [Bool.eq_false_of_not_eq_true hb, Bool.not_false, if_true]
    exact h

theorem inv_restoreHost (h : w.Inv) (hc : w.NoOtherBanned none) (lost : Bool) :
    (w.step (.restoreHost lost)).Inv := by
  have hfree (p : WgPeer) (hp : p ∈ w.peers) (hact : p.status = .active) :
      w.banned p.teamId = false :=
    Bool.eq_false_of_not_eq_true fun hpb => by simpa using hc p hp hact hpb
  cases lost
  · exact inv_restore h rfl le_rfl rfl (fun _ _ hb => hb) (fun _ hx => hx) hfree
  · exact inv_restore (v := { w with host := [] }) h rfl le_rfl rfl (fun _ _ hb => hb)
      (fun _ hx => absurd hx List.not_mem_nil) hfree

/-! ## Peers -/

theorem Inv.add {v : WgWorld} {peer : WgPeer} (h : w.Inv) (hp : v.peers = w.peers ++ [peer])
    (hid : peer.id = w.db.nextId) (hnext : v.db.nextId = w.db.nextId + 1)
    (hrow : v.db.networkRow = true) (hbans : v.db.bans = w.db.bans)
    (hkey : ∀ q ∈ w.peers, q.publicKey ≠ peer.publicKey) (hb : w.banned peer.teamId = false)
    (hinst : ∀ x, v.Installed x ↔ peer.publicKey = x ∨ w.Installed x) : v.Inv := by
  have hban (u : Nat) : v.banned u = w.banned u := by
    simp only [banned, Db.teamBanned, hbans]
  have hmem (p : WgPeer) : p ∈ v.peers ↔ p ∈ w.peers ∨ p = peer := by
    rw [hp, List.mem_append, List.mem_singleton]
  constructor
  · rw [hp, List.map_append, List.nodup_append]
    refine ⟨h.ids, List.nodup_singleton _, fun a ha b hb' => ?_⟩
    obtain ⟨p, hpm, rfl⟩ := List.mem_map.1 ha
    rw [List.map_singleton, List.mem_singleton] at hb'
    rw [hb', hid]
    exact (h.below p hpm).ne
  · intro p hpm
    rw [hnext]
    rcases (hmem p).1 hpm with hpm | rfl
    · exact (h.below p hpm).trans (Nat.lt_succ_self _)
    · rw [hid]
      exact Nat.lt_succ_self _
  · rw [hp, List.map_append, List.nodup_append]
    refine ⟨h.keys, List.nodup_singleton _, fun a ha b hb' => ?_⟩
    obtain ⟨p, hpm, rfl⟩ := List.mem_map.1 ha
    rw [List.map_singleton, List.mem_singleton] at hb'
    rw [hb']
    exact hkey p hpm
  · exact fun _ _ => hrow
  · intro p hpm hpb
    rw [hban] at hpb
    rw [hinst, not_or]
    rcases (hmem p).1 hpm with hpm | rfl
    · exact ⟨fun he => hkey p hpm he.symm, h.enforced p hpm hpb⟩
    · exact absurd (hb.symm.trans hpb) Bool.false_ne_true
  · intro p hpm hact hpb
    rw [hban] at hpb
    rw [hinst]
    rcases (hmem p).1 hpm with hpm | rfl
    · exact .inr (h.restored p hpm hact hpb)
    · exact .inl rfl

theorem inv_createPeer (h : w.Inv) {userId teamId key : Nat} (hb : w.banned teamId = false) :
    (w.createPeer userId teamId key).1.Inv := by
  unfold createPeer
  by_cases hrow : w.db.networkRow = true
  · simp only [hrow, Bool.not_true, Bool.false_eq_true, if_false]
    split
    · exact h
    · split
      · exact h
      · rename_i net _ ip nextHost _
        by_cases hclash : w.peerClash userId ip key = true
        · rw [if_pos hclash]
          exact h
        · rw [if_neg hclash]
          have hkey (q : WgPeer) (hq : q ∈ w.peers) : q.publicKey ≠ key := by
            intro he
            refine hclash (List.any_eq_true.2 ⟨q, hq, ?_⟩)
            exact decide_eq_true (.inr (.inr he))
          exact h.add rfl rfl rfl rfl rfl hkey hb fun x => installed_addPeer
  · simp only [Bool.eq_false_of_not_eq_true hrow, Bool.not_false, if_true]
    exact h

theorem inv_ensurePeer (h : w.Inv) (userId teamId key : Nat) :
    (w.ensurePeerForUser userId teamId key).1.Inv := by
  have hcreate (e : AwdError) : (if w.banned teamId = true then
      ((w, .error e) : WgWorld × Except AwdError WgPeer)
      else w.createPeer userId teamId key).1.Inv := by
    split_ifs with hb
    · exact h
    · exact inv_createPeer h (Bool.eq_false_of_not_eq_true hb)
  unfold ensurePeerForUser
  split
  · split
    · exact h
    · exact hcreate _
  · exact hcreate _

/-- One row is written; the others and their entries stay. -/
theorem Inv.edit {v : WgWorld} {peer : WgPeer} {f : WgPeer → WgPeer} (h : w.Inv)
    (hmem : peer ∈ w.peers) (hf : ∀ p, (f p).id = p.id ∧ (f p).teamId = p.teamId)
    (hp : v.peers = w.peers.map fun p => if p.id = peer.id then f p else p) (hdb : v.db = w.db)
    (hkey : ∀ p ∈ w.peers, p.id ≠ peer.id → (f peer).publicKey ≠ p.publicKey)
    (hother : ∀ p ∈ w.peers, p.id ≠ peer.id → (v.Installed p.publicKey ↔ w.Installed p.publicKey))
    (hon : v.banned peer.teamId = true → ¬ v.Installed (f peer).publicKey)
    (hoff : (f peer).status = .active → v.banned peer.teamId = false →
      v.Installed (f peer).publicKey) : v.Inv := by
  have hban (u : Nat) : v.banned u = w.banned u := by rw [banned, hdb, banned]
  -- a row of the new table is the written one, or an old one with another id
  have hrows (q : WgPeer) (hq : q ∈ v.peers) :
      q = f peer ∨ (q ∈ w.peers ∧ q.id ≠ peer.id) := by
    rw [hp] at hq
    obtain ⟨p, hpm, rfl⟩ := List.mem_map.1 hq
    by_cases he : p.id = peer.id
    · rw [if_pos he, id_inj h hpm hmem he]
      exact .inl rfl
    · rw [if_neg he]
      exact .inr ⟨hpm, he⟩
  have hids : v.peers.map (·.id) = w.peers.map (·.id) := by
    rw [hp, List.map_map]
    refine List.map_congr_left fun p _ => ?_
    dsimp only [Function.comp]
    split_ifs
    · exact (hf p).1
    · rfl
  constructor
  · rw [hids]
    exact h.ids
  · intro q hq
    rw [hdb]
    rcases hrows q hq with rfl | ⟨hq, -⟩
    · rw [(hf peer).1]
      exact h.below peer hmem
    · exact h.below q hq
  · rw [hp, List.map_map]
    refine List.Nodup.map_on (fun p hpm q hqm he => ?_) (List.Nodup.of_map _ h.ids)
    dsimp only [Function.comp] at he
    by_cases hpe : p.id = peer.id <;> by_cases hqe : q.id = peer.id
    · exact id_inj h hpm hqm (hpe.trans hqe.symm)
    · rw [if_pos hpe, if_neg hqe, id_inj h hpm hmem hpe] at he
      exact absurd he (hkey q hqm hqe)
    · rw [if_neg hpe, if_pos hqe, id_inj h hqm hmem hqe] at he
      exact absurd he.symm (hkey p hpm hpe)
    · rw [if_neg hpe, if_neg hqe] at he
      exact publicKey_inj h hpm hqm he
  · intro q hq
    rw [hdb]
    exact h.row peer hmem
  · intro q hq hqb
    rcases hrows q hq with rfl | ⟨hq, hne⟩
    · rw [(hf peer).2] at hqb
      exact hon hqb
    · rw [hother q hq hne]
      exact h.enforced q hq (hban q.teamId ▸ hqb)
  · intro q hq hact hqb
    rcases hrows q hq with rfl | ⟨hq, hne⟩
    · rw [(hf peer).2] at hqb
      exact hoff hact hqb
    · rw [hother q hq hne]
      exact h.restored q hq hact (hban q.teamId ▸ hqb)

theorem mem_of_find_id {id : Nat} {peer : WgPeer}
    (hfind : w.peers.find? (·.id = id) = some peer) : peer ∈ w.peers ∧ peer.id = id :=
  ⟨List.mem_of_find?_eq_some hfind, by simpa using List.find?_some hfind⟩

theorem inv_revoke (h : w.Inv) (id : Nat) : (w.revokePeer id).1.Inv := by
  unfold revokePeer
  split
  · exact h
  · rename_i peer hfind
    obtain ⟨hmem, rfl⟩ := mem_of_find_id hfind
    split
    · exact h
    · refine h.edit (f := fun p => { p with status := .revoked }) hmem (fun _ => ⟨rfl, rfl⟩) rfl rfl
        (fun p hp hne he => ?_) (fun p hp hne => ?_) (fun _ hin => ?_) nofun
      · exact hne (congrArg WgPeer.id (publicKey_inj h hmem hp he)).symm
      · refine installed_removePeer.trans (and_iff_right fun he => ?_)
        exact hne (congrArg WgPeer.id (publicKey_inj h hp hmem he))
      · exact (installed_removePeer.1 hin).1 rfl

/-- The rotation of a peer whose team is not banned, to a key that no peer has. -/
theorem inv_rotate (h : w.Inv) {id key : Nat}
    (hfree : ∀ p ∈ w.peers, p.id = id → w.banned p.teamId = false)
    (hnew : ∀ p ∈ w.peers, p.publicKey ≠ key) : (w.rotatePeerKeys id key).1.Inv := by
  unfold rotatePeerKeys
  split
  · exact h
  · rename_i peer hfind
    obtain ⟨hmem, rfl⟩ := mem_of_find_id hfind
    split
    · exact h
    · split
      · exact h
      · have hclash : (w.editPeer peer.id fun p => { p with status := .rotating }).peers.any
            (fun p => p.id ≠ peer.id ∧ p.publicKey = key) = false := by
          refine List.any_eq_false.2 fun q hq => ?_
          obtain ⟨p, hp, rfl⟩ := List.mem_map.1 hq
          have := hnew p hp
          split_ifs <;> simp [this]
        set v := (((w.editPeer peer.id fun p => { p with status := .rotating }).addPeer key
          peer.assignedIp).removePeer peer.publicKey) with hv
        have hinst (x : Nat) : v.Installed x ↔ x ≠ peer.publicKey ∧ (key = x ∨ w.Installed x) := by
          rw [hv, installed_removePeer, installed_addPeer]
          rfl
        have hclash' : v.peers.any (fun p => p.id ≠ peer.id ∧ p.publicKey = key) = false := hclash
        rw [rotatePeer, hclash', if_neg Bool.false_ne_true]
        refine h.edit (f := fun p => { p with status := .active, publicKey := key }) hmem
          (fun _ => ⟨rfl, rfl⟩) ?_ rfl (fun p hp _ he => hnew p hp he.symm) (fun p hp hne => ?_)
          (fun hb => ?_) fun _ _ => ?_
        · show (w.peers.map _).map _ = _
          rw [List.map_map]
          refine List.map_congr_left fun p _ => ?_
          by_cases he : p.id = peer.id <;> simp [he]
        · have hkey : p.publicKey ≠ peer.publicKey := fun he =>
            hne (congrArg WgPeer.id (publicKey_inj h hp hmem he))
          refine (hinst p.publicKey).trans ?_
          rw [and_iff_right hkey, or_iff_right fun he => hnew p hp he.symm]
        · exact absurd ((hfree peer hmem rfl).symm.trans hb) Bool.false_ne_true
        · exact (hinst key).2 ⟨fun he => hnew peer hmem he.symm, .inl rfl⟩

end WgWorld

/-! ## Runs -/

namespace WgWorld

variable {w : WgWorld}

theorem Inv.of_sameRecords {db : Db} (h : w.Inv) (hdb : SameRecords w.db db) :
    ({ w with db } : WgWorld).Inv := by
  have hban (u : Nat) : ({ w with db } : WgWorld).banned u = w.banned u := by
    simp only [banned, Db.teamBanned, hdb.bans]
  refine h.of_sameRows rfl hdb.nextId hdb.networkRow (fun p hp hb => ?_) fun p hp hact hb => ?_
  · rw [hban] at hb
    exact h.enforced p hp hb
  · rw [hban] at hb
    exact h.restored p hp hact hb

theorem inv_step {op : WgOp} (h : w.Inv) (hc : KeepsBans w op) : (w.step op).Inv := by
  cases op with
  | ban t => exact inv_ban h t
  | unban t => exact inv_unban h hc
  | ensurePeer userId teamId key => exact inv_ensurePeer h userId teamId key
  | rotate id key => exact inv_rotate h hc.1 hc.2
  | revoke id => exact inv_revoke h id
  | pause up =>
    exact h.of_sameRecords
      (Prog.run_within _ SameRecords.refl SameRecords.trans sameRecords_pauseEvent w.db)
  | resume up =>
    exact h.of_sameRecords
      (Prog.run_within _ SameRecords.refl SameRecords.trans sameRecords_resumeEvent w.db)
  | restoreHost lost => exact inv_restoreHost h hc lost

/-- What an unban installs: exactly the active peers of the team. -/
theorem installed_unban (h : w.Inv) {t : Nat} (hb : w.banned t = true)
    (hc : w.NoOtherBanned (some t)) (k : Nat) :
    (w.step (.unban t)).Installed k ↔
      w.Installed k ∨ ∃ p ∈ w.peers, p.teamId = t ∧ p.status = .active ∧ p.publicKey = k := by
  have hstep : (w.step (.unban t)).Installed k ↔ (w.completeUnban t).restoreActivePeersToHost.1.Installed k := by
    simp only [step, unbanTeam, hb, Bool.not_true, Bool.false_eq_true, if_false]
  rw [hstep, restoreActivePeersToHost]
  by_cases hr : w.db.networkRow = true
  · have hrow : (!(w.completeUnban t).db.networkRow) = false := by simp [completeUnban, hr]
    simp only [hrow, Bool.false_eq_true, if_false]
    rw [installed_restorePeersToHost]
    constructor
    · rintro (⟨p, hp, rfl⟩ | hin)
      · obtain ⟨hp, hact⟩ := List.mem_filter.1 hp
        have hact := of_decide_eq_true hact
        by_cases hpb : w.banned p.teamId = true
        · exact .inr ⟨p, hp, Option.some.inj (hc p hp hact hpb), hact, rfl⟩
        · exact .inl (h.restored p hp hact (Bool.eq_false_of_not_eq_true hpb))
      · exact .inl hin
    · rintro (hin | ⟨p, hp, -, hact, rfl⟩)
      · exact .inr hin
      · exact .inl ⟨p, List.mem_filter.2 ⟨hp, decide_eq_true hact⟩, rfl⟩
  · have hrow : (!(w.completeUnban t).db.networkRow) = true := by simp [completeUnban, hr]
    simp only [hrow, if_true]
    refine ⟨.inl, ?_⟩
    rintro (hin | ⟨p, hp, -⟩)
    · exact hin
    · exact absurd (h.row p hp) hr

end WgWorld

/-- In a run whose steps keep the bans no peer of a banned team is on the host, and an unban
installs the active peers of its team and no others. -/
theorem bans_enforced {w : WgWorld} (hw : w.Fresh) {ops : List WgOp}
    (hops : Along WgWorld.step KeepsBans w ops) :
    (ops.foldl WgWorld.step w).Enforced ∧
      ∀ t, (ops.foldl WgWorld.step w).banned t = true →
        KeepsBans (ops.foldl WgWorld.step w) (.unban t) → ∀ k,
        ((ops.foldl WgWorld.step w).step (.unban t)).Installed k ↔
          (ops.foldl WgWorld.step w).Installed k ∨
            ∃ p ∈ (ops.foldl WgWorld.step w).peers,
              p.teamId = t ∧ p.status = .active ∧ p.publicKey = k := by
  have hinv := inv_of_along WgWorld.Inv (fun _ _ h hc => WgWorld.inv_step h hc) hw.inv hops
  exact ⟨hinv.enforced, fun t hb hc k => WgWorld.installed_unban hinv hb hc k⟩

/-! ## Two banned teams -/

/-- An event with two teams, each with a network. -/
def twoTeamWorld : WgWorld where
  db := oneRoundDb
  networks :=
    [{ eventId := 1, teamId := 1, subnetIndex := 1, gameboxSubnet := ⟨256, 24, by decide, by decide⟩
       wireguardSubnet := ⟨1024, 24, by decide, by decide⟩, nextWireguardHost := 2 },
      { eventId := 1, teamId := 2, subnetIndex := 2, gameboxSubnet := ⟨512, 24, by decide, by decide⟩
        wireguardSubnet := ⟨1280, 24, by decide, by decide⟩, nextWireguardHost := 2 }]
  peers := []
  host := []

/-- Both teams have a peer and are banned; then the first one is unbanned. -/
def secondBanRun : List WgOp :=
  [.ensurePeer 7 1 100, .ensurePeer 8 2 200, .ban 1, .ban 2, .unban 1]

/-- The peer of the second team is back on the host, although the team is banned. -/
theorem second_ban_undone : twoTeamWorld.Fresh ∧
    (secondBanRun.foldl WgWorld.step twoTeamWorld).banned 2 = true ∧
    ¬ (secondBanRun.foldl WgWorld.step twoTeamWorld).Enforced :=
  ⟨⟨rfl, rfl, rfl⟩, by decide +kernel, by decide +kernel⟩

/-- A team is banned and unbanned while no other is banned. -/
theorem bans_enforced_single :
    ([.ensurePeer 7 1 100, .ensurePeer 8 2 200, .ban 1, .pause allUp, .unban 1, .rotate 10 300,
      .ban 2] |>.foldl WgWorld.step twoTeamWorld).Enforced :=
  (bans_enforced (w := twoTeamWorld) ⟨rfl, rfl, rfl⟩ (by decide +kernel)).1

end FloatCtf.Awd
