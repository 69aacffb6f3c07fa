import FloatCtf.Oidc.CodeExchange
import FloatCtf.Oidc.Steps
import Mathlib.Data.List.Nodup

/-!
# Grants of consent

`grant_consent` reads the row of a user and a client, forms the union in memory and writes it back,
and a first grant overwrites the scopes of a concurrent one.  Two consent pages that are submitted
at the same time can therefore lose a scope (`grant_lost`).  `grantsKept_run` shows that the active
consent covers every set that a call has returned, in every interleaving in which a grant that
writes has read, or grants itself, the scopes that are stored by then.
-/

namespace FloatCtf.Oidc

open Process

/-! ## Rows -/

/-- The keys of `oidc_consents`. -/
structure ConsentRows (db : Db) : Prop where
  ids : (db.consents.map (·.id)).Nodup
  pairs : (db.consents.map fun c => (c.userId, c.clientId)).Nodup

theorem ConsentRows.eq_of_id {db : Db} (h : ConsentRows db) {c c' : Consent}
    (hc : c ∈ db.consents) (hc' : c' ∈ db.consents) (hid : c.id = c'.id) : c = c' :=
  List.inj_on_of_nodup_map h.ids hc hc' hid

theorem ConsentRows.eq_of_pair {db : Db} (h : ConsentRows db) {c c' : Consent}
    (hc : c ∈ db.consents) (hc' : c' ∈ db.consents) (hu : c.userId = c'.userId)
    (hk : c.clientId = c'.clientId) : c = c' :=
  List.inj_on_of_nodup_map h.pairs hc hc' (by rw [hu, hk])

theorem Consent.activeFor_iff {c : Consent} {u k : Nat} :
    c.activeFor u k = true ↔ c.userId = u ∧ c.clientId = k ∧ c.revokedAt = none := by
  simp [Consent.activeFor]

/-- The active row of the pair is the one that is found. -/
theorem activeConsent_eq {db : Db} (h : ConsentRows db) {u k : Nat} {c : Consent}
    (hc : c ∈ db.consents) (hact : c.activeFor u k = true) : db.activeConsent u k = some c := by
  unfold Db.activeConsent
  cases hfind : db.consents.find? (·.activeFor u k) with
  | none => exact absurd hact (by simpa using List.find?_eq_none.1 hfind c hc)
  | some c' =>
    have hact' := List.find?_some (p := fun c : Consent => c.activeFor u k) hfind
    rw [Consent.activeFor_iff] at hact hact'
    rw [h.eq_of_pair (List.mem_of_find?_eq_some hfind) hc (hact'.1.trans hact.1.symm)
      (hact'.2.1.trans hact.2.1.symm)]

theorem consented_iff {db : Db} (h : ConsentRows db) {u k : Nat} {s : List String} :
    db.consented u k s = true ↔
      ∃ c ∈ db.consents, c.activeFor u k = true ∧ covers c.scopes s = true := by
  unfold Db.consented Db.activeConsent
  constructor
  · intro hany
    cases hfind : db.consents.find? (·.activeFor u k) with
    | none =>
      rw [hfind] at hany
      cases hany
    | some c =>
      rw [hfind] at hany
      have hact := List.find?_some (p := fun c : Consent => c.activeFor u k) hfind
      exact ⟨c, List.mem_of_find?_eq_some hfind, hact, hany⟩
  · rintro ⟨c, hc, hact, hcov⟩
    have hfind := activeConsent_eq h hc hact
    unfold Db.activeConsent at hfind
    rw [hfind]
    exact hcov

/-- The row of the pair as a grant writes it. -/
def Consent.written (c : Consent) (existing : Option Consent) (merged : List String) (now : Int) :
    Consent :=
  if existing.any (·.revokedAt.isSome) then
    { c with scopes := merged, updatedAt := now, revokedAt := none, grantedAt := now }
  else { c with scopes := merged, updatedAt := now }

@[simp] theorem Consent.written_id (c : Consent) (e : Option Consent) (m : List String) (n : Int) :
    (c.written e m n).id = c.id := by
  unfold Consent.written
  split <;> rfl

@[simp] theorem Consent.written_userId (c : Consent) (e : Option Consent) (m : List String)
    (n : Int) : (c.written e m n).userId = c.userId := by
  unfold Consent.written
  split <;> rfl

@[simp] theorem Consent.written_clientId (c : Consent) (e : Option Consent) (m : List String)
    (n : Int) : (c.written e m n).clientId = c.clientId := by
  unfold Consent.written
  split <;> rfl

@[simp] theorem Consent.written_scopes (c : Consent) (e : Option Consent) (m : List String)
    (n : Int) : (c.written e m n).scopes = m := by
  unfold Consent.written
  split <;> rfl

theorem Consent.written_revokedAt (c : Consent) (e : Option Consent) (m : List String) (n : Int) :
    (c.written e m n).revokedAt =
      if e.any (·.revokedAt.isSome) then none else c.revokedAt := by
  unfold Consent.written
  split <;> rfl

/-- The tables after the row of the pair was written. -/
def Db.writeConsent (db : Db) (u k : Nat) (existing : Option Consent) (merged : List String) : Db :=
  { db with consents := db.consents.map fun c =>
      if c.userId = u ∧ c.clientId = k then c.written existing merged db.now else c }

/-- The tables after the first row of the pair was inserted. -/
def Db.insertConsent (db : Db) (u k id : Nat) (merged : List String) : Db :=
  { db with consents := db.consents ++ [{
      id := id, userId := u, clientId := k, scopes := merged, grantedAt := db.now
      updatedAt := db.now, lastUsedAt := none, revokedAt := none }] }

/-- What a grant does that has read its row. -/
theorem grant_cases {db db' : Db} {u k id : Nat} {existing : Option Consent} {scopes : List String}
    (hrows : ConsentRows db)
    (hread : ∀ r ∈ existing, ∃ c ∈ db.consents, c.id = r.id ∧ c.userId = u ∧ c.clientId = k)
    (h : db.grant u k existing scopes id = .ok db') :
    ((∃ c ∈ db.consents, c.userId = u ∧ c.clientId = k) ∧
        db' = db.writeConsent u k existing (union (seenScopes existing) scopes)) ∨
      ((∀ c ∈ db.consents, ¬ (c.userId = u ∧ c.clientId = k)) ∧ (∀ c ∈ db.consents, c.id ≠ id) ∧
        db' = db.insertConsent u k id (union (seenScopes existing) scopes)) := by
  cases existing with
  | some row =>
    obtain ⟨c₀, hc₀, hid, hpair⟩ := hread row rfl
    simp only [Db.grant] at h
    split_ifs at h
    cases h
    refine .inl ⟨⟨c₀, hc₀, hpair⟩, ?_⟩
    unfold Db.writeConsent
    congr 1
    refine List.map_congr_left fun c hc => ?_
    have hiff : c.id = row.id ↔ c.userId = u ∧ c.clientId = k := by
      constructor
      · intro h
        rw [hrows.eq_of_id hc hc₀ (h.trans hid.symm)]
        exact hpair
      · rintro ⟨hu, hk⟩
        rw [hrows.eq_of_pair hc hc₀ (hu.trans hpair.1.symm) (hk.trans hpair.2.symm)]
        exact hid
    by_cases hp : c.userId = u ∧ c.clientId = k
    · rw [if_pos (hiff.2 hp), if_pos hp]
      rfl
    · rw [if_neg fun h => hp (hiff.1 h), if_neg hp]
  | none =>
    simp only [Db.grant] at h
    split_ifs at h with hany hlocked hid
    · cases h
      obtain ⟨c, hc, hp⟩ := List.any_eq_true.1 hany
      exact .inl ⟨⟨c, hc, by simpa using hp⟩, rfl⟩
    · cases h
      refine .inr ⟨fun c hc hp => hany ?_, fun c hc heq => hid ?_, rfl⟩
      · exact List.any_eq_true.2 ⟨c, hc, by simpa using hp⟩
      · exact List.any_eq_true.2 ⟨c, hc, by simpa using heq⟩

section Rows

variable {db : Db} {u k : Nat} {existing : Option Consent} {merged : List String}

theorem ConsentRows.map (h : ConsentRows db) {f : Consent → Consent}
    (hf : ∀ c, (f c).id = c.id ∧ (f c).userId = c.userId ∧ (f c).clientId = c.clientId) :
    ConsentRows { db with consents := db.consents.map f } := by
  refine ⟨?_, ?_⟩
  · show ((db.consents.map f).map _).Nodup
    rw [List.map_map]
    have hsame : ((fun c : Consent => c.id) ∘ f) = fun c => c.id := by
      funext c
      exact (hf c).1
    rw [hsame]
    exact h.ids
  · show ((db.consents.map f).map _).Nodup
    rw [List.map_map]
    have hsame : ((fun c : Consent => (c.userId, c.clientId)) ∘ f) =
        fun c => (c.userId, c.clientId) := by
      funext c
      simp [(hf c).2.1, (hf c).2.2]
    rw [hsame]
    exact h.pairs

theorem ConsentRows.writeConsent (h : ConsentRows db) :
    ConsentRows (db.writeConsent u k existing merged) :=
  h.map fun c => by split_ifs <;> simp

theorem ConsentRows.insertConsent {id : Nat} (h : ConsentRows db)
    (hpair : ∀ c ∈ db.consents, ¬ (c.userId = u ∧ c.clientId = k))
    (hid : ∀ c ∈ db.consents, c.id ≠ id) : ConsentRows (db.insertConsent u k id merged) := by
  refine ⟨?_, ?_⟩
  · show ((db.consents ++ [_]).map _).Nodup
    rw [List.map_append]
    refine List.nodup_append.2 ⟨h.ids, List.nodup_singleton _, fun i hi j hj => ?_⟩
    obtain ⟨c, hc, rfl⟩ := List.mem_map.1 hi
    rw [List.mem_singleton.1 hj]
    exact hid c hc
  · show ((db.consents ++ [_]).map _).Nodup
    rw [List.map_append]
    refine List.nodup_append.2 ⟨h.pairs, List.nodup_singleton _, fun i hi j hj heq => ?_⟩
    obtain ⟨c, hc, rfl⟩ := List.mem_map.1 hi
    rw [List.mem_singleton.1 hj, Prod.mk.injEq] at heq
    exact hpair c hc heq

theorem mem_writeConsent {c : Consent} (h : c ∈ (db.writeConsent u k existing merged).consents) :
    ∃ c₀ ∈ db.consents, c.id = c₀.id ∧ c.userId = c₀.userId ∧ c.clientId = c₀.clientId ∧
      (c₀.userId = u ∧ c₀.clientId = k ∧ c = c₀.written existing merged db.now ∨
        ¬ (c₀.userId = u ∧ c₀.clientId = k) ∧ c = c₀) := by
  obtain ⟨c₀, hc₀, rfl⟩ := List.mem_map.1 h
  refine ⟨c₀, hc₀, ?_⟩
  by_cases hp : c₀.userId = u ∧ c₀.clientId = k
  · simp [hp]
  · simp [hp]

end Rows

/-! ## The system -/

/-- A call of `grant_consent` that has returned: the scopes it had read and those it was to grant. -/
structure Granted where
  userId : Nat
  clientId : Nat
  seen : List String
  scopes : List String
  deriving DecidableEq

/-- What the call has returned. -/
def Granted.merged (g : Granted) : List String := union g.seen g.scopes

/-- What the log learns of a statement. -/
def noteGrant (l : Stmt) (db : Db) (log : List Granted) : List Granted :=
  match l with
  | .grantConsent u k existing scopes id =>
    match db.grant u k existing scopes id with
    | .ok _ => log ++ [⟨u, k, seenScopes existing, scopes⟩]
    | .error _ => log
  | _ => log

/-- Consents are granted, codes issued and exchanged and tokens used, and nothing is revoked; the
environment lets time pass. -/
def grantSystem (p : Provider) (k : Signer) :
    System Stmt Db OidcError (List Granted) GrantJob Nat where
  prog := GrantJob.prog p k
  env d db := { db with now := db.now + d }
  watch _ l db log := noteGrant l db log

/-- The requests on consents under way. -/
abbrev GrantPool := Pool Stmt Db OidcError (List Granted) GrantJob

/-- Nothing has been granted yet. -/
def GrantPool.initial (db : Db) : GrantPool := { state := db, ghost := [], threads := [] }

/-- The scope was stored at the start or granted since. -/
def Sourced (start : Db) (log : List Granted) (u k : Nat) (s : String) : Prop :=
  (∃ c ∈ start.consents, c.activeFor u k = true ∧ s ∈ c.scopes) ∨
    ∃ g ∈ log, g.userId = u ∧ g.clientId = k ∧ s ∈ g.scopes

/-- The active consents cover what was returned, and nothing that was not granted; a code for
scopes that were returned passes the consent check of its exchange. -/
structure GrantsKept (start db : Db) (log : List Granted) : Prop where
  covered : ∀ g ∈ log, db.consented g.userId g.clientId g.merged = true
  sourced : ∀ c ∈ db.consents, c.revokedAt = none → ∀ s ∈ c.scopes,
    Sourced start log c.userId c.clientId s
  accepted : ∀ code ∈ db.codes, ∀ g ∈ log, g.userId = code.userId → g.clientId = code.clientId →
    covers g.merged code.scopes = true →
      db.consented code.userId code.clientId code.scopes = true

/-- The grant has read, or grants itself, what is stored when it writes. -/
def KeepsScopes {J γ : Type} (_ : J) (l : Stmt) (v : Db × γ) : Prop :=
  match l with
  | .grantConsent u k existing scopes _ => ∀ c ∈ v.1.activeConsent u k, ∀ s ∈ c.scopes,
      s ∈ seenScopes existing ∨ s ∈ scopes
  | _ => True

instance {J γ : Type} (j : J) (l : Stmt) (v : Db × γ) : Decidable (KeepsScopes j l v) := by
  unfold KeepsScopes
  split <;> infer_instance

/-! ## The law -/

/-- What a request may rely on: no row goes, none is revoked, and nothing leaves the log. -/
structure GrantRely (v v' : Db × List Granted) : Prop where
  rows : ∀ c ∈ v.1.consents, ∃ c' ∈ v'.1.consents,
    c'.id = c.id ∧ c'.userId = c.userId ∧ c'.clientId = c.clientId
  revoked : ∀ c' ∈ v'.1.consents, c'.revokedAt.isSome = true → ∃ c ∈ v.1.consents,
    c.userId = c'.userId ∧ c.clientId = c'.clientId ∧ c.revokedAt.isSome = true
  log : v.2 ⊆ v'.2

/-- The invariant of the grants: what is logged is covered, and every scope goes back to a grant. -/
structure GrantInv (start : Db) (v : Db × List Granted) : Prop where
  rows : ConsentRows v.1
  covered : ∀ g ∈ v.2, v.1.consented g.userId g.clientId g.merged = true
  sourced : ∀ c ∈ v.1.consents, c.revokedAt = none → ∀ s ∈ c.scopes,
    Sourced start v.2 c.userId c.clientId s

/-- What a grant knows of the row it has read. -/
structure GrantRead (start : Db) (u k : Nat) (existing : Option Consent)
    (v : Db × List Granted) : Prop where
  row : ∀ r ∈ existing, ∃ c ∈ v.1.consents, c.id = r.id ∧ c.userId = u ∧ c.clientId = k
  active : ∀ c ∈ v.1.consents, c.userId = u → c.clientId = k → c.revokedAt.isSome = true →
    existing.any (·.revokedAt.isSome) = true
  sourced : ∀ s ∈ seenScopes existing, Sourced start v.2 u k s

section Law

variable {start : Db} {v v' v'' : Db × List Granted} {u k : Nat} {existing : Option Consent}

theorem GrantRely.refl (v : Db × List Granted) : GrantRely v v :=
  ⟨fun c hc => ⟨c, hc, rfl, rfl, rfl⟩, fun c hc hs => ⟨c, hc, rfl, rfl, hs⟩, List.Subset.refl _⟩

theorem GrantRely.trans (h : GrantRely v v') (h' : GrantRely v' v'') : GrantRely v v'' := by
  refine ⟨fun c hc => ?_, fun c hc hs => ?_, List.Subset.trans h.log h'.log⟩
  · obtain ⟨c₁, hc₁, hid₁, hu₁, hk₁⟩ := h.rows c hc
    obtain ⟨c₂, hc₂, hid₂, hu₂, hk₂⟩ := h'.rows c₁ hc₁
    exact ⟨c₂, hc₂, hid₂.trans hid₁, hu₂.trans hu₁, hk₂.trans hk₁⟩
  · obtain ⟨c₁, hc₁, hu₁, hk₁, hs₁⟩ := h'.revoked c hc hs
    obtain ⟨c₂, hc₂, hu₂, hk₂, hs₂⟩ := h.revoked c₁ hc₁ hs₁
    exact ⟨c₂, hc₂, hu₂.trans hu₁, hk₂.trans hk₁, hs₂⟩

theorem Sourced.mono {log log' : List Granted} {s : String} (h : Sourced start log u k s)
    (hl : log ⊆ log') : Sourced start log' u k s :=
  h.imp_right fun ⟨g, hg, hrest⟩ => ⟨g, hl hg, hrest⟩

theorem GrantRead.mono (h : GrantRead start u k existing v) (hv : GrantRely v v') :
    GrantRead start u k existing v' := by
  refine ⟨fun r hr => ?_, fun c hc hu hk hs => ?_, fun s hs => (h.sourced s hs).mono hv.log⟩
  · obtain ⟨c, hc, hid, hu, hk⟩ := h.row r hr
    obtain ⟨c', hc', hid', hu', hk'⟩ := hv.rows c hc
    exact ⟨c', hc', hid'.trans hid, hu'.trans hu, hk'.trans hk⟩
  · obtain ⟨c₀, hc₀, hu₀, hk₀, hs₀⟩ := hv.revoked c hc hs
    exact h.active c₀ hc₀ (hu₀.trans hu) (hk₀.trans hk) hs₀

/-- An update that leaves what the consents say. -/
theorem GrantInv.map (h : GrantInv start v) {f : Consent → Consent} {db : Db}
    (hdb : db.consents = v.1.consents.map f)
    (hf : ∀ c, (f c).id = c.id ∧ (f c).userId = c.userId ∧ (f c).clientId = c.clientId ∧
      (f c).scopes = c.scopes ∧ (f c).revokedAt = c.revokedAt) :
    GrantRely v (db, v.2) ∧ GrantInv start (db, v.2) := by
  have hmem : ∀ c ∈ db.consents, ∃ c₀ ∈ v.1.consents, f c₀ = c := by
    rw [hdb]
    exact fun c hc => List.mem_map.1 hc
  have hrows : ConsentRows db := by
    have := h.rows.map (f := f) fun c => ⟨(hf c).1, (hf c).2.1, (hf c).2.2.1⟩
    exact ⟨hdb ▸ this.ids, hdb ▸ this.pairs⟩
  refine ⟨⟨fun c hc => ⟨f c, ?_, (hf c).1, (hf c).2.1, (hf c).2.2.1⟩, fun c hc hs => ?_,
    List.Subset.refl _⟩, hrows, fun g hg => ?_, fun c hc hn s hs => ?_⟩
  · show f c ∈ db.consents
    rw [hdb]
    exact List.mem_map_of_mem hc
  · obtain ⟨c₀, hc₀, rfl⟩ := hmem c hc
    obtain ⟨-, hu, hk, -, hr⟩ := hf c₀
    rw [hr] at hs
    exact ⟨c₀, hc₀, hu.symm, hk.symm, hs⟩
  · have hcov := h.covered g hg
    rw [consented_iff h.rows] at hcov
    obtain ⟨c, hc, hact, hscopes⟩ := hcov
    rw [Consent.activeFor_iff] at hact
    obtain ⟨-, hu, hk, hsc, hr⟩ := hf c
    rw [consented_iff hrows]
    refine ⟨f c, ?_, ?_, ?_⟩
    · rw [hdb]
      exact List.mem_map_of_mem hc
    · rw [Consent.activeFor_iff, hu, hk, hr]
      exact hact
    · rw [hsc]
      exact hscopes
  · obtain ⟨c₀, hc₀, rfl⟩ := hmem c hc
    obtain ⟨-, hu, hk, hsc, hr⟩ := hf c₀
    rw [hr] at hn
    rw [hsc] at hs
    rw [hu, hk]
    exact h.sourced c₀ hc₀ hn s hs

/-- The union keeps what a returned set has and what is stored in the meantime. -/
theorem covers_union {g : Granted} {stored seen scopes : List String}
    (hg : covers stored g.merged = true) (hs : ∀ s ∈ stored, s ∈ seen ∨ s ∈ scopes) :
    covers (union seen scopes) g.merged = true := by
  rw [covers_iff] at hg ⊢
  intro s hsg
  exact mem_union.2 ⟨(mem_union.1 hsg).1, hs s (hg s hsg)⟩

/-- The row of the pair is active once it is written. -/
theorem GrantRead.written (h : GrantRead start u k existing v) {c : Consent}
    (hc : c ∈ v.1.consents) (hu : c.userId = u) (hk : c.clientId = k) (m : List String) (n : Int) :
    (c.written existing m n).activeFor u k = true := by
  rw [Consent.activeFor_iff, Consent.written_userId, Consent.written_clientId,
    Consent.written_revokedAt]
  refine ⟨hu, hk, ?_⟩
  split_ifs with hany
  · rfl
  · by_contra hne
    exact hany (h.active c hc hu hk (Option.isSome_iff_ne_none.2 hne))

/-- The grant updates the row of the pair. -/
theorem GrantInv.writeConsent (h : GrantInv start v) (hread : GrantRead start u k existing v)
    {scopes : List String} (hkeep : ∀ c ∈ v.1.activeConsent u k, ∀ s ∈ c.scopes,
      s ∈ seenScopes existing ∨ s ∈ scopes)
    (hrow : ∃ c ∈ v.1.consents, c.userId = u ∧ c.clientId = k) :
    GrantInv start (v.1.writeConsent u k existing (union (seenScopes existing) scopes),
      v.2 ++ [⟨u, k, seenScopes existing, scopes⟩]) := by
  set m := union (seenScopes existing) scopes
  have hrows : ConsentRows (v.1.writeConsent u k existing m) := h.rows.writeConsent
  have hsub : v.2 ⊆ v.2 ++ [⟨u, k, seenScopes existing, scopes⟩] := List.subset_append_left _ _
  have hwritten : ∀ c ∈ v.1.consents, c.userId = u → c.clientId = k →
      c.written existing m v.1.now ∈ (v.1.writeConsent u k existing m).consents :=
    fun c hc hu hk => List.mem_map.2 ⟨c, hc, if_pos ⟨hu, hk⟩⟩
  refine ⟨hrows, fun g hg => (consented_iff hrows).2 ?_, fun c hc hn s hs => ?_⟩
  · rcases List.mem_append.1 hg with hg | hg
    · obtain ⟨c, hc, hact, hcov⟩ := (consented_iff h.rows).1 (h.covered g hg)
      obtain ⟨hu, hk, -⟩ := Consent.activeFor_iff.1 hact
      by_cases hp : c.userId = u ∧ c.clientId = k
      · have hact' : c.activeFor u k = true := by
          rw [← hp.1, ← hp.2, hu, hk]
          exact hact
        refine ⟨_, hwritten c hc hp.1 hp.2, ?_, ?_⟩
        · rw [← hu, ← hk, hp.1, hp.2]
          exact hread.written hc hp.1 hp.2 _ _
        · rw [Consent.written_scopes]
          exact covers_union hcov (hkeep c (activeConsent_eq h.rows hc hact'))
      · exact ⟨c, List.mem_map.2 ⟨c, hc, if_neg hp⟩, hact, hcov⟩
    · rw [List.mem_singleton.1 hg]
      obtain ⟨c, hc, hu, hk⟩ := hrow
      refine ⟨_, hwritten c hc hu hk, hread.written hc hu hk _ _, ?_⟩
      rw [Consent.written_scopes, covers_iff]
      exact fun s hs => hs
  · obtain ⟨c₀, hc₀, -, hu, hk, hnew⟩ := mem_writeConsent hc
    rcases hnew with ⟨hu₀, hk₀, rfl⟩ | ⟨-, rfl⟩
    · rw [Consent.written_scopes] at hs
      rw [hu, hk, hu₀, hk₀]
      rcases (mem_union.1 hs).2 with hs | hs
      · exact (hread.sourced s hs).mono hsub
      · exact .inr ⟨_, List.mem_append_right _ (List.mem_singleton_self _), rfl, rfl, hs⟩
    · exact (h.sourced c hc₀ hn s hs).mono hsub

/-- The grant inserts the first row of the pair. -/
theorem GrantInv.insertConsent (h : GrantInv start v) (hread : GrantRead start u k existing v)
    {scopes : List String} {id : Nat}
    (hpair : ∀ c ∈ v.1.consents, ¬ (c.userId = u ∧ c.clientId = k))
    (hid : ∀ c ∈ v.1.consents, c.id ≠ id) :
    GrantInv start (v.1.insertConsent u k id (union (seenScopes existing) scopes),
      v.2 ++ [⟨u, k, seenScopes existing, scopes⟩]) := by
  set m := union (seenScopes existing) scopes
  have hrows : ConsentRows (v.1.insertConsent u k id m) := h.rows.insertConsent hpair hid
  have hsub : v.2 ⊆ v.2 ++ [⟨u, k, seenScopes existing, scopes⟩] := List.subset_append_left _ _
  refine ⟨hrows, fun g hg => (consented_iff hrows).2 ?_, fun c hc hn s hs => ?_⟩
  · rcases List.mem_append.1 hg with hg | hg
    · obtain ⟨c, hc, hrest⟩ := (consented_iff h.rows).1 (h.covered g hg)
      exact ⟨c, List.mem_append_left _ hc, hrest⟩
    · rw [List.mem_singleton.1 hg]
      refine ⟨_, List.mem_append_right _ (List.mem_singleton_self _), ?_, ?_⟩
      · simp [Consent.activeFor]
      · rw [covers_iff]
        exact fun s hs => hs
  · rcases List.mem_append.1 hc with hc | hc
    · exact (h.sourced c hc hn s hs).mono hsub
    · rw [List.mem_singleton.1 hc] at hs ⊢
      rcases (mem_union.1 hs).2 with hs | hs
      · exact (hread.sourced s hs).mono hsub
      · exact .inr ⟨_, List.mem_append_right _ (List.mem_singleton_self _), rfl, rfl, hs⟩

theorem rely_writeConsent {m : List String} (hread : GrantRead start u k existing v)
    (g : Granted) : GrantRely v (v.1.writeConsent u k existing m, v.2 ++ [g]) := by
  refine ⟨fun c hc => ?_, fun c hc hs => ?_, List.subset_append_left _ _⟩
  · refine ⟨_, List.mem_map_of_mem hc, ?_⟩
    split_ifs <;> simp
  · obtain ⟨c₀, hc₀, -, hu, hk, hnew⟩ := mem_writeConsent hc
    rcases hnew with ⟨hu₀, hk₀, rfl⟩ | ⟨-, rfl⟩
    · have hact := hread.written hc₀ hu₀ hk₀ m v.1.now
      rw [(Consent.activeFor_iff.1 hact).2.2] at hs
      cases hs
    · exact ⟨c, hc₀, rfl, rfl, hs⟩

theorem rely_insertConsent {m : List String} {id : Nat} (g : Granted) :
    GrantRely v (v.1.insertConsent u k id m, v.2 ++ [g]) := by
  refine ⟨fun c hc => ⟨c, List.mem_append_left _ hc, rfl, rfl, rfl⟩, fun c hc hs => ?_,
    List.subset_append_left _ _⟩
  rcases List.mem_append.1 hc with hc | hc
  · exact ⟨c, hc, rfl, rfl, hs⟩
  · rw [List.mem_singleton.1 hc] at hs
    cases hs

/-- The write of a grant. -/
theorem GrantInv.grant (h : GrantInv start v) (hread : GrantRead start u k existing v)
    {scopes : List String} {id : Nat} {db : Db} (hkeep : ∀ c ∈ v.1.activeConsent u k,
      ∀ s ∈ c.scopes, s ∈ seenScopes existing ∨ s ∈ scopes)
    (hg : v.1.grant u k existing scopes id = .ok db) :
    GrantRely v (db, v.2 ++ [⟨u, k, seenScopes existing, scopes⟩]) ∧
      GrantInv start (db, v.2 ++ [⟨u, k, seenScopes existing, scopes⟩]) := by
  rcases grant_cases h.rows hread.row hg with ⟨hrow, rfl⟩ | ⟨hpair, hid, rfl⟩
  · exact ⟨rely_writeConsent hread _, h.writeConsent hread hkeep hrow⟩
  · exact ⟨rely_insertConsent _, h.insertConsent hread hpair hid⟩

end Law

/-- The law of the grants. -/
def grantLaw (p : Provider) (k : Signer) (start : Db) : Process.Law (grantSystem p k) where
  rely := GrantRely
  guar _ := GrantRely
  inv := GrantInv start
  cond := KeepsScopes
  refl := GrantRely.refl
  trans := GrantRely.trans
  guar_refl _ := GrantRely.refl
  rely_of_guar := id

section Programs

variable {p : Provider} {k : Signer} {start : Db} {j : GrantJob} {v : Db × List Granted}

/-- A statement that is not a grant keeps what the consents say. -/
theorem GrantInv.use {l : Stmt} {db' : Db} (h : GrantInv start v) (hs : UseStep p l v.1 db') :
    GrantRely v (db', v.2) ∧ GrantInv start (db', v.2) := by
  have hsame : db'.consents = v.1.consents → GrantRely v (db', v.2) ∧ GrantInv start (db', v.2) :=
    fun heq => h.map (f := id) (by simpa using heq) fun _ => ⟨rfl, rfl, rfl, rfl, rfl⟩
  obtain ⟨-, hs | hs⟩ := hs
  · exact hsame hs.consents
  · split at hs
    · obtain ⟨-, -, -, rfl⟩ := hs
      refine h.map rfl fun c => ?_
      split_ifs <;> exact ⟨rfl, rfl, rfl, rfl, rfl⟩
    · exact hsame (by rw [hs]; rfl)
    · obtain ⟨c, -, rfl⟩ := hs
      exact hsame rfl
    · exact hs.elim

theorem noteGrant_use {l : Stmt} (hl : l.uses = true) (db : Db) (log : List Granted) :
    noteGrant l db log = log := by
  cases l <;> first | rfl | cases hl

theorem grantSafe_use {α : Type} {q : OidcM α} (hq : q.Does (UseStep p)) :
    (grantLaw p k start).Safe j (fun _ _ => True) q v := by
  refine Process.Law.safe_of_does hq fun l db db' log hi _ hs => ?_
  have hkept := GrantInv.use (v := (db, log)) hi hs
  have hnote : (grantSystem p k).watch j l db log = log := noteGrant_use hs.1 db log
  rw [hnote]
  exact hkept

theorem GrantInv.read (h : GrantInv start v) (u c : Nat) :
    GrantRead start u c (v.1.consents.find? fun x => x.userId = u ∧ x.clientId = c) v := by
  cases hfind : v.1.consents.find? (fun x => x.userId = u ∧ x.clientId = c) with
  | none =>
    refine ⟨fun r hr => (by cases hr), fun x hx hu hk _ => ?_, fun s hs => (by cases hs)⟩
    have := List.find?_eq_none.1 hfind x hx
    simp [hu, hk] at this
  | some r =>
    have hmem := List.mem_of_find?_eq_some hfind
    have hpair : r.userId = u ∧ r.clientId = c := by simpa using List.find?_some hfind
    refine ⟨fun r' hr' => ?_, fun x hx hu hk hs => ?_, fun s hs => ?_⟩
    · cases hr'
      exact ⟨r, hmem, rfl, hpair⟩
    · rw [h.rows.eq_of_pair hx hmem (hu.trans hpair.1.symm) (hk.trans hpair.2.symm)] at hs
      simpa using hs
    · unfold seenScopes at hs
      simp only at hs
      split_ifs at hs with hsome
      · cases hs
      · have := h.sourced r hmem (by simpa using hsome) s hs
        rw [hpair.1, hpair.2] at this
        exact this

theorem grantSafe_grantConsent (u c : Nat) (scopes : List String) (id : Nat) :
    (grantLaw p k start).Safe j (fun _ _ => True) (grantConsent u c scopes id) v := by
  refine Process.Law.safe_bind (Process.Law.safe_query (fun _ _ => rfl) fun v₁ _ hi₁ _ => ?_)
  have hread := GrantInv.read hi₁ u c
  generalize v₁.1.consents.find? (fun x => x.userId = u ∧ x.clientId = c) = existing at hread ⊢
  refine Process.Law.safe_exec_seen fun v₂ h₂ hi₂ hkeep => ?_
  cases hg : v₂.1.grant u c existing scopes id with
  | error e =>
    have hafter : (grantSystem p k).after j (.grantConsent u c existing scopes id)
        (Prog.after fun db => do
          .ok (← db.grant u c existing scopes id, union (seenScopes existing) scopes)) v₂ = v₂ := by
      simp only [System.after, Prog.after, grantSystem, noteGrant, hg]
      rfl
    rw [hafter]
    exact ⟨GrantRely.refl v₂, hi₂, fun _ _ _ => trivial⟩
  | ok db =>
    have hafter : (grantSystem p k).after j (.grantConsent u c existing scopes id)
        (Prog.after fun db => do
          .ok (← db.grant u c existing scopes id, union (seenScopes existing) scopes)) v₂ =
        (db, v₂.2 ++ [⟨u, c, seenScopes existing, scopes⟩]) := by
      simp only [System.after, Prog.after, grantSystem, noteGrant, hg]
      rfl
    have hgrant := GrantInv.grant hi₂ (hread.mono h₂) hkeep hg
    rw [hafter]
    exact ⟨hgrant.1, hgrant.2, fun _ _ _ => trivial⟩

theorem grantLaw_keeps (p : Provider) (k : Signer) (start : Db) : (grantLaw p k start).Keeps where
  prog j v _ := by
    cases j with
    | grant u c scopes id =>
      exact Process.Law.safe_seq (grantSafe_grantConsent u c scopes id) fun _ _ _ => trivial
    | allow txn clientPk userId session selected consentId draw =>
      refine Process.Law.safe_seq (Process.Law.safe_seq (grantSafe_grantConsent _ _ _ _)
        fun _ _ _ => ?_) fun _ _ _ => trivial
      exact grantSafe_use (does_use (does_issueCode _ _ _ _ _ _))
    | advance txn clientPk userId session draw =>
      refine grantSafe_use (Prog.does_bind (Prog.does_bind (does_useQuery rfl _ _)
        fun consent => ?_) fun _ => Prog.does_pure _)
      exact Prog.does_ite (does_use (does_issueCode _ _ _ _ _ _)) (Prog.does_pure _)
    | exchange r =>
      exact grantSafe_use (Prog.does_bind (does_exchangeCode k r) fun _ => Prog.does_pure _)
    | userinfo token =>
      exact grantSafe_use (Prog.does_bind (does_findUsableToken token) fun _ => Prog.does_pure _)
  env d v hi := by
    have hi : GrantInv start v := hi
    exact hi.map (f := id) (by simp [grantSystem]) fun _ => ⟨rfl, rfl, rfl, rfl, rfl⟩

end Programs

/-! ## Runs -/

theorem GrantInv.kept {start : Db} {v : Db × List Granted} (h : GrantInv start v) :
    GrantsKept start v.1 v.2 := by
  refine ⟨h.covered, h.sourced, fun code _ g hg hu hk hcov => ?_⟩
  obtain ⟨c, hc, hact, hscopes⟩ := (consented_iff h.rows).1 (h.covered g hg)
  refine (consented_iff h.rows).2 ⟨c, hc, ?_, covers_trans hscopes hcov⟩
  rw [← hu, ← hk]
  exact hact

/-- No grant is lost in a run whose grants write what they have read or grant. -/
theorem grantsKept_run (p : Provider) (k : Signer) (db : Db) (hdb : ConsentRows db)
    (acts : List (Act GrantJob Nat))
    (hacts : Along (grantSystem p k).step (Meets KeepsScopes) (GrantPool.initial db) acts) :
    GrantsKept db (acts.foldl (grantSystem p k).step (GrantPool.initial db)).state
      (acts.foldl (grantSystem p k).step (GrantPool.initial db)).ghost := by
  have hinv : GrantInv db (db, []) := by
    refine ⟨hdb, fun g hg => absurd hg List.not_mem_nil, fun c hc hn s hs => ?_⟩
    exact .inl ⟨c, hc, Consent.activeFor_iff.2 ⟨rfl, rfl, hn⟩, hs⟩
  have hstart : (grantLaw p k db).PoolOk (GrantPool.initial db) :=
    ⟨hinv, fun t ht => absurd ht List.not_mem_nil⟩
  exact (Process.Law.poolOk_run (grantLaw_keeps p k db) hstart hacts).1.inv.kept

/-! ## Two consent pages -/

/-- A user without a consent, and two transactions of one client. -/
def grantDb : Db where
  now := 10
  clients := [raceClient]
  users := [7]
  sessions := [{ id := 3, sid := "s", authTime := 0, lastSeenAt := 0 }]
  sessionClients := []
  transactions := []
  codes := []
  tokens := []
  consents := []
  revoking := []
  xids := []

/-- Two grants to one client at the same time. -/
def grantJobs : List (Act GrantJob Nat) :=
  [.spawn (.grant 7 1 ["openid", "profile"] 41), .spawn (.grant 7 1 ["openid", "email"] 42)]

/-- Both calls read before one of them writes. -/
def lostActs : List (Act GrantJob Nat) :=
  grantJobs ++ [.step 0 true, .step 1 true, .step 0 true, .step 1 true]

theorem grant_lost : ConsentRows grantDb ∧
    (lostActs.foldl (grantSystem raceProvider raceSigner).step (GrantPool.initial grantDb)).ghost.map
      Granted.merged = [["openid", "profile"], ["openid", "email"]] ∧
    ¬ GrantsKept grantDb
      (lostActs.foldl (grantSystem raceProvider raceSigner).step (GrantPool.initial grantDb)).state
      (lostActs.foldl (grantSystem raceProvider raceSigner).step
        (GrantPool.initial grantDb)).ghost := by
  refine ⟨⟨by decide, by decide⟩, by decide +kernel, fun h => ?_⟩
  have hlost : ¬ ∀ g ∈ (lostActs.foldl (grantSystem raceProvider raceSigner).step
      (GrantPool.initial grantDb)).ghost,
      (lostActs.foldl (grantSystem raceProvider raceSigner).step
        (GrantPool.initial grantDb)).state.consented g.userId g.clientId g.merged = true := by
    decide +kernel
  exact hlost h.covered

/-- The second call reads after the first one has written. -/
def mergedActs : List (Act GrantJob Nat) :=
  grantJobs ++ [.step 0 true, .step 0 true, .step 1 true, .step 1 true]

theorem grantsKept_run_merged :
    (mergedActs.foldl (grantSystem raceProvider raceSigner).step
        (GrantPool.initial grantDb)).state.consents.map (·.scopes) =
      [["openid", "profile", "email"]] ∧
    GrantsKept grantDb
      (mergedActs.foldl (grantSystem raceProvider raceSigner).step (GrantPool.initial grantDb)).state
      (mergedActs.foldl (grantSystem raceProvider raceSigner).step
        (GrantPool.initial grantDb)).ghost :=
  ⟨by decide +kernel, grantsKept_run raceProvider raceSigner grantDb ⟨by decide, by decide⟩
    mergedActs (by decide +kernel)⟩

end FloatCtf.Oidc
