import FloatCtf.Process.Trace

/-!
# Transactions with locks and private writes

A transaction (`Work`) reads the committed state with its own writes, takes locks that it holds
until it ends, and keeps its writes to itself: a commit applies them at once, and a transaction
that fails leaves nothing behind.  A statement that needs a lock of another transaction waits.

`part k` is what belongs to the key `k` in the state: nobody changes it without the lock.  `Work.Safe`
is the weakest precondition of a transaction under this discipline, and `storeOk_run` the rule: the
committed state keeps each invariant that every commit keeps.
-/

namespace Process

variable {σ W K ε α β J A P : Type}

/-! ## Programs -/

/-- A transaction that returns an `α`, or raises an `ε` and is rolled back.  A statement takes locks,
and then writes and goes on; both depend on what it sees. -/
inductive Work (σ W K ε α : Type) : Type where
  | ret (a : α)
  | fail (e : ε)
  | stmt (locks : σ → List K) (writes : σ → List W) (next : σ → Work σ W K ε α)

namespace Work

/-- One transaction after the other; a failure ends both. -/
def bind : Work σ W K ε α → (α → Work σ W K ε β) → Work σ W K ε β
  | ret a, f => f a
  | fail e, _ => fail e
  | stmt locks writes next, f => stmt locks writes fun s => (next s).bind f

instance : Monad (Work σ W K ε) where
  pure := ret
  bind := bind

theorem bind_eq_bind (p : Work σ W K ε α) (f : α → Work σ W K ε β) : p >>= f = p.bind f := rfl

/-- Reads the state without a lock. -/
def look (f : σ → α) : Work σ W K ε α := stmt (fun _ => []) (fun _ => []) fun s => ret (f s)

/-- Takes a lock. -/
def lock (k : K) : Work σ W K ε Unit := stmt (fun _ => [k]) (fun _ => []) fun _ => ret ()

/-- A write that may be refused. -/
def write (locks : σ → List K) (f : σ → Except ε W) : Work σ W K ε Unit :=
  stmt locks (fun s => (f s).toOption.toList) fun s =>
    match f s with
    | .ok _ => ret ()
    | .error e => fail e

end Work

/-! ## Systems -/

/-- The transaction of each job, and what a written value does to the state. -/
structure WorkSystem (σ W K ε J A : Type) where
  prog : J → Work σ W K ε Unit
  apply : W → σ → σ
  /-- What is written outside the transactions, and the locks it needs. -/
  edit : A → σ → σ
  needs : A → List K

/-- A transaction under way, with its writes and its locks. -/
structure Working (σ W K ε J : Type) where
  job : J
  prog : Work σ W K ε Unit
  writes : List W
  locks : List K

/-- The committed state and the open transactions. -/
structure WorkStore (σ W K ε J : Type) where
  state : σ
  sessions : List (Working σ W K ε J)

/-- What can happen next: a transaction begins, the one at index `n` makes its next statement, it
commits, it fails or is rolled back, or something is written outside. -/
inductive WorkAct (J A : Type) where
  | begin (j : J)
  | step (n : Nat)
  | commit (n : Nat)
  | abort (n : Nat)
  | edit (a : A)

/-- A transaction other than the one at index `n` holds one of the locks. -/
def WorkStore.heldBeside [DecidableEq K] (w : WorkStore σ W K ε J) (n : Nat) (ks : List K) : Bool :=
  (w.sessions.eraseIdx n).any fun t => t.locks.any ks.contains

/-- An open transaction holds one of the locks. -/
def WorkStore.held [DecidableEq K] (w : WorkStore σ W K ε J) (ks : List K) : Bool :=
  w.sessions.any fun t => t.locks.any ks.contains

namespace WorkSystem

variable [DecidableEq K] (S : WorkSystem σ W K ε J A)

/-- The state as a transaction sees it. -/
def view (s : σ) (ws : List W) : σ := ws.foldl (fun s w => S.apply w s) s

/-- One step: a transaction begins, runs a statement or waits, commits its writes at once or drops
them, or the state is edited from outside. -/
def step (w : WorkStore σ W K ε J) : WorkAct J A → WorkStore σ W K ε J
  | .begin j => { w with sessions := w.sessions ++ [⟨j, S.prog j, [], []⟩] }
  | .step n =>
    match w.sessions[n]? with
    | some ⟨j, .stmt locks writes next, ws, ks⟩ =>
      let s := S.view w.state ws
      if w.heldBeside n (locks s) then w
      else { w with sessions := w.sessions.set n ⟨j, next s, ws ++ writes s, locks s ++ ks⟩ }
    | _ => w
  | .commit n =>
    match w.sessions[n]? with
    | some ⟨_, .ret _, ws, _⟩ =>
      { state := S.view w.state ws, sessions := w.sessions.eraseIdx n }
    | _ => w
  | .abort n => { w with sessions := w.sessions.eraseIdx n }
  | .edit a => if w.held (S.needs a) then w else { w with state := S.edit a w.state }

end WorkSystem

/-! ## Safe transactions -/

/-- `part` of the state belongs to a key, and `inv` holds of the committed state.  A transaction
commits only where `ends` allows it. -/
structure WorkLaw (σ W K J P : Type) where
  part : K → σ → P
  inv : σ → Prop
  ends : J → σ → List W → Prop

/-- What others may do to the state under some locks. -/
def WorkLaw.Beside (M : WorkLaw σ W K J P) (ks : List K) (s s' : σ) : Prop :=
  ∀ k ∈ ks, M.part k s' = M.part k s

/-- Whatever the others do between its statements, the transaction returns only with `Q`. -/
def Work.Safe [DecidableEq K] (S : WorkSystem σ W K ε J A) (M : WorkLaw σ W K J P)
    (Q : α → σ → List W → List K → Prop) : Work σ W K ε α → σ → List W → List K → Prop
  | .ret a, s, ws, ks => ∀ s', M.Beside ks s s' → M.inv s' → Q a s' ws ks
  | .fail _, _, _, _ => True
  | .stmt locks writes next, s, ws, ks => ∀ s', M.Beside ks s s' → M.inv s' →
      Work.Safe S M Q (next (S.view s' ws)) s' (ws ++ writes (S.view s' ws))
        (locks (S.view s' ws) ++ ks)

/-- The commit of a transaction keeps the invariant and what belongs to the keys it has not locked. -/
structure WorkLaw.Commits [DecidableEq K] (S : WorkSystem σ W K ε J A) (M : WorkLaw σ W K J P)
    (j : J) (s : σ) (ws : List W) (ks : List K) : Prop where
  ends : M.ends j s ws
  inv : M.inv (S.view s ws)
  frame : ∀ k, k ∉ ks → M.part k (S.view s ws) = M.part k s

theorem WorkLaw.Beside.trans {M : WorkLaw σ W K J P} {ks : List K} {s s' s'' : σ}
    (h : M.Beside ks s s') (h' : M.Beside ks s' s'') : M.Beside ks s s'' :=
  fun k hk => (h' k hk).trans (h k hk)

namespace Work

section Safe

variable [DecidableEq K] {S : WorkSystem σ W K ε J A} {M : WorkLaw σ W K J P} {s s' : σ}
  {ws : List W} {ks : List K}

theorem Safe.beside {Q : α → σ → List W → List K → Prop} {p : Work σ W K ε α}
    (h : p.Safe S M Q s ws ks) (hb : M.Beside ks s s') : p.Safe S M Q s' ws ks := by
  cases p with
  | ret a => exact fun s'' hb' => h s'' (hb.trans hb')
  | fail e => trivial
  | stmt locks writes next => exact fun s'' hb' => h s'' (hb.trans hb')

theorem safe_of_beside {Q : α → σ → List W → List K → Prop} {p : Work σ W K ε α}
    (h : ∀ s', M.Beside ks s s' → M.inv s' → p.Safe S M Q s' ws ks) : p.Safe S M Q s ws ks := by
  cases p with
  | ret a => exact fun s' hb hi => h s' hb hi s' (fun _ _ => rfl) hi
  | fail e => trivial
  | stmt locks writes next => exact fun s' hb hi => h s' hb hi s' (fun _ _ => rfl) hi

theorem safe_bind {Q : β → σ → List W → List K → Prop} {p : Work σ W K ε α}
    {f : α → Work σ W K ε β}
    (h : p.Safe S M (fun a s ws ks => (f a).Safe S M Q s ws ks) s ws ks) :
    (p >>= f).Safe S M Q s ws ks := by
  rw [bind_eq_bind]
  induction p generalizing s ws ks with
  | ret a => exact safe_of_beside h
  | fail e => trivial
  | stmt locks writes next ih => exact fun s' hb hi => ih _ (h s' hb hi)

theorem safe_pure {Q : α → σ → List W → List K → Prop} {a : α}
    (h : ∀ s', M.Beside ks s s' → M.inv s' → Q a s' ws ks) :
    (pure a : Work σ W K ε α).Safe S M Q s ws ks := h

theorem safe_look {Q : β → σ → List W → List K → Prop} {f : σ → α} {k : α → Work σ W K ε β}
    (h : ∀ s', M.Beside ks s s' → M.inv s' → (k (f (S.view s' ws))).Safe S M Q s' ws ks) :
    (look f >>= k).Safe S M Q s ws ks := by
  intro s' hb hi
  rw [List.append_nil]
  exact h s' hb hi

theorem safe_lock {Q : β → σ → List W → List K → Prop} {x : K} {k : Unit → Work σ W K ε β}
    (h : ∀ s', M.Beside ks s s' → M.inv s' → (k ()).Safe S M Q s' ws (x :: ks)) :
    (lock x >>= k).Safe S M Q s ws ks := by
  intro s' hb hi
  rw [List.append_nil]
  exact h s' hb hi

theorem safe_write {Q : β → σ → List W → List K → Prop} {locks : σ → List K}
    {f : σ → Except ε W} {k : Unit → Work σ W K ε β}
    (h : ∀ s' w, M.Beside ks s s' → M.inv s' → f (S.view s' ws) = .ok w →
      (k ()).Safe S M Q s' (ws ++ [w]) (locks (S.view s' ws) ++ ks)) :
    (write locks f >>= k).Safe S M Q s ws ks := by
  intro s' hb hi
  change ((match f (S.view s' ws) with
    | .ok _ => ret ()
    | .error e => fail e : Work σ W K ε Unit).bind k).Safe S M Q s'
      (ws ++ (f (S.view s' ws)).toOption.toList) (locks (S.view s' ws) ++ ks)
  cases hf : f (S.view s' ws) with
  | error e => trivial
  | ok w => exact h s' w hb hi hf

end Safe

end Work

/-! ## Runs -/

/-- Two transactions have no lock in common. -/
def Working.Apart (t t' : Working σ W K ε J) : Prop := ∀ k ∈ t.locks, k ∉ t'.locks

theorem Working.Apart.symm {t t' : Working σ W K ε J} (h : t.Apart t') : t'.Apart t :=
  fun k hk hk' => h k hk' hk

namespace WorkLaw

variable [DecidableEq K] {S : WorkSystem σ W K ε J A} {M : WorkLaw σ W K J P}

/-- The transactions and the edits keep the law. -/
structure Keeps (S : WorkSystem σ W K ε J A) (M : WorkLaw σ W K J P) : Prop where
  prog : ∀ j s, M.inv s → (S.prog j).Safe S M (fun _ => M.Commits S j) s [] []
  edit : ∀ a s, M.inv s → M.inv (S.edit a s) ∧
    ∀ k, k ∉ S.needs a → M.part k (S.edit a s) = M.part k s

/-- The invariant of a store: the law holds, open transactions have no lock in common, and each is
safe. -/
structure StoreOk (S : WorkSystem σ W K ε J A) (M : WorkLaw σ W K J P)
    (w : WorkStore σ W K ε J) : Prop where
  inv : M.inv w.state
  apart : w.sessions.Pairwise Working.Apart
  safe : ∀ t ∈ w.sessions,
    t.prog.Safe S M (fun _ => M.Commits S t.job) w.state t.writes t.locks

/-- The transaction that commits may do so. -/
def Fulfils (M : WorkLaw σ W K J P) (w : WorkStore σ W K ε J) : WorkAct J A → Prop
  | .commit n => ∀ t ∈ w.sessions[n]?, match t.prog with
    | .ret _ => M.ends t.job w.state t.writes
    | _ => True
  | _ => True

section Run

variable {w : WorkStore σ W K ε J} {n : Nat} {t : Working σ W K ε J}

/-- One element of a list is replaced. -/
theorem pairwise_set {R : α → α → Prop} (hsymm : ∀ {a b}, R a b → R b a) {l : List α} {x : α}
    (h : l.Pairwise R) (hx : ∀ a ∈ l.eraseIdx n, R x a) : (l.set n x).Pairwise R := by
  induction l generalizing n with
  | nil => exact h
  | cons a l ih =>
    rw [List.pairwise_cons] at h
    cases n with
    | zero => exact List.pairwise_cons.2 ⟨hx, h.2⟩
    | succ n =>
      rw [List.eraseIdx_cons_succ] at hx
      refine List.pairwise_cons.2 ⟨fun b hb => ?_, ih h.2 fun b hb => hx b (List.mem_cons_of_mem a hb)⟩
      rcases List.mem_or_eq_of_mem_set hb with hb | rfl
      · exact h.1 b hb
      · exact hsymm (hx a List.mem_cons_self)

theorem mem_set_cases {l : List α} {x a : α} (h : a ∈ l.set n x) : a = x ∨ a ∈ l.eraseIdx n := by
  obtain ⟨m, hm⟩ := List.mem_iff_getElem?.1 h
  rw [List.getElem?_set] at hm
  split at hm
  · split at hm
    · exact .inl (Option.some.inj hm).symm
    · cases hm
  · next hne => exact .inr (List.mem_eraseIdx_iff_getElem?.2 ⟨m, Ne.symm hne, hm⟩)

/-- The transactions other than the one at index `n` have no lock of its. -/
theorem StoreOk.apart_erase (h : StoreOk S M w) (hn : w.sessions[n]? = some t)
    {t' : Working σ W K ε J} (ht' : t' ∈ w.sessions.eraseIdx n) : t.Apart t' := by
  obtain ⟨m, hne, hm⟩ := List.mem_eraseIdx_iff_getElem?.1 ht'
  obtain ⟨hnlt, rfl⟩ := List.getElem?_eq_some_iff.1 hn
  obtain ⟨hmlt, rfl⟩ := List.getElem?_eq_some_iff.1 hm
  have hpair := List.pairwise_iff_getElem.1 h.apart
  rcases Nat.lt_or_gt_of_ne hne with hlt | hlt
  · exact Working.Apart.symm (hpair m n hmlt hnlt hlt)
  · exact hpair n m hnlt hmlt hlt

theorem StoreOk.begin (hM : Keeps S M) (h : StoreOk S M w) (j : J) :
    StoreOk S M (S.step w (.begin j)) := by
  refine ⟨h.inv, List.pairwise_append.2 ⟨h.apart, List.pairwise_singleton _ _, ?_⟩, fun t ht => ?_⟩
  · intro t _ t' ht'
    rw [List.mem_singleton.1 ht']
    exact fun _ _ hk => nomatch hk
  · rcases List.mem_append.1 ht with ht | ht
    · exact h.safe t ht
    · rw [List.mem_singleton.1 ht]
      exact hM.prog j w.state h.inv

theorem StoreOk.answer (h : StoreOk S M w) (n : Nat) : StoreOk S M (S.step w (.step n)) := by
  cases hn : w.sessions[n]? with
  | none => simpa only [WorkSystem.step, hn] using h
  | some t =>
    obtain ⟨j, p, ws, ks⟩ := t
    cases p with
    | ret a => simpa only [WorkSystem.step, hn] using h
    | fail e => simpa only [WorkSystem.step, hn] using h
    | stmt locks writes next =>
      simp only [WorkSystem.step, hn]
      split
      · exact h
      · next hfree =>
        have hsafe := h.safe _ (List.mem_of_getElem? hn) w.state (fun _ _ => rfl) h.inv
        -- The new locks are not those of another transaction.
        have hfree : ∀ t' ∈ w.sessions.eraseIdx n, ∀ k ∈ t'.locks,
            k ∉ locks (S.view w.state ws) := by
          simpa [WorkStore.heldBeside] using hfree
        refine ⟨h.inv, pairwise_set Working.Apart.symm h.apart fun t' ht' k hk hk' => ?_,
          fun t' ht' => ?_⟩
        · rcases List.mem_append.1 hk with hk | hk
          · exact hfree t' ht' k hk' hk
          · exact h.apart_erase hn ht' k hk hk'
        · rcases mem_set_cases ht' with rfl | ht'
          · exact hsafe
          · exact h.safe t' (List.mem_of_mem_eraseIdx ht')

theorem StoreOk.abort (h : StoreOk S M w) (n : Nat) : StoreOk S M (S.step w (.abort n)) :=
  ⟨h.inv, h.apart.sublist (List.eraseIdx_sublist _ n),
    fun t ht => h.safe t (List.mem_of_mem_eraseIdx ht)⟩

theorem StoreOk.edit (hM : Keeps S M) (h : StoreOk S M w) (a : A) :
    StoreOk S M (S.step w (.edit a)) := by
  simp only [WorkSystem.step]
  split
  · exact h
  · next hfree =>
    have hfree : ∀ t ∈ w.sessions, ∀ k ∈ t.locks, k ∉ S.needs a := by
      simpa [WorkStore.held] using hfree
    obtain ⟨hinv, hpart⟩ := hM.edit a w.state h.inv
    exact ⟨hinv, h.apart, fun t ht => (h.safe t ht).beside fun k hk => hpart k (hfree t ht k hk)⟩

/-- A commit, and what it says of its job. -/
theorem StoreOk.commit (h : StoreOk S M w) (n : Nat) :
    StoreOk S M (S.step w (.commit n)) ∧ M.Fulfils w (.commit n : WorkAct J A) := by
  cases hn : w.sessions[n]? with
  | none =>
    simp only [WorkSystem.step, Fulfils, hn]
    exact ⟨h, fun t ht => nomatch ht⟩
  | some t =>
    obtain ⟨j, p, ws, ks⟩ := t
    have hone : ∀ {t' : Working σ W K ε J}, t' ∈ (some ⟨j, p, ws, ks⟩ : Option _) →
        t' = ⟨j, p, ws, ks⟩ := fun ht => (Option.some.inj ht).symm
    cases p with
    | ret a =>
      have hend := h.safe _ (List.mem_of_getElem? hn) w.state (fun _ _ => rfl) h.inv
      simp only [WorkSystem.step, Fulfils, hn]
      refine ⟨⟨hend.inv, h.apart.sublist (List.eraseIdx_sublist _ n), fun t' ht' => ?_⟩, ?_⟩
      · refine (h.safe t' (List.mem_of_mem_eraseIdx ht')).beside fun k hk => hend.frame k fun hk' => ?_
        exact h.apart_erase hn ht' k hk' hk
      · intro t' ht'
        rw [hone ht']
        exact hend.ends
    | fail e =>
      simp only [WorkSystem.step, Fulfils, hn]
      exact ⟨h, fun t' ht' => by rw [hone ht']; trivial⟩
    | stmt locks writes next =>
      simp only [WorkSystem.step, Fulfils, hn]
      exact ⟨h, fun t' ht' => by rw [hone ht']; trivial⟩

theorem storeOk_step (hM : Keeps S M) (h : StoreOk S M w) (a : WorkAct J A) :
    StoreOk S M (S.step w a) ∧ M.Fulfils w a := by
  cases a with
  | begin j => exact ⟨h.begin hM j, trivial⟩
  | step n => exact ⟨h.answer n, trivial⟩
  | commit n => exact h.commit n
  | abort n => exact ⟨h.abort n, trivial⟩
  | edit a => exact ⟨h.edit hM a, trivial⟩

/-- Every run, from a state without transactions. -/
theorem storeOk_run (hM : Keeps S M) {s : σ} (h : M.inv s) (acts : List (WorkAct J A)) :
    StoreOk S M (acts.foldl S.step ⟨s, []⟩) ∧ Along S.step M.Fulfils ⟨s, []⟩ acts := by
  have hstart : StoreOk S M ⟨s, []⟩ := ⟨h, List.Pairwise.nil, fun t ht => nomatch ht⟩
  exact run_of_along (StoreOk S M) (C := fun _ _ => True)
    (fun w a h _ => storeOk_step hM h a) hstart (along_of_forall (fun _ _ => trivial) _ _)

/-- Only a commit and what is written outside change the state. -/
theorem state_step (S : WorkSystem σ W K ε J A) (w : WorkStore σ W K ε J) {a : WorkAct J A}
    (hedit : ∀ e, a ≠ .edit e)
    (hcommit : ∀ n t x, a = .commit n → w.sessions[n]? = some t → t.prog ≠ .ret x) :
    (S.step w a).state = w.state := by
  cases a with
  | begin j => rfl
  | step n =>
    simp only [WorkSystem.step]
    split
    · split <;> rfl
    · rfl
  | commit n =>
    simp only [WorkSystem.step]
    split
    · next hn => exact absurd rfl (hcommit n _ _ rfl hn)
    · rfl
  | abort n => rfl
  | edit e => exact absurd rfl (hedit e)

end Run

end WorkLaw

end Process
