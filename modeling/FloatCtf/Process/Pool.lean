import FloatCtf.Process.Prog
import FloatCtf.Process.Trace

/-!
# Programs that run side by side

A `System` says which program a job runs and what the environment can do to the shared state, and
its pool interleaves the programs of any number of jobs statement by statement: a statement is
answered or fails, the environment acts in between, and a crash ends every program where it stands.
An observer keeps a ghost state of the statements it sees.

`Law` is what is to be shown of a system, in rely and guarantee form, and `Safe` is the weakest
precondition of a program under a law: whatever the other programs have done since the last
statement, the next one keeps the law.  The rules for `Safe` follow the combinators of `Prog`, and
`poolOk_step` puts the programs together.
-/

namespace Process

variable {L σ ε γ J E α β : Type}

/-! ## Systems and pools -/

/-- Jobs and their programs, the acts of the environment, and what the ghost state learns of a
statement. -/
structure System (L σ ε γ J E : Type) where
  prog : J → Prog L σ ε Unit
  env : E → σ → σ
  watch : J → L → σ → γ → γ

/-- What can happen next: a job arrives, the program at index `i` makes its next statement, which is
answered or fails, the environment acts, or the process crashes. -/
inductive Act (J E : Type) where
  | spawn (j : J)
  | step (i : Nat) (answered : Bool)
  | env (e : E)
  | crash

/-- The shared state, the ghost state, and the threads with what is left of their programs. -/
structure Pool (L σ ε γ J : Type) where
  state : σ
  ghost : γ
  threads : List (J × Prog L σ ε Unit)

/-- The shared state together with the ghost state. -/
def Pool.view (w : Pool L σ ε γ J) : σ × γ := (w.state, w.ghost)

/-- The program has a statement left. -/
def Prog.live : Prog L σ ε α → Bool
  | .stmt _ _ _ _ => true
  | _ => false

/-- The statement that the program at index `i` makes next, with its job. -/
def Pool.next (w : Pool L σ ε γ J) (i : Nat) : Option (J × L) :=
  match w.threads[i]? with
  | some (j, .stmt l _ _ _) => some (j, l)
  | _ => none

theorem Pool.mem_next {w : Pool L σ ε γ J} {i : Nat} {j : J} {l : L} {u : σ → σ}
    {ok err : σ → Prog L σ ε Unit} (hi : w.threads[i]? = some (j, .stmt l u ok err)) :
    (j, l) ∈ w.next i := by
  simp [Pool.next, hi]

/-- One step: a job begins, a thread runs a statement that is answered or fails, or the environment
acts. -/
def System.step (S : System L σ ε γ J E) (w : Pool L σ ε γ J) : Act J E → Pool L σ ε γ J
  | .spawn j => { w with threads := w.threads ++ [(j, S.prog j)] }
  | .step i answered =>
    match w.threads[i]? with
    | some (j, .stmt l u ok err) =>
      if answered then
        { state := u w.state, ghost := S.watch j l w.state w.ghost
          threads := w.threads.set i (j, ok w.state) }
      else { w with threads := w.threads.set i (j, err w.state) }
    | _ => w
  | .env e => { w with state := S.env e w.state }
  | .crash => { w with threads := [] }

/-- The statement that the action makes, if it makes one, meets `C`. -/
def Meets (C : J → L → σ × γ → Prop) (w : Pool L σ ε γ J) : Act J E → Prop
  | .step i true => ∀ s ∈ w.next i, C s.1 s.2 w.view
  | _ => True

instance (C : J → L → σ × γ → Prop) [∀ j l v, Decidable (C j l v)] (w : Pool L σ ε γ J)
    (a : Act J E) : Decidable (Meets C w a) :=
  match a with
  | .step i true => inferInstanceAs (Decidable (∀ s ∈ w.next i, C s.1 s.2 w.view))
  | .step _ false | .spawn _ | .env _ | .crash => inferInstanceAs (Decidable True)

theorem Meets.imp {C C' : J → L → σ × γ → Prop} {w : Pool L σ ε γ J} {a : Act J E}
    (h : Meets C w a) (hC : ∀ j l v, C j l v → C' j l v) : Meets C' w a := by
  unfold Meets at h ⊢
  split
  · exact fun s hs => hC s.1 s.2 w.view (h s hs)
  · trivial

/-! ## Laws -/

/-- Every statement that meets `cond` keeps `inv` and moves the view along the guarantee `guar` of
its job, and a job relies on the others to move it along `rely`. -/
structure Law (S : System L σ ε γ J E) where
  rely : σ × γ → σ × γ → Prop
  guar : J → σ × γ → σ × γ → Prop
  inv : σ × γ → Prop
  cond : J → L → σ × γ → Prop
  refl : ∀ v, rely v v
  trans : ∀ {a b c}, rely a b → rely b c → rely a c
  guar_refl : ∀ j v, guar j v v
  rely_of_guar : ∀ {j v v'}, guar j v v' → rely v v'

variable {S : System L σ ε γ J E}

/-- The view after the statement. -/
def System.after (S : System L σ ε γ J E) (j : J) (l : L) (u : σ → σ) (v : σ × γ) : σ × γ :=
  (u v.1, S.watch j l v.1 v.2)

/-- The observer does not look at the statement. -/
def System.Unseen (S : System L σ ε γ J E) (j : J) (l : L) : Prop :=
  ∀ s g, S.watch j l s g = g

/-- A statement of the program at index `i`, answered or not, moves the view along `G`. -/
def System.Moves (S : System L σ ε γ J E) (G : J → σ × γ → σ × γ → Prop)
    (w : Pool L σ ε γ J) (a : Act J E) : Prop :=
  match a with
  | .step i _ => ∀ t ∈ w.threads[i]?, G t.1 w.view (S.step w a).view
  | _ => True

/-- Whatever happens between its statements, the program keeps the law, and it returns only with
`Q`. -/
def Law.Safe (M : Law S) (j : J) (Q : α → σ × γ → Prop) : Prog L σ ε α → σ × γ → Prop
  | .ret a, v => Q a v
  | .fail _, _ => True
  | .stmt l u ok err, v => ∀ v', M.rely v v' → M.inv v' →
      (M.cond j l v' → M.guar j v' (S.after j l u v') ∧ M.inv (S.after j l u v') ∧
        M.Safe j Q (ok v'.1) (S.after j l u v')) ∧
      M.Safe j Q (err v'.1) v'

namespace Law

variable {M : Law S} {j : J} {Q Q' : α → σ × γ → Prop} {v : σ × γ}

theorem safe_pure {a : α} (h : Q a v) : M.Safe j Q (pure a : Prog L σ ε α) v := h

theorem safe_of_not_live {p : Prog L σ ε α} (h : p.live = false) :
    M.Safe j (fun _ _ => True) p v := by
  cases p with
  | ret a => trivial
  | fail e => trivial
  | stmt l u ok err => cases h

/-- The other programs do not disturb a program, nor what it will have reached. -/
theorem Safe.mono (hQ : ∀ a v v', Q a v → M.rely v v' → Q a v') {p : Prog L σ ε α}
    (h : M.Safe j Q p v) {v' : σ × γ} (hv : M.rely v v') : M.Safe j Q p v' := by
  cases p with
  | ret a => exact hQ a v v' h hv
  | fail e => trivial
  | stmt l u ok err => exact fun v'' h' => h v'' (M.trans hv h')

theorem Safe.imp (hQ : ∀ a v, Q a v → Q' a v) {p : Prog L σ ε α} (h : M.Safe j Q p v) :
    M.Safe j Q' p v := by
  induction p generalizing v with
  | ret a => exact hQ a v h
  | fail e => trivial
  | stmt l u ok err ihok iherr =>
    refine fun v' hv hi => ⟨fun hc => ?_, iherr _ (h v' hv hi).2⟩
    obtain ⟨hg, hi', hs⟩ := (h v' hv hi).1 hc
    exact ⟨hg, hi', ihok _ hs⟩

/-- A program ends where the law lets it get from where it started. -/
theorem Safe.and_rely {p : Prog L σ ε α} (h : M.Safe j Q p v) :
    M.Safe j (fun a v' => Q a v' ∧ M.rely v v') p v := by
  have key (v₀ : σ × γ) (p : Prog L σ ε α) : ∀ v, M.rely v₀ v → M.Safe j Q p v →
      M.Safe j (fun a v' => Q a v' ∧ M.rely v₀ v') p v := by
    induction p with
    | ret a => exact fun v hv h => ⟨h, hv⟩
    | fail e => exact fun _ _ _ => trivial
    | stmt l u ok err ihok iherr =>
      refine fun v hv h v' hv' hi => ⟨fun hc => ?_, iherr _ v' (M.trans hv hv') (h v' hv' hi).2⟩
      obtain ⟨hg, hi', hs⟩ := (h v' hv' hi).1 hc
      exact ⟨hg, hi', ihok _ _ (M.trans (M.trans hv hv') (M.rely_of_guar hg)) hs⟩
  exact key v p v (M.refl v) h

theorem safe_bind {p : Prog L σ ε α} {f : α → Prog L σ ε β} {Q : β → σ × γ → Prop}
    (h : M.Safe j (fun a v => M.Safe j Q (f a) v) p v) : M.Safe j Q (p >>= f) v := by
  rw [Prog.bind_eq_bind]
  induction p generalizing v with
  | ret a => exact h
  | fail e => trivial
  | stmt l u ok err ihok iherr =>
    refine fun v' hv hi => ⟨fun hc => ?_, iherr _ (h v' hv hi).2⟩
    obtain ⟨hg, hi', hs⟩ := (h v' hv hi).1 hc
    exact ⟨hg, hi', ihok _ hs⟩

/-- A caller that takes the outcome of `p` goes on where `p` returned, or wherever it failed. -/
theorem safe_attempt {Q : Except ε α → σ × γ → Prop} {p : Prog L σ ε α}
    (h : M.Safe j (fun a v => Q (.ok a) v) p v) (he : ∀ e v', M.rely v v' → Q (.error e) v') :
    M.Safe j Q p.attempt v := by
  induction p generalizing v with
  | ret a => exact h
  | fail e => exact he e v (M.refl v)
  | stmt l u ok err ihok iherr =>
    refine fun v' hv hi => ⟨fun hc => ?_, ?_⟩
    · obtain ⟨hg, hi', hs⟩ := (h v' hv hi).1 hc
      have hr := M.trans hv (M.rely_of_guar hg)
      exact ⟨hg, hi', ihok _ hs fun e v'' h'' => he e v'' (M.trans hr h'')⟩
    · exact iherr _ (h v' hv hi).2 fun e v'' h'' => he e v'' (M.trans hv h'')

/-- A program that is safe wherever it returns, and then another one. -/
theorem safe_seq {p : Prog L σ ε α} {f : α → Prog L σ ε β} {Q : β → σ × γ → Prop}
    (hp : M.Safe j (fun _ _ => True) p v) (hf : ∀ a v', M.rely v v' → M.Safe j Q (f a) v') :
    M.Safe j Q (p >>= f) v := safe_bind (hp.and_rely.imp fun a v' h => hf a v' h.2)

theorem safe_tried {p : Prog L σ ε α} (hp : M.Safe j (fun _ _ => True) p v) :
    M.Safe j (fun _ _ => True) p.attempt v := safe_attempt hp fun _ _ _ => trivial

theorem safe_ite {c : Prop} [Decidable c] {p q : Prog L σ ε α} (hp : c → M.Safe j Q p v)
    (hq : ¬ c → M.Safe j Q q v) : M.Safe j Q (if c then p else q) v := by
  split_ifs with h
  · exact hp h
  · exact hq h

theorem safe_read {l : L} (hl : S.Unseen j l) {f : σ → α} {err : σ → Prog L σ ε α}
    (h : ∀ v', M.rely v v' → M.inv v' → M.cond j l v' → Q (f v'.1) v')
    (he : ∀ v', M.rely v v' → M.inv v' → M.Safe j Q (err v'.1) v') :
    M.Safe j Q (.stmt l id (fun s => .ret (f s)) err) v := by
  refine fun v' hv hi => ⟨fun hc => ?_, he v' hv hi⟩
  have hsame : S.after j l id v' = v' := by simp [System.after, hl v'.1 v'.2]
  rw [hsame]
  exact ⟨M.guar_refl j v', hi, h v' hv hi hc⟩

theorem safe_query {l : L} (hl : S.Unseen j l) {e : ε} {f : σ → α}
    (h : ∀ v', M.rely v v' → M.inv v' → M.cond j l v' → Q (f v'.1) v') :
    M.Safe j Q (Prog.query l e f) v := safe_read hl h fun _ _ _ => trivial

theorem safe_look {l : L} (hl : S.Unseen j l) {f : σ → α}
    (h : ∀ v', M.rely v v' → M.inv v' → Q (f v'.1) v') :
    M.Safe j Q (Prog.look l f : Prog L σ ε α) v :=
  safe_read hl (fun v' hv hi _ => h v' hv hi) h

/-- A guarded write: the law is kept where it acts, and nothing happens where it refuses. -/
theorem safe_exec {l : L} (hl : S.Unseen j l) {e : ε} {f : σ → Except ε (σ × α)}
    (h : ∀ v', M.rely v v' → M.inv v' → M.cond j l v' → ∀ s a, f v'.1 = .ok (s, a) →
      M.guar j v' (s, v'.2) ∧ M.inv (s, v'.2) ∧ Q a (s, v'.2)) :
    M.Safe j Q (Prog.exec l e f) v := by
  refine fun v' hv hi => ⟨fun hc => ?_, trivial⟩
  simp only [System.after, hl v'.1 v'.2, Prog.after, Prog.answer]
  split
  · exact h v' hv hi hc _ _ ‹_›
  · exact ⟨M.guar_refl j v', hi, trivial⟩

/-- A guarded write that the observer sees. -/
theorem safe_exec_seen {l : L} {e : ε} {f : σ → Except ε (σ × α)}
    (h : ∀ v', M.rely v v' → M.inv v' → M.cond j l v' →
      M.guar j v' (S.after j l (Prog.after f) v') ∧ M.inv (S.after j l (Prog.after f) v') ∧
      ∀ s a, f v'.1 = .ok (s, a) → Q a (S.after j l (Prog.after f) v')) :
    M.Safe j Q (Prog.exec l e f) v := by
  refine fun v' hv hi => ⟨fun hc => ?_, trivial⟩
  obtain ⟨hg, hi', hq⟩ := h v' hv hi hc
  refine ⟨hg, hi', ?_⟩
  unfold Prog.answer
  split
  · exact hq _ _ ‹_›
  · trivial

/-- A guarded write that the observer sees where it acts. -/
theorem safe_exec_noted {l : L} {e : ε} {f : σ → Except ε (σ × α)}
    (hno : ∀ (v' : σ × γ) e', f v'.1 = .error e' → S.watch j l v'.1 v'.2 = v'.2)
    (h : ∀ v', M.rely v v' → M.inv v' → M.cond j l v' → ∀ s a, f v'.1 = .ok (s, a) →
      M.guar j v' (s, S.watch j l v'.1 v'.2) ∧ M.inv (s, S.watch j l v'.1 v'.2) ∧
      Q a (s, S.watch j l v'.1 v'.2)) :
    M.Safe j Q (Prog.exec l e f) v := by
  refine fun v' hv hi => ⟨fun hc => ?_, trivial⟩
  simp only [System.after, Prog.after, Prog.answer]
  split
  · exact h v' hv hi hc _ _ ‹_›
  · rename_i e' herr
    rw [hno v' e' herr]
    exact ⟨M.guar_refl j v', hi, trivial⟩

/-- A read that the observer sees. -/
theorem safe_query_seen {l : L} {e : ε} {f : σ → α}
    (h : ∀ v', M.rely v v' → M.inv v' → M.cond j l v' →
      M.guar j v' (S.after j l id v') ∧ M.inv (S.after j l id v') ∧
      Q (f v'.1) (S.after j l id v')) :
    M.Safe j Q (Prog.query l e f) v := fun v' hv hi => ⟨h v' hv hi, trivial⟩

/-- A loop keeps what each of its turns keeps. -/
theorem safe_each {ι : Type} {f : ι → Prog L σ ε Unit} {P : σ × γ → Prop} {is : List ι}
    (hf : ∀ i ∈ is, ∀ v, P v → M.Safe j (fun _ v' => P v') (f i) v) (hv : P v) :
    M.Safe j (fun _ v' => P v') (Prog.each is f) v := by
  induction is generalizing v with
  | nil => exact hv
  | cons i is ih =>
    rw [Prog.each, ← Prog.bind_eq_bind]
    refine safe_bind ((hf i List.mem_cons_self v hv).imp fun _ v' hv' => ?_)
    exact ih (fun i' hi' => hf i' (List.mem_cons_of_mem i hi')) hv'

/-- A program whose statements do nothing but what the law allows. -/
theorem safe_of_does {T : L → σ → σ → Prop} {p : Prog L σ ε α} (hp : p.Does T)
    (hT : ∀ l s s' g, M.inv (s, g) → M.cond j l (s, g) → T l s s' →
      M.guar j (s, g) (s', S.watch j l s g) ∧ M.inv (s', S.watch j l s g)) :
    M.Safe j (fun _ _ => True) p v := by
  induction p generalizing v with
  | ret a => trivial
  | fail e => trivial
  | stmt l u ok err ihok iherr =>
    rintro ⟨s, g⟩ - hi
    obtain ⟨ht, hok, herr⟩ := hp s
    refine ⟨fun hc => ?_, iherr s herr⟩
    obtain ⟨hg, hi'⟩ := hT l s _ g hi hc ht
    exact ⟨hg, hi', ihok s hok⟩

/-! ## Runs -/

/-- The law holds of the view, and every program of the pool will keep it. -/
structure PoolOk (M : Law S) (w : Pool L σ ε γ J) : Prop where
  inv : M.inv w.view
  safe : ∀ t ∈ w.threads, M.Safe t.1 (fun _ _ => True) t.2 w.view

/-- The jobs and the environment keep the law. -/
structure Keeps (M : Law S) : Prop where
  prog : ∀ j v, M.inv v → M.Safe j (fun _ _ => True) (S.prog j) v
  env : ∀ e v, M.inv v → M.rely v (S.env e v.1, v.2) ∧ M.inv (S.env e v.1, v.2)

theorem PoolOk.of_view {w w' : Pool L σ ε γ J} (h : M.PoolOk w) (hr : M.rely w.view w'.view)
    (hi : M.inv w'.view)
    (ht : ∀ t ∈ w'.threads, t ∈ w.threads ∨ M.Safe t.1 (fun _ _ => True) t.2 w'.view) :
    M.PoolOk w' := by
  refine ⟨hi, fun t hmem => ?_⟩
  rcases ht t hmem with hold | hnew
  · exact (h.safe t hold).mono (fun _ _ _ _ _ => trivial) hr
  · exact hnew

/-- What one action leaves behind. -/
structure StepOk (M : Law S) (w : Pool L σ ε γ J) (a : Act J E) : Prop where
  poolOk : M.PoolOk (S.step w a)
  rely : M.rely w.view (S.step w a).view
  moves : S.Moves M.guar w a

theorem StepOk.of_eq {w : Pool L σ ε γ J} (h : M.PoolOk w) {a : Act J E} (hs : S.step w a = w) :
    M.StepOk w a := by
  refine ⟨hs.symm ▸ h, hs.symm ▸ M.refl _, ?_⟩
  unfold System.Moves
  split
  · rw [hs]
    exact fun t _ => M.guar_refl t.1 _
  · trivial

/-- The program at index `i` goes on as `q`, in a view that its job may have moved. -/
theorem StepOk.of_set {w : Pool L σ ε γ J} (h : M.PoolOk w) {i : Nat} {answered : Bool} {j : J}
    {p q : Prog L σ ε Unit} (hi : w.threads[i]? = some (j, p))
    (ht : (S.step w (.step i answered)).threads = w.threads.set i (j, q))
    (hg : M.guar j w.view (S.step w (.step i answered)).view)
    (hinv : M.inv (S.step w (.step i answered)).view)
    (hs : M.Safe j (fun _ _ => True) q (S.step w (.step i answered)).view) :
    M.StepOk w (.step i answered) := by
  refine ⟨h.of_view (M.rely_of_guar hg) hinv fun t hmem => ?_, M.rely_of_guar hg, fun t hmem => ?_⟩
  · rw [ht] at hmem
    rcases List.mem_or_eq_of_mem_set hmem with hold | rfl
    · exact .inl hold
    · exact .inr hs
  · rw [hi] at hmem
    cases hmem
    exact hg

/-- One action under the condition of the law. -/
theorem poolOk_step (hM : M.Keeps) {w : Pool L σ ε γ J} (h : M.PoolOk w) {a : Act J E}
    (ha : Meets M.cond w a) : M.StepOk w a := by
  cases a with
  | spawn j =>
    refine ⟨h.of_view (M.refl _) h.inv fun t ht => ?_, M.refl _, trivial⟩
    rcases List.mem_append.1 ht with ht | ht
    · exact .inl ht
    · rw [List.mem_singleton.1 ht]
      exact .inr (hM.prog j _ h.inv)
  | env e =>
    obtain ⟨hr, hi⟩ := hM.env e w.view h.inv
    exact ⟨h.of_view hr hi fun t ht => .inl ht, hr, trivial⟩
  | crash => exact ⟨⟨h.inv, fun t ht => absurd ht List.not_mem_nil⟩, M.refl _, trivial⟩
  | step i answered =>
    cases hi : w.threads[i]? with
    | none => exact .of_eq h (by simp only [System.step, hi])
    | some t =>
      obtain ⟨j, p⟩ := t
      cases p with
      | ret a => exact .of_eq h (by simp only [System.step, hi])
      | fail e => exact .of_eq h (by simp only [System.step, hi])
      | stmt l u ok err =>
        have hsafe := h.safe _ (List.mem_of_getElem? hi) w.view (M.refl _) h.inv
        cases answered with
        | true =>
          obtain ⟨hg, hinv, hs⟩ := hsafe.1 (ha (j, l) (Pool.mem_next hi))
          have hview : (S.step w (.step i true)).view = S.after j l u w.view := by
            simp only [System.step, hi, ↓reduceIte, Pool.view, System.after]
          have ht : (S.step w (.step i true)).threads = w.threads.set i (j, ok w.state) := by
            simp only [System.step, hi, ↓reduceIte]
          exact .of_set h hi ht (hview ▸ hg) (hview ▸ hinv) (hview ▸ hs)
        | false =>
          have hview : (S.step w (.step i false)).view = w.view := by
            simp only [System.step, hi, Bool.false_eq_true, ↓reduceIte, Pool.view]
          have ht : (S.step w (.step i false)).threads = w.threads.set i (j, err w.state) := by
            simp only [System.step, hi, Bool.false_eq_true, ↓reduceIte]
          exact .of_set h hi ht (hview ▸ M.guar_refl j _) (hview ▸ h.inv) (hview ▸ hsafe.2)

/-- A run under the condition of the law: the invariant at its end, and what every action did. -/
theorem poolOk_run (hM : M.Keeps) {w : Pool L σ ε γ J} (h : M.PoolOk w) {acts : List (Act J E)}
    (ha : Along S.step (Meets M.cond) w acts) :
    M.PoolOk (acts.foldl S.step w) ∧ M.rely w.view (acts.foldl S.step w).view ∧
      Along S.step (S.Moves M.guar) w acts := by
  induction acts generalizing w with
  | nil => exact ⟨h, M.refl _, trivial⟩
  | cons a acts ih =>
    have h1 := poolOk_step hM h ha.1
    obtain ⟨h2, hr, hg⟩ := ih h1.poolOk ha.2
    exact ⟨h2, M.trans h1.rely hr, h1.moves, hg⟩

end Law

end Process
