import FloatCtf.Process.Pool

/-!
# Statements that are followed by another one

`Prog.Follows F` says of a program that a statement for which `F` names a label, in the state the
statement found, is followed by a statement with that label: the program does nothing else before.
`follows_next` carries this to pools: whatever the others do in between, that statement is the next
one of the same program.
-/

namespace Process

variable {L σ ε γ J E α β : Type}

namespace Prog

/-- The label of the next statement. -/
def head : Prog L σ ε α → Option L
  | stmt l _ _ _ => some l
  | _ => none

/-- A statement for which `F` names a label is followed by a statement with that label. -/
def Follows (F : L → σ → Option L) : Prog L σ ε α → Prop
  | ret _ => True
  | fail _ => True
  | stmt l _ ok err => ∀ s, (∀ l', F l s = some l' → (ok s).head = some l') ∧
      (ok s).Follows F ∧ (err s).Follows F

variable {F : L → σ → Option L}

theorem head_bind {p : Prog L σ ε α} {l : L} (h : p.head = some l) (f : α → Prog L σ ε β) :
    (p >>= f).head = some l := by
  cases p with
  | ret a => cases h
  | fail e => cases h
  | stmt l' u ok err => exact h

theorem head_attempt {p : Prog L σ ε α} {l : L} (h : p.head = some l) :
    p.attempt.head = some l := by
  cases p with
  | ret a => cases h
  | fail e => cases h
  | stmt l' u ok err => exact h

theorem follows_pure (a : α) : (pure a : Prog L σ ε α).Follows F := trivial

/-- A statement for which `F` names no label. -/
theorem follows_silent {l : L} {u : σ → σ} {ok err : σ → Prog L σ ε α} (hl : ∀ s, F l s = none)
    (hok : ∀ s, (ok s).Follows F) (herr : ∀ s, (err s).Follows F) :
    (stmt l u ok err).Follows F := by
  intro s
  refine ⟨fun l' h => ?_, hok s, herr s⟩
  rw [hl s] at h
  cases h

theorem follows_bind {p : Prog L σ ε α} {f : α → Prog L σ ε β} (hp : p.Follows F)
    (hf : ∀ a, (f a).Follows F) : (p >>= f).Follows F := by
  rw [bind_eq_bind]
  induction p with
  | ret a => exact hf a
  | fail e => trivial
  | stmt l u ok err ihok iherr =>
    intro s
    obtain ⟨hhead, hok, herr⟩ := hp s
    exact ⟨fun l' h => head_bind (hhead l' h) f, ihok s hok, iherr s herr⟩

theorem follows_attempt {p : Prog L σ ε α} (hp : p.Follows F) : p.attempt.Follows F := by
  induction p with
  | ret a => trivial
  | fail e => trivial
  | stmt l u ok err ihok iherr =>
    intro s
    obtain ⟨hhead, hok, herr⟩ := hp s
    exact ⟨fun l' h => head_attempt (hhead l' h), ihok s hok, iherr s herr⟩

theorem follows_query {l : L} (hl : ∀ s, F l s = none) (e : ε) (f : σ → α) :
    (query l e f).Follows F := follows_silent hl (fun _ => trivial) fun _ => trivial

theorem follows_look {l : L} (hl : ∀ s, F l s = none) (f : σ → α) :
    (look l f : Prog L σ ε α).Follows F := follows_silent hl (fun _ => trivial) fun _ => trivial

theorem follows_exec {l : L} (hl : ∀ s, F l s = none) (e : ε) (f : σ → Except ε (σ × α)) :
    (exec l e f).Follows F := by
  refine follows_silent hl (fun s => ?_) fun _ => trivial
  unfold answer
  split <;> trivial

/-- A read whose answer says what follows. -/
theorem follows_query_bind {l : L} {e : ε} {f : σ → α} {q : α → Prog L σ ε β}
    (hq : ∀ s l', F l s = some l' → (q (f s)).head = some l') (hf : ∀ a, (q a).Follows F) :
    (query l e f >>= q).Follows F := fun s => ⟨hq s, hf (f s), trivial⟩

/-- A write whose answer says what follows. -/
theorem follows_exec_bind {l : L} {e : ε} {f : σ → Except ε (σ × α)} {q : α → Prog L σ ε β}
    (hq : ∀ s l', F l s = some l' → ∃ s' a, f s = .ok (s', a) ∧ (q a).head = some l')
    (hf : ∀ a, (q a).Follows F) : (exec l e f >>= q).Follows F := by
  refine fun s => ⟨fun l' h => ?_, ?_, trivial⟩
  · obtain ⟨s', a, hok, hhead⟩ := hq s l' h
    show ((answer f s).bind q).head = some l'
    rw [answer, hok]
    exact hhead
  · show ((answer f s).bind q).Follows F
    unfold answer
    split
    · exact hf _
    · trivial

end Prog

/-! ## Pools -/

/-- The action neither makes a statement of the program at index `i` nor ends it. -/
def Act.Avoids (i : Nat) : Act J E → Prop
  | .step n _ => n ≠ i
  | .crash => False
  | _ => True

instance (i : Nat) (a : Act J E) : Decidable (a.Avoids i) :=
  match a with
  | .step n _ => inferInstanceAs (Decidable (n ≠ i))
  | .crash => inferInstanceAs (Decidable False)
  | .spawn _ | .env _ => inferInstanceAs (Decidable True)

variable {S : System L σ ε γ J E} {w : Pool L σ ε γ J} {F : J → L → σ → Option L}

theorem threads_step_of_avoids {i : Nat} {t : J × Prog L σ ε Unit} {a : Act J E}
    (ha : a.Avoids i) (ht : w.threads[i]? = some t) : (S.step w a).threads[i]? = some t := by
  cases a with
  | spawn j =>
    have hlt : i < w.threads.length := (List.getElem?_eq_some_iff.1 ht).1
    simpa [System.step, List.getElem?_append_left hlt] using ht
  | env e => exact ht
  | crash => exact ha.elim
  | step n answered =>
    have hne : n ≠ i := ha
    simp only [System.step]
    split
    · split_ifs <;> simpa [List.getElem?_set_ne hne] using ht
    · exact ht

/-- Others leave the program at index `i` where it stands. -/
theorem threads_of_avoids {i : Nat} {t : J × Prog L σ ε Unit} {acts : List (Act J E)}
    (ha : ∀ a ∈ acts, a.Avoids i) (ht : w.threads[i]? = some t) :
    (acts.foldl S.step w).threads[i]? = some t := by
  induction acts generalizing w with
  | nil => exact ht
  | cons a acts ih =>
    exact ih (fun a' ha' => ha a' (List.mem_cons_of_mem a ha'))
      (threads_step_of_avoids (ha a List.mem_cons_self) ht)

/-- Every program of the pool follows its rule. -/
def Followed (F : J → L → σ → Option L) (w : Pool L σ ε γ J) : Prop :=
  ∀ t ∈ w.threads, t.2.Follows (F t.1)

theorem followed_step (hS : ∀ j, (S.prog j).Follows (F j)) (h : Followed F w) (a : Act J E) :
    Followed F (S.step w a) := by
  cases a with
  | spawn j =>
    intro t ht
    rcases List.mem_append.1 ht with ht | ht
    · exact h t ht
    · rw [List.mem_singleton.1 ht]
      exact hS j
  | env e => exact h
  | crash => exact fun t ht => absurd ht List.not_mem_nil
  | step i answered =>
    simp only [System.step]
    split
    · rename_i j l u ok err hi
      have hcur := h _ (List.mem_of_getElem? hi) w.state
      split_ifs
      · intro t ht
        rcases List.mem_or_eq_of_mem_set ht with ht | rfl
        · exact h t ht
        · exact hcur.2.1
      · intro t ht
        rcases List.mem_or_eq_of_mem_set ht with ht | rfl
        · exact h t ht
        · exact hcur.2.2
    · exact h

theorem followed_run (hS : ∀ j, (S.prog j).Follows (F j)) (h : Followed F w)
    (acts : List (Act J E)) : Followed F (acts.foldl S.step w) := by
  induction acts generalizing w with
  | nil => exact h
  | cons a acts ih => exact ih (followed_step hS h a)

/-- The statement that follows is the next one of its program, whatever the others do. -/
theorem follows_next (h : Followed F w) {i : Nat} {j : J} {l l' : L}
    (hn : w.next i = some (j, l)) (hf : F j l w.state = some l') {acts : List (Act J E)}
    (ha : ∀ a ∈ acts, a.Avoids i) :
    (acts.foldl S.step (S.step w (.step i true))).next i = some (j, l') := by
  unfold Pool.next at hn
  split at hn
  · rename_i j' l'' u ok err hi
    cases hn
    obtain ⟨hlt, -⟩ := List.getElem?_eq_some_iff.1 hi
    have hhead := (h _ (List.mem_of_getElem? hi) w.state).1 l' hf
    have hset : (S.step w (.step i true)).threads[i]? = some (j, ok w.state) := by
      simp only [System.step, hi, ↓reduceIte]
      exact List.getElem?_set_self hlt
    have hget := threads_of_avoids (S := S) ha hset
    unfold Pool.next
    rw [hget]
    cases hok : ok w.state with
    | ret a =>
      rw [hok] at hhead
      cases hhead
    | fail e =>
      rw [hok] at hhead
      cases hhead
    | stmt l₂ u₂ ok₂ err₂ =>
      rw [hok] at hhead
      cases hhead
      rfl
  · cases hn

end Process
