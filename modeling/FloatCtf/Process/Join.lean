import FloatCtf.Process.Pool

/-!
# Programs that a job runs side by side

`joinAll` interleaves several programs of one job along a given list of turns: the program at an
index makes its next statement, or it is given up, as a timeout does.  When the turns are over, the
programs that are left run one after the other.

What every one of the programs respects, their interleaving respects.
-/

namespace Process

variable {L σ ε γ J E : Type}

/-- The next move of a scheduler of joined programs: a statement of one of them, or its end without
notice. -/
inductive Turn where
  | step (i : Nat)
  | drop (i : Nat)
  deriving DecidableEq

/-- The programs joined into one under the schedule `ts`; what is left at its end runs one after the
other. -/
def joinAll : List Turn → List (Prog L σ ε Unit) → Prog L σ ε Unit
  | [], ps => .each ps fun p => p.attempt.bind fun _ => .ret ()
  | .drop i :: ts, ps => joinAll ts (ps.eraseIdx i)
  | .step i :: ts, ps =>
    match ps[i]? with
    | some (.stmt l u ok err) =>
      .stmt l u (fun s => joinAll ts (ps.set i (ok s))) fun s => joinAll ts (ps.set i (err s))
    | _ => joinAll ts ps

namespace Law

variable {S : System L σ ε γ J E} {M : Law S} {j : J} {v : σ × γ}

theorem safe_joinAll {ts : List Turn} {ps : List (Prog L σ ε Unit)}
    (h : ∀ p ∈ ps, M.Safe j (fun _ _ => True) p v) :
    M.Safe j (fun _ _ => True) (joinAll ts ps) v := by
  induction ts generalizing ps v with
  | nil =>
    -- the rest of a program is safe wherever the programs before it have led
    have key (v : σ × γ) (hps : ∀ p ∈ ps, M.Safe j (fun _ _ => True) p v) :
        M.Safe j (fun _ _ => True) (Prog.each ps fun p => p.attempt.bind fun _ => .ret ()) v := by
      induction ps generalizing v with
      | nil => trivial
      | cons p ps ih =>
        rw [Prog.each, ← Prog.bind_eq_bind]
        refine safe_seq ?_ fun _ v' hv => ?_
        · rw [← Prog.bind_eq_bind]
          exact safe_seq (safe_tried (hps p List.mem_cons_self)) fun _ _ _ => trivial
        · refine ih (fun q hq => h q (List.mem_cons_of_mem p hq)) v' fun q hq => ?_
          exact (hps q (List.mem_cons_of_mem p hq)).mono (fun _ _ _ _ _ => trivial) hv
    exact key v h
  | cons t ts ih =>
    cases t with
    | drop i => exact ih fun p hp => h p (List.mem_of_mem_eraseIdx hp)
    | step i =>
      unfold joinAll
      split
      · next l u ok err hi =>
        have hnext := h _ (List.mem_of_getElem? hi)
        have hset {v' : σ × γ} {q : Prog L σ ε Unit} (hv : M.rely v v')
            (hq : M.Safe j (fun _ _ => True) q v') :
            ∀ p ∈ ps.set i q, M.Safe j (fun _ _ => True) p v' := by
          intro p hp
          rcases List.mem_or_eq_of_mem_set hp with hp | rfl
          · exact (h p hp).mono (fun _ _ _ _ _ => trivial) hv
          · exact hq
        intro v' hv hi'
        refine ⟨fun hc => ?_, ih (hset hv (hnext v' hv hi').2)⟩
        obtain ⟨hg, hinv, hs⟩ := (hnext v' hv hi').1 hc
        exact ⟨hg, hinv, ih (hset (M.trans hv (M.rely_of_guar hg)) hs)⟩
      · exact ih h

end Law

theorem Prog.does_joinAll {T : L → σ → σ → Prop} {ts : List Turn} {ps : List (Prog L σ ε Unit)}
    (h : ∀ p ∈ ps, p.Does T) : (joinAll ts ps).Does T := by
  induction ts generalizing ps with
  | nil => exact does_each fun p hp => does_bind (does_attempt (h p hp)) fun _ => trivial
  | cons t ts ih =>
    cases t with
    | drop i => exact ih fun p hp => h p (List.mem_of_mem_eraseIdx hp)
    | step i =>
      unfold joinAll
      split
      · next l u ok err hi =>
        have hset {q : Prog L σ ε Unit} (hq : q.Does T) : ∀ p ∈ ps.set i q, p.Does T := by
          intro p hp
          rcases List.mem_or_eq_of_mem_set hp with hp | rfl
          · exact h p hp
          · exact hq
        intro s
        obtain ⟨ht, hok, herr⟩ := h _ (List.mem_of_getElem? hi) s
        exact ⟨ht, ih (hset hok), ih (hset herr)⟩
      · exact ih h

end Process
