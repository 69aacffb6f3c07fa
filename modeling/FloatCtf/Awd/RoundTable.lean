import FloatCtf.Awd.Repo
import Mathlib.Data.List.Nodup

/-!
# The table of rounds

The shape that the rounds of an event keep: they are numbered from 1 in the order of their creation
and only the last one may still be open.  `RoundTable` states it, and the lemmas say what the
queries of `round_repo` find in such a table and which of its writes keep the shape.
-/

namespace FloatCtf.Awd

/-- Every round is completed. -/
def AllDone (rounds : List AwdRound) : Prop := ∀ r ∈ rounds, r.status = .completed

/-- The rounds are numbered `1, 2, …` in order, all but the last are completed, and their ids are
distinct and below `nextId`. -/
structure RoundTable (rounds : List AwdRound) (nextId : Nat) : Prop where
  numbers : ∀ i (h : i < rounds.length), rounds[i].roundNumber = i + 1
  closed : AllDone rounds.dropLast
  ids : (rounds.map (·.id)).Nodup
  fresh : ∀ r ∈ rounds, r.id < nextId

theorem AwdRound.isOpen_iff (r : AwdRound) : r.isOpen = true ↔ r.status ≠ .completed := by
  cases h : r.status <;> simp [AwdRound.isOpen, RoundStatus.isOpen, h]

theorem allDone_nil : AllDone [] := List.forall_mem_nil _

theorem AllDone.not_isOpen {rounds : List AwdRound} (h : AllDone rounds) {r : AwdRound}
    (hr : r ∈ rounds) : ¬ r.isOpen = true := by
  rw [AwdRound.isOpen_iff]
  exact fun hn => hn (h r hr)

/-- The last configured round is completed and no round is open. -/
def Db.FinalSettlement (db : Db) : Prop :=
  (∀ r ∈ db.rounds, r.isOpen = false) ∧
    ∃ rc ∈ db.event.roundCount, ∃ r ∈ db.rounds, r.roundNumber = rc ∧ r.status = .completed

/-! ## Building a table -/

theorem roundTable_nil (n : Nat) : RoundTable [] n where
  numbers i h := absurd h (by simp)
  closed := allDone_nil
  ids := by simp
  fresh := by simp

theorem RoundTable.mono {rounds : List AwdRound} {n m : Nat} (h : RoundTable rounds n)
    (hle : n ≤ m) : RoundTable rounds m :=
  { h with fresh := fun r hr => (h.fresh r hr).trans_le hle }

/-- The next round goes on top of a table without open rounds. -/
theorem RoundTable.concat {rounds : List AwdRound} {n m : Nat} {r : AwdRound}
    (h : RoundTable rounds n) (hdone : AllDone rounds) (hnum : r.roundNumber = rounds.length + 1)
    (hid : n ≤ r.id) (hlt : r.id < m) : RoundTable (rounds ++ [r]) m where
  numbers i hi := by
    rw [List.length_append, List.length_singleton] at hi
    rcases Nat.lt_succ_iff_lt_or_eq.1 hi with hi | rfl
    · rw [List.getElem_append_left hi]
      exact h.numbers i hi
    · rw [List.getElem_concat_length rfl]
      exact hnum
  closed := by simpa using hdone
  ids := by
    rw [List.map_append, List.map_singleton, List.nodup_append]
    refine ⟨h.ids, by simp, ?_⟩
    intro a ha b hb
    obtain ⟨x, hx, rfl⟩ := List.mem_map.1 ha
    rw [List.mem_singleton] at hb
    have := h.fresh x hx
    omega
  fresh x hx := by
    rcases List.mem_append.1 hx with hx | hx
    · have := h.fresh x hx
      omega
    · rw [List.mem_singleton.1 hx]
      exact hlt

/-- A column that the update leaves alone. -/
theorem updateRoundRow_map {α : Type} (id : Nat) (f : AwdRound → AwdRound) (g : AwdRound → α)
    (hg : ∀ r, g (f r) = g r) (rounds : List AwdRound) :
    (updateRoundRow id f rounds).map g = rounds.map g := by
  rw [updateRoundRow, List.map_map]
  refine List.map_congr_left fun r _ => ?_
  dsimp only [Function.comp_apply]
  split_ifs
  · exact hg r
  · rfl

section Last

variable {done : List AwdRound} {r : AwdRound} {n : Nat}

theorem RoundTable.allDone_init (h : RoundTable (done ++ [r]) n) : AllDone done := by
  simpa using h.closed

theorem RoundTable.number_last (h : RoundTable (done ++ [r]) n) :
    r.roundNumber = done.length + 1 := by
  have := h.numbers done.length (by simp)
  rwa [List.getElem_concat_length rfl] at this

theorem RoundTable.id_ne_of_mem (h : RoundTable (done ++ [r]) n) {x : AwdRound} (hx : x ∈ done) :
    x.id ≠ r.id := by
  have := h.ids
  rw [List.map_append, List.map_singleton, List.nodup_append] at this
  exact this.2.2 _ (List.mem_map_of_mem hx) _ (by simp)

theorem RoundTable.fresh_last (h : RoundTable (done ++ [r]) n) : r.id < n := h.fresh r (by simp)

/-- The last round may be rewritten as long as its id and its number stay. -/
theorem RoundTable.rewrite_last (h : RoundTable (done ++ [r]) n) {r' : AwdRound}
    (hid : r'.id = r.id) (hnum : r'.roundNumber = r.roundNumber) :
    RoundTable (done ++ [r']) n where
  numbers i hi := by
    have hi' : i < (done ++ [r]).length := by simpa using hi
    have hn := h.numbers i hi'
    rw [List.length_append, List.length_singleton] at hi
    rcases Nat.lt_succ_iff_lt_or_eq.1 hi with hi | rfl
    · rw [List.getElem_append_left hi] at hn ⊢
      exact hn
    · rw [List.getElem_concat_length rfl] at hn ⊢
      rw [hnum, hn]
  closed := by simpa using h.allDone_init
  ids := by
    have := h.ids
    simpa [hid] using this
  fresh x hx := by
    rcases List.mem_append.1 hx with hx | hx
    · exact h.fresh x (List.mem_append_left _ hx)
    · rw [List.mem_singleton.1 hx, hid]
      exact h.fresh_last

theorem updateRoundRow_last (h : RoundTable (done ++ [r]) n) (f : AwdRound → AwdRound) :
    updateRoundRow r.id f (done ++ [r]) = done ++ [f r] := by
  unfold updateRoundRow
  rw [List.map_append, List.map_singleton, if_pos rfl]
  congr 1
  calc done.map (fun x => if x.id = r.id then f x else x) = done.map id :=
        List.map_congr_left fun x hx => if_neg (h.id_ne_of_mem hx)
    _ = done := List.map_id done

theorem findRoundById_last (h : RoundTable (done ++ [r]) n) :
    findRoundById (done ++ [r]) r.id = some r := by
  unfold findRoundById
  rw [List.find?_append, List.find?_eq_none.2 fun x hx => by simpa using h.id_ne_of_mem hx]
  simp

theorem findLatestRound_last (h : RoundTable (done ++ [r]) n) :
    findLatestRound (done ++ [r]) = some r := by
  refine List.mem_argmax_iff.2 ⟨by simp, ?_, ?_⟩
  · intro x hx
    obtain ⟨i, hi, rfl⟩ := List.getElem_of_mem hx
    rw [h.numbers i hi, h.number_last]
    rw [List.length_append, List.length_singleton] at hi
    omega
  · intro x hx hle
    obtain ⟨i, hi, rfl⟩ := List.getElem_of_mem hx
    rw [h.numbers i hi, h.number_last] at hle
    rw [List.length_append, List.length_singleton] at hi
    have hil : i = done.length := by omega
    subst hil
    rw [List.getElem_concat_length rfl]

end Last

/-! ## What the queries find -/

variable {rounds : List AwdRound} {n : Nat}

/-- Either every round is completed, or exactly the last one is open. -/
theorem RoundTable.allDone_or_open (h : RoundTable rounds n) :
    AllDone rounds ∨ ∃ done r, rounds = done ++ [r] ∧ r.isOpen = true := by
  rcases List.eq_nil_or_concat' rounds with rfl | ⟨done, r, rfl⟩
  · exact .inl allDone_nil
  · by_cases hr : r.status = .completed
    · refine .inl fun x hx => ?_
      rcases List.mem_append.1 hx with hx | hx
      · exact h.allDone_init x hx
      · rw [List.mem_singleton.1 hx]
        exact hr
    · exact .inr ⟨done, r, rfl, r.isOpen_iff.2 hr⟩

theorem findActiveRound_eq_none (h : AllDone rounds) : findActiveRound rounds = none :=
  List.find?_eq_none.2 fun _ hx => h.not_isOpen hx

theorem findActiveRound_last {done : List AwdRound} {r : AwdRound} (h : AllDone done)
    (hr : r.isOpen = true) : findActiveRound (done ++ [r]) = some r := by
  unfold findActiveRound
  rw [List.find?_append, List.find?_eq_none.2 fun x hx => h.not_isOpen hx]
  simp [hr]

theorem allDone_of_findActiveRound (h : findActiveRound rounds = none) : AllDone rounds := by
  intro r hr
  by_contra hne
  exact List.find?_eq_none.1 h r hr (r.isOpen_iff.2 hne)

/-- The open round that `find_active_round` returns is the last one. -/
theorem RoundTable.eq_of_findActiveRound (h : RoundTable rounds n) {r : AwdRound}
    (hr : findActiveRound rounds = some r) :
    ∃ done, rounds = done ++ [r] ∧ AllDone done ∧ r.isOpen = true := by
  have hopen := List.find?_some hr
  rcases h.allDone_or_open with hd | ⟨done, x, rfl, hx⟩
  · rw [findActiveRound_eq_none hd] at hr
    cases hr
  · rw [findActiveRound_last h.allDone_init hx] at hr
    cases hr
    exact ⟨done, rfl, h.allDone_init, hopen⟩

/-- An active round is the last one. -/
theorem RoundTable.eq_of_open (h : RoundTable rounds n) {r : AwdRound} (hr : r ∈ rounds)
    (hopen : r.isOpen = true) : ∃ done, rounds = done ++ [r] ∧ AllDone done := by
  rcases h.allDone_or_open with hd | ⟨done, x, rfl, -⟩
  · exact absurd hopen (hd.not_isOpen hr)
  · rcases List.mem_append.1 hr with hr | hr
    · exact absurd hopen (h.allDone_init.not_isOpen hr)
    · cases List.mem_singleton.1 hr
      exact ⟨done, rfl, h.allDone_init⟩

theorem findRoundById_eq_some {r : AwdRound} {id : Nat} (h : findRoundById rounds id = some r) :
    r ∈ rounds ∧ r.id = id :=
  ⟨List.mem_of_find?_eq_some h, by simpa using List.find?_some h⟩

theorem findRoundByNumber_eq_none (h : RoundTable rounds n) {k : Int}
    (hk : (rounds.length : Int) < k) : findRoundByNumber rounds k = none := by
  refine List.find?_eq_none.2 fun x hx => ?_
  obtain ⟨i, hi, rfl⟩ := List.getElem_of_mem hx
  have := h.numbers i hi
  simp only [decide_eq_true_eq]
  omega

theorem findRoundByNumber_isSome (h : RoundTable rounds n) {k : Int} (h1 : 1 ≤ k)
    (hk : k ≤ (rounds.length : Int)) : (findRoundByNumber rounds k).isSome := by
  obtain ⟨i, rfl⟩ : ∃ i : Nat, k = i + 1 := ⟨(k - 1).toNat, by omega⟩
  have hi : i < rounds.length := by omega
  rw [findRoundByNumber, List.find?_isSome]
  exact ⟨rounds[i], List.getElem_mem hi, by simpa using h.numbers i hi⟩

/-! ## The unique indexes -/

theorem countP_eq_zero_of_allDone (h : AllDone rounds) {s : RoundStatus} (hs : s ≠ .completed) :
    rounds.countP (·.status = s) = 0 := by
  rw [List.countP_eq_zero]
  intro r hr
  rw [h r hr]
  simpa using hs.symm

theorem countP_status_le_one (h : RoundTable rounds n) {s : RoundStatus} (hs : s ≠ .completed) :
    rounds.countP (·.status = s) ≤ 1 := by
  rcases List.eq_nil_or_concat' rounds with rfl | ⟨done, r, rfl⟩
  · simp
  · rw [List.countP_append, countP_eq_zero_of_allDone h.allDone_init hs, zero_add]
    exact List.countP_le_length

theorem RoundTable.indexes (h : RoundTable rounds n) : RoundIndexes rounds := by
  refine ⟨?_, countP_status_le_one h (by decide), countP_status_le_one h (by decide)⟩
  rw [List.nodup_iff_getElem?_ne_getElem?]
  intro i j hij hj
  rw [List.length_map] at hj
  rw [List.getElem?_eq_getElem (by rw [List.length_map]; omega),
    List.getElem?_eq_getElem (by rwa [List.length_map]), List.getElem_map, List.getElem_map,
    h.numbers i (by omega), h.numbers j hj]
  intro he
  have := Option.some.inj he
  omega

/-! ## Writes to any row -/

theorem RoundTable.number_mem (h : RoundTable rounds n) {r : AwdRound} (hr : r ∈ rounds) :
    1 ≤ r.roundNumber ∧ r.roundNumber ≤ rounds.length := by
  obtain ⟨i, hi, rfl⟩ := List.getElem_of_mem hr
  rw [h.numbers i hi]
  omega

theorem RoundTable.number_lt_of_mem_dropLast (h : RoundTable rounds n) {r : AwdRound}
    (hr : r ∈ rounds.dropLast) : r.roundNumber < rounds.length := by
  obtain ⟨i, hi, rfl⟩ := List.getElem_of_mem hr
  rw [List.length_dropLast] at hi
  rw [List.getElem_dropLast, h.numbers i (by omega)]
  omega

/-- A row may be rewritten as long as its id and its number stay, and no row before the last one is
opened again. -/
theorem RoundTable.update (h : RoundTable rounds n) {id : Nat} {f : AwdRound → AwdRound}
    (hid : ∀ r, (f r).id = r.id) (hnum : ∀ r, (f r).roundNumber = r.roundNumber)
    (hc : ∀ r ∈ rounds.dropLast, r.id = id → (f r).status = .completed) :
    RoundTable (updateRoundRow id f rounds) n where
  numbers i hi := by
    rw [updateRoundRow, List.length_map] at hi
    simp only [updateRoundRow, List.getElem_map]
    split_ifs
    · rw [hnum]
      exact h.numbers i hi
    · exact h.numbers i hi
  closed := by
    intro r hr
    rw [updateRoundRow, ← List.map_dropLast] at hr
    obtain ⟨x, hx, rfl⟩ := List.mem_map.1 hr
    split_ifs with hxid
    · exact hc x hx hxid
    · exact h.closed x hx
  ids := by
    rw [updateRoundRow_map id f _ hid]
    exact h.ids
  fresh r hr := by
    obtain ⟨x, hx, rfl⟩ := List.mem_map.1 hr
    split_ifs
    · rw [hid]
      exact h.fresh x hx
    · exact h.fresh x hx

/-- A number that is not in the table, and that is 1 or follows one in it, is the next one. -/
theorem RoundTable.eq_next (h : RoundTable rounds n) {k : Int}
    (hnew : ∀ r ∈ rounds, r.roundNumber ≠ k)
    (hpred : k = 1 ∨ ∃ r ∈ rounds, r.roundNumber = k - 1) : k = rounds.length + 1 := by
  have hbound : 1 ≤ k ∧ k ≤ rounds.length + 1 := by
    rcases hpred with rfl | ⟨r, hr, hk⟩
    · omega
    · have := h.number_mem hr
      omega
  by_contra hne
  have hi : (k - 1).toNat < rounds.length := by omega
  refine hnew _ (List.getElem_mem hi) ?_
  rw [h.numbers _ hi]
  omega

/-- Where the indexes let an active round in, no other round is active. -/
theorem allDone_of_indexes {r : AwdRound} (hix : RoundIndexes (rounds ++ [r]))
    (hr : r.status = .active) (hp : ∀ x ∈ rounds, x.status ≠ .paused) : AllDone rounds := by
  have h1 := hix.2.1
  rw [List.countP_append, List.countP_singleton, decide_eq_true hr, if_pos rfl] at h1
  have h0 : rounds.countP (·.status = .active) = 0 := by omega
  intro x hx
  have hna : x.status ≠ .active := by simpa using List.countP_eq_zero.1 h0 x hx
  have hnp := hp x hx
  cases hs : x.status <;> simp_all

end FloatCtf.Awd
