import FloatCtf.Content.Gamebox
import Mathlib.Data.List.Perm.Basic

/-!
# The order of the health checks

The health checks of a GameBox are sorted by kind, port and path, while the duplicates are found by
the expected status as well.  `canonical_iff` says when the specification does not depend on the
order in which they are declared: when no path of a port is checked for two statuses.
-/

namespace FloatCtf.Content

open List

/-- The manifest with its health checks in another order. -/
def GameBoxMeta.withHealthchecks (m : GameBoxMeta) (hcs : List GameBoxHealthcheck) : GameBoxMeta :=
  { m with gamebox := m.gamebox.map fun gamebox => { gamebox with healthchecks := hcs } }

/-- The two manifests are accepted or rejected together, and have one specification. -/
structure SameSpec (u : Unicode) (contentId : String) (m m' : GameBoxMeta) : Prop where
  validate : m.validate u contentId = .ok () ↔ m'.validate u contentId = .ok ()
  normalize : m.validate u contentId = .ok () →
    ∃ spec, m.normalize u contentId = .ok spec ∧ m'.normalize u contentId = .ok spec ∧
      spec.healthchecks ~ m.healthchecks.map GameBoxHealthcheck.normalize ∧ spec.healthchecks.Nodup

/-- The order in which health checks are written does not change the specification. -/
def GameBoxMeta.Canonical (u : Unicode) (contentId : String) (m : GameBoxMeta) : Prop :=
  ∀ hcs, hcs ~ m.healthchecks → SameSpec u contentId m (m.withHealthchecks hcs)

/-- No path of a port is checked for two statuses. -/
def GameBoxMeta.Separate (m : GameBoxMeta) : Prop :=
  ∀ port path s t, .http port path s ∈ m.healthchecks → .http port path t ∈ m.healthchecks → s = t

/-! ## Acceptance -/

theorem bind_eq_ok_iff {x : Except GameBoxMetaError Unit} {y : Except GameBoxMetaError Unit} :
    (x >>= fun _ => y) = .ok () ↔ x = .ok () ∧ y = .ok () := by
  cases x <;> simp [bind, Except.bind]

theorem ok_bind {α β : Type} {a : α} {f : α → Except GameBoxMetaError β} :
    (Except.ok a >>= f) = f a := rfl

theorem error_bind {α β : Type} {e : GameBoxMetaError} {f : α → Except GameBoxMetaError β} :
    ((Except.error e : Except GameBoxMetaError α) >>= f) = .error e := rfl

@[simp] theorem failIf_eq_ok_iff {c : Bool} {e : GameBoxMetaError} :
    failIf c e = .ok () ↔ c = false := by
  cases c <;> simp [failIf]

theorem normalize_injective : Function.Injective GameBoxHealthcheck.normalize := by
  rintro ⟨⟩ ⟨⟩ h <;> simp_all [GameBoxHealthcheck.normalize]

/-- The entries are accepted one by one, and no two of them are equal. -/
theorem validateHealthchecks_eq_ok_iff {seen : List NormalizedHealthcheck}
    {hcs : List GameBoxHealthcheck} :
    validateHealthchecks seen hcs = .ok () ↔
      (∀ hc ∈ hcs, validateHealthcheck hc = .ok () ∧ hc.normalize ∉ seen) ∧ hcs.Nodup := by
  induction hcs generalizing seen with
  | nil => simp [validateHealthchecks]
  | cons hc hcs ih =>
    simp only [validateHealthchecks, bind_eq_ok_iff, failIf_eq_ok_iff, decide_eq_false_iff_not, ih,
      mem_cons, not_or, forall_eq_or_imp, nodup_cons]
    constructor
    · rintro ⟨hval, hseen, hall, hnd⟩
      exact ⟨⟨⟨hval, hseen⟩, fun x hx => ⟨(hall x hx).1, (hall x hx).2.2⟩⟩,
        fun hmem => (hall hc hmem).2.1 rfl, hnd⟩
    · rintro ⟨⟨⟨hval, hseen⟩, hall⟩, hmem, hnd⟩
      refine ⟨hval, hseen, fun x hx => ⟨(hall x hx).1, fun heq => hmem ?_, (hall x hx).2⟩, hnd⟩
      rwa [← normalize_injective heq]

theorem validateHealthchecks_perm {hcs hcs' : List GameBoxHealthcheck} (h : hcs ~ hcs') :
    validateHealthchecks [] hcs = .ok () ↔ validateHealthchecks [] hcs' = .ok () := by
  simp only [validateHealthchecks_eq_ok_iff, h.mem_iff, h.nodup_iff]

theorem validate_eq_ok_iff {u : Unicode} {m : GameBoxMeta} {contentId : String} :
    m.validate u contentId = .ok () ↔
      validateContentFields m = .ok () ∧ (∃ name, resolvedSafeName u m contentId = .ok name) ∧
        validateGamebox m.gamebox = .ok () ∧ validateJudge m.judge = .ok () ∧
        validateAwdp m.awdp = .ok () := by
  simp only [GameBoxMeta.validate, bind_eq_ok_iff]
  cases hname : resolvedSafeName u m contentId with
  | error e => simp [error_bind]
  | ok name => simp [ok_bind, bind_eq_ok_iff]

theorem withHealthchecks_validate {u : Unicode} {m : GameBoxMeta} {contentId : String}
    {hcs : List GameBoxHealthcheck} (h : hcs ~ m.healthchecks) :
    m.validate u contentId = .ok () ↔ (m.withHealthchecks hcs).validate u contentId = .ok () := by
  have hsections : validateGamebox m.gamebox = .ok () ↔
      validateGamebox (m.withHealthchecks hcs).gamebox = .ok () := by
    cases hg : m.gamebox with
    | none => simp [GameBoxMeta.withHealthchecks, hg]
    | some gamebox =>
      have hperm : gamebox.healthchecks ~ hcs := by
        simpa [GameBoxMeta.healthchecks, hg] using h.symm
      simp [GameBoxMeta.withHealthchecks, hg, validateGamebox, bind_eq_ok_iff,
        validateHealthchecks_perm hperm]
  rw [validate_eq_ok_iff, validate_eq_ok_iff, hsections]
  rfl

/-! ## Sorting -/

/-- What an entry is sorted by. -/
def sortKey : NormalizedHealthcheck → Bool ×ₗ ℕ ×ₗ String
  | .http port path _ => toLex (false, toLex (port, path))
  | .tcp port => toLex (true, toLex (port, ""))

theorem isLE_compare_iff {α : Type} [LinearOrder α] {a b : α} :
    (compare a b).isLE = true ↔ a ≤ b := by
  rw [← compare_le_iff_le]
  exact Ordering.isLE_iff_ne_gt

theorem isLE_compareHealthchecks_iff {a b : NormalizedHealthcheck} :
    (compareHealthchecks a b).isLE = true ↔ sortKey a ≤ sortKey b := by
  cases a <;> cases b <;>
    simp [compareHealthchecks, sortKey, Prod.Lex.toLex_le_toLex, Ordering.isLE_then_iff_or,
      compare_lt_iff_lt, isLE_compare_iff, Nat.le_iff_lt_or_eq]

theorem trans_isLE (a b c : NormalizedHealthcheck) (hab : (compareHealthchecks a b).isLE = true)
    (hbc : (compareHealthchecks b c).isLE = true) : (compareHealthchecks a c).isLE = true :=
  isLE_compareHealthchecks_iff.2
    (le_trans (isLE_compareHealthchecks_iff.1 hab) (isLE_compareHealthchecks_iff.1 hbc))

theorem total_isLE (a b : NormalizedHealthcheck) :
    ((compareHealthchecks a b).isLE || (compareHealthchecks b a).isLE) = true := by
  simpa [isLE_compareHealthchecks_iff] using le_total (sortKey a) (sortKey b)

/-- Two entries at one place of the order. -/
theorem eq_or_of_sortKey_eq {a b : GameBoxHealthcheck}
    (h : sortKey a.normalize = sortKey b.normalize) :
    a = b ∨ ∃ port path s t, a = .http port path s ∧ b = .http port path t := by
  cases a <;> cases b <;>
    simp [GameBoxHealthcheck.normalize, sortKey] at h ⊢ <;> simp_all

theorem sortHealthchecks_perm (hcs : List NormalizedHealthcheck) : sortHealthchecks hcs ~ hcs :=
  mergeSort_perm _ _

/-- Entries with places of their own have one sorted order. -/
theorem sortHealthchecks_eq_of_perm {hcs hcs' : List NormalizedHealthcheck} (h : hcs ~ hcs')
    (hsep : ∀ a ∈ hcs, ∀ b ∈ hcs, sortKey a = sortKey b → a = b) :
    sortHealthchecks hcs = sortHealthchecks hcs' := by
  refine Perm.eq_of_pairwise (fun a b ha hb hab hba => ?_)
    (pairwise_mergeSort trans_isLE total_isLE hcs) (pairwise_mergeSort trans_isLE total_isLE hcs')
    ((sortHealthchecks_perm hcs).trans (h.trans (sortHealthchecks_perm hcs').symm))
  rw [isLE_compareHealthchecks_iff] at hab hba
  exact hsep a ((sortHealthchecks_perm hcs).mem_iff.1 ha) b
    (h.mem_iff.2 ((sortHealthchecks_perm hcs').mem_iff.1 hb)) (le_antisymm hab hba)

/-- Two entries stand in one order only. -/
theorem not_pair_sublist_swap {α : Type} {l : List α} {x y : α} (hnd : l.Nodup)
    (hxy : [x, y] <+ l) : ¬ [y, x] <+ l := by
  intro hyx
  induction l with
  | nil => simp at hxy
  | cons z l ih =>
    obtain ⟨hz, hnd⟩ := nodup_cons.1 hnd
    rw [cons_sublist_cons', singleton_sublist] at hxy hyx
    obtain hxy | ⟨rfl, hy⟩ := hxy
    · obtain hyx | ⟨rfl, -⟩ := hyx
      · exact ih hnd hxy hyx
      · exact hz (hxy.subset (by simp))
    · obtain hyx | ⟨rfl, -⟩ := hyx
      · exact hz (hyx.subset (by simp))
      · exact hz hy

/-- Two entries of one place stay in their order. -/
theorem pair_sublist_sortHealthchecks {a b : NormalizedHealthcheck}
    {hcs : List NormalizedHealthcheck} (h : sortKey a = sortKey b) :
    [a, b] <+ sortHealthchecks (a :: b :: hcs) :=
  pair_sublist_mergeSort trans_isLE total_isLE (isLE_compareHealthchecks_iff.2 h.le)
    ((nil_sublist hcs).cons_cons b |>.cons_cons a)

/-! ## The specification -/

/-- The specification of an accepted manifest. -/
theorem normalize_of_validate {u : Unicode} {m : GameBoxMeta} {contentId : String}
    (h : m.validate u contentId = .ok ()) :
    ∃ spec, m.normalize u contentId = .ok spec ∧
      spec.healthchecks = sortHealthchecks (m.healthchecks.map GameBoxHealthcheck.normalize) ∧
      ∀ hcs, hcs ~ m.healthchecks → (m.withHealthchecks hcs).normalize u contentId =
        .ok { spec with
          healthchecks := sortHealthchecks ((m.withHealthchecks hcs).healthchecks.map
            GameBoxHealthcheck.normalize) } := by
  obtain ⟨-, ⟨name, hname⟩, -⟩ := validate_eq_ok_iff.1 h
  refine ⟨_, by rw [GameBoxMeta.normalize, h, ok_bind, hname, ok_bind]; rfl, rfl, ?_⟩
  intro hcs hperm
  have hname' : resolvedSafeName u (m.withHealthchecks hcs) contentId = .ok name := hname
  rw [GameBoxMeta.normalize, (withHealthchecks_validate hperm).1 h, ok_bind, hname', ok_bind]
  cases hg : m.gamebox <;> simp [GameBoxMeta.withHealthchecks, hg, pure, Except.pure]

theorem withHealthchecks_healthchecks {m : GameBoxMeta} {hcs : List GameBoxHealthcheck}
    (h : hcs ~ m.healthchecks) : (m.withHealthchecks hcs).healthchecks = hcs := by
  cases hg : m.gamebox with
  | none =>
    have hnil : hcs = [] := by simpa [GameBoxMeta.healthchecks, hg] using h
    simp [GameBoxMeta.withHealthchecks, GameBoxMeta.healthchecks, hg, hnil]
  | some gamebox => simp [GameBoxMeta.withHealthchecks, GameBoxMeta.healthchecks, hg]

theorem nodup_healthchecks {u : Unicode} {m : GameBoxMeta} {contentId : String}
    (h : m.validate u contentId = .ok ()) : m.healthchecks.Nodup := by
  obtain ⟨-, -, hgamebox, -⟩ := validate_eq_ok_iff.1 h
  cases hg : m.gamebox with
  | none => simp [GameBoxMeta.healthchecks, hg]
  | some gamebox =>
    rw [hg, validateGamebox, bind_eq_ok_iff] at hgamebox
    simpa [GameBoxMeta.healthchecks, hg] using (validateHealthchecks_eq_ok_iff.1 hgamebox.2).2

/-- The specification does not depend on the order of the health checks exactly when an accepted
manifest does not check a path of a port for two statuses. -/
theorem canonical_iff (u : Unicode) (contentId : String) (m : GameBoxMeta) :
    m.Canonical u contentId ↔ (m.validate u contentId = .ok () → m.Separate) := by
  constructor
  · intro hcan hval port path s t hs ht
    by_contra hne
    set a : GameBoxHealthcheck := .http port path s with ha
    set b : GameBoxHealthcheck := .http port path t with hb
    have hab : b ≠ a := by simp [ha, hb, Ne.symm hne]
    set rest := (m.healthchecks.erase a).erase b
    have hperm : a :: b :: rest ~ m.healthchecks :=
      ((perm_cons_erase ((mem_erase_of_ne hab).2 ht)).symm.cons a).trans (perm_cons_erase hs).symm
    have hswap : b :: a :: rest ~ m.healthchecks := (Perm.swap a b rest).trans hperm
    obtain ⟨spec, hspec, -, hrun⟩ := normalize_of_validate hval
    have key : ∀ hcs, hcs ~ m.healthchecks →
        sortHealthchecks (hcs.map GameBoxHealthcheck.normalize) = spec.healthchecks ∧
          spec.healthchecks.Nodup := by
      intro hcs h
      obtain ⟨spec', h₁, h₂, -, hnd⟩ := (hcan hcs h).normalize hval
      obtain rfl : spec = spec' := Except.ok.inj (hspec.symm.trans h₁)
      rw [hrun hcs h, withHealthchecks_healthchecks h] at h₂
      exact ⟨congrArg NormalizedGameBoxSpec.healthchecks (Except.ok.inj h₂), hnd⟩
    have hkey : sortKey a.normalize = sortKey b.normalize := rfl
    have h₁ : [a.normalize, b.normalize] <+ spec.healthchecks := by
      rw [← (key _ hperm).1]
      exact pair_sublist_sortHealthchecks hkey
    have h₂ : [b.normalize, a.normalize] <+ spec.healthchecks := by
      rw [← (key _ hswap).1]
      exact pair_sublist_sortHealthchecks hkey.symm
    exact not_pair_sublist_swap (key _ hperm).2 h₁ h₂
  · intro hsep hcs hperm
    refine ⟨withHealthchecks_validate hperm, fun hval => ?_⟩
    obtain ⟨spec, hspec, hchecks, hrun⟩ := normalize_of_validate hval
    have heq : sortHealthchecks (hcs.map GameBoxHealthcheck.normalize) = spec.healthchecks := by
      rw [hchecks]
      refine sortHealthchecks_eq_of_perm (hperm.map _) fun x hx y hy hxy => ?_
      obtain ⟨a, ha, rfl⟩ := mem_map.1 hx
      obtain ⟨b, hb, rfl⟩ := mem_map.1 hy
      obtain rfl | ⟨port, path, s, t, rfl, rfl⟩ := eq_or_of_sortKey_eq hxy
      · rfl
      · rw [hsep hval port path s t (hperm.mem_iff.1 ha) (hperm.mem_iff.1 hb)]
    have hdecl : spec.healthchecks ~ m.healthchecks.map GameBoxHealthcheck.normalize := by
      rw [hchecks]
      exact sortHealthchecks_perm _
    refine ⟨spec, hspec, ?_, hdecl,
      hdecl.nodup_iff.2 ((nodup_map_iff normalize_injective).2 (nodup_healthchecks hval))⟩
    rw [hrun hcs hperm, withHealthchecks_healthchecks hperm, heq]

/-- A page whose two health checks ask for different statuses. -/
def twoStatuses : GameBoxMeta where
  name := "page"
  version := "1.0.0"
  author := "author"
  category := "web"
  difficulty := .easy
  tags := []
  description := "a page"
  safeName := some "page"
  docker := none
  gamebox := some ⟨"root", [.http 80 "/" 200, .http 80 "/" 302]⟩
  judge := none
  awdp := none

/-- The other order is accepted, too, and has another specification. -/
theorem not_canonical : ¬ twoStatuses.Canonical .ascii "page" := by
  intro h
  have hperm : [.http 80 "/" 302, .http 80 "/" 200] ~ twoStatuses.healthchecks := by decide
  have hval : twoStatuses.validate .ascii "page" = .ok () := by decide +kernel
  obtain ⟨spec, hspec, hchecks, hrun⟩ := normalize_of_validate hval
  obtain ⟨spec', h₁, h₂, -⟩ := (h _ hperm).normalize hval
  obtain rfl : spec = spec' := Except.ok.inj (hspec.symm.trans h₁)
  rw [hrun _ hperm, withHealthchecks_healthchecks hperm] at h₂
  have heq := congrArg NormalizedGameBoxSpec.healthchecks (Except.ok.inj h₂)
  have hsorted : sortHealthchecks [.http 80 "/" 302, .http 80 "/" 200] =
      [.http 80 "/" 302, .http 80 "/" 200] :=
    mergeSort_of_pairwise (by decide)
  have hsorted' : sortHealthchecks [.http 80 "/" 200, .http 80 "/" 302] =
      [.http 80 "/" 200, .http 80 "/" 302] :=
    mergeSort_of_pairwise (by decide)
  have hne : sortHealthchecks [.http 80 "/" 302, .http 80 "/" 200] ≠ spec.healthchecks := by
    rw [hchecks, hsorted]
    exact fun heq => absurd (heq.trans hsorted') (by decide)
  exact hne heq

end FloatCtf.Content
