import FloatCtf.Net.Text
import Mathlib.Algebra.Group.Nat.Defs
import Mathlib.Data.Set.Function

/-!
# Records one after another

A code is self-delimiting when what follows a code word cannot be taken for a part of it; then a
stream of code words says which values they are of.  Fixed lengths, end marks and lengths put in
front make codes of this kind.
-/

namespace Record

variable {α β γ : Type}

/-- A code word of a value in the set ends where it ends, whatever follows it. -/
def SelfDelimiting (s : Set α) (enc : α → List γ) : Prop :=
  ∀ a ∈ s, ∀ b ∈ s, ∀ x y, enc a ++ x = enc b ++ y → a = b ∧ x = y

section Code

variable {s : Set α} {t : Set β} {enc : α → List γ} {enc' : β → List γ}

theorem SelfDelimiting.of_length {n : ℕ} (hlen : ∀ a ∈ s, (enc a).length = n)
    (hinj : s.InjOn enc) : SelfDelimiting s enc := by
  intro a ha b hb x y h
  obtain ⟨henc, hxy⟩ := List.append_inj h ((hlen a ha).trans (hlen b hb).symm)
  exact ⟨hinj ha hb henc, hxy⟩

/-- A prefix up to the first end mark. -/
theorem append_cons_inj {m : γ} {u v x y : List γ} (hu : m ∉ u) (hv : m ∉ v)
    (h : u ++ m :: x = v ++ m :: y) : u = v ∧ x = y := by
  induction u generalizing v with
  | nil =>
    cases v with
    | nil => simpa using h
    | cons d v =>
      obtain ⟨rfl, -⟩ := List.cons.inj h
      simp at hv
  | cons c u ih =>
    cases v with
    | nil =>
      obtain ⟨rfl, -⟩ := List.cons.inj h
      simp at hu
    | cons d v =>
      obtain ⟨rfl, htail⟩ := List.cons.inj h
      obtain ⟨rfl, hxy⟩ :=
        ih (List.not_mem_of_not_mem_cons hu) (List.not_mem_of_not_mem_cons hv) htail
      exact ⟨rfl, hxy⟩

theorem SelfDelimiting.of_endMark {m : γ} (hm : ∀ a ∈ s, m ∉ enc a) (hinj : s.InjOn enc) :
    SelfDelimiting s fun a => enc a ++ [m] := by
  intro a ha b hb x y h
  simp only [List.append_assoc, List.singleton_append] at h
  obtain ⟨henc, hxy⟩ := append_cons_inj (hm a ha) (hm b hb) h
  exact ⟨hinj ha hb henc, hxy⟩

theorem SelfDelimiting.prod (h : SelfDelimiting s enc) (h' : SelfDelimiting t enc') :
    SelfDelimiting (s ×ˢ t) fun p => enc p.1 ++ enc' p.2 := by
  rintro ⟨a, b⟩ ⟨ha, hb⟩ ⟨a', b'⟩ ⟨ha', hb'⟩ x y heq
  simp only [List.append_assoc] at heq
  obtain ⟨rfl, hrest⟩ := h a ha a' ha' _ _ heq
  obtain ⟨rfl, hxy⟩ := h' b hb b' hb' _ _ hrest
  exact ⟨rfl, hxy⟩

theorem SelfDelimiting.comp {f : β → α} (h : SelfDelimiting s enc) (hf : t.MapsTo f s)
    (hinj : t.InjOn f) : SelfDelimiting t (enc ∘ f) := by
  intro a ha b hb x y heq
  obtain ⟨hab, hxy⟩ := h _ (hf ha) _ (hf hb) x y heq
  exact ⟨hinj ha hb hab, hxy⟩

theorem SelfDelimiting.cons (c : γ) (h : SelfDelimiting s enc) :
    SelfDelimiting s fun a => c :: enc a := by
  intro a ha b hb x y heq
  exact h a ha b hb x y (List.cons.inj heq).2

/-- A length in front of what may hold anything. -/
theorem SelfDelimiting.of_lengthPrefix {len : ℕ → List γ} {ns : Set ℕ}
    (h : SelfDelimiting ns len) :
    SelfDelimiting {u : List γ | u.length ∈ ns} fun u => len u.length ++ u := by
  intro u hu v hv x y heq
  simp only [List.append_assoc] at heq
  obtain ⟨hlen, heq⟩ := h _ hu _ hv _ _ heq
  exact List.append_inj heq hlen

/-- The stream of the values says which they are. -/
theorem SelfDelimiting.flatMap_injOn (h : SelfDelimiting s enc) (hne : ∀ a ∈ s, enc a ≠ []) :
    Set.InjOn (fun as : List α => as.flatMap enc) {as | ∀ a ∈ as, a ∈ s} := by
  intro as has bs hbs heq
  induction as generalizing bs with
  | nil =>
    cases bs with
    | nil => rfl
    | cons b bs => simp_all
  | cons a as ih =>
    cases bs with
    | nil => simp_all
    | cons b bs =>
      simp only [List.flatMap_cons] at heq
      simp only [Set.mem_ofPred_eq, List.forall_mem_cons] at has hbs
      obtain ⟨rfl, hrest⟩ := h a has.1 b hbs.1 _ _ heq
      rw [ih has.2 hbs.2 hrest]

end Code

/-! ## Numbers -/

/-- The number in the given count of bytes, the lowest first. -/
def leBytes : ℕ → ℕ → List UInt8
  | 0, _ => []
  | w + 1, n => UInt8.ofNat n :: leBytes w (n / 256)

@[simp] theorem length_leBytes (w n : ℕ) : (leBytes w n).length = w := by
  induction w generalizing n with
  | zero => rfl
  | succ w ih => simp [leBytes, ih]

theorem leBytes_injOn (w : ℕ) : Set.InjOn (leBytes w) {n | n < 256 ^ w} := by
  induction w with
  | zero => intro m hm n hn _; simp_all
  | succ w ih =>
    intro m hm n hn h
    simp only [Set.mem_ofPred_eq, Nat.pow_succ] at hm hn
    obtain ⟨hlow, hhigh⟩ := List.cons.inj h
    have hdiv : m / 256 = n / 256 :=
      ih (Nat.div_lt_of_lt_mul (by omega)) (Nat.div_lt_of_lt_mul (by omega)) hhigh
    have hmod : m % 256 = n % 256 := by simpa using congrArg UInt8.toNat hlow
    omega

theorem selfDelimiting_leBytes (w : ℕ) : SelfDelimiting {n | n < 256 ^ w} (leBytes w) :=
  .of_length (fun n _ => length_leBytes w n) (leBytes_injOn w)

/-! ## Hexadecimal digits -/

/-- A lower-case hexadecimal digit. -/
def hexDigit (n : ℕ) : Char := if n < 10 then Char.ofNat (48 + n) else Char.ofNat (87 + n)

/-- Two digits for a byte. -/
def hexByte (b : UInt8) : List Char := [hexDigit (b.toNat / 16), hexDigit (b.toNat % 16)]

/-- `hex::encode`. -/
def hexEncode (bs : List UInt8) : String := .ofList (bs.flatMap hexByte)

theorem hexDigit_injOn : Set.InjOn hexDigit {n | n < 16} := by
  intro m hm n hn h
  have hinj : ∀ a < 16, ∀ b < 16, hexDigit a = hexDigit b → a = b := by decide
  exact hinj m hm n hn h

theorem hexByte_injective : Function.Injective hexByte := by
  intro a b h
  simp only [hexByte, List.cons.injEq, and_true] at h
  have ha := a.toNat_lt
  have hb := b.toNat_lt
  have hdiv : a.toNat / 16 = b.toNat / 16 :=
    hexDigit_injOn (by simp; omega) (by simp; omega) h.1
  have hmod : a.toNat % 16 = b.toNat % 16 :=
    hexDigit_injOn (by simp; omega) (by simp; omega) h.2
  exact UInt8.toNat_inj.1 (by omega)

theorem hexEncode_injective : Function.Injective hexEncode := by
  intro u v h
  have hcode : SelfDelimiting Set.univ hexByte :=
    .of_length (n := 2) (fun _ _ => rfl) hexByte_injective.injOn
  exact hcode.flatMap_injOn (by simp [hexByte]) (by simp) (by simp) (String.ofList_inj.1 h)

end Record
