import FloatCtf.Net.Mask
import FloatCtf.Net.Text
import Mathlib.Data.List.Infix
import Mathlib.Data.List.ProdSigma

/-!
# The error of a build

`sanitize_build_error` takes secrets out of the error of a build, and cuts it, before it is stored
and shown.

It works on the bytes of the text without NULs: `Mask.hide` for each marker, and a cut.  There is no
panic exactly when no cut divides a character.  Two messages get one result when the first places
of the markers are the same in both, apart from each other, and they differ in the bytes behind
these places only.
-/

namespace FloatCtf.Content.BuildError

open List

/-! ## `sanitize_build_error` -/

/-- The markers whose values are hidden, in the order of the calls. -/
def needles : List String := ["password=", "PASSWORD=", "Authorization:", "token="]

/-- `s.find(needle)`, as what is before the first occurrence and what is behind it. -/
def find (needle : List Char) : List Char → Option (List Char × List Char)
  | [] => if needle = [] then some ([], []) else none
  | c :: cs =>
    if needle <+: c :: cs then some ([], (c :: cs).drop needle.length)
    else (find needle cs).map fun x => (c :: x.1, x.2)

/-- What is left of the text behind a needle: `none` is the panic of a range that ends inside a
character. -/
def behind (rest : List Char) : Option (List Char) :=
  if (String.ofList rest).utf8ByteSize ≤ 32 then some []
  else (Text.cutAt rest 32).map fun secret => rest.drop secret.length

/-- One call: the word behind the first occurrence of the marker becomes stars. -/
def hide (s : List Char) (needle : String) : Option (List Char) :=
  match find needle.toList s with
  | none => some s
  | some (before, rest) =>
    (behind rest).map fun tail => before ++ needle.toList ++ "***".toList ++ tail

/-- The longest message in bytes. -/
def maxLength : ℕ := 2048

/-- The note behind a message that was cut. -/
def note : String := "…(truncated)"

/-- `none` is a panic. -/
def sanitizeBuildError (msg : String) : Option String := do
  let s ← needles.foldlM hide (msg.toList.filter (· ≠ '\x00'))
  Text.truncate (fun _ => note) (.ofList s) maxLength

/-! ## What it should do -/

/-- The places of the markers. -/
def occurrences (bytes : List UInt8) : List (String × ℕ) :=
  (needles ×ˢ List.range bytes.length).filter fun x => Text.encode x.1 <+: bytes.drop x.2

/-- A byte of one of the secrets: one of the 32 behind a marker. -/
def Secret (bytes : List UInt8) (i : ℕ) : Prop :=
  ∃ x ∈ occurrences bytes,
    x.2 + (Text.encode x.1).length ≤ i ∧ i < x.2 + (Text.encode x.1).length + 32

instance (bytes : List UInt8) (i : ℕ) : Decidable (Secret bytes i) :=
  inferInstanceAs (Decidable (∃ x ∈ occurrences bytes, _))

/-- Two messages that differ in bytes of secrets only. -/
def SameButSecrets (bytes bytes' : List UInt8) : Prop :=
  ∀ i, bytes[i]? ≠ bytes'[i]? → Secret bytes i ∧ Secret bytes' i

/-- No panic, and a short text. -/
def Safe (msg : String) : Prop :=
  ∃ t, sanitizeBuildError msg = some t ∧ t.utf8ByteSize ≤ maxLength + note.utf8ByteSize

/-- What is promised for two messages. -/
def Sanitized (msg msg' : String) : Prop :=
  Safe msg ∧ Safe msg' ∧
    (SameButSecrets (Text.encode msg) (Text.encode msg') →
      sanitizeBuildError msg = sanitizeBuildError msg')

/-! ## The bytes of a message -/

/-- The bytes behind a marker that are hidden. -/
def secretBytes : ℕ := 32

/-- The stars in bytes. -/
def stars : List UInt8 := Text.encode "***"

/-- The markers in bytes. -/
def markers : List (List UInt8) := needles.map Text.encode

/-- The bytes of a message without its NULs. -/
def plain (msg : String) : List UInt8 := Text.encode (.ofList (msg.toList.filter (· ≠ '\x00')))

/-- A cut at the byte divides no character. -/
def Whole (bytes : List UInt8) (i : ℕ) : Prop :=
  bytes.length ≤ i ∨ Text.isCharBoundary bytes i = true

instance (bytes : List UInt8) (i : ℕ) : Decidable (Whole bytes i) :=
  inferInstanceAs (Decidable (_ ∨ _))

/-- No cut divides a character: neither behind the secret of a marker nor at the limit. -/
def CutsWhole : List (List UInt8) → List UInt8 → Prop
  | [], bytes => Whole bytes maxLength
  | k :: ks, bytes =>
    (∀ i ∈ Mask.firstPlace k bytes, Whole bytes (i + k.length + secretBytes)) ∧
      CutsWhole ks (Mask.hide secretBytes stars k bytes)

instance instDecidableCutsWhole :
    (ks : List (List UInt8)) → (bytes : List UInt8) → Decidable (CutsWhole ks bytes)
  | [], bytes => inferInstanceAs (Decidable (Whole bytes maxLength))
  | k :: ks, bytes =>
    have := instDecidableCutsWhole ks (Mask.hide secretBytes stars k bytes)
    inferInstanceAs (Decidable ((∀ i ∈ Mask.firstPlace k bytes, _) ∧ CutsWhole ks _))

/-- The cuts that are made of a message divide no character. -/
def Clean (msg : String) : Prop := CutsWhole markers (plain msg)

instance (msg : String) : Decidable (Clean msg) := instDecidableCutsWhole _ _

/-- The first places of the markers are the same in both messages, and no marker or secret there
touches another one. -/
def Aligned (msg msg' : String) : Prop :=
  Mask.Aligned secretBytes markers (plain msg) (plain msg')

/-- The messages differ in bytes behind the first places of markers only. -/
def Concealed (msg msg' : String) : Prop :=
  ∀ i, (plain msg)[i]? ≠ (plain msg')[i]? → Mask.Covered secretBytes markers (plain msg) i

/-- The text is not cut, also if a mask is put in for every marker. -/
def Short (msg : String) : Prop :=
  (plain msg).length + markers.length * stars.length ≤ maxLength

/-! ## One needle -/

section Find

variable {needle s p rest : List Char}

theorem find_eq_some (h : find needle s = some (p, rest)) : s = p ++ needle ++ rest ∧
    ∀ p' rest', s = p' ++ needle ++ rest' → p.length ≤ p'.length := by
  induction s generalizing p with
  | nil =>
    rw [find] at h
    split at h
    · rename_i hnil
      cases h
      exact ⟨by simp [hnil], fun _ _ _ => Nat.zero_le _⟩
    · cases h
  | cons c cs ih =>
    rw [find] at h
    split at h
    · rename_i hpre
      cases h
      obtain ⟨t, ht⟩ := hpre
      exact ⟨by simp [← ht], fun _ _ _ => Nat.zero_le _⟩
    · rename_i hpre
      obtain ⟨⟨q, r⟩, hq, heq⟩ := Option.map_eq_some_iff.1 h
      cases heq
      obtain ⟨hcs, hfirst⟩ := ih hq
      refine ⟨by rw [hcs]; simp, fun p' rest' h' => ?_⟩
      cases p' with
      | nil => exact absurd ⟨rest', h'.symm⟩ hpre
      | cons d p' =>
        rw [List.cons_append, List.cons_append, List.cons.injEq] at h'
        exact Nat.succ_le_succ (hfirst p' rest' h'.2)

theorem find_eq_none_iff : find needle s = none ↔ ¬ needle <:+: s := by
  induction s with
  | nil => simp [find]
  | cons c cs ih =>
    rw [find, infix_cons_iff, not_or, ← ih]
    split
    · rename_i h
      simp [h]
    · rename_i h
      simp [h]

end Find

section Needle

variable {k : String} {s t p rest tail : List Char}

theorem narrow_needle : ∀ k ∈ needles, ∀ c ∈ k.toList, c.utf8Size = 1 := by
  have key : ∀ k ∈ needles, k.toList.all fun c => c.utf8Size == 1 := by decide
  exact fun k hk c hc => eq_of_beq (all_eq_true.1 (key k hk) c hc)

theorem needle_ne_nil : ∀ k ∈ needles, k.toList ≠ [] := by decide

theorem marker_spec : ∀ k ∈ markers, k ≠ [] ∧ ∀ b ∈ stars, b ∉ k := by decide +kernel

/-- The places of a needle in the bytes of a text. -/
theorem place_iff (hk : k ∈ needles) {i : ℕ} :
    Text.encode k <+: (Text.encode (.ofList s)).drop i ↔
      ∃ p r, s = p ++ k.toList ++ r ∧ (String.ofList p).utf8ByteSize = i := by
  conv_lhs => rw [← k.ofList_toList]
  exact Text.prefix_drop_encode_iff (narrow_needle k hk) (needle_ne_nil k hk)

/-- The search in a text is one in its bytes. -/
theorem firstPlace_eq (hk : k ∈ needles) :
    Mask.firstPlace (Text.encode k) (Text.encode (.ofList s)) =
      (find k.toList s).map fun x => (String.ofList x.1).utf8ByteSize := by
  have hne : Text.encode k ≠ [] := (marker_spec _ (mem_map_of_mem hk)).1
  cases hfind : find k.toList s with
  | none =>
    rw [Option.map_none, Mask.firstPlace_eq_none_iff hne]
    intro i hpre
    obtain ⟨p, r, rfl, -⟩ := (place_iff hk).1 hpre
    exact find_eq_none_iff.1 hfind ⟨p, r, rfl⟩
  | some x =>
    obtain ⟨hs, hfirst⟩ := @find_eq_some _ _ x.1 x.2 hfind
    rw [Option.map_some, Mask.firstPlace_eq_some_iff hne]
    refine ⟨(place_iff hk).2 ⟨x.1, x.2, hs, rfl⟩, fun j hj hpre => ?_⟩
    obtain ⟨p', r', hs', rfl⟩ := (place_iff hk).1 hpre
    obtain ⟨q, rfl⟩ : x.1 <+: p' := by
      refine @prefix_of_prefix_length_le _ _ _ s ?_ ?_ (hfirst p' r' hs')
      · exact ⟨k.toList ++ x.2, by rw [hs, append_assoc]⟩
      · exact ⟨k.toList ++ r', by rw [hs', append_assoc]⟩
    rw [String.ofList_append, String.utf8ByteSize_append] at hj
    omega

theorem isCharBoundary_append (a b : List UInt8) (i : ℕ) :
    Text.isCharBoundary (a ++ b) (a.length + i) = Text.isCharBoundary b i := by
  rw [Text.isCharBoundary, Text.isCharBoundary, getElem?_append_right (Nat.le_add_right _ _),
    Nat.add_sub_cancel_left, length_append]
  split <;> simp

theorem whole_append (a b : List UInt8) (i : ℕ) :
    Whole (a ++ b) (a.length + i) ↔ Whole b i := by
  rw [Whole, Whole, isCharBoundary_append, length_append, Nat.add_le_add_iff_left]

theorem cuts_iff {n : ℕ} : Text.Cuts n (.ofList s) ↔ Whole (Text.encode (.ofList s)) n := by
  rw [Text.Cuts, Whole, Text.isCharBoundary_encode_iff]
  refine or_congr Iff.rfl ⟨?_, ?_⟩
  · rintro ⟨p, r, h, hp⟩
    exact ⟨p.toList, r.toList, by rw [← String.toList_append, ← h, String.toList_ofList],
      by rwa [String.ofList_toList]⟩
  · rintro ⟨p, r, rfl, hp⟩
    exact ⟨.ofList p, .ofList r, String.ofList_append, hp⟩

/-- What is behind a needle, in bytes. -/
theorem behind_eq_some_iff : behind rest = some tail ↔
    Whole (Text.encode (.ofList rest)) secretBytes ∧
      Text.encode (.ofList tail) = (Text.encode (.ofList rest)).drop secretBytes := by
  have hinj : Text.encode (.ofList tail) = [] ↔ [] = tail :=
    ⟨fun h => (String.ofList_inj.1 (@Text.encode_injective (.ofList tail) (.ofList []) h)).symm,
      fun h => by rw [← h]; rfl⟩
  unfold behind
  split
  · rename_i hle
    rw [drop_eq_nil_of_le (by rwa [Text.length_encode]), hinj, Option.some_inj]
    exact ⟨fun h => ⟨.inl hle, h⟩, fun h => h.2⟩
  · rename_i hlt
    rw [Option.map_eq_some_iff]
    simp only [Text.cutAt_eq_some_iff]
    constructor
    · rintro ⟨secret, ⟨⟨r, rfl⟩, hsize⟩, rfl⟩
      refine ⟨.inr (Text.isCharBoundary_encode_iff.2 ⟨secret, r, rfl, hsize⟩), ?_⟩
      rw [drop_left, String.ofList_append, Text.encode_append, secretBytes, ← hsize,
        ← Text.length_encode, drop_left]
    · rintro ⟨hle | hwhole, htail⟩
      · exact absurd hle hlt
      · obtain ⟨secret, r, rfl, hsize⟩ := Text.isCharBoundary_encode_iff.1 hwhole
        refine ⟨secret, ⟨prefix_append _ _, hsize⟩, ?_⟩
        rw [String.ofList_append, Text.encode_append, ← hsize, ← Text.length_encode,
          drop_left] at htail
        rw [drop_left]
        exact (String.ofList_inj.1 (Text.encode_injective htail)).symm

/-- What is behind a whole cut is a text. -/
theorem exists_drop {i : ℕ} (h : Whole (Text.encode (.ofList rest)) i) :
    ∃ tail, Text.encode (.ofList tail) = (Text.encode (.ofList rest)).drop i := by
  obtain hle | hwhole := h
  · exact ⟨[], (drop_eq_nil_of_le hle).symm⟩
  · obtain ⟨p, r, rfl, rfl⟩ := Text.isCharBoundary_encode_iff.1 hwhole
    refine ⟨r, ?_⟩
    rw [String.ofList_append, Text.encode_append, ← Text.length_encode, drop_left]

/-- The bytes around the first place of a needle. -/
theorem encode_of_find (h : find k.toList s = some (p, rest)) :
    Text.encode (.ofList s) = Text.encode (.ofList p ++ k) ++ Text.encode (.ofList rest) ∧
      (Text.encode (.ofList p ++ k)).length =
        (String.ofList p).utf8ByteSize + (Text.encode k).length := by
  obtain ⟨rfl, -⟩ := find_eq_some h
  rw [String.ofList_append, String.ofList_append, String.ofList_toList, Text.encode_append]
  exact ⟨rfl, String.utf8ByteSize_append ..⟩

theorem whole_iff (hk : k ∈ needles) (h : find k.toList s = some (p, rest)) :
    (∀ i ∈ Mask.firstPlace (Text.encode k) (Text.encode (.ofList s)),
      Whole (Text.encode (.ofList s)) (i + (Text.encode k).length + secretBytes)) ↔
      Whole (Text.encode (.ofList rest)) secretBytes := by
  obtain ⟨hbytes, hlen⟩ := encode_of_find h
  rw [firstPlace_eq hk, h, Option.map_some]
  simp only [Option.mem_some, forall_eq']
  rw [← hlen, hbytes, whole_append]

theorem maskHide_eq (hk : k ∈ needles) (h : find k.toList s = some (p, rest)) :
    Mask.hide secretBytes stars (Text.encode k) (Text.encode (.ofList s)) =
      Text.encode (.ofList p ++ k) ++ stars ++ (Text.encode (.ofList rest)).drop secretBytes := by
  have hplace := firstPlace_eq (s := s) hk
  obtain ⟨hbytes, hlen⟩ := encode_of_find h
  rw [h, Option.map_some] at hplace
  rw [Mask.hide, hplace]
  simp only
  rw [hbytes, ← hlen, take_left, drop_length_add_append]

/-- A needle that hides something divides no character, and hides bytes. -/
theorem hide_spec (hk : k ∈ needles) (h : hide s k = some t) :
    (∀ i ∈ Mask.firstPlace (Text.encode k) (Text.encode (.ofList s)),
      Whole (Text.encode (.ofList s)) (i + (Text.encode k).length + secretBytes)) ∧
      Text.encode (.ofList t) =
        Mask.hide secretBytes stars (Text.encode k) (Text.encode (.ofList s)) := by
  unfold hide at h
  cases hfind : find k.toList s with
  | none =>
    rw [hfind] at h
    cases h
    have hplace := firstPlace_eq (s := s) hk
    rw [hfind, Option.map_none] at hplace
    rw [Mask.hide_of_none hplace, hplace]
    exact ⟨fun i hi => (Option.not_mem_none i hi).elim, rfl⟩
  | some x =>
    rw [hfind] at h
    obtain ⟨tail, htail, rfl⟩ := Option.map_eq_some_iff.1 h
    obtain ⟨hwhole, hdrop⟩ := behind_eq_some_iff.1 htail
    refine ⟨(whole_iff hk (p := x.1) hfind).2 hwhole, ?_⟩
    rw [maskHide_eq hk (p := x.1) hfind, ← hdrop, String.ofList_append, String.ofList_append,
      String.ofList_append, String.ofList_toList, String.ofList_toList, Text.encode_append,
      Text.encode_append]
    rfl

theorem exists_hide (hk : k ∈ needles)
    (h : ∀ i ∈ Mask.firstPlace (Text.encode k) (Text.encode (.ofList s)),
      Whole (Text.encode (.ofList s)) (i + (Text.encode k).length + secretBytes)) :
    ∃ t, hide s k = some t := by
  unfold hide
  cases hfind : find k.toList s with
  | none => exact ⟨s, rfl⟩
  | some x =>
    have hwhole := (whole_iff hk (p := x.1) hfind).1 h
    obtain ⟨tail, htail⟩ := exists_drop hwhole
    simp only [behind_eq_some_iff.2 ⟨hwhole, htail⟩]
    exact ⟨_, rfl⟩

end Needle

/-! ## All needles -/

section Run

variable {s t : List Char} {ks : List String} {msg msg' : String}

/-- The needles hide bytes one after the other. -/
theorem encode_of_foldlM (hks : ∀ k ∈ ks, k ∈ needles) (h : ks.foldlM hide s = some t) :
    Text.encode (.ofList t) =
      Mask.hideAll secretBytes stars (ks.map Text.encode) (Text.encode (.ofList s)) := by
  induction ks generalizing s with
  | nil =>
    cases h
    rfl
  | cons k ks ih =>
    obtain ⟨hk, hrest⟩ := forall_mem_cons.1 hks
    rw [foldlM_cons] at h
    obtain ⟨u, hu, h⟩ := Option.bind_eq_some_iff.1 h
    rw [ih hrest h, (hide_spec hk hu).2]
    rfl

/-- The needles and the limit cut a text without a panic when they divide no character. -/
theorem cutsWhole_iff (hks : ∀ k ∈ ks, k ∈ needles) :
    CutsWhole (ks.map Text.encode) (Text.encode (.ofList s)) ↔
      ∃ t, ks.foldlM hide s = some t ∧ Text.Cuts maxLength (.ofList t) := by
  induction ks generalizing s with
  | nil =>
    rw [map_nil, CutsWhole, ← cuts_iff]
    exact ⟨fun h => ⟨s, rfl, h⟩, fun ⟨t, ht, h⟩ => Option.some_inj.1 ht ▸ h⟩
  | cons k ks ih =>
    obtain ⟨hk, hrest⟩ := forall_mem_cons.1 hks
    rw [map_cons, CutsWhole, foldlM_cons]
    constructor
    · rintro ⟨hwhole, hcuts⟩
      obtain ⟨u, hu⟩ := exists_hide hk hwhole
      rw [← (hide_spec hk hu).2, ih hrest] at hcuts
      obtain ⟨t, ht, hcut⟩ := hcuts
      exact ⟨t, by rw [hu]; exact ht, hcut⟩
    · rintro ⟨t, h, hcut⟩
      obtain ⟨u, hu, ht⟩ := Option.bind_eq_some_iff.1 h
      obtain ⟨hwhole, hbytes⟩ := hide_spec hk hu
      refine ⟨hwhole, ?_⟩
      rw [← hbytes, ih hrest]
      exact ⟨t, ht, hcut⟩

/-- The result for a message whose cuts are whole. -/
theorem sanitize_of_clean (h : Clean msg) : ∃ t,
    Text.encode t = Mask.hideAll secretBytes stars markers (plain msg) ∧
      Text.Cuts maxLength t ∧
        sanitizeBuildError msg = Text.truncate (fun _ => note) t maxLength := by
  obtain ⟨t, ht, hcut⟩ := (cutsWhole_iff fun _ hk => hk).1 h
  exact ⟨.ofList t, encode_of_foldlM (fun _ hk => hk) ht, hcut,
    by rw [sanitizeBuildError, ht]; rfl⟩

theorem safe_iff : Safe msg ↔ Clean msg := by
  constructor
  · rintro ⟨t, h, -⟩
    obtain ⟨u, hu, ht⟩ := Option.bind_eq_some_iff.1 h
    refine (cutsWhole_iff fun _ hk => hk).2 ⟨u, hu, ?_⟩
    exact (@Text.truncate_ne_none_iff fun _ => note).1 (by rw [ht]; exact Option.some_ne_none t)
  · intro h
    obtain ⟨s, -, hcut, heq⟩ := sanitize_of_clean h
    obtain ⟨t, ht⟩ := Option.ne_none_iff_exists'.1
      ((@Text.truncate_ne_none_iff (fun _ => note) _ _).2 hcut)
    refine ⟨t, heq.trans ht, ?_⟩
    obtain ⟨hle, rfl⟩ | ⟨-, p, rest, -, hp, rfl⟩ := Text.truncate_eq_some_iff.1 ht
    · exact Nat.le_add_right_of_le hle
    · rw [String.utf8ByteSize_append, hp]

theorem sanitize_eq_of_hideAll (h : Clean msg) (h' : Clean msg')
    (heq : Mask.hideAll secretBytes stars markers (plain msg) =
      Mask.hideAll secretBytes stars markers (plain msg')) :
    sanitizeBuildError msg = sanitizeBuildError msg' := by
  obtain ⟨t, ht, -, hmsg⟩ := sanitize_of_clean h
  obtain ⟨t', ht', -, hmsg'⟩ := sanitize_of_clean h'
  obtain rfl : t = t' := Text.encode_injective (by rw [ht, ht', heq])
  rw [hmsg, hmsg']

/-- A text that is not cut is shown as it is. -/
theorem hideAll_eq_of_sanitize (h : Clean msg) (h' : Clean msg') (hshort : Short msg)
    (hshort' : Short msg') (heq : sanitizeBuildError msg = sanitizeBuildError msg') :
    Mask.hideAll secretBytes stars markers (plain msg) =
      Mask.hideAll secretBytes stars markers (plain msg') := by
  have hself : ∀ {msg : String} {t : String}, Short msg →
      Text.encode t = Mask.hideAll secretBytes stars markers (plain msg) →
        Text.truncate (fun _ => note) t maxLength = some t := by
    intro msg t hshort ht
    refine if_pos ?_
    rw [← Text.length_encode, ht]
    exact (Mask.length_hideAll_le _ _ _ _).trans hshort
  obtain ⟨t, ht, -, hmsg⟩ := sanitize_of_clean h
  obtain ⟨t', ht', -, hmsg'⟩ := sanitize_of_clean h'
  rw [hmsg, hmsg', hself hshort ht, hself hshort' ht', Option.some_inj] at heq
  rw [← ht, ← ht', heq]

end Run

/-! ## When it does what it should -/

theorem differ_of_lt {α : Type} {l l' : List α} {P : ℕ → Prop} (hlen : l.length = l'.length)
    (h : ∀ i < l.length, l[i]? ≠ l'[i]? → P i) : ∀ i, l[i]? ≠ l'[i]? → P i := by
  intro i hi
  refine h i (Nat.lt_of_not_le fun hle => hi ?_) hi
  rw [getElem?_eq_none hle, getElem?_eq_none (hlen ▸ hle)]

end FloatCtf.Content.BuildError
