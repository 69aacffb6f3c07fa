import FloatCtf.Net.Base64
import FloatCtf.Net.Form
import FloatCtf.Net.Text
import FloatCtf.Oidc.Domain

/-!
# The authentication that a client presents

How the token endpoint reads the `Authorization` header and the fields of the form, down to the
escapes of a component.  An index out of bounds is a panic of the model; the `base64` crate is a
parameter.
-/

namespace FloatCtf.Oidc.ClientAuth

open Text (encode ofUtf8 splitOnce toAsciiLowercase)

/-- How a client has presented itself. -/
inductive PresentedClientAuth where
  | basic (clientId secret : String)
  | post (clientId secret : String)
  | none (clientId : String)
  deriving DecidableEq

/-- The client that is claimed. -/
def PresentedClientAuth.clientId : PresentedClientAuth → String
  | .basic clientId _ | .post clientId _ | .none clientId => clientId

/-- An index out of bounds. -/
structure Panic where
  deriving DecidableEq

/-- A computation that may panic. -/
abbrev Run := Except Panic

/-! ## Escapes -/

/-- The digits after the sign that an unsigned number may have. -/
def stripPlus (src : List UInt8) : List UInt8 :=
  if src.head? = some 0x2B then src.tail else src

/-- `u8::from_str_radix` for radix 16. -/
def fromStrRadix16 (src : List UInt8) : Option UInt8 :=
  let digits := stripPlus src
  let push (n : ℕ) (b : UInt8) : Option ℕ := do
    let d ← Form.hexValue b
    if n * 16 + d.toNat < 256 then some (n * 16 + d.toNat) else none
  if digits = [] then none else (digits.foldlM push 0).map UInt8.ofNat

/-- A byte by its place; past the end it panics. -/
def index (bytes : List UInt8) (i : ℕ) : Run UInt8 :=
  match bytes[i]? with
  | some b => .ok b
  | none => .error ⟨⟩

/-- The loop of `percent_decode` from an index on. -/
def percentLoop (bytes : List UInt8) (i : ℕ) (out : List UInt8) : Run (Option (List UInt8)) :=
  if i < bytes.length then
    match index bytes i with
    | .error p => .error p
    | .ok b =>
      if b = 0x25 then
        match (Text.getRange bytes (i + 1) (i + 3)).bind fromStrRadix16 with
        | none => .ok none
        | some v => percentLoop bytes (i + 3) (out ++ [v])
      else percentLoop bytes (i + 1) (out ++ [b])
  else .ok (some out)
termination_by bytes.length - i

/-- Decodes the percent escapes into a string. -/
def percentDecode (input : String) : Run (Option String) :=
  (percentLoop (encode input) 0 []).map (·.bind ofUtf8)

/-- `str::replace` of `+` by a space. -/
def replacePlus (s : String) : String :=
  .ofList (s.toList.map fun c => if c = '+' then ' ' else c)

/-- Decodes a component of a form. -/
def formDecode (component : String) : Run (Option String) := percentDecode (replacePlus component)

/-! ## The header and the form -/

/-- The `base64` crate with the standard alphabet. -/
structure Engine where
  encode : List UInt8 → String
  decode : String → Option (List UInt8)

/-- What is encoded is decoded again, and is written with the alphabet and padding. -/
structure Engine.Lawful (e : Engine) : Prop where
  decode_encode : ∀ bs, e.decode (e.encode bs) = some bs
  mem_encode : ∀ bs, ∀ c ∈ (e.encode bs).toList, c ∈ Base64.alphabet ∨ c = '='
  encode_ne : ∀ bs, bs ≠ [] → e.encode bs ≠ ""

section Identify

variable (e : Engine)

/-- The components of a Basic header, before they are decoded. -/
def credentials (header : String) : Option (String × String) := do
  let (scheme, value) ← splitOnce ' ' (Text.trim header)
  if toAsciiLowercase scheme ≠ "basic" ∨ 2048 < value.utf8ByteSize then none
  else
    let decoded ← e.decode (Text.trim value)
    let decoded ← ofUtf8 decoded
    splitOnce ':' decoded

/-- The error of a malformed header. -/
def invalid : OAuthError := .invalidClient "malformed Basic client authentication"

/-- The id and the secret in a header for Basic authentication. -/
def parseBasic (header : String) : Run (Except OAuthError (String × String)) :=
  match credentials e header with
  | none => .ok (.error invalid)
  | some (rawId, rawSecret) => do
    match ← formDecode rawId with
    | none => return .error invalid
    | some clientId =>
      match ← formDecode rawSecret with
      | none => return .error invalid
      | some secret =>
        return if clientId = "" then .error invalid else .ok (clientId, secret)

/-- `identify`: the header, the form, or a public client. -/
def identify (authorizationHeader formClientId formClientSecret : Option String) :
    Run (Except OAuthError PresentedClientAuth) :=
  match authorizationHeader with
  | some header => do
    match ← parseBasic e header with
    | .error err => return .error err
    | .ok (clientId, secret) =>
      if formClientSecret.isSome then
        return .error (.invalidRequest "multiple client authentication methods used")
      else if formClientId.any (· ≠ clientId) then
        return .error (.invalidRequest "client_id does not match client authentication")
      else return .ok (.basic clientId secret)
  | none =>
    match formClientId, formClientSecret with
    | some id, some secret =>
      if id ≠ "" then .ok (.ok (.post id secret))
      else .ok (.error (.invalidClient "client authentication required"))
    | some id, none =>
      if id ≠ "" then .ok (.ok (.none id))
      else .ok (.error (.invalidClient "client authentication required"))
    | none, _ => .ok (.error (.invalidClient "client authentication required"))

end Identify

/-! ## The decoder -/

theorem toNat_hexValue_lt {b x : UInt8} (h : Form.hexValue b = some x) : x.toNat < 16 := by
  have key : ∀ n : Fin 256, (Form.hexValue (UInt8.ofNat n)).all (·.toNat < 16) := by
    decide +kernel
  have hb := key ⟨b.toNat, b.toNat_lt⟩
  simpa only [UInt8.ofNat_toNat, h, Option.all_some, decide_eq_true_eq] using hb

/-- Two digits without a sign. -/
theorem fromStrRadix16_pair {h l : UInt8} (hh : h ≠ 0x2B) : fromStrRadix16 [h, l] =
    (Form.hexValue h).bind fun x => (Form.hexValue l).map fun y => x * 16 + y := by
  have hdigits : stripPlus [h, l] = [h, l] := if_neg fun heq => hh (Option.some.inj heq)
  rw [fromStrRadix16, hdigits]
  cases hx : Form.hexValue h with
  | none => simp [hx]
  | some x =>
    have hx16 := toNat_hexValue_lt hx
    cases hy : Form.hexValue l with
    | none => simp [hx, hy, show x.toNat < 256 by omega]
    | some y =>
      have hy16 := toNat_hexValue_lt hy
      simp [hx, hy, show x.toNat < 256 by omega, show x.toNat * 16 + y.toNat < 256 by omega]

/-- The bytes of an escape are cut out of a string. -/
theorem getRange_escape {bytes : List UInt8} {i : ℕ} {a h l : UInt8} {rest : List UInt8}
    (hchain : bytes.IsChain fun a b => a < 0x80 → Text.isContinuation b = false)
    (hdrop : bytes.drop i = a :: h :: l :: rest) (ha : a < 0x80) (hl : l < 0x80) :
    Text.getRange bytes (i + 1) (i + 3) = some [h, l] := by
  have hget : ∀ k, bytes[i + k]? = (a :: h :: l :: rest)[k]? := by
    intro k
    rw [← hdrop, List.getElem?_drop]
  have hfirst : Text.isContinuation h = false := by
    have := hchain.drop i
    rw [hdrop, List.isChain_cons_cons] at this
    exact this.1 ha
  have hone : Text.isCharBoundary bytes (i + 1) = true := by
    rw [Text.isCharBoundary, hget 1]
    simp [hfirst]
  have hthree : Text.isCharBoundary bytes (i + 3) = true := by
    rw [Text.isCharBoundary, hget 3]
    cases rest with
    | nil =>
      have hlen := congrArg List.length hdrop
      rw [List.length_drop] at hlen
      simp only [List.length_cons, List.length_nil] at hlen
      simp only [List.getElem?_cons_succ, List.getElem?_nil, decide_eq_true_eq]
      omega
    | cons b rest =>
      have := hchain.drop i
      rw [hdrop, List.isChain_cons_cons, List.isChain_cons_cons, List.isChain_cons_cons] at this
      simp [this.2.2.1 hl]
  rw [Text.getRange, if_pos ⟨by omega, hone, hthree⟩, ← List.drop_drop, hdrop]
  simp

theorem getRange_short {bytes : List UInt8} {i : ℕ} (h : bytes.length < i + 3) :
    Text.getRange bytes (i + 1) (i + 3) = none := by
  rw [Text.getRange, if_neg]
  rintro ⟨-, -, hb⟩
  rw [Text.isCharBoundary, List.getElem?_eq_none (by omega)] at hb
  have : i + 3 = bytes.length := by simpa using hb
  omega

/-- What is cut out is the next two bytes. -/
theorem getRange_eq_some {bytes : List UInt8} {i : ℕ} {a h l : UInt8} {rest hex : List UInt8}
    (hdrop : bytes.drop i = a :: h :: l :: rest)
    (hhex : Text.getRange bytes (i + 1) (i + 3) = some hex) : hex = [h, l] := by
  rw [Text.getRange] at hhex
  split at hhex
  · rw [← List.drop_drop, hdrop] at hhex
    simpa using hhex.symm
  · cases hhex

theorem hexValue_lt {b : UInt8} (h : (Form.hexValue b).isSome) : b < 0x80 := by
  unfold Form.hexValue at h
  split_ifs at h with hdigit hupper hlower <;>
    simp only [UInt8.le_iff_toNat_le, UInt8.lt_iff_toNat_lt, UInt8.reduceToNat] at *
  · omega
  · omega
  · omega
  · cases h

section Loop

variable {bytes : List UInt8}

/-- An escape is read as the form encoding says, or refused. -/
theorem unescape_percent (hplus : 0x2B ∉ bytes)
    (hchain : bytes.IsChain fun a b => a < 0x80 → Text.isContinuation b = false) {i : ℕ}
    {rest : List UInt8} (hdrop : bytes.drop i = 0x25 :: rest) :
    Form.unescape (0x25 :: rest) =
      ((Text.getRange bytes (i + 1) (i + 3)).bind fromStrRadix16).bind fun v =>
        (Form.unescape (rest.drop 2)).map (v :: ·) := by
  have hlen := congrArg List.length hdrop
  rw [List.length_drop, List.length_cons] at hlen
  match rest with
  | [] =>
    rw [getRange_short (by simp only [List.length_nil] at hlen; omega)]
    rfl
  | [_] =>
    rw [getRange_short (by simp only [List.length_cons, List.length_nil] at hlen; omega)]
    rfl
  | h :: l :: rest =>
    have hne : h ≠ 0x2B := by
      rintro rfl
      have hmem : (0x2B : UInt8) ∈ bytes.drop i := by simp [hdrop]
      exact hplus (List.mem_of_mem_drop hmem)
    rw [Form.unescape, if_pos rfl]
    cases hg : Text.getRange bytes (i + 1) (i + 3) with
    | some hex =>
      rw [getRange_eq_some hdrop hg, Option.bind_some, fromStrRadix16_pair hne]
      cases Form.hexValue h <;> cases Form.hexValue l <;> rfl
    | none =>
      cases hx : Form.hexValue h with
      | none => rfl
      | some x =>
        cases hy : Form.hexValue l with
        | none => rfl
        | some y =>
          rw [getRange_escape hchain hdrop (by decide) (hexValue_lt (by simp [hy]))] at hg
          cases hg

theorem drop_of_index {i : ℕ} {b : UInt8} (h : index bytes i = .ok b) :
    bytes.drop i = b :: bytes.drop (i + 1) := by
  unfold index at h
  split at h
  · rename_i b' hb
    cases h
    obtain ⟨hlt, rfl⟩ := List.getElem?_eq_some_iff.1 hb
    exact List.drop_eq_getElem_cons hlt
  · cases h

theorem percentLoop_eq (hplus : 0x2B ∉ bytes)
    (hchain : bytes.IsChain fun a b => a < 0x80 → Text.isContinuation b = false) (i : ℕ)
    (out : List UInt8) :
    percentLoop bytes i out = .ok ((Form.unescape (bytes.drop i)).map (out ++ ·)) := by
  fun_induction percentLoop bytes i out with
  | case1 i out hlt p hindex => simp [index, List.getElem?_eq_getElem hlt] at hindex
  | case2 i out hlt hnone hindex =>
    have hdrop := drop_of_index hindex
    rw [hdrop, unescape_percent hplus hchain hdrop, hnone]
    rfl
  | case3 i out hlt v hv hindex ih =>
    have hdrop := drop_of_index hindex
    rw [ih, hdrop, unescape_percent hplus hchain hdrop, hv, Option.bind_some, List.drop_drop]
    simp [Option.map_map, Function.comp_def]
  | case4 i out hlt b hindex hb ih =>
    rw [ih, drop_of_index hindex, Form.unescape_cons hb]
    simp [Option.map_map, Function.comp_def]
  | case5 i out hlt =>
    rw [List.drop_eq_nil_of_le (by omega)]
    simp [Form.unescape]

end Loop

/-! ## Components -/

theorem encode_replacePlus (s : String) :
    encode (replacePlus s) = Form.plusToSpace (encode s) := by
  obtain ⟨cs, rfl⟩ : ∃ cs, s = .ofList cs := ⟨s.toList, by simp⟩
  rw [replacePlus, Text.encode_ofList, Text.encode_ofList, String.toList_ofList, Form.plusToSpace,
    List.flatMap_map, List.map_flatMap]
  refine List.flatMap_congr fun c _ => ?_
  by_cases hc : c = '+'
  · rw [hc]
    decide
  · have hne : ∀ b ∈ String.utf8EncodeChar c, b ≠ 0x2B := by
      rintro b hb rfl
      exact hc (Char.toNat_inj.1 ((Text.mem_utf8EncodeChar_of_lt (by decide)).1 hb))
    rw [if_neg hc]
    refine ((List.map_congr_left fun b hb => ?_).trans (List.map_id _)).symm
    exact if_neg (hne b hb)

/-- What a component stands for: every `%` in it begins an escape, and the bytes are UTF-8. -/
def StandsFor (raw s : String) : Prop :=
  Form.Escaped (encode raw) ∧ encode s = Form.decode (encode raw)

theorem formDecode_eq (raw : String) :
    formDecode raw = .ok ((Form.unescape (Form.plusToSpace (encode raw))).bind ofUtf8) := by
  have hplus : 0x2B ∉ encode (replacePlus raw) := by
    rw [encode_replacePlus, Form.plusToSpace, List.mem_map]
    rintro ⟨b, -, hb⟩
    split_ifs at hb with h
    · cases hb
    · exact h hb
  rw [formDecode, percentDecode, percentLoop_eq hplus (Text.isChain_encode _).2,
    encode_replacePlus]
  simp [Except.map]

/-- A component is decoded to what it stands for, and refused if it stands for nothing. -/
theorem formDecode_spec (raw : String) :
    ∃ r, formDecode raw = .ok r ∧ ∀ s, r = some s ↔ StandsFor raw s := by
  refine ⟨_, formDecode_eq raw, fun s => ?_⟩
  rw [Option.bind_eq_some_iff, StandsFor]
  constructor
  · rintro ⟨bs, hbs, hs⟩
    obtain ⟨he, rfl⟩ := Form.unescape_eq_some_iff.1 hbs
    exact ⟨Form.escaped_plusToSpace.1 he, Text.ofUtf8_eq_some_iff.1 hs⟩
  · rintro ⟨he, hs⟩
    exact ⟨_, Form.unescape_eq_some_iff.2 ⟨Form.escaped_plusToSpace.2 he, rfl⟩,
      Text.ofUtf8_eq_some_iff.2 hs⟩

/-- The form encoding of a string. -/
def formEncode (s : String) : String := Text.ofAscii (Form.serialize (encode s))

theorem encode_formEncode (s : String) : encode (formEncode s) = Form.serialize (encode s) :=
  Text.encode_ofAscii fun _ hb => (Form.lt_of_mem_serialize hb).1

theorem formDecode_formEncode (s : String) : formDecode (formEncode s) = .ok (some s) := by
  obtain ⟨r, hr, hiff⟩ := formDecode_spec (formEncode s)
  have hs : StandsFor (formEncode s) s := by
    rw [StandsFor, encode_formEncode, Form.decode_serialize]
    exact ⟨Form.escaped_serialize _, rfl⟩
  rw [hr, (hiff s).2 hs]

/-- The credentials that RFC 6749 puts into a Basic header. -/
def payload (id secret : String) : List UInt8 :=
  encode (formEncode id ++ (String.singleton ':' ++ formEncode secret))

section Credentials

variable {e : Engine}

/-- The symbols of the encoding are neither white space nor anything else that is cut off. -/
theorem not_isWhitespace_of_mem (hE : e.Lawful) {bs : List UInt8} {c : Char}
    (hc : c ∈ (e.encode bs).toList) : Text.isWhitespace c = false := by
  obtain h | rfl := hE.mem_encode bs c hc
  · have key : Base64.alphabet.all fun c => !Text.isWhitespace c := by decide +kernel
    simpa using List.all_eq_true.1 key c h
  · decide

theorem trim_encode (hE : e.Lawful) (bs : List UInt8) :
    Text.trim (e.encode bs) = e.encode bs :=
  Text.trim_eq_self (fun _ hc => not_isWhitespace_of_mem hE (List.mem_of_mem_head? hc))
    fun _ hc => not_isWhitespace_of_mem hE (List.mem_of_mem_getLast? hc)

theorem colon_not_mem_formEncode (s : String) : ':' ∉ (formEncode s).toList := by
  rw [formEncode, Text.ofAscii, String.toList_ofList, List.mem_map]
  rintro ⟨b, hb, heq⟩
  obtain ⟨hlt, hne⟩ := Form.lt_of_mem_serialize hb
  have hn := congrArg Char.toNat heq
  rw [Text.toNat_ofNat_of_lt (UInt8.lt_iff_toNat_lt.1 hlt)] at hn
  exact hne (UInt8.toNat_inj.1 hn)

theorem payload_ne_nil (id secret : String) : payload id secret ≠ [] := by
  have hmem : (0x3A : UInt8) ∈ payload id secret := by
    have hcolon : (0x3A : UInt8) ∈ encode (String.singleton ':') := by decide
    rw [payload, Text.encode_append, Text.encode_append]
    exact List.mem_append_right _ (List.mem_append_left _ hcolon)
  exact List.ne_nil_of_mem hmem

theorem credentials_payload (hE : e.Lawful) {id secret : String}
    (hlen : (e.encode (payload id secret)).utf8ByteSize ≤ 2048) :
    credentials e ("Basic " ++ e.encode (payload id secret)) =
      some (formEncode id, formEncode secret) := by
  have hne := hE.encode_ne _ (payload_ne_nil id secret)
  have hsplit : "Basic " ++ e.encode (payload id secret) =
      "Basic" ++ (String.singleton ' ' ++ e.encode (payload id secret)) := by
    rw [← String.append_assoc]
    rfl
  have htrim : Text.trim ("Basic " ++ e.encode (payload id secret)) =
      "Basic " ++ e.encode (payload id secret) := by
    refine Text.trim_eq_self (fun c hc => ?_) fun c hc => ?_
    · rw [String.toList_append] at hc
      cases hc
      decide
    · have hlist : (e.encode (payload id secret)).toList ≠ [] := by simpa using hne
      rw [String.toList_append, List.getLast?_append_of_ne_nil _ hlist] at hc
      exact not_isWhitespace_of_mem hE (List.mem_of_mem_getLast? hc)
  have hbasic : toAsciiLowercase "Basic" = "basic" := by decide
  rw [credentials, htrim, hsplit, Text.splitOnce_append (by decide)]
  simp only [Option.bind_eq_bind, Option.bind_some, hbasic, ne_eq, not_true_eq_false, false_or,
    if_neg (Nat.not_lt.2 hlen), trim_encode hE, hE.decode_encode]
  rw [payload, Text.ofUtf8_encode, Option.bind_some,
    Text.splitOnce_append (colon_not_mem_formEncode id)]

/-- A Basic header is refused, or gives what its two components stand for. -/
theorem parseBasic_spec (e : Engine) (header : String) :
    parseBasic e header = .ok (.error invalid) ∨
    ∃ rawId rawSecret id secret, credentials e header = some (rawId, rawSecret) ∧
      StandsFor rawId id ∧ StandsFor rawSecret secret ∧
      parseBasic e header = .ok (.ok (id, secret)) := by
  unfold parseBasic
  cases hc : credentials e header with
  | none => exact .inl rfl
  | some raw =>
    obtain ⟨rawId, rawSecret⟩ := raw
    obtain ⟨r, hr, hid⟩ := formDecode_spec rawId
    obtain ⟨q, hq, hsecret⟩ := formDecode_spec rawSecret
    dsimp only
    rw [hr, hq]
    match r, q with
    | none, _ => exact .inl rfl
    | some _, none => exact .inl rfl
    | some id, some secret =>
      by_cases hempty : id = ""
      · left
        simp [hempty, bind, Except.bind, pure, Except.pure]
      · refine .inr ⟨rawId, rawSecret, id, secret, rfl, (hid id).1 rfl, (hsecret secret).1 rfl, ?_⟩
        simp [hempty, bind, Except.bind, pure, Except.pure]

theorem parseBasic_payload (hE : e.Lawful) {id secret : String} (hid : id ≠ "")
    (hlen : (e.encode (payload id secret)).utf8ByteSize ≤ 2048) :
    parseBasic e ("Basic " ++ e.encode (payload id secret)) = .ok (.ok (id, secret)) := by
  rw [parseBasic, credentials_payload hE hlen]
  simp [formDecode_formEncode, hid, bind, Except.bind, pure, Except.pure]

end Credentials

/-! ## What is accepted -/

/-- The conditions on an accepted request: one method, one client, and a header whose components
stand for the client and its secret. -/
structure Accepts (e : Engine) (header formId formSecret : Option String)
    (auth : PresentedClientAuth) : Prop where
  one_method : ¬ (header.isSome ∧ formSecret.isSome)
  one_client : ∀ id ∈ formId, id = auth.clientId
  components : ∀ h ∈ header, ∃ rawId rawSecret secret,
    credentials e h = some (rawId, rawSecret) ∧ StandsFor rawId auth.clientId ∧
      StandsFor rawSecret secret ∧ auth = .basic auth.clientId secret

theorem identify_header (e : Engine) (h : String) (formId formSecret : Option String) :
    ∃ r, identify e (some h) formId formSecret = .ok r ∧
      ∀ auth, r = .ok auth → Accepts e (some h) formId formSecret auth := by
  obtain herr | ⟨rawId, rawSecret, id, secret, hc, hid, hsecret, hok⟩ := parseBasic_spec e h
  · exact ⟨.error invalid, by simp [identify, herr, bind, Except.bind, pure, Except.pure], nofun⟩
  · simp only [identify, hok, bind, Except.bind, pure, Except.pure]
    split_ifs with hs hf
    · exact ⟨_, rfl, nofun⟩
    · exact ⟨_, rfl, nofun⟩
    · refine ⟨_, rfl, ?_⟩
      rintro _ ⟨⟩
      refine ⟨fun h => hs h.2, ?_, ?_⟩
      · intro id' hid'
        by_contra hne
        rw [Option.mem_def] at hid'
        simp [hid', show id' ≠ id from hne] at hf
      · rintro _ ⟨⟩
        exact ⟨rawId, rawSecret, secret, hc, hid, hsecret, rfl⟩

theorem identify_form (e : Engine) (formId formSecret : Option String) :
    ∃ r, identify e none formId formSecret = .ok r ∧
      ∀ auth, r = .ok auth → Accepts e none formId formSecret auth := by
  match formId, formSecret with
  | none, _ => exact ⟨_, rfl, nofun⟩
  | some id, none =>
    by_cases h : id = ""
    · exact ⟨.error _, by rw [identify, if_neg (not_not_intro h)], nofun⟩
    · refine ⟨.ok _, by rw [identify, if_pos h], ?_⟩
      rintro _ ⟨⟩
      exact ⟨by simp, by simp [PresentedClientAuth.clientId], by simp⟩
  | some id, some secret =>
    by_cases h : id = ""
    · exact ⟨.error _, by rw [identify, if_neg (not_not_intro h)], nofun⟩
    · refine ⟨.ok _, by rw [identify, if_pos h], ?_⟩
      rintro _ ⟨⟩
      exact ⟨by simp, by simp [PresentedClientAuth.clientId], by simp⟩

/-- The header that a client writes is read as its id and secret; the authentication is identified
without a panic for all headers and forms, and what is accepted is one method of one client, with
components that stand for what is read. -/
theorem identify_spec {e : Engine} (hE : e.Lawful) :
    (∀ id secret, id ≠ "" → (e.encode (payload id secret)).utf8ByteSize ≤ 2048 →
      identify e (some ("Basic " ++ e.encode (payload id secret))) none none =
        .ok (.ok (.basic id secret))) ∧
    (∀ header formId formSecret, ∃ r, identify e header formId formSecret = .ok r ∧
      ∀ auth, r = .ok auth → Accepts e header formId formSecret auth) ∧
    ∀ raw, ∃ r, formDecode raw = .ok r ∧ ∀ s, r = some s ↔ StandsFor raw s := by
  refine ⟨fun id secret hid hlen => ?_, fun header formId formSecret => ?_, formDecode_spec⟩
  · rw [identify, parseBasic_payload hE hid hlen]
    rfl
  · cases header with
    | none => exact identify_form e formId formSecret
    | some h => exact identify_header e h formId formSecret

/-- The standard alphabet. -/
def standard : Engine where
  encode bs := .ofList (Base64.encode bs)
  decode s := Base64.decode s.toList

theorem standard_lawful : standard.Lawful where
  decode_encode bs := by simp [standard, Base64.decode_encode]
  mem_encode bs c hc := Base64.mem_encode (by simpa [standard] using hc)
  encode_ne bs hne h := by
    have hnil : Base64.encode bs = [] := by
      have := congrArg String.toList h
      simpa [standard] using this
    exact hne (Base64.encode_eq_nil_iff.1 hnil)

/-- A client and a secret with a space, a plus and letters that are not ASCII. -/
theorem identify_standard :
    (standard.encode (payload "应用 a" "x+y %")).utf8ByteSize ≤ 2048 ∧
    identify standard (some ("Basic " ++ standard.encode (payload "应用 a" "x+y %"))) none none =
      .ok (.ok (.basic "应用 a" "x+y %")) :=
  have hlen : (standard.encode (payload "应用 a" "x+y %")).utf8ByteSize ≤ 2048 := by
    decide +kernel
  ⟨hlen, (identify_spec standard_lawful).1 _ _ (by decide) hlen⟩

end FloatCtf.Oidc.ClientAuth
