import FloatCtf.Net.Form
import FloatCtf.Net.Text

/-!
# Redirect URIs

What is accepted when a redirect URI is registered, the comparison at the authorization endpoint,
and how the parameters of a response are added to the query.

The parser of the `url` crate is a parameter.  `Url` has the parts of a parsed URL that the platform
looks at, with the serialization up to the query as one string of bytes, and `Whatwg` says what the
URL standard promises of the parts.
-/

namespace FloatCtf.Oidc

open Text (isWhitespace isControl)

/-! ## URLs -/

/-- The parts of a parsed address. -/
structure Url where
  scheme : String
  username : String
  password : Option String
  host : Option String
  /-- The serialization up to the query: scheme, authority and path. -/
  front : Form.Bytes
  query : Option Form.Bytes
  fragment : Option Form.Bytes
  deriving DecidableEq

/-- The parser of addresses. -/
abbrev UrlParser := String → Except String Url

/-- Before the query the standard escapes `?` and `#`, and in the query `#`. -/
def Whatwg (parse : UrlParser) : Prop :=
  ∀ s u, parse s = .ok u →
    0x3F ∉ u.front ∧ 0x23 ∉ u.front ∧ ∀ q ∈ u.query, (0x23 : UInt8) ∉ q

/-- The text of an address. -/
def Url.serialize (u : Url) : Form.Bytes :=
  u.front ++ (match u.query with
    | some q => 0x3F :: q
    | none => []) ++
  match u.fragment with
  | some f => 0x23 :: f
  | none => []

/-- What stands between the first `?` and the fragment. -/
def queryOf (url : Form.Bytes) : Form.Bytes :=
  ((url.takeWhile (· ≠ 0x23)).dropWhile (· ≠ 0x3F)).drop 1

/-- The parameters of a URL. -/
def queryPairs (url : Form.Bytes) : List (String × String) :=
  (Form.parse (queryOf url)).map fun p => (Text.decodeLossy p.1, Text.decodeLossy p.2)

/-- The pairs in the query of an address. -/
def Url.ownPairs (u : Url) : List (String × String) :=
  (Form.parse (u.query.getD [])).map fun p => (Text.decodeLossy p.1, Text.decodeLossy p.2)

/-! ## Registration -/

/-- The longest redirect. -/
def maxRedirectUriLen : Nat := 2000

/-- The largest number of redirects. -/
def maxRedirectUris : Nat := 10

/-- A name or an address of the machine itself. -/
def isLoopbackHost (host : String) : Bool := host ∈ ["localhost", "127.0.0.1", "[::1]", "::1"]

/-- The scheme of a redirect URI with the given host. -/
def checkScheme (scheme host : String) (allowLoopback : Bool) : Except String Unit :=
  if scheme = "https" then .ok ()
  else if scheme = "http" ∧ isLoopbackHost host then
    if allowLoopback then .ok ()
    else .error "本平台未开启 loopback（http://127.0.0.1 / localhost）回调"
  else if scheme = "http" then
    .error "回调地址必须使用 https（http 仅限已开启的 loopback 开发回调）"
  else .error s!"不支持的回调 scheme：{scheme}"

/-- `validate_registration`: the checks of a redirect. -/
def validateRegistration (parse : UrlParser) (uri : String) (allowLoopback : Bool) :
    Except String Unit :=
  if uri = "" ∨ maxRedirectUriLen < uri.utf8ByteSize then
    .error "回调地址长度必须在 1..=2000 之间"
  else if uri.toList.any fun c => isWhitespace c || isControl c then
    .error "回调地址不得包含空白或控制字符"
  else if '#' ∈ uri.toList then .error "回调地址不得包含 fragment（#）"
  else
    match parse uri with
    | .error e => .error s!"回调地址不是合法的绝对 URL：{e}"
    | .ok parsed =>
      if parsed.username ≠ "" ∨ parsed.password.isSome then .error "回调地址不得包含用户名/密码"
      else
        match parsed.host with
        | none => .error "回调地址缺少主机名"
        | some host =>
          if '*' ∈ host.toList then .error "回调地址不允许通配符"
          else checkScheme parsed.scheme host allowLoopback

/-- What is accepted can be parsed. -/
theorem parse_of_validateRegistration {parse : UrlParser} {uri : String} {allowLoopback : Bool}
    (h : validateRegistration parse uri allowLoopback = .ok ()) : ∃ u, parse uri = .ok u := by
  unfold validateRegistration at h
  split_ifs at h
  cases hp : parse uri with
  | error e => simp [hp] at h
  | ok u => exact ⟨u, rfl⟩

/-! ## Responses -/

/-- Byte for byte. -/
def isRegistered (registered : List String) (requested : String) : Bool :=
  registered.any (· = requested)

/-- The parameters of a response after those that the redirect URI has. -/
def appendQuery (parse : UrlParser) (redirectUri : String) (params : List (String × String)) :
    Form.Bytes :=
  match parse redirectUri with
  | .error _ => Text.encode redirectUri
  | .ok url =>
    Url.serialize { url with
      query := some ((params.map fun p => (Text.encode p.1, Text.encode p.2)).foldl Form.appendPair
        (url.query.getD [])) }

theorem queryOf_serialize {u : Url} {q : Form.Bytes} (hfront : 0x3F ∉ u.front)
    (hhash : (0x23 : UInt8) ∉ u.front) (hq : (0x23 : UInt8) ∉ q) :
    queryOf (Url.serialize { u with query := some q }) = q := by
  have hplain : ∀ b ∈ u.front ++ 0x3F :: q, decide (b ≠ 0x23) = true := by
    intro b hb
    simp only [decide_eq_true_eq]
    rintro rfl
    rcases List.mem_append.1 hb with hb | hb
    · exact hhash hb
    · rcases List.mem_cons.1 hb with hb | hb
      · exact absurd hb (by decide)
      · exact hq hb
  have hcut : (Url.serialize { u with query := some q }).takeWhile (· ≠ 0x23) =
      u.front ++ 0x3F :: q := by
    unfold Url.serialize
    rw [List.takeWhile_append_of_pos hplain]
    cases u.fragment with
    | none => simp
    | some f => simp
  have hbefore : ∀ b ∈ u.front, decide (b ≠ 0x3F) = true := by
    intro b hb
    simp only [decide_eq_true_eq]
    rintro rfl
    exact hfront hb
  rw [queryOf, hcut, List.dropWhile_append_of_pos hbefore]
  simp

/-- The URL of a response has the parameters of the redirect URI, and then those of the response. -/
theorem queryPairs_appendQuery {parse : UrlParser} (hparse : Whatwg parse) {uri : String} {u : Url}
    (hu : parse uri = .ok u) (params : List (String × String)) :
    queryPairs (appendQuery parse uri params) = u.ownPairs ++ params := by
  obtain ⟨hfront, hhash, hquery⟩ := hparse uri u hu
  have hown : (0x23 : UInt8) ∉ u.query.getD [] := by
    cases hq : u.query with
    | none => exact List.not_mem_nil
    | some q => exact hquery q hq
  rw [appendQuery, hu]
  rw [queryPairs, queryOf_serialize hfront hhash (Form.not_mem_foldl_appendPair _ hown),
    Form.parse_foldl_appendPair, List.map_append, List.map_map]
  congr 1
  conv_rhs => rw [← List.map_id params]
  exact List.map_congr_left fun p _ => by
    simp [Text.decodeLossy_encode]

end FloatCtf.Oidc
