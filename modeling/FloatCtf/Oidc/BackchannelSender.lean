import FloatCtf.Net.Ip
import FloatCtf.Net.Text

/-!
# Where logout tokens are sent

Which addresses the sender of back-channel logout tokens connects to: the test for a public
address, the resolver that leaves out the other addresses, and the choice of a client for a target.

The parser of the `url` crate and the lookup of names are parameters.  The clients connect to a
literal host as it is and to the addresses of their resolver otherwise.
-/

namespace FloatCtf.Oidc.BackchannelSender

open Block (Same)
open Text (toAsciiLowercase)
open Ip

/-! ## Public addresses -/

/-- The tests of an IPv4 address. -/
def isPublicV4 (ip : Ipv4Addr) : Bool :=
  !(ip.isPrivate || ip.isLoopback || ip.isLinkLocal || ip.isBroadcast || ip.isDocumentation
    || ip.isUnspecified || ip.isMulticast || ip.o0 = 0
    || (ip.o0 = 100 && ip.o1 &&& 0xc0 = 64)
    || (ip.o0 = 192 && ip.o1 = 0 && ip.o2 = 0)
    || (ip.o0 = 198 && ip.o1 &&& 0xfe = 18)
    || 240 ≤ ip.o0)

/-- `is_public_ip`: the tests of an address, through the mapped form as well. -/
def isPublicIp : IpAddr → Bool
  | .v4 v4 => isPublicV4 v4
  | .v6 v6 =>
    match v6.toIpv4Mapped with
    | some v4 => isPublicV4 v4
    | none =>
      !(v6.isLoopback || v6.isUnspecified || v6.isMulticast
        || v6.s0 &&& 0xfe00 = 0xfc00
        || v6.s0 &&& 0xffc0 = 0xfe80
        || (v6.s0 = 0x2001 && v6.s1 = 0x0db8)
        || (v6.s0 = 0x0064 && v6.s1 = 0xff9b)
        || v6.s0 = 0x2002
        || (v6.s0 = 0x2001 && v6.s1 < 0x0200))

/-! ## The sender -/

/-- What the sender reads of a parsed URL. -/
structure Target where
  scheme : String
  host : Option String
  /-- The port, or the one that the scheme is known for. -/
  port : Option ℕ

/-- Parsing of the `url` crate. -/
abbrev UrlParser := String → Option Target

/-- The addresses of a name, if it is found. -/
abbrev Lookup := String → Option (List IpAddr)

/-- `PublicOnlyResolver::resolve`. -/
def publicOnly (lookup : Lookup) : Lookup := fun name =>
  (lookup name).bind fun addrs =>
    let addrs := addrs.filter isPublicIp
    if addrs = [] then none else some addrs

/-- A `reqwest` client: whether its resolver is `PublicOnlyResolver`. -/
structure Client where
  publicOnly : Bool
  deriving DecidableEq

/-- What the client looks names up with. -/
def Client.resolver (c : Client) (lookup : Lookup) : Lookup :=
  if c.publicOnly then BackchannelSender.publicOnly lookup else lookup

/-- The clients of the sender, and the hosts that it trusts. -/
structure Sender where
  strict : Option Client
  trusted : Option Client
  trustedHosts : List String
  unavailable : Option String
  /-- The strict client has the resolver for public addresses. -/
  hstrict : ∀ c ∈ strict, c.publicOnly = true

/-- `Sender::from_config`, once the certificates are read and the clients are built. -/
def Sender.fromConfig (backchannelTrustedHosts : List String) : Sender where
  strict := some ⟨true⟩
  trusted := some ⟨false⟩
  trustedHosts := backchannelTrustedHosts
  unavailable := none
  hstrict := by simp

/-- A sender that was not set up. -/
def Sender.unavailableFor (reason : String) : Sender where
  strict := none
  trusted := none
  trustedHosts := []
  unavailable := some reason
  hstrict := by simp

/-- `trim_start_matches('[')` and `trim_end_matches(']')`. -/
def unbracket (host : String) : String :=
  String.ofList
    (((host.toList.dropWhile (· = '[')).reverse.dropWhile (· = ']')).reverse)

/-- The host and port of a target, without brackets and as it is written. -/
def hostPorts (host : String) (port : ℕ) : List String :=
  [s!"{unbracket host}:{port}", s!"{host}:{port}"]

/-- The host and port are on the list. -/
def Sender.trusts (s : Sender) (host : String) (port : ℕ) : Bool :=
  (hostPorts host port).any (· ∈ s.trustedHosts)

/-- The host as an address, if it is written as one. -/
def literal (host : String) : Option IpAddr := Ip.parse (unbracket host)

/-- The client for a target. -/
def Sender.clientFor (s : Sender) (url : Target) : Except String Client :=
  match s.unavailable, url.host, url.port with
  | some reason, _, _ => .error reason
  | none, none, _ => .error "目标缺少主机名"
  | none, some _, none => .error "目标缺少端口"
  | none, some host, some port =>
    let host := toAsciiLowercase host
    if s.trusts host port then s.trusted.elim (.error "客户端不可用") .ok
    else if (literal host).any fun ip => !isPublicIp ip then
      .error "目标是非公网地址（未在 backchannel_trusted_hosts 中放行）"
    else if url.scheme ≠ "https" then
      .error "只向 https 地址投递（http loopback 需在 backchannel_trusted_hosts 中放行）"
    else s.strict.elim (.error "客户端不可用") .ok

/-- A connection that is attempted. -/
structure Connection where
  scheme : String
  host : String
  port : ℕ
  ip : IpAddr
  deriving DecidableEq

/-- The addresses of a host for a client: a literal host is not resolved. -/
def Client.addresses (c : Client) (lookup : Lookup) (host : String) : List IpAddr :=
  match literal host with
  | some ip => [ip]
  | none => (c.resolver lookup host).getD []

/-- The connections that a client may open for a URL. -/
def Client.connections (c : Client) (lookup : Lookup) (url : Target) : List Connection :=
  match url.host, url.port with
  | some host, some port =>
    if url.scheme = "http" ∨ url.scheme = "https" then
      (c.addresses lookup host).map (⟨url.scheme, host, port, ·⟩)
    else []
  | _, _ => []

/-- `Sender::post` up to the answer: the reason of a refusal, or the connections. -/
def Sender.post (s : Sender) (parse : UrlParser) (lookup : Lookup) (target : String) :
    Except String (List Connection) :=
  match parse target with
  | none => .error "登记的地址无效"
  | some url => (s.clientFor url).map fun c => c.connections lookup url

/-- The connections of a post. -/
def Sender.connections (s : Sender) (parse : UrlParser) (lookup : Lookup) (target : String) :
    List Connection :=
  match s.post parse lookup target with
  | .ok cs => cs
  | .error _ => []

/-! ## The test and the registries -/

theorem uint8_land_eq_iff {k v : ℕ} (hk : k ≤ 8) (x m u : UInt8) (hm : m.toNat = 2 ^ 8 - 2 ^ k)
    (hu : u.toNat = v * 2 ^ k) : x &&& m = u ↔ x.toNat / 2 ^ k = v := by
  rw [← UInt8.toNat_inj, UInt8.toNat_and, hm, hu, Block.land_mask hk x.toNat_lt]
  exact Nat.mul_left_inj (by positivity)

theorem uint16_land_eq_iff {k v : ℕ} (hk : k ≤ 16) (x m u : UInt16)
    (hm : m.toNat = 2 ^ 16 - 2 ^ k) (hu : u.toNat = v * 2 ^ k) :
    x &&& m = u ↔ x.toNat / 2 ^ k = v := by
  rw [← UInt16.toNat_inj, UInt16.toNat_and, hm, hu, Block.land_mask hk x.toNat_lt]
  exact Nat.mul_left_inj (by positivity)

/-- The octet tests of the function, block by block. -/
theorem octets_iff (ip : Ipv4Addr) :
    (ip.o0 = 0 ↔ Same 24 0x00000000 ip.bits) ∧
    (ip.o0 = 100 ∧ ip.o1 &&& 0xc0 = 64 ↔ Same 22 0x64400000 ip.bits) ∧
    (ip.o0 = 192 ∧ ip.o1 = 0 ∧ ip.o2 = 0 ↔ Same 8 0xc0000000 ip.bits) ∧
    (ip.o0 = 198 ∧ ip.o1 &&& 0xfe = 18 ↔ Same 17 0xc6120000 ip.bits) ∧
    (240 ≤ ip.o0 ↔ Same 28 0xf0000000 ip.bits) := by
  have h0 := ip.o0.toNat_lt
  have h1 := ip.o1.toNat_lt
  have h2 := ip.o2.toNat_lt
  rw [ip.same_24 0, ip.same_16 6, ip.same_8 0, ip.same_16 1, ip.same_24 4,
    uint8_land_eq_iff (k := 6) (v := 1) (by decide) ip.o1 0xc0 64 rfl rfl,
    uint8_land_eq_iff (k := 1) (v := 9) (by decide) ip.o1 0xfe 18 rfl rfl]
  simp only [← UInt8.toNat_inj, UInt8.le_iff_toNat_le, UInt8.reduceToNat]
  refine ⟨?_, ?_, ?_, ?_, ?_⟩ <;> omega

theorem isPublicV4_iff (ip : Ipv4Addr) : isPublicV4 ip = true ↔ ¬ Among specialV4 ip.bits := by
  obtain ⟨h0, h100, h192, h198, h240⟩ := octets_iff ip
  have hzero : ip.bits = 0 → Same 24 0x00000000 ip.bits := fun h => by rw [h]; decide
  have hones : ip.bits = 0xffffffff → Same 28 0xf0000000 ip.bits := fun h => by rw [h]; decide
  simp only [isPublicV4, specialV4, among_cons, not_among_nil, or_false, Bool.not_eq_true',
    ← Bool.not_eq_true, Bool.or_eq_true, Bool.and_eq_true, decide_eq_true_iff, and_assoc,
    ip.isPrivate_iff, ip.isLoopback_iff, ip.isLinkLocal_iff, ip.isBroadcast_iff,
    ip.isDocumentation_iff, ip.isUnspecified_iff, ip.isMulticast_iff, h0, h100, h192, h198, h240,
    not_iff_not]
  generalize ip.bits = x at hzero hones ⊢
  constructor
  · intro h
    grind only
  · intro h
    grind only

/-- The segment tests of the function, block by block. -/
theorem segments_iff (ip : Ipv6Addr) :
    (ip.s0 &&& 0xfe00 = 0xfc00 ↔ Same 121 (0xfc00 * 2 ^ 112) ip.bits) ∧
    (ip.s0 &&& 0xffc0 = 0xfe80 ↔ Same 118 (0xfe80 * 2 ^ 112) ip.bits) ∧
    (ip.s0 = 0x2001 ∧ ip.s1 = 0x0db8 ↔ Same 96 (0x20010db8 * 2 ^ 96) ip.bits) ∧
    (ip.s0 = 0x0064 ∧ ip.s1 = 0xff9b ↔ Same 96 (0x0064ff9b * 2 ^ 96) ip.bits) ∧
    (ip.s0 = 0x2002 ↔ Same 112 (0x2002 * 2 ^ 112) ip.bits) ∧
    (ip.s0 = 0x2001 ∧ ip.s1 < 0x0200 ↔ Same 105 (0x2001 * 2 ^ 112) ip.bits) := by
  have h0 := ip.s0.toNat_lt
  have h1 := ip.s1.toNat_lt
  rw [ip.same_112 9, ip.same_112 6, ip.same_96 0, ip.same_96 0, ip.same_112 0, ip.same_96 9,
    uint16_land_eq_iff (k := 9) (v := 126) (by decide) ip.s0 0xfe00 0xfc00 rfl rfl,
    uint16_land_eq_iff (k := 6) (v := 1018) (by decide) ip.s0 0xffc0 0xfe80 rfl rfl]
  simp only [← UInt16.toNat_inj, UInt16.lt_iff_toNat_lt, UInt16.reduceToNat]
  refine ⟨?_, ?_, ?_, ?_, ?_, ?_⟩ <;> omega

/-- The IPv6 blocks that the function tests. -/
def testedV6 : List (ℕ × ℕ) :=
  [(120, 0xff00 * 2 ^ 112), (121, 0xfc00 * 2 ^ 112), (118, 0xfe80 * 2 ^ 112),
    (96, 0x20010db8 * 2 ^ 96), (96, 0x0064ff9b * 2 ^ 96), (112, 0x2002 * 2 ^ 112),
    (105, 0x2001 * 2 ^ 112)]

theorem isPublicIp_v6_iff {ip : Ipv6Addr} (h : ¬ Same 32 (0xffff * 2 ^ 32) ip.bits) :
    isPublicIp (.v6 ip) = true ↔ ¬ (ip.bits ≤ 1 ∨ Among testedV6 ip.bits) := by
  obtain ⟨hfc, hfe, hdoc, hnat, h6to4, hietf⟩ := segments_iff ip
  have hle : ip.bits ≤ 1 ↔ ip.bits = 1 ∨ ip.bits = 0 := by omega
  simp only [isPublicIp, Ipv6Addr.toIpv4Mapped_eq_none h, ← Bool.not_eq_true, Bool.not_eq_true',
    Bool.or_eq_true, Bool.and_eq_true, decide_eq_true_iff, Ipv6Addr.isLoopback,
    Ipv6Addr.isUnspecified, ip.isMulticast_iff, hfc, hfe, hdoc, hnat, h6to4, hietf, hle,
    testedV6, among_cons, not_among_nil, or_false, or_assoc]

/-- The special blocks that the test does not know. -/
def unknownV6 : List (ℕ × ℕ) :=
  [(64, 0x0100 * 2 ^ 112), (64, 0x0100000000000001 * 2 ^ 64), (108, 0x3fff * 2 ^ 112),
    (112, 0x5f00 * 2 ^ 112)]

/-- The addresses that pass the test without being routable: those of the unknown blocks, and the
IPv4-compatible forms of special IPv4 addresses, but for `::` and `::1`. -/
def Overlooked : IpAddr → Prop
  | .v4 _ => False
  | .v6 ip =>
    (1 < ip.bits ∧ Same 32 0 ip.bits ∧ Among specialV4 ip.bits) ∨ Among unknownV6 ip.bits

theorem embedded_compatible {x : ℕ} (h : Same 32 0 x) : embedded x = some x := by
  have hx : x < 2 ^ 32 := by simpa using ((Block.same_iff_of_dvd (dvd_zero _)).1 h).2
  rw [embedded, if_pos (.inl h), Nat.mod_eq_of_lt hx]

theorem embedded_mapped {x : ℕ} (h : Same 32 (0xffff * 2 ^ 32) x) :
    embedded x = some (x % 2 ^ 32) :=
  if_pos (.inr (.inl h))

/-- What the function tests covers the registry up to the unknown blocks. -/
theorem among_specialV6 {x : ℕ} (h : Among specialV6 x) :
    Among testedV6 x ∨ Among unknownV6 x := by
  have hnat : Same 80 (0x0064ff9b0001 * 2 ^ 80) x → Same 96 (0x0064ff9b * 2 ^ 96) x := by
    simp only [Same]
    omega
  simp only [specialV6, testedV6, unknownV6, among_cons, not_among_nil, or_false] at h ⊢
  grind only

theorem routable_of_isPublicIp {ip : IpAddr} (hpub : isPublicIp ip = true)
    (hno : ¬ Overlooked ip) : Routable ip := by
  cases ip with
  | v4 ip => exact (isPublicV4_iff ip).1 hpub
  | v6 ip =>
    by_cases hmap : Same 32 (0xffff * 2 ^ 32) ip.bits
    · rw [isPublicIp, Ipv6Addr.toIpv4Mapped_of_same hmap, isPublicV4_iff, ← ip.bits_mod_32] at hpub
      rw [routable_v6, embedded_mapped hmap]
      exact hpub
    rw [isPublicIp_v6_iff hmap, not_or] at hpub
    rw [Overlooked, not_or] at hno
    by_cases hcompat : Same 32 0 ip.bits
    · rw [routable_v6, embedded_compatible hcompat]
      exact fun h => hno.1 ⟨by omega, hcompat, h⟩
    have hnone : embedded ip.bits = none := by
      have hnat : ¬ Same 96 (0x0064ff9b * 2 ^ 96) ip.bits :=
        fun h => hpub.2 ⟨(96, 0x0064ff9b * 2 ^ 96), by decide, h⟩
      have h6to4 : ¬ Same 112 (0x2002 * 2 ^ 112) ip.bits :=
        fun h => hpub.2 ⟨(112, 0x2002 * 2 ^ 112), by decide, h⟩
      rw [embedded, if_neg, if_neg h6to4]
      rintro (h | h | h)
      · exact hcompat h
      · exact hmap h
      · apply hnat
        simp only [Same] at h ⊢
        omega
    rw [routable_v6, hnone]
    exact fun h => (among_specialV6 h).elim hpub.2 hno.2

theorem Overlooked.isPublicIp {ip : IpAddr} (h : Overlooked ip) : isPublicIp ip = true := by
  cases ip with
  | v4 ip => exact h.elim
  | v6 ip =>
    simp only [Overlooked, unknownV6, among_cons, not_among_nil, or_false, Same] at h
    rw [isPublicIp_v6_iff (by simp only [Same]; omega)]
    simp only [testedV6, among_cons, not_among_nil, or_false, Same]
    omega

/-- The unknown blocks embed nothing. -/
theorem embedded_unknown {x : ℕ} (h : Among unknownV6 x) : embedded x = none := by
  simp only [unknownV6, among_cons, not_among_nil, or_false, Same] at h
  rw [embedded, if_neg (by simp only [Same]; omega), if_neg (by simp only [Same]; omega)]

theorem Overlooked.not_routable {ip : IpAddr} (h : Overlooked ip) : ¬ Routable ip := by
  cases ip with
  | v4 ip => exact h.elim
  | v6 ip =>
    obtain ⟨-, hcompat, hspecial⟩ | hunknown := h
    · rw [routable_v6, embedded_compatible hcompat]
      exact not_not_intro hspecial
    · rw [routable_v6, embedded_unknown hunknown]
      obtain ⟨b, hb, hsame⟩ := hunknown
      have hsub : ∀ b ∈ unknownV6, b ∈ specialV6 := by decide
      exact not_not_intro ⟨b, hsub b hb, hsame⟩

/-! ### The forms of an IPv4 address -/

section Forms

variable (a : Ipv4Addr)

theorem isPublicIp_toMapped : isPublicIp (.v6 a.toMapped) = isPublicV4 a := by
  have h : a.toMapped.toIpv4Mapped = some a :=
    (if_pos ⟨rfl, rfl, rfl, rfl, rfl, rfl⟩).trans (congrArg some (ofSegments_segments a))
  rw [isPublicIp, h]

theorem isPublicIp_toNat64 : isPublicIp (.v6 a.toNat64) = false := by
  simp [isPublicIp, Ipv6Addr.toIpv4Mapped, Ipv4Addr.toNat64]

theorem isPublicIp_to6to4 (s3 s4 s5 s6 s7 : UInt16) :
    isPublicIp (.v6 (a.to6to4 s3 s4 s5 s6 s7)) = false := by
  simp [isPublicIp, Ipv6Addr.toIpv4Mapped, Ipv4Addr.to6to4]

theorem isPublicIp_toCompatible :
    isPublicIp (.v6 a.toCompatible) = false ↔ a.bits ≤ 1 := by
  have hlt := a.bits_lt
  have hmap : ¬ Same 32 (0xffff * 2 ^ 32) a.toCompatible.bits := by
    rw [a.bits_toCompatible]
    simp only [Same]
    omega
  have hblocks : ¬ Among testedV6 a.bits := by
    simp only [testedV6, among_cons, not_among_nil, or_false, Same]
    omega
  rw [← Bool.not_eq_true, isPublicIp_v6_iff hmap, not_not, a.bits_toCompatible]
  exact or_iff_left hblocks

end Forms

/-! ## The clients -/

/-- Hosts of web URLs are in lower case. -/
def LowerHosts (parse : UrlParser) : Prop :=
  ∀ s url, parse s = some url → url.scheme = "http" ∨ url.scheme = "https" →
    ∀ host ∈ url.host, toAsciiLowercase host = host

theorem any_not_iff {α : Type} (o : Option α) (p : α → Bool) :
    (o.any fun a => !p a) = true ↔ ¬ ∀ a ∈ o, p a = true := by
  cases o <;> simp

theorem clientFor_eq_ok_iff {s : Sender} {url : Target} {c : Client} :
    s.clientFor url = .ok c ↔ s.unavailable = none ∧ ∃ host ∈ url.host, ∃ port ∈ url.port,
      if s.trusts (toAsciiLowercase host) port then s.trusted = some c
      else s.strict = some c ∧ url.scheme = "https" ∧
        ∀ ip ∈ literal (toAsciiLowercase host), isPublicIp ip = true := by
  unfold Sender.clientFor
  cases hu : s.unavailable with
  | some reason => simp
  | none =>
    cases hh : url.host with
    | none => simp
    | some host =>
      cases hp : url.port with
      | none => simp
      | some port =>
        simp only [true_and, Option.mem_some_iff, exists_eq_left']
        split
        · cases s.trusted <;> simp
        · by_cases hall : ∀ ip ∈ literal (toAsciiLowercase host), isPublicIp ip = true
          · rw [if_neg fun h => (any_not_iff _ _).1 h hall, and_iff_left hall]
            by_cases hscheme : url.scheme = "https"
            · rw [if_neg (not_not_intro hscheme), and_iff_left hscheme]
              cases s.strict <;> simp
            · rw [if_pos hscheme]
              exact iff_of_false nofun fun h => hscheme h.2
          · rw [if_pos ((any_not_iff _ _).2 hall)]
            exact iff_of_false nofun fun h => hall h.2.2

theorem mem_connections {c : Client} {lookup : Lookup} {url : Target} {x : Connection} :
    x ∈ c.connections lookup url ↔ (url.scheme = "http" ∨ url.scheme = "https") ∧
      x.scheme = url.scheme ∧ url.host = some x.host ∧ url.port = some x.port ∧
      x.ip ∈ c.addresses lookup x.host := by
  obtain ⟨scheme, host, port, ip⟩ := x
  unfold Client.connections
  cases url.host with
  | none => simp
  | some h =>
    cases url.port with
    | none => simp
    | some p =>
      dsimp only
      by_cases hscheme : url.scheme = "http" ∨ url.scheme = "https"
      · rw [if_pos hscheme, List.mem_map]
        constructor
        · rintro ⟨_, hip, heq⟩
          cases heq
          exact ⟨hscheme, rfl, rfl, rfl, hip⟩
        · rintro ⟨-, h1, h2, h3, hip⟩
          cases h1
          cases h2
          cases h3
          exact ⟨ip, hip, rfl⟩
      · simp [hscheme]

theorem mem_addresses {c : Client} {lookup : Lookup} {host : String} {ip : IpAddr} :
    ip ∈ c.addresses lookup host ↔ literal host = some ip ∨
      literal host = none ∧ ip ∈ (c.resolver lookup host).getD [] := by
  unfold Client.addresses
  cases literal host <;> simp [eq_comm]

/-- The resolver gives the public addresses of a name. -/
theorem mem_publicOnly {lookup : Lookup} {name : String} {ip : IpAddr} :
    ip ∈ (publicOnly lookup name).getD [] ↔
      isPublicIp ip = true ∧ ip ∈ (lookup name).getD [] := by
  unfold publicOnly
  cases lookup name with
  | none => simp
  | some ips =>
    rw [and_comm, Option.bind_some, Option.getD_some, ← List.mem_filter]
    by_cases he : ips.filter isPublicIp = []
    · simp only [he, if_pos, Option.getD_none]
    · simp only [he, if_false, Option.getD_some]

/-- Where the strict client of a sender may connect to. -/
theorem mem_addresses_strict {s : Sender} {c : Client} (hc : s.strict = some c) {lookup : Lookup}
    {host : String} {ip : IpAddr}
    (hlit : ∀ ip ∈ literal host, isPublicIp ip = true) : ip ∈ c.addresses lookup host ↔
      isPublicIp ip = true ∧
        (literal host = some ip ∨ literal host = none ∧ ip ∈ (lookup host).getD []) := by
  rw [mem_addresses, Client.resolver, if_pos (s.hstrict c hc), mem_publicOnly]
  constructor
  · rintro (h | ⟨hn, hpub, hip⟩)
    · exact ⟨hlit ip h, .inl h⟩
    · exact ⟨hpub, .inr ⟨hn, hip⟩⟩
  · rintro ⟨hpub, h | ⟨hn, hip⟩⟩
    · exact .inl h
    · exact .inr ⟨hn, hpub, hip⟩

/-! ## What a logout token reaches -/

/-- The connection is to a trusted host, or over https to a routable address. -/
def Sender.Allows (s : Sender) (x : Connection) : Prop :=
  s.trusts x.host x.port = true ∨ x.scheme = "https" ∧ Routable x.ip

/-- The target leads a working sender to an overlooked address: it is an https URL of a host that
is not trusted, and the host is such an address or its name is found there. -/
def Sender.Exposed (s : Sender) (parse : UrlParser) (lookup : Lookup) (target : String) : Prop :=
  s.unavailable = none ∧ s.strict ≠ none ∧ ∃ url ∈ parse target, url.scheme = "https" ∧
    ∃ host ∈ url.host, ∃ port ∈ url.port, s.trusts host port = false ∧
      ∃ ip, Overlooked ip ∧
        (literal host = some ip ∨ literal host = none ∧ ip ∈ (lookup host).getD [])

section Reach

variable {s : Sender} {parse : UrlParser} {lookup : Lookup} {target : String}

theorem mem_sender_connections {x : Connection} :
    x ∈ s.connections parse lookup target ↔
      ∃ url c, parse target = some url ∧ s.clientFor url = .ok c ∧
        x ∈ c.connections lookup url := by
  unfold Sender.connections Sender.post
  cases parse target with
  | none => simp
  | some url => cases hc : s.clientFor url <;> simp [Except.map, hc]

/-- A connection that is not to a trusted host is the strict client's, to a public address. -/
theorem strict_of_mem_connections (hparse : LowerHosts parse) {x : Connection}
    (hx : x ∈ s.connections parse lookup target) (ht : s.trusts x.host x.port = false) :
    s.unavailable = none ∧ s.strict ≠ none ∧ isPublicIp x.ip = true ∧ x.scheme = "https" ∧
      ∃ url ∈ parse target, url.scheme = "https" ∧ url.host = some x.host ∧
        url.port = some x.port ∧
        (literal x.host = some x.ip ∨ literal x.host = none ∧ x.ip ∈ (lookup x.host).getD []) := by
  obtain ⟨url, c, hu, hc, hx⟩ := mem_sender_connections.1 hx
  obtain ⟨hscheme, hxs, hh, hp, hip⟩ := mem_connections.1 hx
  obtain ⟨hav, host, hhost, port, hport, hc⟩ := clientFor_eq_ok_iff.1 hc
  obtain rfl : host = x.host := Option.some.inj (hhost.symm.trans hh)
  obtain rfl : port = x.port := Option.some.inj (hport.symm.trans hp)
  rw [hparse _ _ hu hscheme _ hhost, if_neg (by simp [ht])] at hc
  obtain ⟨hstrict, hs, hlit⟩ := hc
  obtain ⟨hpub, hsource⟩ := (mem_addresses_strict hstrict hlit).1 hip
  exact ⟨hav, by simp [hstrict], hpub, hxs.trans hs, url, hu, hs, hh, hp, hsource⟩

/-- An https host that is not trusted is connected to where it is public. -/
theorem mem_connections_of_strict (hparse : LowerHosts parse) (hav : s.unavailable = none)
    (hstrict : s.strict ≠ none) {url : Target} (hu : url ∈ parse target)
    (hs : url.scheme = "https") {host : String} (hh : host ∈ url.host) {port : ℕ}
    (hp : port ∈ url.port) (ht : s.trusts host port = false) {ip : IpAddr}
    (hpub : isPublicIp ip = true)
    (hip : literal host = some ip ∨ literal host = none ∧ ip ∈ (lookup host).getD []) :
    ⟨"https", host, port, ip⟩ ∈ s.connections parse lookup target := by
  obtain ⟨c, hc⟩ := Option.ne_none_iff_exists'.1 hstrict
  have hlower := hparse _ _ hu (.inr hs) _ hh
  have hlit : ∀ ip ∈ literal host, isPublicIp ip = true := by
    intro ip' hip'
    obtain h | ⟨h, -⟩ := hip
    · rw [← Option.some.inj (h.symm.trans hip')]
      exact hpub
    · rw [h] at hip'
      cases hip'
  refine mem_sender_connections.2 ⟨url, c, hu, clientFor_eq_ok_iff.2 ⟨hav, host, hh, port, hp, ?_⟩,
    mem_connections.2 ⟨.inr hs, hs.symm, hh, hp, ?_⟩⟩
  · rw [hlower, if_neg (by simp [ht])]
    exact ⟨hc, hs, hlit⟩
  · exact (mem_addresses_strict hc hlit).2 ⟨hpub, hip⟩

/-- A sender keeps to trusted hosts and routable addresses exactly for the targets that are not
exposed; of the forms of an IPv4 address that is not public, the compatible ones pass. -/
theorem connections_allowed_iff (hparse : LowerHosts parse) (s : Sender) (lookup : Lookup)
    (target : String) :
    ((∀ x ∈ s.connections parse lookup target, s.Allows x) ↔
      ¬ s.Exposed parse lookup target) ∧
    ∀ a, isPublicV4 a = false →
      isPublicIp (.v6 a.toMapped) = false ∧ isPublicIp (.v6 a.toNat64) = false ∧
      (∀ s3 s4 s5 s6 s7, isPublicIp (.v6 (a.to6to4 s3 s4 s5 s6 s7)) = false) ∧
      (isPublicIp (.v6 a.toCompatible) = false ↔ a.bits ≤ 1) := by
  refine ⟨⟨?_, ?_⟩, fun a ha => ⟨(isPublicIp_toMapped a).trans ha, isPublicIp_toNat64 a,
    isPublicIp_to6to4 a, isPublicIp_toCompatible a⟩⟩
  · rintro hall ⟨hav, hstrict, url, hu, hs, host, hh, port, hp, ht, ip, hover, hip⟩
    have hx := mem_connections_of_strict hparse hav hstrict hu hs hh hp ht hover.isPublicIp hip
    obtain htrust | ⟨-, hroute⟩ := hall _ hx
    · simp [ht] at htrust
    · exact hover.not_routable hroute
  · intro hno x hx
    cases ht : s.trusts x.host x.port with
    | true => exact .inl ht
    | false =>
      obtain ⟨hav, hstrict, hpub, hxs, url, hu, hs, hh, hp, hip⟩ :=
        strict_of_mem_connections hparse hx ht
      refine .inr ⟨hxs, routable_of_isPublicIp hpub fun hover => hno ?_⟩
      exact ⟨hav, hstrict, url, hu, hs, x.host, hh, x.port, hp, ht, x.ip, hover, hip⟩

end Reach

/-- A parser that knows one URL. -/
def parseOne (url : String) (target : Target) : UrlParser := fun s =>
  if s = url then some target else none

theorem lowerHosts_parseOne {url : String} {target : Target}
    (h : ∀ host ∈ target.host, toAsciiLowercase host = host) :
    LowerHosts (parseOne url target) := by
  intro s t ht _
  unfold parseOne at ht
  split at ht
  · rwa [← Option.some.inj ht]
  · cases ht

/-- The IPv4-compatible form of `10.0.0.1`. -/
def compatibleTarget : Target := ⟨"https", some "[::a00:1]", some 443⟩

theorem lowerHosts_compatibleTarget :
    LowerHosts (parseOne "https://[::a00:1]/logout" compatibleTarget) :=
  lowerHosts_parseOne (by decide +kernel)

theorem connections_allowed_compatibleTarget :
    LowerHosts (parseOne "https://[::a00:1]/logout" compatibleTarget) ∧
    ((∀ x ∈ (Sender.fromConfig ["[::a00:1]:443"]).connections
        (parseOne "https://[::a00:1]/logout" compatibleTarget) (fun _ => none)
        "https://[::a00:1]/logout", (Sender.fromConfig ["[::a00:1]:443"]).Allows x) ↔
      ¬ (Sender.fromConfig ["[::a00:1]:443"]).Exposed
        (parseOne "https://[::a00:1]/logout" compatibleTarget) (fun _ => none)
        "https://[::a00:1]/logout") :=
  ⟨lowerHosts_compatibleTarget, (connections_allowed_iff lowerHosts_compatibleTarget _ _ _).1⟩

/-- With no trusted host the token is sent to `::10.0.0.1`. -/
theorem not_connections_allowed :
    (¬ ∀ (parse : UrlParser) (s : Sender) (lookup : Lookup) (target : String), LowerHosts parse →
      ∀ x ∈ s.connections parse lookup target, s.Allows x) ∧
    ¬ ∀ a, isPublicV4 a = false → isPublicIp (.v6 a.toCompatible) = false := by
  refine ⟨fun h => ?_, fun h => ?_⟩
  · let x : Connection := ⟨"https", "[::a00:1]", 443, .v6 ⟨0, 0, 0, 0, 0, 0, 0x0a00, 1⟩⟩
    have hx : x ∈ (Sender.fromConfig []).connections
        (parseOne "https://[::a00:1]/logout" compatibleTarget) (fun _ => none)
        "https://[::a00:1]/logout" := by decide +kernel
    have hover : Overlooked x.ip := .inl (by decide +kernel)
    obtain htrust | ⟨-, hroute⟩ := h _ _ _ _ lowerHosts_compatibleTarget x hx
    · simp [Sender.trusts, Sender.fromConfig] at htrust
    · exact hover.not_routable hroute
  · exact absurd (h ⟨10, 0, 0, 1⟩ (by decide)) (by decide)

end FloatCtf.Oidc.BackchannelSender
