import ShrimpWisp.Server.Security

/-!
# Blocked addresses and hostnames

What the address checks of `src/server/security.rs` say in terms of networks, and the checks of a
hostname before its resolution.

* An address is a number (`Ipv4Addr.toNat`, `Ipv6Addr.toNat`), and a network is the addresses that
  agree with its base on their first bits (`InNet`).
* `Mapped x y`: the IPv6 address `x` is the mapped form of the IPv4 address `y`. `IpAddr.unmapped`
  replaces a mapped address.
* `Refused`: the addresses that the flags refuse. `isIpBlocked_iff`: they are what `is_ip_blocked`
  blocks, mapped addresses as the addresses they stand for.
* `PolicyRefuses`: what the flags refuse of a hostname as it is written. The check before resolution
  stays within it, except for names that start like an address (`preResolution_within_policy`).
-/

namespace ShrimpWisp

/-! ## Networks -/

/-- The first `len` of `bits` bits are those of `base`. -/
def InNet (bits : Nat) (base : Nat) (len : Nat) (addr : Nat) : Prop :=
  addr / 2 ^ (bits - len) = base / 2 ^ (bits - len)

def Ipv4Addr.toNat (x : Ipv4Addr) : Nat :=
  x.a.toNat * 2 ^ 24 + x.b.toNat * 2 ^ 16 + x.c.toNat * 2 ^ 8 + x.d.toNat

def Ipv6Addr.toNat (x : Ipv6Addr) : Nat :=
  x.s0.toNat * 2 ^ 112 + x.s1.toNat * 2 ^ 96 + x.s2.toNat * 2 ^ 80 + x.s3.toNat * 2 ^ 64 +
    x.s4.toNat * 2 ^ 48 + x.s5.toNat * 2 ^ 32 + x.s6.toNat * 2 ^ 16 + x.s7.toNat

/-- The address is in the network `base/len`. -/
def Ipv4Addr.In (base : Ipv4Addr) (len : Nat) (x : Ipv4Addr) : Prop :=
  InNet 32 base.toNat len x.toNat

def Ipv6Addr.In (base : Ipv6Addr) (len : Nat) (x : Ipv6Addr) : Prop :=
  InNet 128 base.toNat len x.toNat

/-- `x` is `::ffff:a.b.c.d`, for the address `y` with these octets. -/
def Mapped (x : Ipv6Addr) (y : Ipv4Addr) : Prop := x.toNat = 0xffff * 2 ^ 32 + y.toNat

/-- A mapped address is replaced by its IPv4 address. -/
def IpAddr.unmapped : IpAddr → IpAddr
  | .v4 x => .v4 x
  | .v6 x => (x.toIpv4Mapped.map .v4).getD (.v6 x)

/-- The addresses that the flags refuse. -/
def Refused (config : ServerConfig) : IpAddr → Prop
  | .v4 x =>
    x = ⟨0, 0, 0, 0⟩ ∨
    config.allowLoopback = false ∧ Ipv4Addr.In ⟨127, 0, 0, 0⟩ 8 x ∨
    config.allowPrivateIps = false ∧
      (Ipv4Addr.In ⟨10, 0, 0, 0⟩ 8 x ∨ Ipv4Addr.In ⟨172, 16, 0, 0⟩ 12 x ∨
        Ipv4Addr.In ⟨192, 168, 0, 0⟩ 16 x ∨ Ipv4Addr.In ⟨169, 254, 0, 0⟩ 16 x)
  | .v6 x =>
    x = ⟨0, 0, 0, 0, 0, 0, 0, 0⟩ ∨
    config.allowLoopback = false ∧ x = ⟨0, 0, 0, 0, 0, 0, 0, 1⟩ ∨
    config.allowPrivateIps = false ∧
      (Ipv6Addr.In ⟨0xfc00, 0, 0, 0, 0, 0, 0, 0⟩ 7 x ∨
        Ipv6Addr.In ⟨0xfe80, 0, 0, 0, 0, 0, 0, 0⟩ 10 x)

/-! ## IPv4 -/

section V4

variable (x base : Ipv4Addr)

/-- The first octet. -/
theorem Ipv4Addr.in_eight : Ipv4Addr.In base 8 x ↔ x.a = base.a := by
  have := x.b.toNat_lt
  have := x.c.toNat_lt
  have := x.d.toNat_lt
  have := base.b.toNat_lt
  have := base.c.toNat_lt
  have := base.d.toNat_lt
  simp only [Ipv4Addr.In, InNet, Ipv4Addr.toNat, ← UInt8.toNat_inj]
  omega

/-- The first two octets. -/
theorem Ipv4Addr.in_sixteen : Ipv4Addr.In base 16 x ↔ x.a = base.a ∧ x.b = base.b := by
  have := x.b.toNat_lt
  have := x.c.toNat_lt
  have := x.d.toNat_lt
  have := base.b.toNat_lt
  have := base.c.toNat_lt
  have := base.d.toNat_lt
  simp only [Ipv4Addr.In, InNet, Ipv4Addr.toNat, ← UInt8.toNat_inj]
  omega

/-- The first octet and half of the second. -/
theorem Ipv4Addr.in_twelve :
    Ipv4Addr.In base 12 x ↔ x.a = base.a ∧ x.b.toNat / 16 = base.b.toNat / 16 := by
  have := x.b.toNat_lt
  have := x.c.toNat_lt
  have := x.d.toNat_lt
  have := base.b.toNat_lt
  have := base.c.toNat_lt
  have := base.d.toNat_lt
  simp only [Ipv4Addr.In, InNet, Ipv4Addr.toNat, ← UInt8.toNat_inj]
  omega

theorem Ipv4Addr.isLoopback_iff : x.isLoopback = true ↔ Ipv4Addr.In ⟨127, 0, 0, 0⟩ 8 x := by
  rw [Ipv4Addr.in_eight, Ipv4Addr.isLoopback, beq_iff_eq]

theorem Ipv4Addr.isLinkLocal_iff : x.isLinkLocal = true ↔ Ipv4Addr.In ⟨169, 254, 0, 0⟩ 16 x := by
  rw [Ipv4Addr.in_sixteen, Ipv4Addr.isLinkLocal, Bool.and_eq_true, beq_iff_eq, beq_iff_eq]

theorem Ipv4Addr.isPrivate_iff :
    x.isPrivate = true ↔ Ipv4Addr.In ⟨10, 0, 0, 0⟩ 8 x ∨ Ipv4Addr.In ⟨172, 16, 0, 0⟩ 12 x ∨
      Ipv4Addr.In ⟨192, 168, 0, 0⟩ 16 x := by
  have hrange : (16 ≤ x.b ∧ x.b ≤ 31) ↔ x.b.toNat / 16 = (16 : UInt8).toNat / 16 := by
    simp only [UInt8.le_iff_toNat_le, UInt8.reduceToNat]
    omega
  simp only [Ipv4Addr.isPrivate, Ipv4Addr.in_eight, Ipv4Addr.in_twelve, Ipv4Addr.in_sixteen,
    ← hrange, Bool.or_eq_true, Bool.and_eq_true, beq_iff_eq, decide_eq_true_eq, and_assoc, or_assoc]

end V4

/-! ## IPv6 -/

/-- The bits of a number above the lowest `k`, by a mask. -/
theorem and_highMask {n k m : Nat} (h : n < 2 ^ (k + m)) :
    n &&& (2 ^ m - 1) * 2 ^ k = n / 2 ^ k * 2 ^ k := by
  have hlow : (2 ^ m - 1) * 2 ^ k % 2 ^ k = 0 := Nat.mul_mod_left ..
  have hhigh : (2 ^ m - 1) * 2 ^ k / 2 ^ k = 2 ^ m - 1 :=
    Nat.mul_div_cancel _ (Nat.two_pow_pos k)
  have hlt : n / 2 ^ k < 2 ^ m := by
    rw [Nat.div_lt_iff_lt_mul (Nat.two_pow_pos k), ← Nat.pow_add, Nat.add_comm]
    exact h
  rw [← Nat.mod_add_div (n &&& (2 ^ m - 1) * 2 ^ k) (2 ^ k), Nat.and_mod_two_pow,
    Nat.and_div_two_pow, hlow, hhigh, Nat.and_two_pow_sub_one_of_lt_two_pow hlt, Nat.and_zero,
    Nat.zero_add, Nat.mul_comm]

section V6

variable (x base : Ipv6Addr)

/-- The first segment, as far as the network goes. -/
theorem Ipv6Addr.in_first {len : Nat} (h : len ≤ 16) :
    Ipv6Addr.In base len x ↔ x.s0.toNat / 2 ^ (16 - len) = base.s0.toNat / 2 ^ (16 - len) := by
  have hfirst : ∀ y : Ipv6Addr, y.toNat / 2 ^ 112 = y.s0.toNat := by
    intro y
    have := y.s1.toNat_lt
    have := y.s2.toNat_lt
    have := y.s3.toNat_lt
    have := y.s4.toNat_lt
    have := y.s5.toNat_lt
    have := y.s6.toNat_lt
    have := y.s7.toNat_lt
    unfold Ipv6Addr.toNat
    omega
  have hbits : 128 - len = 112 + (16 - len) := by omega
  rw [Ipv6Addr.In, InNet, hbits, Nat.pow_add, ← Nat.div_div_eq_div_mul, ← Nat.div_div_eq_div_mul,
    hfirst, hfirst]

theorem Security.isIpv6UniqueLocal_iff :
    isIpv6UniqueLocal x = true ↔ Ipv6Addr.In ⟨0xfc00, 0, 0, 0, 0, 0, 0, 0⟩ 7 x := by
  have hmask : x.s0.toNat &&& 0xfe00 = x.s0.toNat / 2 ^ 9 * 2 ^ 9 :=
    and_highMask (k := 9) (m := 7) x.s0.toNat_lt
  rw [Ipv6Addr.in_first _ _ (by decide), isIpv6UniqueLocal, beq_iff_eq, ← UInt16.toNat_inj,
    UInt16.toNat_and]
  simp only [UInt16.reduceToNat, hmask]
  omega

theorem Security.isIpv6LinkLocal_iff :
    isIpv6LinkLocal x = true ↔ Ipv6Addr.In ⟨0xfe80, 0, 0, 0, 0, 0, 0, 0⟩ 10 x := by
  have hmask : x.s0.toNat &&& 0xffc0 = x.s0.toNat / 2 ^ 6 * 2 ^ 6 :=
    and_highMask (k := 6) (m := 10) x.s0.toNat_lt
  rw [Ipv6Addr.in_first _ _ (by decide), isIpv6LinkLocal, beq_iff_eq, ← UInt16.toNat_inj,
    UInt16.toNat_and]
  simp only [UInt16.reduceToNat, hmask]
  omega

end V6

/-! ## Mapped addresses -/

/-- The octets of two segments. -/
theorem octets_iff (s : UInt16) (a b : UInt8) :
    (s >>> 8).toUInt8 = a ∧ s.toUInt8 = b ↔ s.toNat = a.toNat * 2 ^ 8 + b.toNat := by
  have := s.toNat_lt
  have := a.toNat_lt
  have := b.toNat_lt
  simp only [← UInt8.toNat_inj, UInt16.toNat_toUInt8, UInt16.toNat_shiftRight, UInt16.reduceToNat,
    Nat.shiftRight_eq_div_pow, Nat.reduceMod]
  omega

theorem mapped_iff (x : Ipv6Addr) (y : Ipv4Addr) : Mapped x y ↔ x.toIpv4Mapped = some y := by
  have hsegs : Mapped x y ↔ (x.s0 = 0 ∧ x.s1 = 0 ∧ x.s2 = 0 ∧ x.s3 = 0 ∧ x.s4 = 0 ∧
      x.s5 = 0xffff) ∧ x.s6.toNat = y.a.toNat * 2 ^ 8 + y.b.toNat ∧
        x.s7.toNat = y.c.toNat * 2 ^ 8 + y.d.toNat := by
    have := x.s0.toNat_lt
    have := x.s1.toNat_lt
    have := x.s2.toNat_lt
    have := x.s3.toNat_lt
    have := x.s4.toNat_lt
    have := x.s5.toNat_lt
    have := x.s6.toNat_lt
    have := x.s7.toNat_lt
    have := y.a.toNat_lt
    have := y.b.toNat_lt
    have := y.c.toNat_lt
    have := y.d.toNat_lt
    simp only [Mapped, Ipv6Addr.toNat, Ipv4Addr.toNat, ← UInt16.toNat_inj, UInt16.reduceToNat]
    omega
  obtain ⟨a, b, c, d⟩ := y
  rw [hsegs, ← octets_iff, ← octets_iff, Ipv6Addr.toIpv4Mapped]
  split
  · next hmapped => simp [hmapped, and_assoc]
  · next hno => simp [hno]

namespace Security

/-- A class of addresses, of an address and of the address that it stands for. -/
theorem inClass_unmapped {v4Class : Ipv4Addr → Bool} {v6Class : Ipv6Addr → Bool}
    (h : ∀ x y, Mapped x y → v6Class x = false) (ip : IpAddr) :
    inClass v4Class v6Class ip = inClass v4Class v6Class ip.unmapped := by
  cases ip with
  | v4 x => rfl
  | v6 x =>
    cases hm : x.toIpv4Mapped with
    | none => simp [IpAddr.unmapped, hm]
    | some y => simp [inClass, IpAddr.unmapped, hm, h x y ((mapped_iff x y).mpr hm)]

/-- The four checks together. -/
theorem isIpBlocked_true {config : ServerConfig} {ip : IpAddr} :
    isIpBlocked ip config = true ↔ isUnspecified ip = true ∨
      config.allowLoopback = false ∧ isLoopback ip = true ∨
      config.allowPrivateIps = false ∧ (isPrivate ip = true ∨ isLinkLocal ip = true) := by
  unfold isIpBlocked
  cases isUnspecified ip <;> cases config.allowLoopback <;> cases isLoopback ip <;>
    cases config.allowPrivateIps <;> cases isPrivate ip <;> cases isLinkLocal ip <;> decide

/-- No class of IPv6 addresses has a mapped address. -/
theorem classes_mapped {x : Ipv6Addr} {y : Ipv4Addr} (h : Mapped x y) :
    x.isUnspecified = false ∧ x.isLoopback = false ∧ isIpv6UniqueLocal x = false ∧
      isIpv6LinkLocal x = false := by
  have hm := (mapped_iff x y).mp h
  unfold Ipv6Addr.toIpv4Mapped at hm
  split at hm
  · next hsegs =>
    obtain ⟨s0, s1, s2, s3, s4, s5, s6, s7⟩ := x
    obtain ⟨rfl, -, -, -, -, rfl⟩ := hsegs
    exact ⟨by simp [Ipv6Addr.isUnspecified], by simp [Ipv6Addr.isLoopback],
      by simp [isIpv6UniqueLocal], by simp [isIpv6LinkLocal]⟩
  · cases hm

theorem isIpBlocked_unmapped (config : ServerConfig) (ip : IpAddr) :
    isIpBlocked ip config = isIpBlocked ip.unmapped config := by
  have hu : isUnspecified ip = isUnspecified ip.unmapped :=
    inClass_unmapped (fun _ _ h => (classes_mapped h).1) ip
  have hl : isLoopback ip = isLoopback ip.unmapped :=
    inClass_unmapped (fun _ _ h => (classes_mapped h).2.1) ip
  have hp : isPrivate ip = isPrivate ip.unmapped :=
    inClass_unmapped (fun _ _ h => (classes_mapped h).2.2.1) ip
  have hk : isLinkLocal ip = isLinkLocal ip.unmapped :=
    inClass_unmapped (fun _ _ h => (classes_mapped h).2.2.2) ip
  rw [Bool.eq_iff_iff, isIpBlocked_true, isIpBlocked_true, hu, hl, hp, hk]

theorem isIpBlocked_v4 (config : ServerConfig) (x : Ipv4Addr) :
    isIpBlocked (.v4 x) config = true ↔ Refused config (.v4 x) := by
  have hu : isUnspecified (.v4 x) = true ↔ x = ⟨0, 0, 0, 0⟩ := beq_iff_eq
  rw [isIpBlocked_true, hu]
  exact or_congr Iff.rfl (or_congr (and_congr_right fun _ => x.isLoopback_iff)
    (and_congr_right fun _ => (or_congr x.isPrivate_iff x.isLinkLocal_iff).trans (by
      rw [or_assoc, or_assoc])))

theorem isIpBlocked_v6 (config : ServerConfig) {x : Ipv6Addr} (h : x.toIpv4Mapped = none) :
    isIpBlocked (.v6 x) config = true ↔ Refused config (.v6 x) := by
  have hclass : ∀ v4Class v6Class, inClass v4Class v6Class (.v6 x) = v6Class x := by
    intro v4Class v6Class
    rw [inClass, h, Option.any_none, Bool.or_false]
  have hu : isUnspecified (.v6 x) = true ↔ x = ⟨0, 0, 0, 0, 0, 0, 0, 0⟩ := by
    rw [isUnspecified, hclass]
    exact beq_iff_eq
  have hl : isLoopback (.v6 x) = true ↔ x = ⟨0, 0, 0, 0, 0, 0, 0, 1⟩ := by
    rw [isLoopback, hclass]
    exact beq_iff_eq
  rw [isIpBlocked_true, hu, hl, isPrivate, isLinkLocal, hclass, hclass, isIpv6UniqueLocal_iff,
    isIpv6LinkLocal_iff]
  rfl

/-- An address is blocked iff the address that it stands for is refused. A mapped address is
treated as its IPv4 address. -/
theorem isIpBlocked_iff (config : ServerConfig) (ip : IpAddr) :
    (isIpBlocked ip config = true ↔ Refused config ip.unmapped) ∧
    (∀ x, ip = .v4 x → ip.unmapped = .v4 x) ∧
    (∀ x y, ip = .v6 x → Mapped x y →
      ip.unmapped = .v4 y ∧ isIpBlocked (.v6 x) config = isIpBlocked (.v4 y) config) ∧
    ∀ x, ip = .v6 x → (∀ y, ¬ Mapped x y) → ip.unmapped = .v6 x := by
  refine ⟨?_, ?_, ?_, ?_⟩
  · rw [isIpBlocked_unmapped]
    cases ip with
    | v4 x => exact isIpBlocked_v4 config x
    | v6 x =>
      cases hm : x.toIpv4Mapped with
      | none =>
        rw [IpAddr.unmapped, hm]
        exact isIpBlocked_v6 config hm
      | some y =>
        rw [IpAddr.unmapped, hm]
        exact isIpBlocked_v4 config y
  · rintro x rfl
    rfl
  · rintro x y rfl h
    have hm : IpAddr.unmapped (.v6 x) = .v4 y := by
      rw [IpAddr.unmapped, (mapped_iff x y).mp h]
      rfl
    exact ⟨hm, by rw [isIpBlocked_unmapped, hm]⟩
  · rintro x rfl h
    have hm : x.toIpv4Mapped = none := by
      rw [Option.eq_none_iff_forall_ne_some]
      exact fun y hy => h y ((mapped_iff x y).mpr hy)
    rw [IpAddr.unmapped, hm]
    rfl

/-! ## Hostnames -/

/-- The policy refuses a hostname as it is written: `localhost` and the IP literals. -/
def PolicyRefuses (config : ServerConfig) (hostname : Str) : Prop :=
  config.allowLoopback = false ∧ hostname = lit "localhost" ∨
    ∃ ip, parseIpAddr hostname = some ip ∧
      (config.allowDirectIp = false ∨ isIpBlocked ip config = true)

/-- The text starts like an address that the flags refuse. -/
def StartsRefused (config : ServerConfig) (hostname : Str) : Prop :=
  config.allowPrivateIps = false ∧
      (lit "10." <+: hostname ∨ lit "192.168." <+: hostname ∨ lit "169.254." <+: hostname ∨
        hostnameIsPrivate172 hostname = true) ∨
    config.allowLoopback = false ∧ lit "127." <+: hostname

/-- The checks before resolution together. -/
theorem preResolution_true {config : ServerConfig} {hostname : Str} :
    isHostnameBlockedPreResolution hostname config = true ↔
      config.allowDirectIp = false ∧ isRawIp hostname = true ∨
      config.allowLoopback = false ∧ hostname ∈ [lit "localhost", lit "127.0.0.1", lit "::1",
        lit "0.0.0.0", lit "::"] ∨
      StartsRefused config hostname := by
  unfold isHostnameBlockedPreResolution StartsRefused
  simp only [Bool.if_true_left, decide_eq_true_eq, Bool.or_eq_true, Bool.and_eq_true,
    Bool.not_eq_true', beq_iff_eq, List.isPrefixOf_iff_prefix, List.mem_cons, List.not_mem_nil,
    or_false, or_assoc, Bool.false_eq_true]

/-- The first octet of an IPv4 literal. -/
theorem v4_of_first {x t : Str} {a : UInt8} {ip : IpAddr} (hne : x ≠ [])
    (hx : ∀ b ∈ x, (digit10 b).isSome)
    (ha : readOctet true (x ++ ch '.' :: t) = some (a, ch '.' :: t))
    (h : parseIpAddr (x ++ ch '.' :: t) = some ip) :
    ∃ y m r, ip = .v4 y ∧ y.a = a ∧ readOctet false (ch '.' :: t) = some (y.b, m) ∧
      readOctet false m = some r := by
  obtain ⟨y, rfl, hy⟩ := parseIpAddr_dotted hne hx h
  obtain ⟨m₁, m₂, m₃, h₁, h₂, h₃⟩ := readIpv4Addr_octets hy
  rw [ha] at h₁
  cases h₁
  exact ⟨y, m₂, _, rfl, rfl, h₂, h₃⟩

/-- The first two octets. -/
theorem v4_of_second {x y t : Str} {a b : UInt8} {ip : IpAddr} (hne : x ≠ [])
    (hx : ∀ b ∈ x, (digit10 b).isSome)
    (ha : readOctet true (x ++ ch '.' :: y) = some (a, ch '.' :: y))
    (hb : readOctet false (ch '.' :: y) = some (b, t))
    (h : parseIpAddr (x ++ ch '.' :: y) = some ip) :
    ∃ z, ip = .v4 z ∧ z.a = a ∧ z.b = b := by
  obtain ⟨z, m, r, rfl, hza, hzb, -⟩ := v4_of_first hne hx ha h
  rw [hb] at hzb
  cases hzb
  exact ⟨z, rfl, hza, rfl⟩

theorem not_dot_mem_takeWhile (s : Str) : ch '.' ∉ s.takeWhile (· != ch '.') := by
  intro hmem
  have hne := List.all_eq_true.mp List.all_takeWhile _ hmem
  simp at hne

/-- The text up to a dot, and the dot. -/
theorem takeWhile_dot {s : Str} (h : (s.takeWhile (· != ch '.')).length < s.length) :
    ∃ t, s = s.takeWhile (· != ch '.') ++ ch '.' :: t := by
  have hsplit := List.takeWhile_append_dropWhile (p := (· != ch '.')) (l := s)
  cases hd : s.dropWhile (· != ch '.') with
  | nil =>
    rw [hd, List.append_nil] at hsplit
    rw [hsplit] at h
    exact absurd h (Nat.lt_irrefl _)
  | cons b t =>
    have hb : b = ch '.' := by
      have := List.head?_dropWhile_not (· != ch '.') s
      rw [hd] at this
      simpa using this
    subst hb
    exact ⟨t, by rw [← hd, hsplit]⟩

theorem hostnameIsPrivate172_true {hostname : Str} (h : hostnameIsPrivate172 hostname = true) :
    ∃ octet t n, hostname = lit "172" ++ ch '.' :: (octet ++ ch '.' :: t) ∧ ch '.' ∉ octet ∧
      parseU8 octet = some n ∧ 16 ≤ n ∧ n ≤ 31 := by
  unfold hostnameIsPrivate172 at h
  split at h
  · next hp =>
    obtain ⟨rest, rfl⟩ := List.isPrefixOf_iff_prefix.mp hp
    rw [show (lit "172." ++ rest).drop 4 = rest from rfl] at h
    dsimp only at h
    split at h
    · next hlt =>
      split at h
      · next n hn =>
        rw [Bool.and_eq_true, decide_eq_true_eq, decide_eq_true_eq] at h
        obtain ⟨t, ht⟩ := takeWhile_dot hlt
        refine ⟨_, t, n, ?_, not_dot_mem_takeWhile rest, hn, h⟩
        rw [← ht]
        rfl
      · cases h
    · cases h
  · cases h

/-- The text before the first dot. -/
theorem eq_of_dot {x y s t : Str} (hx : ch '.' ∉ x) (hy : ch '.' ∉ y)
    (h : x ++ ch '.' :: s = y ++ ch '.' :: t) : x = y ∧ s = t := by
  induction x generalizing y with
  | nil =>
    cases y with
    | nil =>
      cases h
      exact ⟨rfl, rfl⟩
    | cons b y =>
      cases h
      exact absurd List.mem_cons_self hy
  | cons a x ih =>
    cases y with
    | nil =>
      cases h
      exact absurd List.mem_cons_self hx
    | cons b y =>
      rw [List.mem_cons, not_or] at hx hy
      simp only [List.cons_append, List.cons.injEq] at h
      obtain ⟨rfl, rfl⟩ := ih hx.2 hy.2 h.2
      exact ⟨by rw [h.1], rfl⟩

/-- The hand-written parser of the second octet reads what the address parser reads. -/
theorem second_of_parseU8 {octet t m : Str} {b : UInt8} {n : Nat} {r : UInt8 × Str}
    (hdot : ch '.' ∉ octet) (hn : parseU8 octet = some n)
    (hb : readOctet false (ch '.' :: (octet ++ ch '.' :: t)) = some (b, m))
    (hm : readOctet false m = some r) : b.toNat = n := by
  obtain ⟨x, ds, hs, hx, hds, hne, hlt, rfl⟩ := readOctet_false hb
  obtain ⟨y, -, rfl, -⟩ := readOctet_false hm
  have hxdot : ch '.' ∉ x := fun hmem => absurd (hx _ hmem) (by decide)
  obtain ⟨rfl, -⟩ := eq_of_dot hdot hxdot (List.cons.inj hs).2
  have hstop : digit10 (ch '.') = none := by decide
  obtain ⟨ds', hds', hend⟩ := digits_stop (t := y ++ r.2) hx hstop
  rw [hds'] at hds
  cases hds
  obtain ⟨b, rest, rfl⟩ := List.exists_cons_of_ne_nil hne
  have hplus : b ≠ ch '+' := by
    rintro rfl
    exact absurd (hx _ List.mem_cons_self) (by decide)
  simp only [parseU8, if_neg hplus, hend, Option.ite_none_right_eq_some, Option.some.injEq] at hn
  rw [← hn.2, Nat.toUInt8_eq, UInt8.toNat_ofNat', Nat.mod_eq_of_lt hlt]

/-- A literal that starts like a refused address is one. -/
theorem isIpBlocked_of_starts {config : ServerConfig} {hostname : Str} {ip : IpAddr}
    (hs : StartsRefused config hostname) (h : parseIpAddr hostname = some ip) :
    isIpBlocked ip config = true := by
  rw [isIpBlocked_true]
  rcases hs with ⟨hc, ⟨t, rfl⟩ | ⟨t, rfl⟩ | ⟨t, rfl⟩ | hs⟩ | ⟨hc, t, rfl⟩
  · obtain ⟨y, -, -, rfl, ha, -⟩ := v4_of_first (x := lit "10") (t := t) (a := 10) (by decide)
      (List.all_eq_true.mp rfl) rfl h
    refine .inr (.inr ⟨hc, .inl ?_⟩)
    simp only [isPrivate, inClass, Ipv4Addr.isPrivate, ha]
    rfl
  · obtain ⟨y, rfl, ha, hb⟩ := v4_of_second (x := lit "192") (y := lit "168." ++ t) (a := 192)
      (b := 168) (by decide) (List.all_eq_true.mp rfl) rfl rfl h
    refine .inr (.inr ⟨hc, .inl ?_⟩)
    simp only [isPrivate, inClass, Ipv4Addr.isPrivate, ha, hb]
    rfl
  · obtain ⟨y, rfl, ha, hb⟩ := v4_of_second (x := lit "169") (y := lit "254." ++ t) (a := 169)
      (b := 254) (by decide) (List.all_eq_true.mp rfl) rfl rfl h
    refine .inr (.inr ⟨hc, .inr ?_⟩)
    simp only [isLinkLocal, inClass, Ipv4Addr.isLinkLocal, ha, hb]
    rfl
  · obtain ⟨octet, t, n, rfl, hdot, hn, h16, h31⟩ := hostnameIsPrivate172_true hs
    obtain ⟨y, m, r, rfl, ha, hb, hm⟩ := v4_of_first (x := lit "172") (a := 172) (by decide)
      (List.all_eq_true.mp rfl) rfl h
    have hval := second_of_parseU8 hdot hn hb hm
    refine .inr (.inr ⟨hc, .inl ?_⟩)
    have hrange : (16 : UInt8) ≤ y.b ∧ y.b ≤ 31 := by
      rw [UInt8.le_iff_toNat_le, UInt8.le_iff_toNat_le, hval]
      exact ⟨h16, h31⟩
    simp only [isPrivate, inClass, Ipv4Addr.isPrivate, ha, hrange]
    rfl
  · obtain ⟨y, -, -, rfl, ha, -⟩ := v4_of_first (x := lit "127") (t := t) (a := 127) (by decide)
      (List.all_eq_true.mp rfl) rfl h
    refine .inr (.inl ⟨hc, ?_⟩)
    simp only [isLoopback, inClass, Ipv4Addr.isLoopback, ha]
    rfl

/-- The literals of the check are blocked as addresses where loopback is not allowed. -/
theorem policyRefuses_of_local {config : ServerConfig} {hostname : Str}
    (hc : config.allowLoopback = false)
    (h : hostname ∈ [lit "localhost", lit "127.0.0.1", lit "::1", lit "0.0.0.0", lit "::"]) :
    PolicyRefuses config hostname := by
  have hblocked : ∀ ip, isUnspecified ip = true ∨ isLoopback ip = true →
      isIpBlocked ip config = true := by
    intro ip hip
    rw [isIpBlocked_true]
    exact hip.imp_right fun hl => .inl ⟨hc, hl⟩
  simp only [List.mem_cons, List.not_mem_nil, or_false] at h
  rcases h with rfl | rfl | rfl | rfl | rfl
  · exact .inl ⟨hc, rfl⟩
  · exact .inr ⟨.v4 ⟨127, 0, 0, 1⟩, by decide, .inr (hblocked _ (by decide))⟩
  · exact .inr ⟨.v6 ⟨0, 0, 0, 0, 0, 0, 0, 1⟩, by decide, .inr (hblocked _ (by decide))⟩
  · exact .inr ⟨.v4 ⟨0, 0, 0, 0⟩, by decide, .inr (hblocked _ (by decide))⟩
  · exact .inr ⟨.v6 ⟨0, 0, 0, 0, 0, 0, 0, 0⟩, by decide, .inr (hblocked _ (by decide))⟩

theorem parseIpAddr_of_isRawIp {hostname : Str} (h : isRawIp hostname = true) :
    ∃ ip, parseIpAddr hostname = some ip := by
  rw [isRawIp, Bool.or_eq_true] at h
  rcases h with h | h
  · obtain ⟨x, hx⟩ := Option.isSome_iff_exists.mp h
    exact ⟨_, parseIpAddr_of_v4 hx⟩
  · obtain ⟨x, hx⟩ := Option.isSome_iff_exists.mp h
    exact ⟨_, parseIpAddr_of_v6 hx⟩

/-- `localhost` does not start like an address. -/
theorem not_startsRefused_localhost (config : ServerConfig) :
    ¬ StartsRefused config (lit "localhost") := by
  unfold StartsRefused
  rintro (⟨-, h | h | h | h⟩ | ⟨-, h⟩) <;> exact absurd h (by decide)

/-- The check before resolution refuses only what the policy refuses, exactly if the hostname is an
IP literal or does not start like a refused address. -/
theorem preResolution_within_policy (config : ServerConfig) (hostname : Str) :
    (isHostnameBlockedPreResolution hostname config = true → PolicyRefuses config hostname) ↔
      ¬ (parseIpAddr hostname = none ∧ StartsRefused config hostname) := by
  rw [preResolution_true]
  constructor
  · rintro h ⟨hnone, hs⟩
    rcases h (.inr (.inr hs)) with ⟨-, rfl⟩ | ⟨ip, hip, -⟩
    · exact not_startsRefused_localhost config hs
    · rw [hnone] at hip
      cases hip
  · rintro h (⟨hc, hraw⟩ | ⟨hc, hlocal⟩ | hs)
    · obtain ⟨ip, hip⟩ := parseIpAddr_of_isRawIp hraw
      exact .inr ⟨ip, hip, .inl hc⟩
    · exact policyRefuses_of_local hc hlocal
    · cases hip : parseIpAddr hostname with
      | none => exact absurd ⟨hip, hs⟩ h
      | some ip => exact .inr ⟨ip, hip, .inr (isIpBlocked_of_starts hs hip)⟩

/-- The DNS names `10.example.com` and `127.example.com` are refused. -/
theorem preResolution_refuses_names :
    (isHostnameBlockedPreResolution (lit "10.example.com") { allowPrivateIps := false } = true ∧
      ¬ PolicyRefuses { allowPrivateIps := false } (lit "10.example.com")) ∧
    isHostnameBlockedPreResolution (lit "127.example.com") { allowLoopback := false } = true ∧
      ¬ PolicyRefuses { allowLoopback := false } (lit "127.example.com") := by
  refine ⟨⟨by decide, ?_⟩, by decide, ?_⟩
  all_goals
    rintro (⟨-, h⟩ | ⟨ip, h, -⟩)
    · exact absurd h (by decide)
    · exact absurd h (by rw [show parseIpAddr _ = none by decide +kernel]; nofun)

end Security

end ShrimpWisp
