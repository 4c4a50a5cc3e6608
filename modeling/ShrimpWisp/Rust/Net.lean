import Mathlib.Algebra.Group.Nat.Defs
import ShrimpWisp.Lib.Parser
import ShrimpWisp.Rust.Str

/-!
# `std::net`: addresses and their text forms

The address types, the standard library's classifiers with their documented ranges, and the
parsers behind `str::parse::<Ipv4Addr>()`, `Ipv6Addr`, `IpAddr` and `SocketAddr`
(`core::net::parser`, function by function).

* The parsers are `Parser`s over bytes; `read_atomically` is what a `Parser` does, and
  `parse_with` is `Parser.exact`.
* `bracketedIpv6 h` reads `h` as `[addr]` or `[addr%scope]`: the host part of an IPv6 socket
  address.
* `parseSocketAddr_host`: the text `h:port` is a socket address exactly if `h` is an IPv4 address
  or a bracketed IPv6 address. The port's digits hold no `:`, so the last colon ends the host; the
  parsers of the two host forms stop at `:` and at `]` (`Parser.Local`).
-/

namespace ShrimpWisp

/-- `Ipv4Addr`: four octets. -/
structure Ipv4Addr where
  (a b c d : UInt8)
  deriving DecidableEq, Repr

/-- `Ipv6Addr`: eight segments. -/
structure Ipv6Addr where
  (s0 s1 s2 s3 s4 s5 s6 s7 : UInt16)
  deriving DecidableEq, Repr

/-- `IpAddr`. -/
inductive IpAddr where
  | v4 (addr : Ipv4Addr)
  | v6 (addr : Ipv6Addr)
  deriving DecidableEq, Repr

/-- `SocketAddr`. The flow info and the scope of an IPv6 socket address are not kept: the server
only takes the IP of a parsed or resolved socket address. -/
structure SocketAddr where
  ip : IpAddr
  port : UInt16
  deriving DecidableEq, Repr

namespace Ipv4Addr

/-- 127.0.0.0/8. -/
def isLoopback (x : Ipv4Addr) : Bool := x.a == 127

/-- 10.0.0.0/8, 172.16.0.0/12 and 192.168.0.0/16. -/
def isPrivate (x : Ipv4Addr) : Bool :=
  x.a == 10 || (x.a == 172 && 16 ≤ x.b && x.b ≤ 31) || (x.a == 192 && x.b == 168)

/-- 0.0.0.0. -/
def isUnspecified (x : Ipv4Addr) : Bool := x == ⟨0, 0, 0, 0⟩

/-- 169.254.0.0/16. -/
def isLinkLocal (x : Ipv4Addr) : Bool := x.a == 169 && x.b == 254

end Ipv4Addr

namespace Ipv6Addr

/-- ::1. -/
def isLoopback (x : Ipv6Addr) : Bool := x == ⟨0, 0, 0, 0, 0, 0, 0, 1⟩

/-- ::. -/
def isUnspecified (x : Ipv6Addr) : Bool := x == ⟨0, 0, 0, 0, 0, 0, 0, 0⟩

/-- The IPv4 address of `::ffff:a.b.c.d`. -/
def toIpv4Mapped (x : Ipv6Addr) : Option Ipv4Addr :=
  if x.s0 = 0 ∧ x.s1 = 0 ∧ x.s2 = 0 ∧ x.s3 = 0 ∧ x.s4 = 0 ∧ x.s5 = 0xffff then
    some ⟨(x.s6 >>> 8).toUInt8, x.s6.toUInt8, (x.s7 >>> 8).toUInt8, x.s7.toUInt8⟩
  else none

/-- The address of eight groups. -/
def ofGroups : List UInt16 → Ipv6Addr
  | [a, b, c, d, e, f, g, h] => ⟨a, b, c, d, e, f, g, h⟩
  | _ => ⟨0, 0, 0, 0, 0, 0, 0, 0⟩

end Ipv6Addr

/-! ## The parsers -/

/-- A parser over bytes. -/
abbrev BParser := Parser UInt8

/-- A hexadecimal digit's value. -/
def digit16 (b : UInt8) : Option Nat :=
  if ch '0' ≤ b ∧ b ≤ ch '9' then some (b.toNat - 48)
  else if ch 'a' ≤ b ∧ b ≤ ch 'f' then some (b.toNat - 87)
  else if ch 'A' ≤ b ∧ b ≤ ch 'F' then some (b.toNat - 55)
  else none

/-- The number with the digits `ds`. -/
def ofDigits (radix : Nat) (ds : List Nat) : Nat := ds.foldl (fun n d => n * radix + d) 0

/-- The checks of `read_number` on the digits it read: their number, a leading zero, and the
range of the result type (below `size`). -/
def numberOf (radix size : Nat) (maxDigits : Option Nat) (allowZeroPrefix : Bool)
    (ds : List Nat) : Option Nat :=
  if ds = [] then none
  else if (maxDigits.any fun m => m < ds.length) then none
  else if !allowZeroPrefix && ds.head? == some 0 && 1 < ds.length then none
  else if ofDigits radix ds < size then some (ofDigits radix ds)
  else none

/-- `read_number`. -/
def readNumber (digit : UInt8 → Option Nat) (radix size : Nat) (maxDigits : Option Nat)
    (allowZeroPrefix : Bool) : BParser Nat := do
  let ds ← Parser.digits digit
  Parser.ofOption (numberOf radix size maxDigits allowZeroPrefix ds)

/-- `read_separator`: the separator if this is not the first item, then the item. -/
def readSeparator {α : Type} (sep : Char) (first : Bool) (p : BParser α) : BParser α := do
  if first then p else do Parser.tok (ch sep); p

/-- One octet of an IPv4 address. -/
def readOctet (first : Bool) : BParser UInt8 := do
  let n ← readSeparator '.' first (readNumber digit10 10 256 (some 3) false)
  pure n.toUInt8

/-- `read_ipv4_addr`. -/
def readIpv4Addr : BParser Ipv4Addr := do
  let a ← readOctet true
  let b ← readOctet false
  let c ← readOctet false
  let d ← readOctet false
  pure ⟨a, b, c, d⟩

/-- `u16::from_be_bytes`. -/
def be16 (a b : UInt8) : UInt16 := a.toUInt16 <<< 8 ||| b.toUInt16

/-- The embedded IPv4 address that `read_groups` tries first. It takes two groups, so there must
be one left after this one. -/
def readEmbedded (left : Nat) (first : Bool) : BParser (Option Ipv4Addr) :=
  if 0 < left then Parser.opt (readSeparator ':' first readIpv4Addr) else pure none

/-- `read_groups` with `n` groups left: the groups read, and if they end with an embedded IPv4
address. -/
def readGroups : Nat → Bool → BParser (List UInt16 × Bool)
  | 0, _ => pure ([], false)
  | n + 1, first => do
    let ipv4 ← readEmbedded n first
    match ipv4 with
    | some x => pure ([be16 x.a x.b, be16 x.c x.d], true)
    | none =>
      let group ← Parser.opt (readSeparator ':' first (readNumber digit16 16 65536 (some 4) true))
      match group with
      | some g => do
        let rest ← readGroups n false
        pure (g.toUInt16 :: rest.1, rest.2)
      | none => pure ([], false)

/-- `read_ipv6_addr`. -/
def readIpv6Addr : BParser Ipv6Addr := do
  let head ← readGroups 8 true
  if head.1.length = 8 then pure (Ipv6Addr.ofGroups head.1)
  else if head.2 then Parser.fail
  else do
    Parser.tok (ch ':')
    Parser.tok (ch ':')
    let tail ← readGroups (8 - (head.1.length + 1)) true
    pure (Ipv6Addr.ofGroups
      (head.1 ++ List.replicate (8 - tail.1.length - head.1.length) 0 ++ tail.1))

/-- `read_ip_addr`. -/
def readIpAddr : BParser IpAddr :=
  Parser.orElse (do let x ← readIpv4Addr; pure (.v4 x)) (do let x ← readIpv6Addr; pure (.v6 x))

/-- `read_port`. -/
def readPort : BParser UInt16 := do
  Parser.tok (ch ':')
  let n ← readNumber digit10 10 65536 none true
  pure n.toUInt16

/-- `read_scope_id`. -/
def readScopeId : BParser Nat := do
  Parser.tok (ch '%')
  readNumber digit10 10 (2 ^ 32) none true

/-- `read_socket_addr_v4`. -/
def readSocketAddrV4 : BParser SocketAddr := do
  let ip ← readIpv4Addr
  let port ← readPort
  pure ⟨.v4 ip, port⟩

/-- An IPv6 address with an optional scope. -/
def readScopedIpv6 : BParser Ipv6Addr := do
  let ip ← readIpv6Addr
  let _ ← Parser.opt readScopeId
  pure ip

/-- `read_socket_addr_v6`. -/
def readSocketAddrV6 : BParser SocketAddr := do
  Parser.tok (ch '[')
  let ip ← readScopedIpv6
  Parser.tok (ch ']')
  let port ← readPort
  pure ⟨.v6 ip, port⟩

/-- `str::parse::<Ipv4Addr>()`: an address has at most 15 bytes. -/
def parseIpv4Addr (s : Str) : Option Ipv4Addr :=
  if 15 < s.length then none else readIpv4Addr.exact s

/-- `str::parse::<Ipv6Addr>()`. -/
def parseIpv6Addr (s : Str) : Option Ipv6Addr := readIpv6Addr.exact s

/-- `str::parse::<IpAddr>()`. -/
def parseIpAddr (s : Str) : Option IpAddr := readIpAddr.exact s

/-- `str::parse::<SocketAddr>()`. -/
def parseSocketAddr (s : Str) : Option SocketAddr :=
  (Parser.orElse readSocketAddrV4 readSocketAddrV6).exact s

/-- `[addr]` or `[addr%scope]`: the host of an IPv6 socket address. -/
def bracketedIpv6 (s : Str) : Option Ipv6Addr :=
  (do Parser.tok (ch '['); let ip ← readScopedIpv6; Parser.tok (ch ']'); pure ip :
    BParser Ipv6Addr).exact s

/-! ## Where the parsers stop -/

section Stop

variable {c : UInt8}

theorem local_readNumber {digit : UInt8 → Option Nat} (hc : digit c = none) (radix size : Nat)
    (m : Option Nat) (z : Bool) : Parser.Local c (readNumber digit radix size m z) :=
  .bind (.digits hc) fun _ => .ofOption _

theorem local_readSeparator {α : Type} {sep : Char} (first : Bool) {p : BParser α}
    (hs : ch sep ≠ c) (hp : Parser.Local c p) : Parser.Local c (readSeparator sep first p) := by
  unfold readSeparator
  split
  · exact hp
  · exact .bind (.tok hs) fun _ => hp

theorem local_readIpv4Addr (hd : digit10 c = none) (hs : ch '.' ≠ c) :
    Parser.Local c readIpv4Addr := by
  have ho : ∀ first, Parser.Local c (readOctet first) := fun first =>
    .bind (local_readSeparator first hs (local_readNumber hd _ _ _ _)) fun _ => .pure _
  exact .bind (ho _) fun _ => .bind (ho _) fun _ => .bind (ho _) fun _ => .bind (ho _) fun _ =>
    .pure _

theorem local_readGroups (hd : digit10 c = none) (hx : digit16 c = none) (hdot : ch '.' ≠ c)
    (hcol : ch ':' ≠ c) (n : Nat) (first : Bool) : Parser.Local c (readGroups n first) := by
  induction n generalizing first with
  | zero => exact .pure _
  | succ n ih =>
    unfold readGroups
    refine .bind ?_ fun o => ?_
    · unfold readEmbedded
      split
      · exact .opt (local_readSeparator _ hcol (local_readIpv4Addr hd hdot))
      · exact .pure _
    · cases o with
      | some x => exact .pure _
      | none =>
        refine .bind (.opt (local_readSeparator _ hcol (local_readNumber hx _ _ _ _))) fun g => ?_
        cases g with
        | some g => exact .bind (ih false) fun _ => .pure _
        | none => exact .pure _

theorem local_readScopedIpv6 (hd : digit10 c = none) (hx : digit16 c = none) (hdot : ch '.' ≠ c)
    (hcol : ch ':' ≠ c) (hpct : ch '%' ≠ c) : Parser.Local c readScopedIpv6 := by
  have hg := fun n first => local_readGroups hd hx hdot hcol n first
  refine .bind (.bind (hg _ _) fun head => ?_) fun _ => .bind (.opt ?_) fun _ => .pure _
  · split
    · exact .pure _
    · split
      · exact .fail
      · exact .bind (.tok hcol) fun _ => .bind (.tok hcol) fun _ => .bind (hg _ _) fun _ => .pure _
  · exact .bind (.tok hpct) fun _ => local_readNumber hd _ _ _ _

end Stop

/-! ## Host and port -/

theorem digits_spec {f : UInt8 → Option Nat} {s r : Str} {ds : List Nat}
    (h : Parser.digits f s = some (ds, r)) :
    ∃ x, s = x ++ r ∧ x.length = ds.length ∧ ∀ b ∈ x, (f b).isSome := by
  induction s generalizing ds r with
  | nil => cases h; exact ⟨[], rfl, rfl, by simp⟩
  | cons b s ih =>
    simp only [Parser.digits] at h
    split at h
    · cases h; exact ⟨[], rfl, rfl, by simp⟩
    · rename_i d hb
      simp only [Option.map_eq_some_iff, Prod.exists, Prod.mk.injEq] at h
      obtain ⟨ds', m, h', rfl, rfl⟩ := h
      obtain ⟨x, rfl, hl, hx⟩ := ih h'
      exact ⟨b :: x, rfl, by simp [hl], by simpa [hb] using hx⟩

/-- What `read_port` reads at the end of the input: a colon and digits. -/
theorem readPort_end {s : Str} {p : UInt16} (h : readPort s = some (p, [])) :
    ∃ ds, s = ch ':' :: ds ∧ ∀ b ∈ ds, (digit10 b).isSome := by
  obtain ⟨_, m, h₁, h₂⟩ := Parser.bind_eq_some.mp h
  obtain ⟨n, m', h₃, h₄⟩ := Parser.bind_eq_some.mp h₂
  cases h₄
  obtain ⟨ds, m'', h₅, h₆⟩ := Parser.bind_eq_some.mp h₃
  have hm : m'' = [] := by
    simp only [Parser.ofOption, Option.map_eq_some_iff, Prod.mk.injEq] at h₆
    obtain ⟨_, _, _, rfl⟩ := h₆
    rfl
  subst hm
  obtain ⟨x, hx, -, hall⟩ := digits_spec h₅
  rw [List.append_nil] at hx
  subst hx
  exact ⟨_, Parser.tok_eq_some.mp h₁, hall⟩

theorem digits_decimal (cs : List Char) (h : ∀ c ∈ cs, c.isDigit = true) :
    Parser.digits digit10 (cs.map ch) = some (cs.map fun c => c.toNat - 48, []) := by
  induction cs with
  | nil => rfl
  | cons c cs ih =>
    simp only [List.map_cons, Parser.digits, digit10_ch (h c (by simp)),
      ih fun d hd => h d (by simp [hd]), Option.map_some]

theorem ofDigits_chars (cs : List Char) :
    ofDigits 10 (cs.map fun c => c.toNat - 48) = Nat.ofDigitChars 10 cs 0 := by
  simp only [ofDigits, Nat.ofDigitChars_eq_foldl, List.foldl_map]
  congr 1
  funext n c
  rw [Nat.mul_comm]
  rfl

/-- The printed port reads back. -/
theorem readPort_decimal (port : UInt16) :
    readPort (ch ':' :: decimal port.toNat) = some (port, []) := by
  have hd := digits_decimal (Nat.toDigits 10 port.toNat) fun c hc =>
    Nat.isDigit_of_mem_toDigits (by decide) (by decide) hc
  have hv : ofDigits 10 ((Nat.toDigits 10 port.toNat).map fun c => c.toNat - 48) = port.toNat := by
    rw [ofDigits_chars, Nat.ofDigitChars_toDigits (by decide) (by decide)]
  have hn : (Nat.toDigits 10 port.toNat).map (fun c => c.toNat - 48) ≠ [] := by
    simp [Nat.toDigits_ne_nil]
  simp only [readPort, readNumber, decimal, Parser.bind_apply, Parser.tok_cons, Option.bind_some,
    hd, numberOf, hn, hv, port.toNat_lt, Parser.ofOption]
  simp [Parser.pure_apply]

/-- The last colon of a text is where the host ends. -/
theorem last_colon {x y x' y' : Str} (hy : ∀ b ∈ y, (digit10 b).isSome)
    (hy' : ∀ b ∈ y', (digit10 b).isSome) (h : x ++ ch ':' :: y = x' ++ ch ':' :: y') :
    x = x' ∧ y = y' := by
  have hno : ∀ {z : Str}, (∀ b ∈ z, (digit10 b).isSome) → ch ':' ∉ z := by
    intro z hz hm
    have := hz _ hm
    exact absurd this (by decide)
  rcases List.append_eq_append_iff.mp h with ⟨z, rfl, hz⟩ | ⟨z, rfl, hz⟩
  · cases z with
    | nil => simpa using hz
    | cons b z =>
      simp only [List.cons_append, List.cons.injEq] at hz
      exact absurd (hz.2 ▸ List.mem_append_right z (List.mem_cons_self ..)) (hno hy)
  · cases z with
    | nil => simpa using hz.symm
    | cons b z =>
      simp only [List.cons_append, List.cons.injEq] at hz
      exact absurd (hz.2 ▸ List.mem_append_right z (List.mem_cons_self ..)) (hno hy')

/-- `h:port` as an IPv4 socket address: `h` is an IPv4 address. -/
theorem readSocketAddrV4_host {h : Str} {port : UInt16} {a : SocketAddr} {r : Str}
    (hp : readSocketAddrV4 (h ++ ch ':' :: decimal port.toNat) = some (a, r)) (hr : r = []) :
    ∃ x, readIpv4Addr.exact h = some x ∧ a.ip = .v4 x := by
  subst hr
  obtain ⟨x, m, h₁, h₂⟩ := Parser.bind_eq_some.mp hp
  obtain ⟨q, m', h₃, h₄⟩ := Parser.bind_eq_some.mp h₂
  cases h₄
  obtain ⟨ds, rfl, hds⟩ := readPort_end h₃
  have hl := local_readIpv4Addr (c := ch ':') (by decide) (by decide)
  rcases hl h with ⟨y, t, ht⟩ | hn
  · rw [ht _ (.cons _ _)] at h₁
    simp only [Option.some.injEq, Prod.mk.injEq] at h₁
    obtain ⟨rfl, e⟩ := h₁
    -- the rest `t ++ :port` is a colon and digits, so `t` is empty
    have e : t ++ ch ':' :: decimal port.toNat = [] ++ ch ':' :: ds := e
    have he := last_colon (fun _ hb => digit10_decimal hb) hds e
    refine ⟨y, hl.exact_of_stop (.cons _ (decimal port.toNat)) ?_, rfl⟩
    rw [ht _ (.cons _ _), he.1, List.nil_append]
  · rw [hn _ (.cons _ _)] at h₁; cases h₁

theorem suffix_readNumber (digit : UInt8 → Option Nat) (radix size : Nat) (m : Option Nat)
    (z : Bool) : Parser.Suffix (readNumber digit radix size m z) :=
  .bind (.digits _) fun _ => .ofOption _

theorem suffix_readSeparator {α : Type} (sep : Char) (first : Bool) {p : BParser α}
    (hp : Parser.Suffix p) : Parser.Suffix (readSeparator sep first p) := by
  unfold readSeparator
  split
  · exact hp
  · exact .bind (.tok _) fun _ => hp

theorem suffix_readOctet (first : Bool) : Parser.Suffix (readOctet first) :=
  .bind (suffix_readSeparator _ _ (suffix_readNumber _ _ _ _ _)) fun _ => .pure _

theorem suffix_readIpv4Addr : Parser.Suffix readIpv4Addr :=
  .bind (suffix_readOctet _) fun _ => .bind (suffix_readOctet _) fun _ =>
    .bind (suffix_readOctet _) fun _ => .bind (suffix_readOctet _) fun _ => .pure _

theorem suffix_readGroups (n : Nat) (first : Bool) : Parser.Suffix (readGroups n first) := by
  induction n generalizing first with
  | zero => exact .pure _
  | succ n ih =>
    unfold readGroups
    refine .bind ?_ fun o => ?_
    · unfold readEmbedded
      split
      · exact .opt (suffix_readSeparator _ _ suffix_readIpv4Addr)
      · exact .pure _
    · cases o with
      | some x => exact .pure _
      | none =>
        refine .bind (.opt (suffix_readSeparator _ _ (suffix_readNumber _ _ _ _ _))) fun g => ?_
        cases g with
        | some g => exact .bind (ih false) fun _ => .pure _
        | none => exact .pure _

theorem suffix_readScopedIpv6 : Parser.Suffix readScopedIpv6 := by
  refine .bind (.bind (suffix_readGroups _ _) fun head => ?_) fun _ => .bind (.opt ?_) fun _ =>
    .pure _
  · split
    · exact .pure _
    · split
      · exact .fail
      · exact .bind (.tok _) fun _ => .bind (.tok _) fun _ =>
          .bind (suffix_readGroups _ _) fun _ => .pure _
  · exact .bind (.tok _) fun _ => suffix_readNumber _ _ _ _ _

/-- `read_scoped_ipv6` stops at `]`. -/
theorem local_bracket : Parser.Local (ch ']') readScopedIpv6 :=
  local_readScopedIpv6 (by decide) (by decide) (by decide) (by decide) (by decide)

theorem bracketedIpv6_eq_some {h : Str} {x : Ipv6Addr} :
    bracketedIpv6 h = some x ↔ ∃ body, h = ch '[' :: body ++ [ch ']'] ∧
      readScopedIpv6.exact body = some x := by
  unfold bracketedIpv6
  rw [Parser.exact_eq_some]
  constructor
  · intro hb
    obtain ⟨_, m, h₁, h₂⟩ := Parser.bind_eq_some.mp hb
    obtain ⟨y, m', h₃, h₄⟩ := Parser.bind_eq_some.mp h₂
    obtain ⟨_, m'', h₅, h₆⟩ := Parser.bind_eq_some.mp h₄
    cases h₆
    obtain ⟨body, rfl⟩ := suffix_readScopedIpv6 _ _ _ h₃
    rw [Parser.tok_eq_some.mp h₅] at h₁ h₃
    exact ⟨body, Parser.tok_eq_some.mp h₁, local_bracket.exact_of_stop (.cons _ _) h₃⟩
  · rintro ⟨body, rfl, hx⟩
    have := local_bracket.of_exact (.cons (ch ']') []) hx
    simp only [List.cons_append, Parser.bind_apply, Parser.tok_cons, Option.bind_some, this,
      Parser.pure_apply]

/-- `h:port` as an IPv6 socket address: `h` is a bracketed IPv6 address. -/
theorem readSocketAddrV6_host {h : Str} {port : UInt16} {a : SocketAddr} {r : Str}
    (hp : readSocketAddrV6 (h ++ ch ':' :: decimal port.toNat) = some (a, r)) (hr : r = []) :
    ∃ x, bracketedIpv6 h = some x ∧ a.ip = .v6 x := by
  subst hr
  obtain ⟨_, m₀, h₀, h₁⟩ := Parser.bind_eq_some.mp hp
  obtain ⟨x, m₁, h₂, h₃⟩ := Parser.bind_eq_some.mp h₁
  obtain ⟨_, m₂, h₄, h₅⟩ := Parser.bind_eq_some.mp h₃
  obtain ⟨q, m₃, h₆, h₇⟩ := Parser.bind_eq_some.mp h₅
  cases h₇
  obtain ⟨ds, rfl, hds⟩ := readPort_end h₆
  obtain ⟨body, rfl⟩ := suffix_readScopedIpv6 _ _ _ h₂
  have h₀ := Parser.tok_eq_some.mp h₀
  rw [Parser.tok_eq_some.mp h₄] at h₀ h₂
  have e : h ++ ch ':' :: decimal port.toNat = (ch '[' :: body ++ [ch ']']) ++ ch ':' :: ds := by
    rw [h₀]; simp
  obtain ⟨rfl, -⟩ := last_colon (fun _ hb => digit10_decimal hb) hds e
  exact ⟨x, bracketedIpv6_eq_some.mpr ⟨body, rfl, local_bracket.exact_of_stop (.cons _ _) h₂⟩, rfl⟩

/-- **Hosts of socket addresses.** `h:port` reads as a socket address only if `h` is an IPv4
address or a bracketed IPv6 address. -/
theorem parseSocketAddr_host {h : Str} {port : UInt16} {a : SocketAddr}
    (hp : parseSocketAddr (h ++ ch ':' :: decimal port.toNat) = some a) :
    (∃ x, readIpv4Addr.exact h = some x ∧ a.ip = .v4 x) ∨
      ∃ x, bracketedIpv6 h = some x ∧ a.ip = .v6 x := by
  have hp := Parser.exact_eq_some.mp hp
  unfold Parser.orElse at hp
  cases h4 : readSocketAddrV4 (h ++ ch ':' :: decimal port.toNat) with
  | some v =>
    rw [h4, Option.some_or] at hp
    cases hp
    exact .inl (readSocketAddrV4_host h4 rfl)
  | none =>
    rw [h4, Option.none_or] at hp
    exact .inr (readSocketAddrV6_host hp rfl)

/-! ## IP literals -/

theorem readOctet_length {first : Bool} {s r : Str} {n : UInt8}
    (h : readOctet first s = some (n, r)) : s.length ≤ r.length + (if first then 3 else 4) := by
  -- at most three digits, after the dot of a later octet
  have hnum : ∀ {s r : Str} {k : Nat}, readNumber digit10 10 256 (some 3) false s = some (k, r) →
      s.length ≤ r.length + 3 := by
    intro s r k h
    obtain ⟨ds, m, h₁, h₂⟩ := Parser.bind_eq_some.mp h
    obtain ⟨x, rfl, hl, -⟩ := digits_spec h₁
    simp only [Parser.ofOption, Option.map_eq_some_iff, Prod.mk.injEq] at h₂
    obtain ⟨_, h₃, -, rfl⟩ := h₂
    have : ¬ 3 < ds.length := by
      intro hlt
      simp only [numberOf, Option.any_some, decide_eq_true hlt, if_true] at h₃
      split at h₃ <;> cases h₃
    simp only [List.length_append]
    omega
  obtain ⟨k, m, h₁, h₂⟩ := Parser.bind_eq_some.mp h
  cases h₂
  unfold readSeparator at h₁
  split at h₁
  · rename_i hf
    rw [if_pos hf]
    exact hnum h₁
  · rename_i hf
    obtain ⟨_, m', h₃, h₄⟩ := Parser.bind_eq_some.mp h₁
    have := hnum h₄
    rw [Parser.tok_eq_some.mp h₃, if_neg hf]
    simp only [List.length_cons]
    omega

/-- The length check of `str::parse::<Ipv4Addr>()` refuses no address. -/
theorem parseIpv4Addr_eq (s : Str) : parseIpv4Addr s = readIpv4Addr.exact s := by
  unfold parseIpv4Addr
  split
  · rename_i hlt
    cases he : readIpv4Addr.exact s with
    | none => rfl
    | some x =>
      have he := Parser.exact_eq_some.mp he
      obtain ⟨a, m₁, h₁, he⟩ := Parser.bind_eq_some.mp he
      obtain ⟨b, m₂, h₂, he⟩ := Parser.bind_eq_some.mp he
      obtain ⟨c, m₃, h₃, he⟩ := Parser.bind_eq_some.mp he
      obtain ⟨d, m₄, h₄, he⟩ := Parser.bind_eq_some.mp he
      cases he
      have := readOctet_length h₁
      have := readOctet_length h₂
      have := readOctet_length h₃
      have := readOctet_length h₄
      simp only [if_true, Bool.false_eq_true, if_false, List.length_nil] at *
      omega
  · rfl

/-- An `IpAddr` literal is an `Ipv4Addr` or an `Ipv6Addr` literal. -/
theorem parseIpAddr_some {s : Str} {ip : IpAddr} (h : parseIpAddr s = some ip) :
    (parseIpv4Addr s).isSome ∨ (parseIpv6Addr s).isSome := by
  have h := Parser.exact_eq_some.mp h
  rw [parseIpv4Addr_eq, parseIpv6Addr]
  unfold readIpAddr Parser.orElse at h
  rcases Option.or_eq_some_iff.mp h with h | ⟨-, h⟩
  · obtain ⟨x, m, h₁, h₂⟩ := Parser.bind_eq_some.mp h
    cases h₂
    exact .inl (by rw [Parser.exact_eq_some.mpr h₁]; rfl)
  · obtain ⟨x, m, h₁, h₂⟩ := Parser.bind_eq_some.mp h
    cases h₂
    exact .inr (by rw [Parser.exact_eq_some.mpr h₁]; rfl)

section Bracket

/-! No plain address starts with a bracket. -/

variable (s : Str)

theorem readNumber_bracket {digit : UInt8 → Option Nat} (hd : digit (ch '[') = none)
    (radix size : Nat) (m : Option Nat) (z : Bool) :
    readNumber digit radix size m z (ch '[' :: s) = none := by
  simp [readNumber, Parser.bind_apply, Parser.digits, hd, numberOf, Parser.ofOption]

theorem readIpv4Addr_bracket : readIpv4Addr (ch '[' :: s) = none := by
  simp [readIpv4Addr, readOctet, readSeparator, Parser.bind_apply,
    readNumber_bracket s (show digit10 (ch '[') = none by decide)]

theorem readIpv6Addr_bracket : readIpv6Addr (ch '[' :: s) = none := by
  have hg : readGroups 8 true (ch '[' :: s) = some (([], false), ch '[' :: s) := by
    simp [readGroups, readEmbedded, readSeparator, Parser.opt, Parser.bind_apply,
      readIpv4Addr_bracket, readNumber_bracket s (show digit16 (ch '[') = none by decide),
      Parser.pure_apply]
  have ht : Parser.tok (ch ':') (ch '[' :: s) = none := by
    simp [Parser.tok, show ch '[' ≠ ch ':' by decide]
  simp [readIpv6Addr, Parser.bind_apply, hg, ht]

theorem parseIpAddr_bracket : parseIpAddr (ch '[' :: s) = none := by
  simp [parseIpAddr, Parser.exact, readIpAddr, Parser.orElse, Parser.bind_apply,
    readIpv4Addr_bracket, readIpv6Addr_bracket]

end Bracket

section Dotted

/-! No IPv6 address starts with an IPv4 address, or with decimal digits and a dot. -/

/-- The first groups end with an embedded address, so there are two of them. -/
theorem readIpv6Addr_of_v4 {s r : Str} {x : Ipv4Addr} (h : readIpv4Addr s = some (x, r)) :
    readIpv6Addr s = none := by
  have hg : readGroups 8 true s = some (([be16 x.a x.b, be16 x.c x.d], true), r) := by
    simp [readGroups, readEmbedded, readSeparator, Parser.opt, Parser.bind_apply, h,
      Parser.pure_apply]
  simp [readIpv6Addr, Parser.bind_apply, hg, Parser.fail]

theorem parseIpAddr_of_v4 {s : Str} {x : Ipv4Addr} (h : parseIpv4Addr s = some x) :
    parseIpAddr s = some (.v4 x) := by
  rw [parseIpv4Addr_eq, Parser.exact_eq_some] at h
  rw [parseIpAddr, Parser.exact_eq_some]
  simp [readIpAddr, Parser.orElse, Parser.bind_apply, h, Parser.pure_apply]

theorem parseIpAddr_of_v6 {s : Str} {x : Ipv6Addr} (h : parseIpv6Addr s = some x) :
    parseIpAddr s = some (.v6 x) := by
  have h : readIpv6Addr s = some (x, []) := Parser.exact_eq_some.mp h
  have h4 : readIpv4Addr s = none := by
    cases h4 : readIpv4Addr s with
    | none => rfl
    | some y =>
      rw [readIpv6Addr_of_v4 h4] at h
      cases h
  rw [parseIpAddr, Parser.exact_eq_some]
  simp [readIpAddr, Parser.orElse, Parser.bind_apply, h, h4, Parser.pure_apply]

/-- A run of digits ends at a token without a value, or with the input. -/
theorem digits_stop {f : UInt8 → Option Nat} {x t : Str} {c : UInt8}
    (hx : ∀ b ∈ x, (f b).isSome) (hc : f c = none) :
    ∃ ds, Parser.digits f (x ++ c :: t) = some (ds, c :: t) ∧ Parser.digits f x = some (ds, []) := by
  induction x with
  | nil => exact ⟨[], by simp [Parser.digits, hc], rfl⟩
  | cons b x ih =>
    obtain ⟨d, hd⟩ := Option.isSome_iff_exists.mp (hx b List.mem_cons_self)
    obtain ⟨ds, hds, hend⟩ := ih fun b hb => hx b (List.mem_cons_of_mem _ hb)
    exact ⟨d :: ds, by simp [Parser.digits, hd, hds], by simp [Parser.digits, hd, hend]⟩

theorem digit16_of_digit10 {b : UInt8} (h : (digit10 b).isSome) : (digit16 b).isSome := by
  unfold digit10 at h
  unfold digit16
  split at h
  · next hb => rw [if_pos hb]; rfl
  · cases h

/-- A group of hexadecimal digits does not go past a dot. -/
theorem readIpv6Addr_dotted {x t : Str} (hne : x ≠ []) (hx : ∀ b ∈ x, (digit10 b).isSome) :
    readIpv6Addr (x ++ ch '.' :: t) = none := by
  cases h4 : readIpv4Addr (x ++ ch '.' :: t) with
  | some r => exact readIpv6Addr_of_v4 h4
  | none =>
    obtain ⟨ds, hds, -⟩ := digits_stop (t := t) (c := ch '.')
      (fun b hb => digit16_of_digit10 (hx b hb)) (by decide)
    have hcolon : ∀ s, Parser.tok (ch ':') (ch '.' :: s) = none := fun s => by
      simp [Parser.tok, show ch '.' ≠ ch ':' by decide]
    have hrest : readGroups 7 false (ch '.' :: t) = some (([], false), ch '.' :: t) := by
      simp [readGroups, readEmbedded, readSeparator, Parser.opt, Parser.bind_apply, hcolon,
        Parser.pure_apply]
    cases hn : numberOf 16 65536 (some 4) true ds with
    | some g =>
      have hg : readGroups 8 true (x ++ ch '.' :: t) =
          some (([g.toUInt16], false), ch '.' :: t) := by
        rw [readGroups]
        simp [readEmbedded, readSeparator, Parser.opt, Parser.bind_apply, h4, readNumber, hds, hn,
          Parser.ofOption, hrest, Parser.pure_apply]
      simp [readIpv6Addr, Parser.bind_apply, hg, hcolon]
    | none =>
      have hg : readGroups 8 true (x ++ ch '.' :: t) = some (([], false), x ++ ch '.' :: t) := by
        rw [readGroups]
        simp [readEmbedded, readSeparator, Parser.opt, Parser.bind_apply, h4, readNumber, hds, hn,
          Parser.ofOption, Parser.pure_apply]
      obtain ⟨b, x, rfl⟩ := List.exists_cons_of_ne_nil hne
      have hb : Parser.tok (ch ':') (b :: x ++ ch '.' :: t) = none := by
        have : b ≠ ch ':' := by
          rintro rfl
          exact absurd (hx _ List.mem_cons_self) (by decide)
        simp [Parser.tok, this]
      rw [List.cons_append] at hg hb ⊢
      simp [readIpv6Addr, Parser.bind_apply, hg, hb]

/-- The octets of an address, and what is left after each. -/
theorem readIpv4Addr_octets {s r : Str} {x : Ipv4Addr} (h : readIpv4Addr s = some (x, r)) :
    ∃ m₁ m₂ m₃, readOctet true s = some (x.a, m₁) ∧ readOctet false m₁ = some (x.b, m₂) ∧
      readOctet false m₂ = some (x.c, m₃) := by
  obtain ⟨a, m₁, h₁, h⟩ := Parser.bind_eq_some.mp h
  obtain ⟨b, m₂, h₂, h⟩ := Parser.bind_eq_some.mp h
  obtain ⟨c, m₃, h₃, h⟩ := Parser.bind_eq_some.mp h
  obtain ⟨d, m₄, h₄, h⟩ := Parser.bind_eq_some.mp h
  cases h
  exact ⟨m₁, m₂, m₃, h₁, h₂, h₃⟩

/-- A later octet: a dot, then its digits. -/
theorem readOctet_false {s m : Str} {b : UInt8} (h : readOctet false s = some (b, m)) :
    ∃ x ds, s = ch '.' :: (x ++ m) ∧ (∀ c ∈ x, (digit10 c).isSome) ∧
      Parser.digits digit10 (x ++ m) = some (ds, m) ∧ x ≠ [] ∧ ofDigits 10 ds < 256 ∧
      b = (ofDigits 10 ds).toUInt8 := by
  obtain ⟨k, m₁, h, hk⟩ := Parser.bind_eq_some.mp h
  cases hk
  obtain ⟨_, m₂, hdot, h⟩ := Parser.bind_eq_some.mp h
  obtain ⟨ds, m₃, hds, h⟩ := Parser.bind_eq_some.mp h
  obtain ⟨k', hk, he⟩ := Option.map_eq_some_iff.mp h
  cases he
  obtain ⟨x, rfl, hl, hx⟩ := digits_spec hds
  rw [Parser.tok_eq_some] at hdot
  unfold numberOf at hk
  split at hk
  · cases hk
  next hne =>
  have hxne : x ≠ [] := by
    rintro rfl
    exact hne (List.length_eq_zero_iff.mp hl.symm)
  split at hk
  · cases hk
  split at hk
  · cases hk
  split at hk
  · next hlt =>
    cases hk
    exact ⟨x, ds, hdot, hx, hds, hxne, hlt, rfl⟩
  · cases hk

/-- A literal that starts with decimal digits and a dot is an IPv4 address. -/
theorem parseIpAddr_dotted {x t : Str} {ip : IpAddr} (hne : x ≠ [])
    (hx : ∀ b ∈ x, (digit10 b).isSome) (h : parseIpAddr (x ++ ch '.' :: t) = some ip) :
    ∃ y, ip = .v4 y ∧ readIpv4Addr (x ++ ch '.' :: t) = some (y, []) := by
  have h := Parser.exact_eq_some.mp h
  unfold readIpAddr Parser.orElse at h
  rcases Option.or_eq_some_iff.mp h with h | ⟨-, h⟩
  · obtain ⟨y, m, h₁, h₂⟩ := Parser.bind_eq_some.mp h
    cases h₂
    exact ⟨y, rfl, h₁⟩
  · obtain ⟨y, m, h₁, h₂⟩ := Parser.bind_eq_some.mp h
    rw [readIpv6Addr_dotted hne hx] at h₁
    cases h₁

end Dotted

/-- A bracketed IPv6 host with any port reads as a socket address. -/
theorem parseSocketAddr_bracketed {h : Str} {x : Ipv6Addr} (hb : bracketedIpv6 h = some x)
    (port : UInt16) :
    parseSocketAddr (h ++ ch ':' :: decimal port.toNat) = some ⟨.v6 x, port⟩ := by
  obtain ⟨body, rfl, hx⟩ := bracketedIpv6_eq_some.mp hb
  rw [parseSocketAddr, Parser.exact_eq_some]
  unfold Parser.orElse
  have h4 : ∀ s, readSocketAddrV4 (ch '[' :: s) = none := fun s => by
    simp [readSocketAddrV4, Parser.bind_apply, readIpv4Addr_bracket]
  have h6 := local_bracket.of_exact (.cons (ch ']') (ch ':' :: decimal port.toNat)) hx
  simp only [List.cons_append, List.append_assoc, h4, Option.none_or]
  simp only [readSocketAddrV6, Parser.bind_apply, Parser.tok_cons, Option.bind_some,
    List.nil_append, h6, readPort_decimal, Parser.pure_apply]

end ShrimpWisp
