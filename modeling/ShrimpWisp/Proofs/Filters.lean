import Mathlib.Data.List.Forall2
import ShrimpWisp.Server.Config

/-!
# Host and port filters

What the lists of the JSON file say about a hostname and a port. The file's hostnames are lowered
and its ranges are expanded when the configuration is built; a request is then looked up in the
result. `mergeJsonConfig_filters` states the decision on the file's own entries: a hostname is
compared without regard to ASCII case, and a range has the ports between its two ends.
-/

namespace ShrimpWisp

/-! ## Entries -/

/-- The same byte, or the two cases of the letter number `i`. -/
def SameByte (a b : UInt8) : Prop :=
  a = b ∨ ∃ i < 26, a = ch 'A' + i ∧ b = ch 'a' + i ∨ a = ch 'a' + i ∧ b = ch 'A' + i

/-- Equal without regard to ASCII case. -/
def EqIgnoreAsciiCase (s t : Str) : Prop := List.Forall₂ SameByte s t

/-- The port is the entry, or lies between the two ends of the range. -/
def PortEntry.Covers (port : UInt16) : PortEntry → Prop
  | .single p => port = p
  | .range start stop => start ≤ port ∧ port ≤ stop ∨ stop ≤ port ∧ port ≤ start

/-- The filter refuses: there is a whitelist and no entry of it matches, or there is none and an
entry of the blacklist matches. -/
def Refuses {α : Type} (white black : List α) (Match : α → Prop) : Prop :=
  white ≠ [] ∧ (∀ e ∈ white, ¬ Match e) ∨ white = [] ∧ ∃ e ∈ black, Match e

/-! ## ASCII case -/

theorem toNat_asciiLower (b : UInt8) :
    (asciiLower b).toNat = if 65 ≤ b.toNat ∧ b.toNat ≤ 90 then b.toNat + 32 else b.toNat := by
  simp only [asciiLower, Bool.and_eq_true, decide_eq_true_eq, UInt8.le_iff_toNat_le,
    show (ch 'A').toNat = 65 from rfl, show (ch 'Z').toNat = 90 from rfl]
  split
  · next h =>
    rw [UInt8.toNat_add, show (0x20 : UInt8).toNat = 32 from rfl]
    omega
  · rfl

/-- The two cases of one letter, as numbers. -/
theorem cases_of_letter {a b : UInt8} :
    (∃ i < 26, a = ch 'A' + i ∧ b = ch 'a' + i) ↔
      65 ≤ a.toNat ∧ a.toNat ≤ 90 ∧ b.toNat = a.toNat + 32 := by
  simp only [← UInt8.toNat_inj, UInt8.toNat_add, UInt8.lt_iff_toNat_lt,
    show (ch 'A').toNat = 65 from rfl, show (ch 'a').toNat = 97 from rfl,
    show (26 : UInt8).toNat = 26 from rfl]
  constructor
  · rintro ⟨i, hi, ha, hb⟩
    omega
  · rintro ⟨h₁, h₂, hb⟩
    have hle : (65 : UInt8) ≤ a := UInt8.le_iff_toNat_le.mpr h₁
    have hi : (a - 65).toNat = a.toNat - 65 := UInt8.toNat_sub_of_le _ _ hle
    refine ⟨a - 65, ?_, ?_, ?_⟩ <;> omega

/-- Two bytes have one lower case exactly if they are the same up to case. -/
theorem asciiLower_eq_iff {a b : UInt8} : asciiLower a = asciiLower b ↔ SameByte a b := by
  have ha := toNat_asciiLower a
  have hb := toNat_asciiLower b
  unfold SameByte
  simp only [and_or_left, exists_or, cases_of_letter,
    and_comm (a := a = ch 'a' + _)]
  rw [← UInt8.toNat_inj, ← UInt8.toNat_inj (a := a), ha, hb]
  split <;> split <;> omega

/-- Two strings have one lower case exactly if they are equal up to case. -/
theorem toAsciiLowercase_eq_iff {s t : Str} :
    toAsciiLowercase s = toAsciiLowercase t ↔ EqIgnoreAsciiCase s t := by
  unfold toAsciiLowercase EqIgnoreAsciiCase
  rw [← List.forall₂_eq_eq_eq, List.forall₂_map_left_iff, List.forall₂_map_right_iff]
  simp only [asciiLower_eq_iff]

/-! ## Ranges -/

/-- `expand_ports` has exactly the ports of an entry, both ends of a range included. -/
theorem PortEntry.mem_ports {port : UInt16} (e : PortEntry) : port ∈ e.ports ↔ e.Covers port := by
  cases e with
  | single p => simp only [ports, Covers, List.mem_singleton]
  | range start stop =>
    have hstart := start.toNat_lt
    have hstop := stop.toNat_lt
    simp only [ports, Covers, List.mem_map, List.mem_range'_1, UInt16.le_iff_toNat_le]
    constructor
    · rintro ⟨n, hn, rfl⟩
      rw [Nat.toUInt16_eq, UInt16.toNat_ofNat', Nat.mod_eq_of_lt (by omega)]
      omega
    · intro h
      exact ⟨port.toNat, by omega, UInt16.ofNat_toNat⟩

/-- No entry is without ports. -/
theorem PortEntry.ports_ne_nil (e : PortEntry) : e.ports ≠ [] := by
  cases e with
  | single p => exact List.cons_ne_nil _ _
  | range start stop =>
    refine List.ne_nil_of_mem (a := start) ((mem_ports _).mpr ?_)
    simp only [Covers, UInt16.le_refl, true_and, and_true]
    exact UInt16.le_total start stop

/-! ## Filters -/

/-- The lookup of the two filters: in the whitelist if there is one, in the blacklist otherwise. -/
theorem lookup_true {β : Type} [BEq β] [LawfulBEq β] {white black : List β} {x : β} :
    (if !white.isEmpty then !white.contains x
      else if !black.isEmpty then black.contains x else false) = true ↔
      white ≠ [] ∧ x ∉ white ∨ white = [] ∧ x ∈ black := by
  cases white with
  | nil => cases black <;> simp
  | cons w white => simp

/-- The lookup among the expanded entries is the filter's decision on the entries. -/
theorem refuses_of_expand {α β : Type} {f : α → List β} (hne : ∀ e, f e ≠ []) {white black : List α}
    {x : β} :
    white.flatMap f ≠ [] ∧ x ∉ white.flatMap f ∨ white.flatMap f = [] ∧ x ∈ black.flatMap f ↔
      Refuses white black (x ∈ f ·) := by
  have hnil : white.flatMap f = [] ↔ white = [] := by
    rw [List.flatMap_eq_nil_iff]
    constructor
    · intro h
      exact List.eq_nil_iff_forall_not_mem.mpr fun e he => hne e (h e he)
    · rintro rfl
      exact fun e he => absurd he List.not_mem_nil
  unfold Refuses
  simp only [ne_eq, hnil, List.mem_flatMap, not_exists, not_and]

theorem isHostnameBlocked_merge (json : JsonConfig) (hostname : Str) :
    (mergeJsonConfig json).isHostnameBlocked hostname = true ↔
      Refuses (json.whitelist.elim [] (·.hostnames)) (json.blacklist.elim [] (·.hostnames))
        (EqIgnoreAsciiCase hostname) := by
  have hlist (l : Option JsonFilterList) :
      l.elim [] (·.hostnames.map toAsciiLowercase) =
        (l.elim [] (·.hostnames)).flatMap fun h => [toAsciiLowercase h] := by
    cases l with
    | none => rfl
    | some l => exact List.map_eq_flatMap
  rw [ServerConfig.isHostnameBlocked, lookup_true]
  simp only [mergeJsonConfig, hlist]
  rw [refuses_of_expand fun _ => List.cons_ne_nil _ _]
  simp only [List.mem_singleton, toAsciiLowercase_eq_iff]

theorem isPortBlocked_merge (json : JsonConfig) (port : UInt16) :
    (mergeJsonConfig json).isPortBlocked port = true ↔
      Refuses (json.whitelist.elim [] (·.ports)) (json.blacklist.elim [] (·.ports))
        (PortEntry.Covers port) := by
  have hlist (l : Option JsonFilterList) :
      l.elim [] (expandPorts ·.ports) = (l.elim [] (·.ports)).flatMap PortEntry.ports := by
    cases l with
    | none => rfl
    | some l => rfl
  rw [ServerConfig.isPortBlocked, lookup_true]
  simp only [mergeJsonConfig, hlist]
  rw [refuses_of_expand PortEntry.ports_ne_nil]
  simp only [PortEntry.mem_ports]

/-- The filters of the running server decide as the lists of the file say. -/
theorem mergeJsonConfig_filters (json : JsonConfig) :
    (∀ hostname, (mergeJsonConfig json).isHostnameBlocked hostname = true ↔
      Refuses (json.whitelist.elim [] (·.hostnames)) (json.blacklist.elim [] (·.hostnames))
        (EqIgnoreAsciiCase hostname)) ∧
    ∀ port, (mergeJsonConfig json).isPortBlocked port = true ↔
      Refuses (json.whitelist.elim [] (·.ports)) (json.blacklist.elim [] (·.ports))
        (PortEntry.Covers port) :=
  ⟨isHostnameBlocked_merge json, isPortBlocked_merge json⟩

end ShrimpWisp
