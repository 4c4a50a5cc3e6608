import ShrimpWisp.Server.Handshake

/-!
# The credentials of a client

The payload of the auth extension names a user (`[len, user, password]`), or it is a raw password.
The same bytes can be both: the first byte of a raw password is then read as the length of a name,
and the name decides.

* `NamesUser`: the bytes have a name and at least one byte of a password after it.
* `ByUser`, `ByDefault`: the two kinds of valid credentials.
* `verifyAuth_accepts`: bytes that name a user are accepted exactly with that user's password, also
  if they are a raw password too; any others exactly if they are the raw password.
-/

namespace ShrimpWisp

/-- The bytes of a length, a name of that length and a password that is not empty. -/
def NamesUser (p : List UInt8) : Prop := ∃ len rest, p = len :: rest ∧ len.toNat < rest.length

section Users

variable (bcryptVerify : Str → Str → Bool) (config : ServerConfig)

/-- The payload of the user `user` with the password `pw`. -/
def userPayload (user : Str) (pw : List UInt8) : List UInt8 :=
  user.length.toUInt8 :: (user ++ pw)

/-- The payload is that of a user with the password that is stored for it. A name is at most 255
bytes of UTF-8. -/
def ByUser (p : List UInt8) : Prop :=
  ∃ user pw stored, user.length < 256 ∧ Utf8.valid user = true ∧ pw ≠ [] ∧ p = userPayload user pw ∧
    config.authUsers.lookup user = some stored ∧ verifyPassword bcryptVerify pw stored = true

/-- The payload is the password of the user `default`. -/
def ByDefault (p : List UInt8) : Prop :=
  ∃ stored, config.authUsers.lookup (lit "default") = some stored ∧
    verifyPassword bcryptVerify p stored = true

end Users

variable {bcryptVerify : Str → Str → Bool} {config : ServerConfig} {p : List UInt8}

theorem verifyDefault_iff :
    verifyDefault bcryptVerify p config = true ↔ ByDefault bcryptVerify config p := by
  unfold verifyDefault ByDefault
  split
  · next stored hs => simp [hs]
  · next hs => simp [hs]

theorem toNat_length {user : Str} (hl : user.length < 256) :
    user.length.toUInt8.toNat = user.length := by
  simp only [Nat.toUInt8, UInt8.toNat_ofNat']
  exact Nat.mod_eq_of_lt hl

/-- A payload that names a user has exactly one name and password. -/
theorem userPayload_inj {user pw : Str} (hl : user.length < 256) {len : UInt8} {rest : List UInt8}
    (h : len :: rest = userPayload user pw) :
    rest.take len.toNat = user ∧ rest.drop len.toNat = pw := by
  obtain ⟨rfl, rfl⟩ := List.cons.inj h
  rw [toNat_length hl, List.take_left, List.drop_left]
  exact ⟨rfl, rfl⟩

theorem ByUser.names (h : ByUser bcryptVerify config p) : NamesUser p := by
  obtain ⟨user, pw, stored, hl, -, hne, rfl, -⟩ := h
  refine ⟨_, _, rfl, ?_⟩
  have hpos : 0 < pw.length := List.length_pos_iff.mpr hne
  rw [toNat_length hl, List.length_append]
  omega

/-- Where the payload names a user, that user decides. -/
theorem verifyAuth_names (hu : config.authUsers ≠ []) (hn : NamesUser p) :
    verifyAuth bcryptVerify p config = true ↔ ByUser bcryptVerify config p := by
  have he : (!config.authUsers.isEmpty) = true := by simpa using hu
  obtain ⟨len, rest, rfl, hlen⟩ := hn
  obtain _ | ⟨b, rest⟩ := rest
  · simp at hlen
  have hle : 1 + len.toNat + 1 ≤ (len :: b :: rest).length := by
    simp only [List.length_cons] at hlen ⊢
    omega
  unfold verifyAuth
  rw [if_pos he]
  simp only [if_pos hle]
  have htake : ((b :: rest).take len.toNat).length = len.toNat := by
    rw [List.length_take]
    omega
  constructor
  · intro h
    split at h
    · cases h
    next user hv =>
    split at h
    · next stored hs =>
      unfold fromUtf8 at hv
      split at hv
      · next hv' =>
        cases hv
        refine ⟨_, (b :: rest).drop len.toNat, stored, ?_, hv', ?_, ?_, hs, h⟩
        · rw [htake]
          exact len.toNat_lt
        · simp only [ne_eq, List.drop_eq_nil_iff, Nat.not_le]
          exact hlen
        · rw [userPayload, htake]
          simp
      · cases hv
    · cases h
  · rintro ⟨user, pw, stored, hl, hv, -, hp, hs, hpw⟩
    obtain ⟨ht, hd⟩ := userPayload_inj hl hp
    simp only [ht, hd, fromUtf8, hv, if_true, hs, hpw]

/-- Any other payload is a raw password. -/
theorem verifyAuth_raw (hu : config.authUsers ≠ []) (hn : ¬ NamesUser p) :
    verifyAuth bcryptVerify p config = true ↔ ByDefault bcryptVerify config p := by
  have he : (!config.authUsers.isEmpty) = true := by simpa using hu
  rw [← verifyDefault_iff]
  unfold verifyAuth
  rw [if_pos he]
  split
  · next len b rest =>
    have hle : ¬ 1 + len.toNat + 1 ≤ (len :: b :: rest).length := by
      intro hle
      refine hn ⟨len, b :: rest, rfl, ?_⟩
      simp only [List.length_cons] at hle ⊢
      omega
    simp only [if_neg hle]
  · rfl

/-- With users, a payload that names a user is accepted exactly if it has that user's password, and
any other one exactly if it is the password of `default`. Without users, the one password is accepted
and nothing else. -/
theorem verifyAuth_accepts (bcryptVerify : Str → Str → Bool) (config : ServerConfig)
    (p : List UInt8) :
    (config.authUsers ≠ [] →
      (NamesUser p → (verifyAuth bcryptVerify p config = true ↔ ByUser bcryptVerify config p)) ∧
      (¬ NamesUser p →
        (verifyAuth bcryptVerify p config = true ↔ ByDefault bcryptVerify config p))) ∧
    (config.authUsers = [] →
      (verifyAuth bcryptVerify p config = true ↔ config.authPassword = some p)) := by
  refine ⟨fun hu => ⟨verifyAuth_names hu, verifyAuth_raw hu⟩, fun hu => ?_⟩
  unfold verifyAuth
  rw [hu]
  simp only [List.isEmpty_nil, Bool.not_true, Bool.false_eq_true, if_false]
  split
  · next pw hpw =>
    rw [hpw, beq_iff_eq, Option.some.injEq]
    exact eq_comm
  · next hpw => simp [hpw]

/-- The users `a` and `default`, both with the password `b`. -/
def twoUsers : ServerConfig := { authUsers := [(lit "a", lit "b"), (lit "default", lit "b")] }

/-- The user `a` with the password `b` names a user, the bytes `b` do not, and without users `b` is
compared with the one password. -/
theorem verifyAuth_accepts_each :
    verifyAuth (fun _ _ => false) (userPayload (lit "a") (lit "b")) twoUsers = true ∧
      verifyAuth (fun _ _ => false) (lit "b") twoUsers = true ∧
      verifyAuth (fun _ _ => false) (lit "b") { authPassword := some (lit "b") } = true := by
  have hu : twoUsers.authUsers ≠ [] := List.cons_ne_nil _ _
  have hraw : ¬ NamesUser (lit "b") := by
    rintro ⟨len, rest, h, hlen⟩
    cases h
    cases hlen
  refine ⟨?_, ?_, ?_⟩
  · have hby : ByUser (fun _ _ => false) twoUsers (userPayload (lit "a") (lit "b")) :=
      ⟨lit "a", lit "b", lit "b", by decide, by decide, by decide, rfl, by decide +kernel,
        by decide +kernel⟩
    exact (((verifyAuth_accepts _ twoUsers _).1 hu).1 hby.names).mpr hby
  · exact (((verifyAuth_accepts _ twoUsers _).1 hu).2 hraw).mpr
      ⟨lit "b", by decide +kernel, by decide +kernel⟩
  · exact ((verifyAuth_accepts _ _ _).2 rfl).mpr rfl

/-- Either form of a payload, for itself: the password of a user may be empty, and a raw password may
name a user. -/
def EitherForm (bcryptVerify : Str → Str → Bool) (config : ServerConfig) (p : List UInt8) : Prop :=
  (∃ user pw stored, p = userPayload user pw ∧ config.authUsers.lookup user = some stored ∧
    verifyPassword bcryptVerify pw stored = true) ∨ ByDefault bcryptVerify config p

/-- A user with an empty password is refused, and so is a raw password whose first byte, read as a
length, leaves a password: here 114 times the letter with the code 112. -/
theorem verifyAuth_refuses :
    (EitherForm (fun _ _ => false) { authUsers := [(lit "a", [])] } (userPayload (lit "a") []) ∧
      verifyAuth (fun _ _ => false) (userPayload (lit "a") []) { authUsers := [(lit "a", [])] } =
        false) ∧
    EitherForm (fun _ _ => false) { authUsers := [(lit "default", List.replicate 114 (ch 'p'))] }
        (List.replicate 114 (ch 'p')) ∧
      verifyAuth (fun _ _ => false) (List.replicate 114 (ch 'p'))
        { authUsers := [(lit "default", List.replicate 114 (ch 'p'))] } = false :=
  ⟨⟨.inl ⟨lit "a", [], [], rfl, by decide +kernel, by decide +kernel⟩, by decide +kernel⟩,
    .inr ⟨List.replicate 114 (ch 'p'), by decide +kernel, by decide +kernel⟩, by decide +kernel⟩

end ShrimpWisp
