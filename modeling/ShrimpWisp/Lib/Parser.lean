import Mathlib.Tactic.Common

/-!
# Parsers over a list of tokens

A parser reads a prefix of its input and returns a value and the rest, or fails and consumes
nothing (so an alternative starts from the same input).

* `Parser.tok`: one given token; `Parser.digits`: the longest run of tokens with a digit value,
  never failing; `Parser.orElse`, `Parser.opt`: alternatives.
* `Parser.exact`: the value of a parser that reads the whole input.
* **Locality** (`Parser.Local c p`): `p` never reads the token `c`, and what it does depends only
  on the input before the first place where it meets `c` or the end. So a result on `x ++ c :: y`
  is a result on `x`, and a result on `x` extends to `x ++ c :: y`. The rules follow the
  combinators (`Local.bind`, `Local.orElse`, ...).
* **Suffixes** (`Parser.Suffix p`): the rest is a suffix of the input.
-/

namespace ShrimpWisp

/-- A parser over tokens `τ`: the value and the rest of the input, or failure. -/
def Parser (τ α : Type) : Type := List τ → Option (α × List τ)

namespace Parser

variable {τ α β δ : Type}

instance : Monad (Parser τ) where
  pure a := fun s => some (a, s)
  bind p f := fun s => (p s).bind fun r => f r.1 r.2

/-- Failure. -/
def fail : Parser τ α := fun _ => none

/-- The token `t`. -/
def tok [DecidableEq τ] (t : τ) : Parser τ Unit
  | [] => none
  | x :: s => if x = t then some ((), s) else none

/-- `p`, or `q` where `p` fails. -/
def orElse (p q : Parser τ α) : Parser τ α := fun s => (p s).or (q s)

/-- `p`, or `none` with nothing consumed where `p` fails. -/
def opt (p : Parser τ α) : Parser τ (Option α) := fun s =>
  match p s with
  | some (a, r) => some (some a, r)
  | none => some (none, s)

/-- The longest run of tokens with a value under `f`. -/
def digits (f : τ → Option δ) : Parser τ (List δ)
  | [] => some ([], [])
  | x :: s =>
    match f x with
    | none => some ([], x :: s)
    | some d => (digits f s).map fun r => (d :: r.1, r.2)

/-- `a` of `some a`. -/
def ofOption (o : Option α) : Parser τ α := fun s => o.map fun a => (a, s)

/-- The value of a parser that reads the whole input. -/
def exact (p : Parser τ α) (s : List τ) : Option α :=
  match p s with
  | some (a, []) => some a
  | _ => none

theorem pure_apply (a : α) (s : List τ) : (pure a : Parser τ α) s = some (a, s) := rfl

theorem bind_apply (p : Parser τ α) (f : α → Parser τ β) (s : List τ) :
    (p >>= f) s = (p s).bind fun r => f r.1 r.2 := rfl

theorem bind_eq_some {p : Parser τ α} {f : α → Parser τ β} {s r : List τ} {b : β} :
    (p >>= f) s = some (b, r) ↔ ∃ a m, p s = some (a, m) ∧ f a m = some (b, r) := by
  rw [bind_apply, Option.bind_eq_some_iff]
  constructor
  · rintro ⟨⟨a, m⟩, h₁, h₂⟩; exact ⟨a, m, h₁, h₂⟩
  · rintro ⟨a, m, h₁, h₂⟩; exact ⟨(a, m), h₁, h₂⟩

theorem tok_eq_some [DecidableEq τ] {t : τ} {s r : List τ} {u : Unit} :
    tok t s = some (u, r) ↔ s = t :: r := by
  cases s with
  | nil => simp [tok]
  | cons x s =>
    simp only [tok]
    split
    · rename_i h; subst h; simp
    · rename_i h; simp [h]

@[simp] theorem tok_cons [DecidableEq τ] (t : τ) (s : List τ) : tok t (t :: s) = some ((), s) := by
  simp [tok]

theorem exact_eq_some {p : Parser τ α} {s : List τ} {a : α} :
    exact p s = some a ↔ p s = some (a, []) := by
  unfold exact
  split
  · rename_i h; simp [h]
  · rename_i h
    constructor
    · intro h'; cases h'
    · intro h'; exact absurd h' (h a)

/-! ## Suffixes -/

/-- The rest is a suffix of the input. -/
def Suffix (p : Parser τ α) : Prop := ∀ s a r, p s = some (a, r) → ∃ x, s = x ++ r

theorem Suffix.pure (a : α) : Suffix (Pure.pure a : Parser τ α) := by
  intro s b r h; cases h; exact ⟨[], rfl⟩

theorem Suffix.fail : Suffix (fail : Parser τ α) := by
  intro s b r h; cases h

theorem Suffix.bind {p : Parser τ α} {f : α → Parser τ β} (hp : Suffix p) (hf : ∀ a, Suffix (f a)) :
    Suffix (p >>= f) := by
  intro s b r h
  obtain ⟨a, m, h₁, h₂⟩ := bind_eq_some.mp h
  obtain ⟨x, rfl⟩ := hp _ _ _ h₁
  obtain ⟨y, rfl⟩ := hf a _ _ _ h₂
  exact ⟨x ++ y, by simp⟩

theorem Suffix.tok [DecidableEq τ] (t : τ) : Suffix (tok t) := by
  intro s _ r h
  exact ⟨[t], tok_eq_some.mp h⟩

theorem Suffix.opt {p : Parser τ α} (hp : Suffix p) : Suffix (opt p) := by
  intro s a r h
  unfold Parser.opt at h
  split at h
  · rename_i h'; cases h; exact hp _ _ _ h'
  · cases h; exact ⟨[], rfl⟩

theorem Suffix.ofOption (o : Option α) : Suffix (ofOption o : Parser τ α) := by
  intro s a r h
  unfold Parser.ofOption at h
  simp only [Option.map_eq_some_iff, Prod.mk.injEq] at h
  obtain ⟨_, _, _, rfl⟩ := h
  exact ⟨[], rfl⟩

theorem Suffix.digits (f : τ → Option δ) : Suffix (digits f) := by
  intro s
  induction s with
  | nil => intro a r h; cases h; exact ⟨[], rfl⟩
  | cons x s ih =>
    intro a r h
    simp only [Parser.digits] at h
    split at h
    · cases h; exact ⟨[], rfl⟩
    · simp only [Option.map_eq_some_iff, Prod.exists, Prod.mk.injEq] at h
      obtain ⟨ds, m, h', _, rfl⟩ := h
      obtain ⟨y, rfl⟩ := ih _ _ h'
      exact ⟨x :: y, rfl⟩

/-! ## Locality -/

/-- The input ends, or goes on with `c`. -/
def Stop (c : τ) (t : List τ) : Prop := t = [] ∨ ∃ y, t = c :: y

theorem Stop.nil (c : τ) : Stop c [] := .inl rfl

theorem Stop.cons (c : τ) (y : List τ) : Stop c (c :: y) := .inr ⟨y, rfl⟩

/-- `p` stops at `c` (module doc). -/
def Local (c : τ) (p : Parser τ α) : Prop :=
  ∀ x, (∃ a r, ∀ t, Stop c t → p (x ++ t) = some (a, r ++ t)) ∨ ∀ t, Stop c t → p (x ++ t) = none

variable {c : τ}

theorem Local.pure (a : α) : Local c (Pure.pure a : Parser τ α) :=
  fun x => .inl ⟨a, x, fun _ _ => rfl⟩

theorem Local.fail : Local c (fail : Parser τ α) := fun _ => .inr fun _ _ => rfl

theorem Local.ofOption (o : Option α) : Local c (ofOption o : Parser τ α) := by
  intro x
  cases o with
  | none => exact .inr fun _ _ => rfl
  | some a => exact .inl ⟨a, x, fun _ _ => rfl⟩

theorem Local.bind {p : Parser τ α} {f : α → Parser τ β} (hp : Local c p)
    (hf : ∀ a, Local c (f a)) : Local c (p >>= f) := by
  intro x
  rcases hp x with ⟨a, r, h⟩ | h
  · rcases hf a r with ⟨b, r', h'⟩ | h'
    · exact .inl ⟨b, r', fun t ht => by rw [bind_apply, h t ht]; exact h' t ht⟩
    · exact .inr fun t ht => by rw [bind_apply, h t ht]; exact h' t ht
  · exact .inr fun t ht => by rw [bind_apply, h t ht]; rfl

theorem Local.tok [DecidableEq τ] {t : τ} (hne : t ≠ c) : Local c (tok t) := by
  intro x
  cases x with
  | nil =>
    refine .inr fun s hs => ?_
    rcases hs with rfl | ⟨y, rfl⟩
    · rfl
    · simp [Parser.tok, Ne.symm hne]
  | cons y x =>
    by_cases h : y = t
    · exact .inl ⟨(), x, fun s _ => by simp [Parser.tok, h]⟩
    · exact .inr fun s _ => by simp [Parser.tok, h]

theorem Local.opt {p : Parser τ α} (hp : Local c p) : Local c (opt p) := by
  intro x
  rcases hp x with ⟨a, r, h⟩ | h
  · exact .inl ⟨some a, r, fun t ht => by simp [Parser.opt, h t ht]⟩
  · exact .inl ⟨none, x, fun t ht => by simp [Parser.opt, h t ht]⟩

theorem Local.digits {f : τ → Option δ} (hc : f c = none) : Local c (digits f) := by
  intro x
  refine .inl ?_
  induction x with
  | nil =>
    refine ⟨[], [], fun t ht => ?_⟩
    rcases ht with rfl | ⟨y, rfl⟩
    · rfl
    · simp [Parser.digits, hc]
  | cons y x ih =>
    obtain ⟨ds, r, h⟩ := ih
    cases hy : f y with
    | none => exact ⟨[], y :: x, fun t _ => by simp [Parser.digits, hy]⟩
    | some d => exact ⟨d :: ds, r, fun t ht => by simp [Parser.digits, hy, h t ht]⟩

/-- A local parser that stops right before `c` reads all of the input before it. -/
theorem Local.exact_of_stop {p : Parser τ α} (hp : Local c p) {x t : List τ} (ht : Stop c t) {a : α}
    (h : p (x ++ t) = some (a, t)) : exact p x = some a := by
  rcases hp x with ⟨b, r, hr⟩ | hn
  · have e := hr t ht
    rw [h] at e
    simp only [Option.some.injEq, Prod.mk.injEq, List.self_eq_append_left] at e
    obtain ⟨rfl, rfl⟩ := e
    have := hr [] (Stop.nil c)
    simp only [List.append_nil] at this
    exact exact_eq_some.mpr this
  · rw [hn t ht] at h; cases h

/-- A local parser that reads all of `x` reads it before `c` too. -/
theorem Local.of_exact {p : Parser τ α} (hp : Local c p) {x t : List τ} (ht : Stop c t) {a : α}
    (h : exact p x = some a) : p (x ++ t) = some (a, t) := by
  have h := exact_eq_some.mp h
  rcases hp x with ⟨b, r, hr⟩ | hn
  · have e := hr [] (Stop.nil c)
    simp only [List.append_nil] at e
    rw [h] at e
    cases e
    simpa using hr t ht
  · have := hn [] (Stop.nil c)
    rw [List.append_nil, h] at this; cases this

end Parser

end ShrimpWisp
