import Mathlib.Tactic.Common

/-!
# Loops by rounds

A loop is given by one round of it: the state for the next round, or the result; `none` is a panic.
A measure that each round makes smaller says that it ends.

* `Rounds.loop`: the loop. `Rounds.loop_again` and `Rounds.loop_done` take a round off it.
* `Rounds.loop_induct`: what holds of a loop's outcome, from one round.
-/

namespace ShrimpWisp

/-- A loop by its rounds (module doc). -/
structure Rounds (σ ρ : Type) where
  round : σ → Option (σ ⊕ ρ)
  size : σ → Nat
  smaller : ∀ {s s'}, round s = some (.inl s') → size s' < size s

namespace Rounds

variable {σ ρ : Type} (R : Rounds σ ρ)

def loop (s : σ) : Option ρ :=
  match _h : R.round s with
  | none => none
  | some (.inl s') => loop s'
  | some (.inr r) => some r
termination_by R.size s
decreasing_by exact R.smaller _h

variable {R} {s s' : σ} {r : ρ}

theorem loop_panic (h : R.round s = none) : R.loop s = none := by
  rw [loop]
  split <;> simp_all

theorem loop_again (h : R.round s = some (.inl s')) : R.loop s = R.loop s' := by
  rw [loop]
  split <;> simp_all

theorem loop_done (h : R.round s = some (.inr r)) : R.loop s = some r := by
  rw [loop]
  split <;> simp_all

/-- A property of a state and of the outcome from there holds if a round gives it, with the
property of the next state at hand. -/
theorem loop_induct {P : σ → Option ρ → Prop} (panic : ∀ s, R.round s = none → P s none)
    (again : ∀ s s', R.round s = some (.inl s') → P s' (R.loop s') → P s (R.loop s'))
    (done : ∀ s r, R.round s = some (.inr r) → P s (some r)) (s : σ) : P s (R.loop s) := by
  induction hn : R.size s using Nat.strongRecOn generalizing s with
  | ind n ih =>
    cases hr : R.round s with
    | none =>
      rw [loop_panic hr]
      exact panic s hr
    | some x =>
      cases x with
      | inl s' =>
        rw [loop_again hr]
        exact again s s' hr (ih _ (hn ▸ R.smaller hr) s' rfl)
      | inr r =>
        rw [loop_done hr]
        exact done s r hr

end Rounds

end ShrimpWisp
