import Mathlib.Order.WellFounded
import ShrimpWisp.Lib.Sys

/-!
# Progress

Two rules about the runs of a system from a given state, under an invariant `I` of its steps.

* `Sys.run_bound`: a potential that no step raises, and that every action of a kind lowers, bounds
  how often actions of that kind occur.
* `Sys.exists_rest`: if an agent that is not at rest can always go on, whatever its environment
  answers, and each of its steps goes down in a well-founded order, the agent alone comes to rest.
  `lexRank_wf` is the order that two numbers give, the first before the second.
-/

namespace ShrimpWisp

namespace Sys

variable {σ ι : Type} {M : Sys σ ι} {I : σ → Prop}

theorem run_cons {s t : σ} {a : ι} {as : List ι} :
    M.run Any s (a :: as) = some t ↔ ∃ s', M.step s a = some s' ∧ M.run Any s' as = some t := by
  rw [run]
  cases M.step s a with
  | none => simp
  | some s' =>
    have hany : Any s a s' := trivial
    simp [hany]

/-- An invariant of the steps holds at the end of a run. -/
theorem run_invariant (hI : ∀ s a s', I s → M.step s a = some s' → I s') {s t : σ} {as : List ι}
    (hs : I s) (hr : M.run Any s as = some t) : I t := by
  induction as generalizing s with
  | nil => cases hr; exact hs
  | cons a as ih =>
    obtain ⟨s', hstep, hr⟩ := run_cons.mp hr
    exact ih (hI s a s' hs hstep) hr

/-- The potential rule (module doc). -/
theorem run_bound {p : ι → Bool} (potential : σ → Nat)
    (hI : ∀ s a s', I s → M.step s a = some s' → I s')
    (hle : ∀ s a s', I s → M.step s a = some s' →
      potential s' + (if p a then 1 else 0) ≤ potential s) {s t : σ} {as : List ι} (hs : I s)
    (hr : M.run Any s as = some t) : potential t + as.countP p ≤ potential s := by
  induction as generalizing s with
  | nil => cases hr; exact le_rfl
  | cons a as ih =>
    obtain ⟨s', hstep, hr⟩ := run_cons.mp hr
    have hrest := ih (hI s a s' hs hstep) hr
    have hfirst := hle s a s' hs hstep
    rw [List.countP_cons]
    omega

/-- Pairs of numbers, compared by the first and then by the second. -/
theorem lexRank_wf (rank : σ → Nat × Nat) :
    WellFounded fun s' s => Prod.Lex (· < ·) (· < ·) (rank s') (rank s) :=
  InvImage.wf rank (Prod.lex ⟨_, wellFounded_lt⟩ ⟨_, wellFounded_lt⟩).wf

/-- The agent takes the actions `act 0`, `act 1`, ..., `act (n - 1)`. -/
def alone (act : Nat → ι) (n : Nat) : List ι := (List.range n).map act

theorem alone_succ (act : Nat → ι) (n : Nat) :
    alone act (n + 1) = act 0 :: alone (fun k => act (k + 1)) n := by
  simp only [alone, List.range_succ_eq_map, List.map_cons, List.map_map]
  rfl

/-- The rule for an agent that comes to rest (module doc). -/
theorem exists_rest {r : σ → σ → Prop} (wf : WellFounded r) {agent : ι → Prop} {Rest : σ → Prop}
    (hstep : ∀ s, I s → ¬ Rest s → ∀ a, agent a → ∃ s', M.step s a = some s' ∧ I s' ∧ r s' s)
    {s : σ} (hs : I s) (act : Nat → ι) (hact : ∀ k, agent (act k)) :
    ∃ n t, M.run Any s (alone act n) = some t ∧ I t ∧ Rest t := by
  induction s using wf.induction generalizing act with
  | _ s ih =>
    by_cases hrest : Rest s
    · exact ⟨0, s, rfl, hs, hrest⟩
    · obtain ⟨s', hs', hI, hlt⟩ := hstep s hs hrest (act 0) (hact 0)
      obtain ⟨n, t, hrun, ht, hrest⟩ := ih s' hlt hI (fun k => act (k + 1)) fun k => hact (k + 1)
      refine ⟨n + 1, t, ?_, ht, hrest⟩
      rw [alone_succ]
      exact run_cons.mpr ⟨s', hs', hrun⟩

end Sys

end ShrimpWisp
