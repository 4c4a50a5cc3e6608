import Mathlib.Tactic.Common

/-!
# Transition systems with a step function

A system has initial states and a partial step function: an action says who moves and what the
environment answers, `none` says that the action is not enabled. A property of every run is an
**inductive invariant**: it holds initially and every step keeps it.

* `Sys.Reach ok`: the states of the runs all of whose steps satisfy `ok`. With `ok` trivially
  true (`Sys.Any`) these are the reachable states; another `ok` is a condition on a run.
* `Sys.Reach.invariant`: an inductive invariant holds in every state of such a run. The step case
  also gets that the state before the step is reached, so an invariant can use an earlier one.
* `Sys.logged`: the same system with a log of what each step shows; `Sys.Reach.of_logged`.
  `Latest p log e`: the event `e` is in a log, and none after it is a `p`.
* `Sys.run`: the state after a list of actions, if each step satisfies a decidable `ok`;
  `Sys.Reach.of_run`: it is reached. A concrete run is evaluated with it.

An object (`Obj`) is a system whose operations are always enabled and return a result.
`Obj.sim_run` is the simulation rule: a relation between the states of two objects under which
every operation returns the same result and that it keeps makes all their runs return the same.
-/

namespace ShrimpWisp

/-- A system over states `σ` and actions `ι`. -/
structure Sys (σ ι : Type) where
  init : σ → Prop
  step : σ → ι → Option σ

namespace Sys

variable {σ ι : Type} (M : Sys σ ι)

/-- No condition on the steps of a run. -/
def Any : σ → ι → σ → Prop := fun _ _ _ => True

/-- The states of the runs all of whose steps satisfy `ok`. -/
inductive Reach (ok : σ → ι → σ → Prop) : σ → Prop
  | init {s : σ} : M.init s → Reach ok s
  | step {s s' : σ} (a : ι) : Reach ok s → M.step s a = some s' → ok s a s' → Reach ok s'

instance (s : σ) (a : ι) (s' : σ) : Decidable (Any s a s') := .isTrue trivial

/-- The state after the actions `as`, if each is enabled in turn and its step satisfies `ok`. -/
def run (ok : σ → ι → σ → Prop) [∀ s a s', Decidable (ok s a s')] (s : σ) : List ι → Option σ
  | [] => some s
  | a :: as =>
    match M.step s a with
    | some s' => if ok s a s' then run ok s' as else none
    | none => none

/-- The system with a log of what its steps `ev` show, the oldest first. -/
def logged {ε : Type} (ev : σ → ι → Option ε) : Sys (σ × List ε) ι where
  init p := M.init p.1 ∧ p.2 = []
  step p a := (M.step p.1 a).map fun s' => (s', p.2 ++ (ev p.1 a).toList)

variable {M} {ok : σ → ι → σ → Prop}

/-- The invariant rule (module doc). -/
theorem Reach.invariant {I : σ → Prop} (hinit : ∀ s, M.init s → I s)
    (hstep : ∀ s a s', M.Reach ok s → I s → M.step s a = some s' → ok s a s' → I s')
    {s : σ} (h : M.Reach ok s) : I s := by
  induction h with
  | init hi => exact hinit _ hi
  | step a hr hs hok ih => exact hstep _ a _ hr ih hs hok

/-- A weaker condition on the steps allows more runs. -/
theorem Reach.mono {ok' : σ → ι → σ → Prop} (hok : ∀ s a s', ok s a s' → ok' s a s') {s : σ}
    (h : M.Reach ok s) : M.Reach ok' s :=
  h.invariant (fun _ hi => .init hi) fun s a s' _ ih hs ho => .step a ih hs (hok s a s' ho)

/-- A run from a reached state reaches its last state. -/
theorem Reach.of_run [∀ s a s', Decidable (ok s a s')] {s t : σ} (h : M.Reach ok s) {as : List ι}
    (hr : M.run ok s as = some t) : M.Reach ok t := by
  induction as generalizing s with
  | nil => cases hr; exact h
  | cons a as ih =>
    unfold run at hr
    split at hr
    · rename_i s' hs
      split at hr
      · rename_i hok; exact ih (.step a h hs hok) hr
      · cases hr
    · cases hr

theorem logged_step {ε : Type} {ev : σ → ι → Option ε} {p p' : σ × List ε} {a : ι}
    (h : (M.logged ev).step p a = some p') :
    M.step p.1 a = some p'.1 ∧ p'.2 = p.2 ++ (ev p.1 a).toList := by
  obtain ⟨s', hs, rfl⟩ := Option.map_eq_some_iff.mp h
  exact ⟨hs, rfl⟩

/-- A run with a log is a run. -/
theorem Reach.of_logged {ε : Type} {ev : σ → ι → Option ε} {p : σ × List ε}
    (h : (M.logged ev).Reach (fun p a p' => ok p.1 a p'.1) p) : M.Reach ok p.1 := by
  induction h with
  | init hi => exact .init hi.1
  | step a _ hs hok ih => exact .step a ih (logged_step hs).1 hok

end Sys

/-! ## Logs -/

/-- `e` is in the log, and no event after it satisfies `p`. -/
def Latest {ε : Type} (p : ε → Prop) (log : List ε) (e : ε) : Prop :=
  ∃ before after, log = before ++ e :: after ∧ ∀ x ∈ after, ¬ p x

namespace Latest

variable {ε : Type} {p : ε → Prop} {log : List ε} {e : ε}

/-- The event that was logged last. -/
theorem last (p : ε → Prop) (log : List ε) (e : ε) : Latest p (log ++ [e]) e :=
  ⟨log, [], rfl, by simp⟩

/-- Other events may follow. -/
theorem append (h : Latest p log e) {l : List ε} (hl : ∀ x ∈ l, ¬ p x) : Latest p (log ++ l) e := by
  obtain ⟨before, after, rfl, hafter⟩ := h
  refine ⟨before, after ++ l, by rw [List.append_assoc, List.cons_append], ?_⟩
  intro x hx
  rcases List.mem_append.mp hx with hx | hx
  · exact hafter x hx
  · exact hl x hx

end Latest

/-! ## Objects -/

/-- An object over states `σ`, with operations `ι` and results `ρ`. -/
structure Obj (σ ι ρ : Type) where
  exec : σ → ι → ρ × σ

namespace Obj

variable {σ τ ι ρ : Type}

/-- The results of the operations in turn, and the state after them. -/
def run (M : Obj σ ι ρ) (s : σ) : List ι → List ρ × σ
  | [] => ([], s)
  | op :: ops =>
    let (r, s) := M.exec s op
    let (rs, s) := M.run s ops
    (r :: rs, s)

/-- The simulation rule (module doc). -/
theorem sim_run {M : Obj σ ι ρ} {N : Obj τ ι ρ} {R : σ → τ → Prop}
    (hexec : ∀ s t op, R s t → (M.exec s op).1 = (N.exec t op).1 ∧ R (M.exec s op).2 (N.exec t op).2)
    {s : σ} {t : τ} (h : R s t) (ops : List ι) :
    (M.run s ops).1 = (N.run t ops).1 ∧ R (M.run s ops).2 (N.run t ops).2 := by
  induction ops generalizing s t with
  | nil => exact ⟨rfl, h⟩
  | cons op ops ih =>
    obtain ⟨hr, hR⟩ := hexec s t op h
    obtain ⟨hrs, hR⟩ := ih hR
    simp only [run]
    exact ⟨by rw [hr, hrs], hR⟩

end Obj

end ShrimpWisp
