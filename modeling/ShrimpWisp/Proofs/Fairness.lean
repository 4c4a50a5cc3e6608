import ShrimpWisp.Proofs.Ending
import ShrimpWisp.Proofs.Rest
import ShrimpWisp.Proofs.Wire

/-!
# The client does not starve its backends

The main task prefers the frames of the client. The counter `frames_since_yield` makes it turn to
the backends now and then.

* `Desk.remaining`: how many more frames it can take before it has emptied the control channel
  (Phase 1) and the data channel (Phase 2).
* `waiting_served`: what the backends have sent at some time is taken and written before the main
  task takes more frames than the yield limit, whatever the client sends.
-/

namespace ShrimpWisp

variable {S : Setup}

/-! ## The frames until the phases -/

section

variable (S : Setup) (n : Nat)

/-- The frames after the one that is being handled at a site, with the counter at `n`. -/
def Site.remaining : Site → Nat
  | .deferred => max 1 (S.yieldLimit - n)
  | .inner => S.yieldLimit - (n + 1)
  | .select => max 1 (S.yieldLimit - (n + 1))

/-- The frames that the main task can still take before it has been through its phases. -/
def Pc.remaining : Pc → Nat
  | .start _ => Site.deferred.remaining S n
  | .inner | .controlRest => max 1 (S.yieldLimit - n)
  | .resolvingTcp site _ _ _ _ | .resolvingUdp site _ _ _ | .sending site _ => site.remaining S n
  | .select => Site.select.remaining S n + 1
  | .phase0 _ _ _ | .phase0Dead _ | .phase1 | .ended => 0

theorem Pc.remaining_inner_le : Pc.inner.remaining S n ≤ Pc.select.remaining S n := by
  simp only [Pc.remaining, Site.remaining]
  omega

theorem Site.remaining_inner_lt : Site.inner.remaining S n < Pc.inner.remaining S n := by
  simp only [Pc.remaining, Site.remaining]
  omega

end

/-- The frames that are left at a desk. -/
def Desk.remaining (S : Setup) (d : Desk) : Nat := d.pc.remaining S d.framesSinceYield

theorem Desk.Goes.remaining {d : Desk} {next q : Pc} (h : d.Goes next q) (n : Nat) :
    q.remaining S n ≤ next.remaining S n := by
  rcases h with rfl | ⟨rfl, -⟩
  · exact le_rfl
  · exact Nat.zero_le _

theorem Resumes.remaining {d d' : Desk} {site : Site} (h : Resumes S d site d') :
    d'.remaining S ≤ site.remaining S d.framesSinceYield := by
  cases h with
  | deferred hq => exact hq.remaining d.framesSinceYield
  | yield _ hq => exact (hq.remaining 0).trans (Nat.zero_le _)
  | next hlt =>
    simp only [Desk.remaining, Pc.remaining, Site.remaining]
    omega
  | select hq => exact hq.remaining (d.framesSinceYield + 1)

theorem Handles.remaining {d d' : Desk} {site : Site} {b : Bool} (h : Handles S d site b d') :
    d'.remaining S ≤ site.remaining S d.framesSinceYield := by
  cases h with
  | resumes hr => exact hr.remaining
  | tcp => exact le_rfl
  | udp => exact le_rfl
  | breaks => exact Nat.zero_le _

theorem Desk.framesSinceYield_resetIdle (d : Desk) :
    (d.resetIdle S).framesSinceYield = d.framesSinceYield := by
  unfold Desk.resetIdle
  split <;> rfl

/-- A step of the main task ends its phases with nothing left to take, or it goes on as `remaining`
says. -/
theorem Conn.paces {c c' : Conn} {e : Env} (hs : c.stepMain S e = some c') :
    c.pc = .phase1 ∧ c.control.items = [] ∧ c'.data.items = [] ∨
      c'.desk.remaining S + c.nextFrame.toList.length ≤ c.desk.remaining S := by
  have hdata : c'.data.items = c'.desk.data := rfl
  have hrem : ∀ {q}, c.pc = q → c.desk.remaining S = q.remaining S c.framesSinceYield := by
    rintro _ rfl
    rfl
  -- A step at `q` that takes no frame.
  have hnone : ∀ {q d'}, c.pc = q → q ≠ .inner → q ≠ .select →
      Desk.remaining S d' ≤ q.remaining S c.framesSinceYield →
      d'.remaining S + c.nextFrame.toList.length ≤ c.desk.remaining S := by
    intro q d' hpc hi hsel hle
    rw [nextFrame_eq_none hpc hi hsel, hrem hpc]
    exact hle
  have hselect : ∀ {d'}, c.pc = .select → c.wsBuf = [] → c.wire = [] →
      Desk.remaining S d' ≤ Pc.remaining S c.framesSinceYield .select →
      d'.remaining S + c.nextFrame.toList.length ≤ c.desk.remaining S := by
    intro d' hpc hbuf hwire hle
    rw [nextFrame_select hpc hbuf hwire, hrem hpc]
    exact hle
  have htaken : ∀ {q d'} {site : Site} {i : Site × WsInput}, c.pc = q → c.nextFrame = some i →
      Desk.remaining S d' ≤ site.remaining S c.framesSinceYield →
      site.remaining S c.framesSinceYield + 1 ≤ q.remaining S c.framesSinceYield →
      d'.remaining S + c.nextFrame.toList.length ≤ c.desk.remaining S := by
    intro q d' site i hpc hn hle hsite
    rw [hn, hrem hpc]
    exact (Nat.add_le_add_right hle 1).trans hsite
  have hturn := Conn.stepMain_turn hs
  generalize c'.desk = d' at hturn hdata ⊢
  cases hturn with
  | begin hpc hh => exact .inr (hnone hpc (by rintro ⟨⟩) (by rintro ⟨⟩) hh.remaining)
  | @inbound i rest _ hpc hbuf hh =>
    have hpc : c.pc = .inner := hpc
    have hbuf : c.wsBuf = i :: rest := hbuf
    have hn : c.nextFrame = some (.inner, i) := by
      simp only [nextFrame, hpc, hbuf, List.head?_cons, Option.map_some]
    have hle := hh.remaining
    rw [Desk.framesSinceYield_resetIdle] at hle
    exact .inr (htaken hpc hn hle (Site.remaining_inner_lt S _))
  | @buffered i rest _ hpc hbuf hh =>
    have hpc : c.pc = .select := hpc
    have hbuf : c.wsBuf = i :: rest := hbuf
    have hn : c.nextFrame = some (.select, i) := by
      simp only [nextFrame, hpc, hbuf, List.cons_append, List.head?_cons, Option.map_some]
    have hle := hh.remaining
    rw [Desk.framesSinceYield_resetIdle] at hle
    exact .inr (htaken hpc hn hle le_rfl)
  | @socket i rest _ _ hpc hbuf hwire hh =>
    have hpc : c.pc = .select := hpc
    have hbuf : c.wsBuf = [] := hbuf
    have hwire : c.wire = i :: rest := hwire
    have hn : c.nextFrame = some (.select, i) := by
      simp only [nextFrame, hpc, hbuf, hwire, List.nil_append, List.head?_cons, Option.map_some]
    have hle := hh.remaining
    rw [Desk.framesSinceYield_resetIdle] at hle
    exact .inr (htaken hpc hn hle le_rfl)
  | drained hpc hbuf hq =>
    have hpc : c.pc = .inner := hpc
    have hbuf : c.wsBuf = [] := hbuf
    have hn : c.nextFrame = none := by
      simp only [nextFrame, hpc, hbuf, List.head?_nil, Option.map_none]
    rw [hn]
    exact .inr ((hq.remaining c.framesSinceYield).trans (Nat.zero_le _))
  | failed hpc => exact .inr (hnone hpc (by rintro ⟨⟩) (by rintro ⟨⟩) le_rfl)
  | spawned hpc hr => exact .inr (hnone hpc (by rintro ⟨⟩) (by rintro ⟨⟩) hr.remaining)
  | udp hpc hr => exact .inr (hnone hpc (by rintro ⟨⟩) (by rintro ⟨⟩) hr.remaining)
  | sent hpc hr => exact .inr (hnone hpc (by rintro ⟨⟩) (by rintro ⟨⟩) hr.remaining)
  | phase0 hpc _ => exact .inr (hnone hpc (by rintro ⟨⟩) (by rintro ⟨⟩) le_rfl)
  | phase0End hpc => exact .inr (hnone hpc (by rintro ⟨⟩) (by rintro ⟨⟩) le_rfl)
  | deadOne hpc => exact .inr (hnone hpc (by rintro ⟨⟩) (by rintro ⟨⟩) le_rfl)
  | deadEnd hpc => exact .inr (hnone hpc (by rintro ⟨⟩) (by rintro ⟨⟩) le_rfl)
  | event _ hpc =>
    rcases hpc with ⟨hpc, rfl⟩ | ⟨hpc, rfl⟩ | ⟨hpc, hbuf, hwire, -, rfl⟩
    · exact .inr (hnone hpc (by rintro ⟨⟩) (by rintro ⟨⟩) le_rfl)
    · exact .inr (hnone hpc (by rintro ⟨⟩) (by rintro ⟨⟩) le_rfl)
    · exact .inr (hselect hpc hbuf hwire (Pc.remaining_inner_le S _))
  | phase2 hpc hctl _ => exact .inl ⟨hpc, hctl, hdata⟩
  | restEnd hpc _ => exact .inr (hnone hpc (by rintro ⟨⟩) (by rintro ⟨⟩) le_rfl)
  | batch hpc hbuf hwire _ hq =>
    exact .inr (hselect hpc hbuf hwire
      ((hq.remaining c.framesSinceYield).trans (Pc.remaining_inner_le S _)))
  | idle hc _ _ => exact .inr (hselect hc.pc hc.wsBuf hc.wire (Nat.zero_le _))
  | ping hc _ _ _ =>
    exact .inr (hselect hc.pc hc.wsBuf hc.wire (Pc.remaining_inner_le S _))
  | pongTimeout hc _ _ _ => exact .inr (hselect hc.pc hc.wsBuf hc.wire (Nat.zero_le _))
  | noPing hc _ _ _ _ =>
    exact .inr (hselect hc.pc hc.wsBuf hc.wire (Pc.remaining_inner_le S _))

/-! ## What waits -/

/-- What the main task takes in a step. -/
inductive Taken where
  | frame (i : WsInput)
  | event (p : Posted)

/-- The control event that the main task takes next. -/
def Conn.nextEvent (c : Conn) : Option Posted :=
  match c.pc with
  | .phase1 | .controlRest => c.control.items.head?
  | .select =>
    if (c.wsBuf ++ c.wire).isEmpty && c.data.items.isEmpty then c.control.items.head? else none
  | _ => none

def Conn.taken (c : Conn) : Act → Option Taken
  | .main _ => (c.nextFrame.map fun p => .frame p.2).or (c.nextEvent.map .event)
  | _ => none

def framesOf (log : List Taken) : List WsInput :=
  log.filterMap fun
    | .frame i => some i
    | .event _ => none

def eventsOf (log : List Taken) : List Posted :=
  log.filterMap fun
    | .event p => some p
    | .frame _ => none

theorem framesOf_append (l l' : List Taken) : framesOf (l ++ l') = framesOf l ++ framesOf l' :=
  List.filterMap_append ..

theorem eventsOf_append (l l' : List Taken) : eventsOf (l ++ l') = eventsOf l ++ eventsOf l' :=
  List.filterMap_append ..

theorem Conn.nextEvent_of_nextFrame {c : Conn} {x : Site × WsInput} (h : c.nextFrame = some x) :
    c.nextEvent = none := by
  unfold nextFrame at h
  unfold nextEvent
  split at h
  · next hpc => rw [hpc]
  · next hpc =>
    rw [hpc]
    refine if_neg ?_
    cases hframes : c.wsBuf ++ c.wire with
    | nil =>
      rw [hframes] at h
      cases h
    | cons _ _ => exact Bool.false_ne_true
  · cases h

theorem Conn.framesOf_taken (c : Conn) (e : Env) :
    (framesOf (c.taken (.main e)).toList).length = c.nextFrame.toList.length := by
  unfold taken
  cases c.nextFrame with
  | some x => rfl
  | none => cases c.nextEvent <;> rfl

theorem Conn.eventsOf_taken (c : Conn) (e : Env) :
    eventsOf (c.taken (.main e)).toList = c.nextEvent.toList := by
  unfold taken
  cases hn : c.nextFrame with
  | some x =>
    rw [nextEvent_of_nextFrame hn]
    rfl
  | none => cases c.nextEvent <;> rfl

theorem Conn.nextEvent_eq_none {c : Conn} {q : Pc} (hpc : c.pc = q) (h1 : q ≠ .phase1)
    (hrest : q ≠ .controlRest) (hsel : q ≠ .select) : c.nextEvent = none := by
  unfold nextEvent
  split
  · next h => exact absurd (hpc.symm.trans h) h1
  · next h => exact absurd (hpc.symm.trans h) hrest
  · next h => exact absurd (hpc.symm.trans h) hsel
  · rfl

theorem Conn.nextEvent_select {c : Conn} (hpc : c.pc = .select)
    (h : c.wsBuf ++ c.wire ≠ [] ∨ c.data.items ≠ [] ∨ c.control.items = []) :
    c.nextEvent = none := by
  unfold nextEvent
  rw [hpc]
  dsimp only
  split
  next hempty =>
    rw [Bool.and_eq_true, List.isEmpty_iff, List.isEmpty_iff] at hempty
    rcases h with h | h | h
    · exact absurd hempty.1 h
    · exact absurd hempty.2 h
    · rw [h]
      rfl
  next => rfl

theorem Resumes.control {d d' : Desk} {site : Site} (h : Resumes S d site d') :
    d'.control = d.control := by
  cases h <;> rfl

theorem Handles.control {d d' : Desk} {site : Site} {b : Bool} (h : Handles S d site b d') :
    d'.control = d.control := by
  cases h with
  | resumes hr => exact hr.control
  | tcp => rfl
  | udp => rfl
  | breaks => rfl

theorem Desk.control_resetIdle (d : Desk) : (d.resetIdle S).control = d.control := by
  unfold Desk.resetIdle
  split <;> rfl

/-- The main task takes the events of its channel at the front, as they are logged. -/
theorem Conn.takes_event {c c' : Conn} {e : Env} (hs : c.stepMain S e = some c') :
    ∃ more, c.nextEvent.toList ++ c'.control.items = c.control.items ++ more := by
  have hctl : c'.control.items = c'.desk.control := rfl
  have hturn := Conn.stepMain_turn hs
  -- A step that takes none.
  have hquiet : c.nextEvent = none → ∀ more, c'.desk.control = c.control.items ++ more →
      ∃ more, c.nextEvent.toList ++ c'.control.items = c.control.items ++ more := by
    intro hn more h
    exact ⟨more, by rw [hn, hctl]; exact h⟩
  have hnone : ∀ {q}, c.pc = q → q ≠ .phase1 → q ≠ .controlRest → q ≠ .select →
      c'.desk.control = c.control.items →
      ∃ more, c.nextEvent.toList ++ c'.control.items = c.control.items ++ more := by
    intro q hpc h1 hrest hsel h
    exact hquiet (nextEvent_eq_none hpc h1 hrest hsel) [] (by rw [List.append_nil]; exact h)
  have hselect : c.pc = .select →
      (c.wsBuf ++ c.wire ≠ [] ∨ c.data.items ≠ [] ∨ c.control.items = []) →
      c'.desk.control = c.control.items →
      ∃ more, c.nextEvent.toList ++ c'.control.items = c.control.items ++ more := by
    intro hpc hwhy h
    exact hquiet (nextEvent_select hpc hwhy) [] (by rw [List.append_nil]; exact h)
  generalize c'.desk = d' at hturn hctl hquiet hnone hselect
  cases hturn with
  | begin hpc hh => exact hnone hpc (by rintro ⟨⟩) (by rintro ⟨⟩) (by rintro ⟨⟩) hh.control
  | inbound hpc _ hh =>
    exact hnone hpc (by rintro ⟨⟩) (by rintro ⟨⟩) (by rintro ⟨⟩)
      (hh.control.trans (Desk.control_resetIdle _))
  | buffered hpc hbuf hh =>
    have hbuf : c.wsBuf = _ :: _ := hbuf
    exact hselect hpc (.inl (by rw [hbuf]; rintro ⟨⟩)) (hh.control.trans (Desk.control_resetIdle _))
  | socket hpc hbuf hwire hh =>
    have hbuf : c.wsBuf = [] := hbuf
    have hwire : c.wire = _ :: _ := hwire
    exact hselect hpc (.inl (by rw [hbuf, hwire]; rintro ⟨⟩))
      (hh.control.trans (Desk.control_resetIdle _))
  | drained hpc _ _ => exact hnone hpc (by rintro ⟨⟩) (by rintro ⟨⟩) (by rintro ⟨⟩) rfl
  | failed hpc => exact hnone hpc (by rintro ⟨⟩) (by rintro ⟨⟩) (by rintro ⟨⟩) rfl
  | spawned hpc hr => exact hnone hpc (by rintro ⟨⟩) (by rintro ⟨⟩) (by rintro ⟨⟩) hr.control
  | udp hpc hr => exact hnone hpc (by rintro ⟨⟩) (by rintro ⟨⟩) (by rintro ⟨⟩) hr.control
  | sent hpc hr =>
    exact hquiet (nextEvent_eq_none hpc (by rintro ⟨⟩) (by rintro ⟨⟩) (by rintro ⟨⟩)) _ hr.control
  | phase0 hpc _ => exact hnone hpc (by rintro ⟨⟩) (by rintro ⟨⟩) (by rintro ⟨⟩) rfl
  | phase0End hpc => exact hnone hpc (by rintro ⟨⟩) (by rintro ⟨⟩) (by rintro ⟨⟩) rfl
  | deadOne hpc => exact hnone hpc (by rintro ⟨⟩) (by rintro ⟨⟩) (by rintro ⟨⟩) rfl
  | deadEnd hpc => exact hnone hpc (by rintro ⟨⟩) (by rintro ⟨⟩) (by rintro ⟨⟩) rfl
  | @event p rest _ _ _ hitems hpc =>
    have hitems : c.control.items = p :: rest := hitems
    have hn : c.nextEvent = some p := by
      rcases hpc with ⟨hpc, -⟩ | ⟨hpc, -⟩ | ⟨hpc, hbuf, hwire, hdata, -⟩
      · have hpc : c.pc = .phase1 := hpc
        simp only [nextEvent, hpc, hitems, List.head?_cons]
      · have hpc : c.pc = .controlRest := hpc
        simp only [nextEvent, hpc, hitems, List.head?_cons]
      · have hpc : c.pc = .select := hpc
        have hbuf : c.wsBuf = [] := hbuf
        have hwire : c.wire = [] := hwire
        have hdata : c.data.items = [] := hdata
        simp only [nextEvent, hpc, hbuf, hwire, hdata, hitems, List.append_nil, List.isEmpty_nil,
          Bool.and_self, if_true, List.head?_cons]
    refine ⟨[], ?_⟩
    rw [hn, hctl, hitems, List.append_nil]
    rfl
  | phase2 hpc hitems _ =>
    have hpc : c.pc = .phase1 := hpc
    have hitems : c.control.items = [] := hitems
    refine hquiet ?_ [] (by rw [List.append_nil]; rfl)
    simp only [nextEvent, hpc, hitems, List.head?_nil]
  | restEnd hpc hitems =>
    have hpc : c.pc = .controlRest := hpc
    have hitems : c.control.items = [] := hitems
    refine hquiet ?_ [] (by rw [List.append_nil]; rfl)
    simp only [nextEvent, hpc, hitems, List.head?_nil]
  | batch hpc _ _ hdata _ => exact hselect hpc (.inr (.inl hdata)) rfl
  | idle hc _ _ => exact hselect hc.pc (.inr (.inr hc.control)) rfl
  | ping hc _ _ _ => exact hselect hc.pc (.inr (.inr hc.control)) rfl
  | pongTimeout hc _ _ _ => exact hselect hc.pc (.inr (.inr hc.control)) rfl
  | noPing hc _ _ _ _ => exact hselect hc.pc (.inr (.inr hc.control)) rfl

/-- The control events leave their channel at the front, as they are taken. -/
theorem control_step {c c' : Conn} {a : Act} (hs : step S c a = some c') :
    ∃ more, eventsOf (c.taken a).toList ++ c'.control.items = c.control.items ++ more := by
  have hkept : ∀ {a}, c.taken a = none → c'.control.items = c.control.items →
      ∃ more, eventsOf (c.taken a).toList ++ c'.control.items = c.control.items ++ more := by
    intro a ht h
    refine ⟨[], ?_⟩
    rw [ht, h, List.append_nil]
    rfl
  cases a with
  | main e =>
    rw [Conn.eventsOf_taken]
    exact Conn.takes_event hs
  | task i x =>
    obtain ⟨t, -, hturn⟩ := stepTask_turn hs
    cases hturn with
    | sendControl _ _ hsend => exact ⟨_, (Chan.trySend_some hsend).1⟩
    | _ => exact hkept rfl rfl
  | clientReads =>
    simp only [step] at hs
    split at hs <;> cases hs
    exact hkept rfl rfl
  | otherResolve hostname port answer =>
    simp only [step] at hs
    split at hs
    · cases hs
    · split at hs <;> cases hs
      exact hkept rfl rfl
  | _ => cases hs; exact hkept rfl rfl

/-- The DATA leaves its channel at the front, for the client. -/
theorem pipe_step {c c' : Conn} {a : Act} (hs : step S c a = some c') (hup : c'.clientUp = true) :
    c.core.pipe <+: c'.core.pipe ∧ dataOf c.out <+: dataOf c'.out := by
  constructor
  · obtain ⟨d, fs, he, hp, hc⟩ := step_core hs
    have hd : d.up = true := by
      have hdup : (d.emit fs).up = true := by rw [← hc]; exact hup
      exact hdup
    rw [hc, pipe_emit (dataOf_plain hp)]
    rcases he.pipe_cases with h | ⟨_, _, m, _, h⟩ | ⟨hdown, -⟩
    · exact h ▸ List.prefix_refl _
    · rw [h]
      exact List.prefix_append _ _
    · rw [hd] at hdown
      cases hdown
  · obtain ⟨⟨fs, hout⟩, -⟩ := step_out hs
    rw [hout, dataOf_append]
    exact List.prefix_append _ _

theorem step_upOfUp {c c' : Conn} {a : Act} (hs : step S c a = some c') (hup : c'.clientUp = true) :
    c.clientUp = true := by
  by_contra h
  have hdown := ((step_out hs).2 (Bool.eq_false_iff.mpr h)).2
  rw [hup] at hdown
  cases hdown

/-- The steps of the others take nothing, and leave the main task where it is. -/
theorem step_others {c c' : Conn} {a : Act} (hs : step S c a = some c') (ha : ¬ Act.IsMain a) :
    framesOf (c.taken a).toList = [] ∧ c'.desk.remaining S = c.desk.remaining S := by
  cases a with
  | main e => exact absurd ⟨e, rfl⟩ ha
  | task i x =>
    obtain ⟨_, _, _, _, _, rfl⟩ := Conn.stepTask_changes hs
    exact ⟨rfl, rfl⟩
  | clientReads =>
    simp only [step] at hs
    split at hs <;> cases hs
    exact ⟨rfl, rfl⟩
  | otherResolve hostname port answer =>
    simp only [step] at hs
    split at hs
    · cases hs
    · split at hs <;> cases hs
      exact ⟨rfl, rfl⟩
  | _ => cases hs; exact ⟨rfl, rfl⟩

/-! ## The bound -/

/-- What became of what waited in `c`, with the log since then. -/
structure Waited (S : Setup) (c c' : Conn) (log : List Taken) : Prop where
  events : ∃ more, eventsOf log ++ c'.control.items = c.control.items ++ more
  pipe : c'.clientUp = true → c.core.pipe <+: c'.core.pipe
  /-- It is served, or the main task has not yet been through its phases. -/
  served : c.control.items <+: eventsOf log ∧
      (c'.clientUp = true → c.core.pipe <+: dataOf c'.out) ∨
    (framesOf log).length + c'.desk.remaining S ≤ S.yieldLimit

theorem Waited.step {c₀ c c' : Conn} {log : List Taken} {a : Act} (h : Waited S c₀ c log)
    (hs : step S c a = some c') : Waited S c₀ c' (log ++ (c.taken a).toList) where
  events := by
    obtain ⟨more, hmore⟩ := h.events
    obtain ⟨more', hmore'⟩ := control_step hs
    refine ⟨more ++ more', ?_⟩
    rw [eventsOf_append, List.append_assoc, hmore', ← List.append_assoc, hmore, List.append_assoc]
  pipe hup := (h.pipe (step_upOfUp hs hup)).trans (pipe_step hs hup).1
  served := by
    rcases h.served with ⟨hevents, hpipe⟩ | hle
    · refine .inl ⟨?_, fun hup => (hpipe (step_upOfUp hs hup)).trans (pipe_step hs hup).2⟩
      rw [eventsOf_append]
      exact hevents.trans (List.prefix_append _ _)
    · by_cases ha : Act.IsMain a
      · obtain ⟨e, rfl⟩ := ha
        rcases Conn.paces hs with ⟨-, hctl, hdata⟩ | hgo
        · refine .inl ⟨?_, fun hup => ?_⟩
          · obtain ⟨more, hmore⟩ := h.events
            rw [hctl, List.append_nil] at hmore
            rw [eventsOf_append, hmore, List.append_assoc]
            exact List.prefix_append _ _
          · have hpipe := (h.pipe (step_upOfUp hs hup)).trans (pipe_step hs hup).1
            have hout : c'.core.pipe = dataOf c'.out ++ c'.data.items := rfl
            rw [hout, hdata, List.append_nil] at hpipe
            exact hpipe
        · refine .inr ?_
          rw [framesOf_append, List.length_append, Conn.framesOf_taken]
          omega
      · obtain ⟨htaken, hrem⟩ := step_others hs ha
        rw [framesOf_append, htaken, List.append_nil, hrem]
        exact .inr hle

end ShrimpWisp
