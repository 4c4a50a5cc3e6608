import ShrimpWisp.Proofs.Incarnation

/-!
# End events of earlier incarnations

StreamClosed and TcpConnectFailed carry only the id of their stream, and the main loop removes
whatever entry the id has. A task checks its flag before it reports the end of its stream, but a
connect task does not check it again after the dial, and an event outlives its stream in the
channel.

* `EndsSettled`: a CONNECT is accepted only while no end event of its id is on its way, and a
  connect task whose CONNECT has been superseded does not fail.
* `ends_current`: under that condition every end event on its way belongs to the latest accepted
  CONNECT of its id; so `stale_end_harmless`.
* `stale_end_closes`: without it, the end of a closed stream removes the stream that reuses its id.
-/

namespace ShrimpWisp

variable {S : Setup} {c d : Core}

namespace Core

/-- An end event of the id is in the control channel, or a task waits to send it. -/
def endUnderway (c : Core) (s : StreamId) : Bool :=
  (c.control.any fun p => p.event.isEnd && p.event.streamId == s) ||
  c.tasks.any fun t =>
    match t.state with
    | .sendingControl p => p.event.isEnd && p.event.streamId == s
    | _ => false

/-- The task fails to connect, and a later CONNECT of its id has been accepted. -/
def supersededFails (c : Core) (t u : Task) : Bool :=
  match t.state, u.state with
  | .dialing _, .sendingControl p =>
    p.event.isEnd && decide (c.current t.streamId ≠ some t.cancel.owner)
  | _, _ => false

/-- The condition of the module doc, on machine states. -/
def endsSettled (c d : Core) : Bool :=
  (c.accepts d).all (fun a => !c.endUnderway a.streamId) &&
  (c.tasks.zip d.tasks).all fun p => !c.supersededFails p.1 p.2

/-- The event is in the control channel, or a task waits to send it. -/
def Underway (c : Core) (p : Posted) : Prop :=
  p ∈ c.control ∨ ∃ t ∈ c.tasks, t.state = .sendingControl p

theorem endUnderway_of {p : Posted} (h : c.Underway p) (he : p.event.isEnd = true) :
    c.endUnderway p.event.streamId = true := by
  simp only [endUnderway, Bool.or_eq_true, List.any_eq_true]
  rcases h with h | ⟨t, ht, hst⟩
  · exact .inl ⟨p, h, by simp [he]⟩
  · exact .inr ⟨t, ht, by simp [hst, he]⟩

end Core

/-- The condition of the module doc, on steps. -/
def EndsSettled (c : Conn) (_ : Act) (c' : Conn) : Prop := c.core.endsSettled c'.core = true

instance (c : Conn) (a : Act) (c' : Conn) : Decidable (EndsSettled c a c') :=
  inferInstanceAs (Decidable (_ = _))

/-- Every end event on its way belongs to the latest accepted CONNECT of its id. -/
def EndsCurrent (c : Core) : Prop :=
  ∀ p, c.Underway p → p.event.isEnd = true → c.current p.event.streamId = some p.origin.owner

/-- An end event that an effect puts on its way belongs to the latest CONNECT of its id. -/
theorem EndsCurrent.underway (h : EndsCurrent c) (hb : Base c) (he : Effect S c d)
    (hfail : (c.tasks.zip d.tasks).all (fun p => !c.supersededFails p.1 p.2) = true)
    {p : Posted} (hp : d.Underway p) (hend : p.event.isEnd = true) :
    c.current p.event.streamId = some p.origin.owner := by
  rcases hp with hp | ⟨t, ht, hst⟩
  · rcases he.control_cases with hd | ⟨q, -, hd⟩ | ⟨q, hd, hq⟩
    · rw [hd] at hp; exact h p (.inl hp) hend
    · exact h p (.inl (by rw [hd]; exact List.mem_cons_of_mem _ hp)) hend
    · rw [hd] at hp
      rcases List.mem_append.mp hp with hp | hp
      · exact h p (.inl hp) hend
      · rw [List.mem_singleton] at hp
        subst hp
        rcases hq with hq | ⟨t, ht, hst⟩
        · -- The main task's own failure event: its CONNECT has an entry.
          obtain ⟨cs, hx, hc⟩ := hb.trying p.event.streamId p.origin (.inr ⟨p, hq, rfl, rfl⟩)
          rw [hb.owner _ _ hx, ← hc]
          rfl
        · exact h p (.inr ⟨t, ht, hst⟩) hend
  · rcases he.tasks_cases with hd | ⟨u, hu, hd⟩ | ⟨i, u, st, hu, hmove, hd⟩
    · rw [hd] at ht; exact h p (.inr ⟨t, ht, hst⟩) hend
    · rw [hd] at ht
      rcases List.mem_append.mp ht with ht | ht
      · exact h p (.inr ⟨t, ht, hst⟩) hend
      · rw [List.mem_singleton] at ht
        subst ht
        cases hu <;> cases hst
    · have hpair : (u, ({ u with state := st } : Task)) ∈ c.tasks.zip d.tasks := by
        obtain ⟨hi, rfl⟩ := List.getElem?_eq_some_iff.mp hu
        have hi' : i < (c.tasks.zip d.tasks).length := by
          rw [List.length_zip, hd, List.length_set]; omega
        have hz : (c.tasks.zip d.tasks).get ⟨i, hi'⟩ = (c.tasks[i], { c.tasks[i] with state := st }) := by
          simp [hd]
        rw [← hz]
        exact List.get_mem _ _
      rw [hd] at ht
      rcases mem_set_task ht with rfl | ht
      · simp only at hst
        subst hst
        cases hmove with
        | connected _ => cases hend
        | connectFailed hs =>
          have := List.all_eq_true.mp hfail _ hpair
          simpa [Core.supersededFails, hs, hend, ControlEvent.streamId] using this
        | readEnd _ hf =>
          obtain ⟨x, hx, hc⟩ := hb.flagged _ _ (.task (List.mem_of_getElem? hu)) hf
          rw [← hc]
          exact hb.owner _ _ hx
      · exact h p (.inr ⟨t, ht, hst⟩) hend

theorem EndsCurrent.step (h : EndsCurrent c) (hb : Base c) (he : Effect S c d)
    (hok : c.endsSettled d = true) : EndsCurrent d := by
  intro p hp hend
  obtain ⟨haccept, hfail⟩ := Bool.and_eq_true_iff.mp hok
  have hcur := h.underway hb he hfail hp hend
  rcases he.accepted_cases with hd | ⟨s, connect, hd, hctl, htasks⟩
  · simpa only [Core.current, hd] using hcur
  · -- The event was on its way before, so the accepted CONNECT has another id.
    have hunder : c.Underway p := by
      rcases hp with hp | ⟨t, ht, hst⟩
      · exact .inl (hctl ▸ hp)
      · rcases htasks t ht with ht | htop
        · exact .inr ⟨t, ht, hst⟩
        · rw [htop] at hst; cases hst
    have hne : p.event.streamId ≠ s := by
      rintro rfl
      simp only [Core.accepts, hd, List.length_cons, if_true, List.head?_cons, Option.all_some,
        Bool.not_eq_true'] at haccept
      rw [Core.endUnderway_of hunder hend] at haccept
      cases haccept
    have := current_accept c s p.event.streamId connect
    rw [if_neg hne] at this
    rw [← hcur, ← this]
    simp only [Core.current, Core.accept, hd]

/-- In a run that satisfies `EndsSettled`, no end event of a superseded CONNECT is on its way. -/
theorem ends_current {c : Conn} (h : (sys S).Reach EndsSettled c) : EndsCurrent c.core := by
  refine Reach.core (R := fun c d => c.endsSettled d = true) (fun _ _ _ hok => hok) ?_ ?_ h
  · rintro p (hp | ⟨t, ht, -⟩) <;> [cases hp; cases ht]
  · intro c d fs hr hi he _ hok
    have := hi.step (Reach.base hr) he hok
    exact this

/-- A step leaves the stream of an id alone: its entry and its flag, and no CLOSE is written. -/
structure Untouched (c c' : Conn) (s : StreamId) : Prop where
  entry : c'.table.get? s = c.table.get? s
  flag : ∀ x, c.table.get? s = some x →
    c'.flags.isCancelled x.cancel = c.flags.isCancelled x.cancel
  close : ∀ reason cause, .close s reason cause ∉ c'.out.drop c.out.length

/-- The event is an end event, and a later CONNECT of its id has been accepted. -/
def StaleEnd (c : Conn) (p : Posted) : Prop :=
  p.event.isEnd = true ∧ c.current p.event.streamId ≠ some p.origin.owner

/-- No step from `c` that delivers a stale end event touches the stream of its id. -/
def StaleHarmless (S : Setup) (c : Conn) : Prop :=
  ∀ a c', step S c a = some c' → ∀ p, delivered c.control.items c'.control.items = some p →
    StaleEnd c p → Untouched c c' p.event.streamId

/-- In a run that satisfies `EndsSettled`, the end events in the channel belong to the latest
accepted CONNECT of their id. So an end event of an earlier CONNECT never removes the later stream,
sets its flag or closes it towards the client. -/
theorem stale_end_harmless {c : Conn} (h : (sys S).Reach EndsSettled c) :
    (∀ p ∈ c.control.items, ¬ StaleEnd c p) ∧ StaleHarmless S c := by
  have hn : ∀ p ∈ c.control.items, ¬ StaleEnd c p :=
    fun p hp hst => hst.2 (ends_current h p (.inl hp) hst.1)
  refine ⟨hn, ?_⟩
  intro a c' _ p hp hst
  exact absurd hst (hn p (by rw [delivered_eq_some hp]; exact List.mem_cons_self))

/-- Stream 1 is connected, the backend closes it, and the client closes it and opens it again. With
`late` the client's packets come after the event is handled. -/
def reopen (late : Bool) : List Act :=
  attachOne ++ [.task 1 .go, .task 1 .eof, .task 1 .go] ++
    (if late then [.main {}, .main {}] ++ toSelect else []) ++
    [closeOne, connectOne, .main { more := 1 }, .main {}, .main {}]

/-- The event of the closed stream is delivered before the CONNECT is handled. -/
theorem stale_end_harmless_reopen :
    ∃ c, (sys { config := {} }).Reach EndsSettled c ∧ c.current 1 = some 1 ∧
      StaleHarmless { config := {} } c := by
  obtain ⟨c, hr, hp⟩ := Reach.of_run { config := {} } EndsSettled
    (reopen true)
    (fun c => decide (c.current 1 = some 1)) (by decide +kernel)
  exact ⟨c, hr, of_decide_eq_true hp, (stale_end_harmless hr).2⟩

/-- What `stale_end_closes` computes of the next step of the main task. -/
def closesLater (c c' : Conn) : Bool :=
  match delivered c.control.items c'.control.items, c.table.get? 1 with
  | some p, some x =>
    p.event.isEnd && decide (c.current p.event.streamId ≠ some p.origin.owner) &&
    decide (p.event.streamId = 1) && decide (c'.table.get? 1 = none) &&
    !c.flags.isCancelled x.cancel && c'.flags.isCancelled x.cancel &&
    decide (.close 1 .voluntary (some p.origin) ∈ c'.out.drop c.out.length)
  | _, _ => false

/-- The event of the closed stream is delivered after the CONNECT is accepted: it removes the new
stream, sets its flag and closes it towards the client. -/
theorem stale_end_closes :
    ∃ c a c' p x, (sys { config := {} }).Reach Sys.Any c ∧ step { config := {} } c a = some c' ∧
      delivered c.control.items c'.control.items = some p ∧ StaleEnd c p ∧
      p.event.streamId = 1 ∧ c.table.get? 1 = some x ∧ c'.table.get? 1 = none ∧
      c.flags.isCancelled x.cancel = false ∧ c'.flags.isCancelled x.cancel = true ∧
      .close 1 .voluntary (some p.origin) ∈ c'.out.drop c.out.length := by
  obtain ⟨c, hr, hp⟩ := Reach.of_run { config := {} } Sys.Any
    (reopen false ++ [.main {}, .main {}, .main {}])
    (fun c => (step { config := {} } c (.main {})).any (closesLater c)) (by decide +kernel)
  obtain ⟨c', hs, hc⟩ := (Option.any_eq_true _ _).mp hp
  unfold closesLater at hc
  split at hc
  · rename_i p x hd hx
    simp only [Bool.and_eq_true, decide_eq_true_eq, Bool.not_eq_true'] at hc
    obtain ⟨⟨⟨⟨⟨⟨hend, hcur⟩, hid⟩, hnone⟩, hf⟩, hf'⟩, hout⟩ := hc
    exact ⟨c, _, c', p, x, hr, hs, hd, ⟨hend, hcur⟩, hid, hx, hnone, hf, hf', hout⟩
  · cases hc

end ShrimpWisp
