import ShrimpWisp.Server.Refine

/-!
# Flags, tasks and entries

The invariant that the results about incarnations share (`Base`), in every reachable state:

* the accepted CONNECTs have different numbers (`unique`), and an entry belongs to the latest one of
  its id (`owner`);
* a TcpConnected event carries the socket and the flag of the task that made it (`Genuine`);
* the CONNECT that the main task is working on has a Connecting entry (`trying`);
* **a flag that is not set is the flag of an entry** (`flagged`), for every flag that a task, an
  event or the main task holds. So a task that finds its flag unset serves the current stream.
-/

namespace ShrimpWisp

variable {S : Setup} {c d : Core}

/-- A TcpConnected event is as its connect task made it. -/
def Genuine (p : Posted) : Prop :=
  ∀ s reader writer cancel, p.event = .tcpConnected s reader writer cancel →
    cancel = p.origin ∧ reader = p.origin.owner ∧ writer = ⟨p.origin.owner, []⟩

theorem genuine_of_isEnd {p : Posted} (h : p.event.isEnd = true) : Genuine p := by
  intro s reader writer cancel hp
  rw [hp] at h
  cases h

namespace Core

/-- The main task works on a TCP CONNECT of `s` with the flag `f`. -/
def Trying (c : Core) (s : StreamId) (f : CancelFlag) : Prop :=
  (∃ connect known, c.attempt = .tcp s connect f known) ∨
  ∃ p, c.attempt = .failed p ∧ p.event.streamId = s ∧ p.origin = f

/-- Someone holds the flag `f` for the id `s`. -/
inductive Holds (c : Core) : StreamId → CancelFlag → Prop
  | task {t : Task} : t ∈ c.tasks → Holds c t.streamId t.cancel
  | posted {p : Posted} : p ∈ c.control → Holds c p.event.streamId p.origin
  | trying {s : StreamId} {f : CancelFlag} : c.Trying s f → Holds c s f

theorem not_trying_of_idle (h : c.attempt = .idle) (s : StreamId) (f : CancelFlag) :
    ¬ c.Trying s f := by
  rintro (⟨_, _, h'⟩ | ⟨_, h', -⟩) <;> rw [h] at h' <;> cases h'

end Core

/-- The invariant (module doc). -/
structure Base (c : Core) : Prop where
  numbered : ∀ a ∈ c.accepted, a.inc < c.accepted.length
  unique : ∀ a ∈ c.accepted, ∀ b ∈ c.accepted, a.inc = b.inc → a = b
  owner : ∀ s x, c.entry s = some x → c.current s = some x.cancel.owner
  connects : ∀ t ∈ c.tasks, ∀ r, t.state = .spawned r ∨ t.state = .dialing r →
    t.sock = t.cancel.owner
  sending : ∀ t ∈ c.tasks, ∀ p, t.state = .sendingControl p →
    p.origin = t.cancel ∧ p.event.streamId = t.streamId ∧ Genuine p
  posted : ∀ p ∈ c.control, Genuine p
  failed : ∀ p, c.attempt = .failed p → p.event.isEnd = true
  trying : ∀ s f, c.Trying s f → ∃ cs, c.entry s = some (.connecting cs) ∧ cs.cancel = f
  flagged : ∀ s f, c.Holds s f → c.flags.isCancelled f = false →
    ∃ x, c.entry s = some x ∧ x.cancel = f

/-! ## What a step delivers and accepts -/

/-- The event that a step takes from the control channel. -/
def delivered (control control' : List Posted) : Option Posted :=
  match control with
  | [] => none
  | p :: rest => if rest = control' then some p else none

theorem delivered_cons (p : Posted) (rest : List Posted) : delivered (p :: rest) rest = some p := by
  simp [delivered]

theorem delivered_eq_some {l l' : List Posted} {p : Posted} (h : delivered l l' = some p) :
    l = p :: l' := by
  unfold delivered at h
  split at h
  · cases h
  · split at h
    · rename_i hr; cases h; rw [hr]
    · cases h

/-- The CONNECT that a step accepts. -/
def Core.accepts (c d : Core) : Option Accept :=
  if d.accepted.length = c.accepted.length + 1 then d.accepted.head? else none

/-- What an effect does to the accepted CONNECTs: an acceptance sends no event. -/
theorem Effect.accepted_cases (he : Effect S c d) :
    d.accepted = c.accepted ∨
    ∃ s connect, d.accepted = ⟨c.accepted.length, s, connect⟩ :: c.accepted ∧
      d.control = c.control ∧ ∀ t ∈ d.tasks, t ∈ c.tasks ∨ t.state = .top := by
  cases he with
  | acceptTcp _ _ _ => exact .inr ⟨_, _, rfl, rfl, fun t ht => .inl ht⟩
  | acceptUdp _ _ _ _ =>
    refine .inr ⟨_, _, rfl, rfl, fun t ht => ?_⟩
    rcases List.mem_append.mp ht with ht | ht
    · exact .inl ht
    · rw [List.mem_singleton] at ht
      subst ht
      exact .inr rfl
  | _ => exact .inl rfl

theorem Effect.accepted_subset (he : Effect S c d) : c.accepted ⊆ d.accepted := by
  rcases he.accepted_cases with hd | ⟨s, connect, hd, -⟩ <;> rw [hd]
  · exact List.Subset.refl _
  · exact List.subset_cons_self _ _

/-! ## Accepted CONNECTs -/

theorem current_accept (c : Core) (s s' : StreamId) (connect : ConnectPayload) :
    (c.accept s connect).current s' =
      if s' = s then some c.accepted.length else c.current s' := by
  unfold Core.accept Core.current
  by_cases h : s' = s
  · subst h; simp
  · have : (s == s') = false := by simpa using fun e => h e.symm
    simp [this, h]

theorem Base.numbered_step (hb : Base c) (he : Effect S c d) :
    ∀ a ∈ d.accepted, a.inc < d.accepted.length := by
  have haccept : ∀ s connect, ∀ a ∈ (c.accept s connect).accepted,
      a.inc < (c.accept s connect).accepted.length := by
    intro s connect a ha
    rcases List.mem_cons.mp ha with rfl | ha
    · exact Nat.lt_succ_self _
    · exact Nat.lt_succ_of_lt (hb.numbered a ha)
  cases he with
  | acceptTcp => exact haccept _ _
  | acceptUdp => exact haccept _ _
  | _ => exact hb.numbered

theorem Base.unique_step (hb : Base c) (he : Effect S c d) :
    ∀ a ∈ d.accepted, ∀ b ∈ d.accepted, a.inc = b.inc → a = b := by
  rcases he.accepted_cases with hd | ⟨s, connect, hd, -⟩ <;> rw [hd]
  · exact hb.unique
  · intro a ha b hb' hab
    rcases List.mem_cons.mp ha with rfl | ha <;> rcases List.mem_cons.mp hb' with rfl | hb'
    · rfl
    · exact absurd hab (Nat.ne_of_gt (hb.numbered b hb'))
    · exact absurd hab (Nat.ne_of_lt (hb.numbered a ha))
    · exact hb.unique a ha b hb' hab

/-! ## Entries -/

/-- The entry of an id belongs to an accepted CONNECT of the id. -/
theorem Base.accepted_of_entry (hb : Base c) {s : StreamId} {x : ProxyStream Octet}
    (hx : c.entry s = some x) : ∃ a ∈ c.accepted, a.streamId = s ∧ a.inc = x.cancel.owner := by
  obtain ⟨a, ha, hinc⟩ := Option.map_eq_some_iff.mp (hb.owner s x hx)
  refine ⟨a, List.mem_of_find?_eq_some ha, ?_, hinc⟩
  simpa using List.find?_some ha

/-- Entries of different ids belong to different CONNECTs. -/
theorem Base.entry_inj (hb : Base c) {s s' : StreamId} {x y : ProxyStream Octet}
    (hx : c.entry s = some x) (hy : c.entry s' = some y)
    (h : x.cancel.owner = y.cancel.owner) : s = s' := by
  obtain ⟨a, ha, rfl, hai⟩ := hb.accepted_of_entry hx
  obtain ⟨b, hb', rfl, hbi⟩ := hb.accepted_of_entry hy
  rw [hb.unique a ha b hb' (by rw [hai, hbi, h])]

theorem Base.owner_step (hb : Base c) (he : Effect S c d) :
    ∀ s x, d.entry s = some x → d.current s = some x.cancel.owner := by
  -- An entry that replaces another one keeps the incarnation.
  have hput : ∀ {s y y'}, c.entry s = some y → y'.cancel.owner = y.cancel.owner →
      ∀ s' x, (c.put s (some y')).entry s' = some x → c.current s' = some x.cancel.owner := by
    intro s y y' hy ho s' x hx
    simp only [Core.put] at hx
    split at hx
    · rename_i hs; cases hx; rw [hs, hb.owner s y hy, ho]
    · exact hb.owner s' x hx
  have hnone : ∀ {s}, ∀ s' x, (c.put s none).entry s' = some x →
      c.current s' = some x.cancel.owner := by
    intro s s' x hx
    simp only [Core.put] at hx
    split at hx
    · cases hx
    · exact hb.owner s' x hx
  -- A new entry belongs to the CONNECT that is accepted with it.
  have hnew : ∀ {s connect y}, y.cancel.owner = c.accepted.length →
      ∀ s' x, (c.put s (some y)).entry s' = some x →
        (c.accept s connect).current s' = some x.cancel.owner := by
    intro s connect y ho s' x hx
    rw [current_accept]
    simp only [Core.put] at hx
    split at hx
    · rename_i hs; cases hx; rw [if_pos hs, ho]
    · rename_i hs; rw [if_neg hs]; exact hb.owner s' x hx
  cases he with
  | early _ hx _ _ => exact hput hx rfl
  | upload _ hx hw _ =>
    exact hput hx (by
      simp only [ProxyStream.cancel, (counted_frame S _).2.2, (tcpTryWrite_frame hw).2.2.2])
  | uploadDead _ hx hw _ => exact hnone
  | untrack _ hx => exact hput hx rfl
  | drain _ hx => exact hput hx (by simp only [ProxyStream.cancel, (drainPending_frame _ _).2.2.2])
  | remove _ => exact hnone
  | ended _ _ _ => exact hnone
  | acceptTcp _ _ _ => exact hnew rfl
  | acceptUdp _ _ _ _ => exact hnew rfl
  | attach _ _ _ hx _ => exact hput hx rfl
  | attachDead _ _ _ _ _ => exact hnone
  | _ => exact hb.owner

/-! ## Tasks and events -/

/-- The next state of a task. -/
inductive Moves (c d : Core) (t : Task) : TaskState → Prop
  | done : Moves c d t .done
  | dial {r} : t.state = .spawned r → c.flags.isCancelled t.cancel = false →
      Moves c d t (.dialing r)
  | connected {r} : t.state = .dialing r → Moves c d t
      (.sendingControl ⟨.tcpConnected t.streamId t.sock ⟨t.sock, []⟩ t.cancel, t.cancel⟩)
  | connectFailed {r reason} : t.state = .dialing r →
      Moves c d t (.sendingControl ⟨.tcpConnectFailed t.streamId reason, t.cancel⟩)
  | startRead : t.state = .top → Moves c d t .reading
  | read {m} : t.state = .reading → m.reader = t.cancel → d.reads = c.reads ++ [m] →
      Moves c d t (.sendingData m)
  | readEnd {reason} : t.state = .reading → c.flags.isCancelled t.cancel = false →
      Moves c d t (.sendingControl ⟨.streamClosed t.streamId reason, t.cancel⟩)
  | sendData {m} : t.state = .sendingData m → Moves c d t .top

/-- A task that is spawned: the connect task of the main task's CONNECT, or a reader with a new flag
that is the flag of its entry. -/
inductive Spawns (S : Setup) (c d : Core) : Task → Prop
  | connect {s connect cancel known r} : c.attempt = .tcp s connect cancel known →
      Resolves c.dns connect known (some r) d.dns →
      Security.isIpBlocked r.addr.ip S.config = false → d.attempt = .idle →
      Spawns S c d ⟨s, cancel, cancel.owner, .tcp, .spawned r⟩
  | reader {s cancel sock kind x} : cancel.id = c.flags.next → d.entry s = some x →
      x.cancel = cancel → c.flags.next < d.flags.next → d.attempt = .idle →
      Spawns S c d ⟨s, cancel, sock, kind, .top⟩

/-- What an effect does to the tasks. -/
theorem Effect.tasks_cases (he : Effect S c d) :
    d.tasks = c.tasks ∨
    (∃ t, Spawns S c d t ∧ d.tasks = c.tasks ++ [t]) ∨
    ∃ i t st, c.tasks[i]? = some t ∧ Moves c d t st ∧
      d.tasks = c.tasks.set i { t with state := st } := by
  cases he with
  | spawnConnect ha hr hb => exact .inr (.inl ⟨_, .connect ha hr hb rfl, rfl⟩)
  | acceptUdp _ _ _ _ =>
    exact .inr (.inl ⟨_, .reader rfl (if_pos rfl) rfl (Nat.lt_succ_self _) rfl, rfl⟩)
  | attach ha _ _ _ _ =>
    exact .inr (.inl ⟨_, .reader rfl (if_pos rfl) rfl (Nat.lt_succ_self _) ha, rfl⟩)
  | taskDone ht => exact .inr (.inr ⟨_, _, _, ht, .done, rfl⟩)
  | dial ht hst hf => exact .inr (.inr ⟨_, _, _, ht, .dial hst hf, rfl⟩)
  | connected ht hst => exact .inr (.inr ⟨_, _, _, ht, .connected hst, rfl⟩)
  | connectFailed ht hst => exact .inr (.inr ⟨_, _, _, ht, .connectFailed hst, rfl⟩)
  | startRead ht hst _ => exact .inr (.inr ⟨_, _, _, ht, .startRead hst, rfl⟩)
  | read ht hst _ hm _ _ => exact .inr (.inr ⟨_, _, _, ht, .read hst hm rfl, rfl⟩)
  | readCancelled ht hst _ _ _ => exact .inr (.inr ⟨_, _, _, ht, .done, rfl⟩)
  | readEnd ht hst hf => exact .inr (.inr ⟨_, _, _, ht, .readEnd hst hf, rfl⟩)
  | sendData ht hst => exact .inr (.inr ⟨_, _, _, ht, .sendData hst, rfl⟩)
  | sendControl ht hst => exact .inr (.inr ⟨_, _, _, ht, .done, rfl⟩)
  | _ => exact .inl rfl

/-- What an effect does to the control channel. -/
theorem Effect.control_cases (he : Effect S c d) :
    d.control = c.control ∨
    (∃ p, c.attempt = .idle ∧ c.control = p :: d.control) ∨
    ∃ p, d.control = c.control ++ [p] ∧
      (c.attempt = .failed p ∨ ∃ t ∈ c.tasks, t.state = .sendingControl p) := by
  cases he with
  | sendFailed ha _ => exact .inr (.inr ⟨_, rfl, .inl ha⟩)
  | ended ha hc _ => exact .inr (.inl ⟨_, ha, hc⟩)
  | connectedNone ha hc _ _ => exact .inr (.inl ⟨_, ha, hc⟩)
  | connectedOther ha hc _ _ _ => exact .inr (.inl ⟨_, ha, hc⟩)
  | attach ha hc _ _ _ => exact .inr (.inl ⟨_, ha, hc⟩)
  | attachDead ha hc _ _ _ => exact .inr (.inl ⟨_, ha, hc⟩)
  | sendControl ht hst => exact .inr (.inr ⟨_, rfl, .inr ⟨_, List.mem_of_getElem? ht, hst⟩⟩)
  | _ => exact .inl rfl

/-- What an effect does to the main task's CONNECT. -/
theorem Effect.attempt_cases (he : Effect S c d) :
    d.attempt = .idle ∨
    (d.attempt = c.attempt ∧ d.entry = c.entry) ∨
    (∃ s connect known, c.entry s = none ∧
      d.attempt = .tcp s connect (c.flags.new c.accepted.length).1 known ∧
      d.flags = (c.flags.new c.accepted.length).2 ∧
      d.entry s = some (.connecting (.new (c.flags.new c.accepted.length).1))) ∨
    (∃ s connect cancel known reason, c.attempt = .tcp s connect cancel known ∧
      d.entry = c.entry ∧ d.attempt = .failed ⟨.tcpConnectFailed s reason, cancel⟩) ∨
    ∃ s connect known, d.attempt = .udp s connect known := by
  cases he with
  | acceptTcp _ hn _ => exact .inr (.inr (.inl ⟨_, _, _, hn, rfl, rfl, if_pos rfl⟩))
  | tcpFailed ha _ => exact .inr (.inr (.inr (.inl ⟨_, _, _, _, _, ha, rfl, rfl⟩)))
  | startUdp _ _ => exact .inr (.inr (.inr (.inr ⟨_, _, _, rfl⟩)))
  | early ha _ _ _ => exact .inl ha
  | upload ha _ _ _ => exact .inl ha
  | uploadDead ha _ _ _ => exact .inl ha
  | untrack ha _ => exact .inl ha
  | drain ha _ => exact .inl ha
  | remove ha => exact .inl ha
  | ended ha _ _ => exact .inl ha
  | attach ha _ _ _ _ => exact .inl ha
  | attachDead ha _ _ _ _ => exact .inl ha
  | newFlag => exact .inl rfl
  | spawnConnect _ _ _ => exact .inl rfl
  | sendFailed _ _ => exact .inl rfl
  | refuseUdp _ _ => exact .inl rfl
  | refuseUdpFlag _ _ => exact .inl rfl
  | acceptUdp _ _ _ _ => exact .inl rfl
  | _ => exact .inr (.inl ⟨rfl, rfl⟩)

theorem mem_set_task {l : List Task} {i : Nat} {t u : Task} (h : u ∈ l.set i t) :
    u = t ∨ u ∈ l := (List.mem_or_eq_of_mem_set h).symm

/-- A property of every task that each move keeps and each new task has. -/
theorem Effect.forall_tasks (he : Effect S c d) {P : Task → Prop} (h : ∀ t ∈ c.tasks, P t)
    (hspawn : ∀ t, Spawns S c d t → P t)
    (hmove : ∀ t ∈ c.tasks, ∀ st, Moves c d t st → P { t with state := st }) :
    ∀ t ∈ d.tasks, P t := by
  intro t ht
  rcases he.tasks_cases with hd | ⟨u, hu, hd⟩ | ⟨i, u, st, hu, hst, hd⟩ <;> rw [hd] at ht
  · exact h t ht
  · rcases List.mem_append.mp ht with ht | ht
    · exact h t ht
    · rw [List.mem_singleton] at ht
      rw [ht]; exact hspawn u hu
  · rcases mem_set_task ht with rfl | ht
    · exact hmove u (List.mem_of_getElem? hu) st hst
    · exact h t ht

theorem Base.connects_step (hb : Base c) (he : Effect S c d) :
    ∀ t ∈ d.tasks, ∀ r, t.state = .spawned r ∨ t.state = .dialing r → t.sock = t.cancel.owner := by
  refine he.forall_tasks hb.connects ?_ ?_
  · intro t ht r hr
    cases ht with
    | connect => rfl
    | reader => rcases hr with hr | hr <;> cases hr
  · intro t ht st hst r hr
    cases hst with
    | dial hs _ => exact hb.connects t ht _ (.inl hs)
    | _ => rcases hr with hr | hr <;> cases hr

theorem Base.sending_step (hb : Base c) (he : Effect S c d) :
    ∀ t ∈ d.tasks, ∀ p, t.state = .sendingControl p →
      p.origin = t.cancel ∧ p.event.streamId = t.streamId ∧ Genuine p := by
  refine he.forall_tasks hb.sending ?_ ?_
  · intro t ht p hp
    cases ht <;> cases hp
  · intro t ht st hst p hp
    cases hst with
    | connected hs =>
      cases hp
      refine ⟨rfl, rfl, ?_⟩
      intro s reader writer cancel he
      cases he
      have hsock := hb.connects t ht _ (.inr hs)
      exact ⟨rfl, hsock, by rw [hsock]⟩
    | connectFailed hs => cases hp; exact ⟨rfl, rfl, genuine_of_isEnd rfl⟩
    | readEnd hs _ => cases hp; exact ⟨rfl, rfl, genuine_of_isEnd rfl⟩
    | _ => cases hp

theorem Base.posted_step (hb : Base c) (he : Effect S c d) : ∀ p ∈ d.control, Genuine p := by
  intro p hp
  rcases he.control_cases with hd | ⟨q, -, hd⟩ | ⟨q, hd, hq⟩
  · rw [hd] at hp; exact hb.posted p hp
  · exact hb.posted p (by rw [hd]; exact List.mem_cons_of_mem _ hp)
  · rw [hd] at hp
    rcases List.mem_append.mp hp with hp | hp
    · exact hb.posted p hp
    · rw [List.mem_singleton] at hp
      subst hp
      rcases hq with hq | ⟨t, ht, hst⟩
      · exact genuine_of_isEnd (hb.failed _ hq)
      · exact (hb.sending t ht _ hst).2.2

theorem Base.failed_step (hb : Base c) (he : Effect S c d) :
    ∀ p, d.attempt = .failed p → p.event.isEnd = true := by
  intro p hp
  rcases he.attempt_cases with h | ⟨h, -⟩ | ⟨_, _, _, -, h, -⟩ | ⟨_, _, _, _, _, -, -, h⟩ |
    ⟨_, _, _, h⟩
  · rw [h] at hp; cases hp
  · rw [h] at hp; exact hb.failed p hp
  · rw [h] at hp; cases hp
  · rw [h] at hp; cases hp; rfl
  · rw [h] at hp; cases hp

/-- The main task's CONNECT after an effect: the same, or one that was accepted just now. -/
theorem Effect.trying_cases (he : Effect S c d) {s : StreamId} {f : CancelFlag}
    (h : d.Trying s f) :
    (c.Trying s f ∧ d.entry = c.entry) ∨
    (f = (c.flags.new c.accepted.length).1 ∧ d.flags = (c.flags.new c.accepted.length).2 ∧
      d.entry s = some (.connecting (.new f))) := by
  rcases he.attempt_cases with hd | ⟨hd, hen⟩ | ⟨s', _, _, -, hd, hfl, hen⟩ |
    ⟨s', _, f', _, _, hc, hen, hd⟩ | ⟨_, _, _, hd⟩
  · exact absurd h (Core.not_trying_of_idle hd s f)
  · refine .inl ⟨?_, hen⟩
    unfold Core.Trying at h ⊢
    rwa [hd] at h
  · rcases h with ⟨_, _, h⟩ | ⟨p, h, -⟩
    · rw [hd] at h; cases h; exact .inr ⟨rfl, hfl, hen⟩
    · rw [hd] at h; cases h
  · rcases h with ⟨_, _, h⟩ | ⟨p, h, hs, hf⟩
    · rw [hd] at h; cases h
    · rw [hd] at h; cases h; cases hs; cases hf
      exact .inl ⟨.inl ⟨_, _, hc⟩, hen⟩
  · rcases h with ⟨_, _, h⟩ | ⟨p, h, -⟩ <;> rw [hd] at h <;> cases h

theorem Base.trying_step (hb : Base c) (he : Effect S c d) :
    ∀ s f, d.Trying s f → ∃ cs, d.entry s = some (.connecting cs) ∧ cs.cancel = f := by
  intro s f h
  rcases he.trying_cases h with ⟨h, hen⟩ | ⟨-, -, hen⟩
  · rw [hen]; exact hb.trying s f h
  · exact ⟨_, hen, rfl⟩

/-! ## Flags -/

/-- Who holds a flag after an effect held it before, or its entry is there. -/
theorem Base.holds_cases (hb : Base c) (he : Effect S c d) {s : StreamId} {f : CancelFlag}
    (h : d.Holds s f) : c.Holds s f ∨ ∃ x, d.entry s = some x ∧ x.cancel = f := by
  cases h with
  | @task t ht =>
    rcases he.tasks_cases with hd | ⟨u, hu, hd⟩ | ⟨i, u, st, hu, -, hd⟩ <;> rw [hd] at ht
    · exact .inl (.task ht)
    · rcases List.mem_append.mp ht with ht | ht
      · exact .inl (.task ht)
      · rw [List.mem_singleton] at ht
        subst ht
        cases hu with
        | connect ha _ _ => exact .inl (.trying (.inl ⟨_, _, ha⟩))
        | reader _ hx hc => exact .inr ⟨_, hx, hc⟩
    · rcases mem_set_task ht with rfl | ht
      · have := Core.Holds.task (List.mem_of_getElem? hu)
        exact .inl this
      · exact .inl (.task ht)
  | @posted p hp =>
    rcases he.control_cases with hd | ⟨q, -, hd⟩ | ⟨q, hd, hq⟩
    · rw [hd] at hp; exact .inl (.posted hp)
    · exact .inl (.posted (by rw [hd]; exact List.mem_cons_of_mem _ hp))
    · rw [hd] at hp
      rcases List.mem_append.mp hp with hp | hp
      · exact .inl (.posted hp)
      · rw [List.mem_singleton] at hp
        subst hp
        rcases hq with hq | ⟨t, ht, hst⟩
        · exact .inl (.trying (.inr ⟨_, hq, rfl, rfl⟩))
        · obtain ⟨ho, hs, -⟩ := hb.sending t ht _ hst
          rw [ho, hs]
          exact .inl (.task ht)
  | trying ht =>
    rcases he.trying_cases ht with ⟨ht, -⟩ | ⟨-, -, hen⟩
    · exact .inl (.trying ht)
    · exact .inr ⟨_, hen, rfl⟩

/-- An entry whose flag stays unset is still there: only a removal takes an entry away, and the
removal sets its flag. -/
theorem Effect.entry_cases (he : Effect S c d) {s : StreamId} {x : ProxyStream Octet}
    (hx : c.entry s = some x) (hf : d.flags.isCancelled x.cancel = false) :
    c.flags.isCancelled x.cancel = false ∧ ∃ y, d.entry s = some y ∧ y.cancel = x.cancel := by
  -- Another entry of the same id, with the same flag.
  have hput : ∀ {s' y y'}, c.entry s' = some y → y'.cancel = y.cancel →
      ∃ z, (c.put s' (some y')).entry s = some z ∧ z.cancel = x.cancel := by
    intro s' y y' hy hc
    simp only [Core.put]
    split
    · rename_i hs; subst hs; rw [hx] at hy; cases hy; exact ⟨y', rfl, hc⟩
    · exact ⟨x, hx, rfl⟩
  have hnew : ∀ {s' y'}, c.entry s' = none →
      ∃ z, (c.put s' (some y')).entry s = some z ∧ z.cancel = x.cancel := by
    intro s' y' hy
    simp only [Core.put]
    split
    · rename_i hs; subst hs; rw [hx] at hy; cases hy
    · exact ⟨x, hx, rfl⟩
  -- The flag of a removed entry is set, so the entry of `s` is not the removed one.
  have hgone : ∀ {s' y z}, c.entry s' = some y →
      (c.flags.cancel y.cancel).isCancelled x.cancel = false →
      c.flags.isCancelled x.cancel = false ∧
        ∃ w, (c.put s' z).entry s = some w ∧ w.cancel = x.cancel := by
    intro s' y z hy hf
    rw [Flags.isCancelled_cancel] at hf
    obtain ⟨hne, hf⟩ := Bool.or_eq_false_iff.mp hf
    refine ⟨hf, x, ?_, rfl⟩
    simp only [Core.put]
    split
    · rename_i hs
      subst hs
      rw [hx] at hy
      cases hy
      simp at hne
    · exact hx
  have hremove : ∀ {s'}, (c.removeEntry s').flags.isCancelled x.cancel = false →
      c.flags.isCancelled x.cancel = false ∧
        ∃ w, (c.put s' none).entry s = some w ∧ w.cancel = x.cancel := by
    intro s' hf
    simp only [Core.removeEntry] at hf
    split at hf
    · rename_i y hy; exact hgone hy hf
    · rename_i hn
      refine ⟨hf, x, ?_, rfl⟩
      simp only [Core.put]
      split
      · rename_i hs; subst hs; rw [hx] at hn; cases hn
      · exact hx
  cases he with
  | early _ hy _ _ => exact ⟨hf, hput hy rfl⟩
  | upload _ hy hw _ =>
    exact ⟨hf, hput hy (by
      simp only [ProxyStream.cancel, (counted_frame S _).2.2, (tcpTryWrite_frame hw).2.2.2])⟩
  | uploadDead _ hy hw _ =>
    have hk := (tcpTryWrite_frame hw).2.2.2
    simp only [Core.remove, ProxyStream.cancel, hk] at hf
    exact hgone hy hf
  | untrack _ hy => exact ⟨hf, hput hy rfl⟩
  | drain _ hy =>
    exact ⟨hf, hput hy (by simp only [ProxyStream.cancel, (drainPending_frame _ _).2.2.2])⟩
  | remove _ => exact hremove hf
  | ended _ _ _ => exact hremove hf
  | acceptTcp _ hn _ => exact ⟨hf, hnew hn⟩
  | acceptUdp _ _ _ hn => exact ⟨hf, hnew hn⟩
  | connectedOther _ _ _ hy _ =>
    obtain ⟨hf, -⟩ := hgone (z := none) hy hf
    exact ⟨hf, x, hx, rfl⟩
  | attach _ _ _ hy _ => exact hgone hy hf
  | attachDead _ _ _ hy _ => exact hgone hy hf
  | _ => exact ⟨hf, x, hx, rfl⟩

/-- No effect clears a flag. -/
theorem Effect.isCancelled_mono (he : Effect S c d) {f : CancelFlag}
    (hf : d.flags.isCancelled f = false) : c.flags.isCancelled f = false := by
  have hcancel : ∀ {g}, (c.flags.cancel g).isCancelled f = false → c.flags.isCancelled f = false := by
    intro g h
    rw [Flags.isCancelled_cancel] at h
    exact (Bool.or_eq_false_iff.mp h).2
  have hremove : ∀ {s}, (c.removeEntry s).flags.isCancelled f = false →
      c.flags.isCancelled f = false := by
    intro s h
    simp only [Core.removeEntry] at h
    split at h
    · exact hcancel h
    · exact h
  cases he with
  | uploadDead _ _ _ _ => exact hcancel hf
  | remove _ => exact hremove hf
  | ended _ _ _ => exact hremove hf
  | connectedOther _ _ _ _ _ => exact hcancel hf
  | attach _ _ _ _ _ => exact hcancel hf
  | attachDead _ _ _ _ _ => exact hcancel hf
  | _ => exact hf

theorem Base.flagged_step (hb : Base c) (he : Effect S c d) :
    ∀ s f, d.Holds s f → d.flags.isCancelled f = false → ∃ x, d.entry s = some x ∧ x.cancel = f := by
  intro s f h hf
  rcases hb.holds_cases he h with h | h
  · obtain ⟨x, hx, rfl⟩ := hb.flagged s f h (he.isCancelled_mono hf)
    exact (he.entry_cases hx hf).2
  · exact h

/-! ## The invariant -/

theorem base_start : Base (Core.start S) where
  numbered _ ha := absurd ha List.not_mem_nil
  unique _ ha := absurd ha List.not_mem_nil
  owner s x h := by
    rw [Core.start_entry] at h
    cases h
  connects _ ht := absurd ht List.not_mem_nil
  sending _ ht := absurd ht List.not_mem_nil
  posted _ hp := absurd hp List.not_mem_nil
  failed _ h := Attempt.noConfusion h
  trying s f h := absurd h (Core.not_trying_of_idle rfl s f)
  flagged s f h := by
    cases h with
    | task h => cases h
    | posted h => cases h
    | trying h => exact absurd h (Core.not_trying_of_idle rfl s f)

theorem Base.step (hb : Base c) (he : Effect S c d) : Base d where
  numbered := hb.numbered_step he
  unique := hb.unique_step he
  owner := hb.owner_step he
  connects := hb.connects_step he
  sending := hb.sending_step he
  posted := hb.posted_step he
  failed := hb.failed_step he
  trying := hb.trying_step he
  flagged := hb.flagged_step he

/-- The invariant says nothing about the frames for the client. -/
theorem Base.emit (hb : Base d) (fs : List ClientFrame) : Base (d.emit fs) where
  numbered := hb.numbered
  unique := hb.unique
  owner := hb.owner
  connects := hb.connects
  sending := hb.sending
  posted := hb.posted
  failed := hb.failed
  trying := hb.trying
  flagged s f h := hb.flagged s f (by
    cases h with
    | task h => exact .task h
    | posted h => exact .posted h
    | trying h => exact .trying h)

/-- Every reachable state satisfies `Base`. -/
theorem Reach.base {ok : Conn → Act → Conn → Prop} {c : Conn} (h : (sys S).Reach ok c) :
    Base c.core :=
  Reach.core (R := fun _ _ => True) (fun _ _ _ _ => trivial) base_start
    (fun _ _ fs _ hb he _ _ => (hb.step he).emit fs) h

end ShrimpWisp
