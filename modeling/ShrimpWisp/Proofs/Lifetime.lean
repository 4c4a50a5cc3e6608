import ShrimpWisp.Lib.Progress
import ShrimpWisp.Proofs.Downstream
import ShrimpWisp.Server.Turn

/-!
# How long tasks live

Connect tasks and backend readers are never aborted and never joined: they look at a flag, and they
notice when a channel is gone.

* `tasks_bounded`: the tasks whose flag is not set belong to different entries of the table, so they
  are at most `max_streams` if there is such a limit. No task serves a stream that is gone.
* `cancelled_stops`: once its flag is set, a task takes at most two more steps, in any continuation
  of the run. It does not start to connect, it reads at most one more chunk, and only a chunk that it
  had in hand before still goes to the client. `TaskState.left` counts the steps.
* `winds_down`: once the main task has ended, every task takes at most three more steps, and nothing
  is written or queued any more.
-/

namespace ShrimpWisp

variable {S : Setup}

/-! ## The tasks whose flag is not set -/

/-- The limit of the table is the configured one. -/
theorem Reach.limit {ok : Conn → Act → Conn → Prop} {c : Conn} (h : (sys S).Reach ok c) :
    c.table.maxStreams = S.config.maxStreams := by
  refine h.invariant (I := fun c => c.table.maxStreams = S.config.maxStreams) ?_ ?_
  · rintro _ ⟨frame, rfl⟩
    rfl
  · intro c a c' _ hi hs _
    cases a with
    | main e => exact (Conn.stepMain_turn hs).leaves.limit.trans hi
    | task i x =>
      obtain ⟨_, _, _, _, _, rfl⟩ := Conn.stepTask_changes hs
      exact hi
    | clientReads =>
      simp only [sys, step] at hs
      split at hs <;> cases hs
      exact hi
    | otherResolve hostname port answer =>
      simp only [sys, step] at hs
      split at hs
      · cases hs
      · split at hs <;> cases hs
        exact hi
    | _ => cases hs; exact hi

/-- The tasks whose flag is not set. -/
def Conn.liveTasks (c : Conn) : List Task :=
  c.tasks.filter fun t => !c.flags.isCancelled t.cancel

theorem Conn.mem_liveTasks {c : Conn} {t : Task} :
    t ∈ c.liveTasks ↔ t ∈ c.tasks ∧ c.flags.isCancelled t.cancel = false := by
  simp [liveTasks]

/-- The entry that a task with an unset flag serves. -/
theorem Reach.entry_of_live {ok : Conn → Act → Conn → Prop} {c : Conn} (h : (sys S).Reach ok c)
    {t : Task} (ht : t ∈ c.liveTasks) :
    ∃ x, c.table.get? t.streamId = some x ∧ x.cancel = t.cancel := by
  obtain ⟨hmem, hf⟩ := Conn.mem_liveTasks.mp ht
  exact (Reach.base h).flagged t.streamId t.cancel (.task hmem) hf

/-- Two of them serve different ids: an entry has one flag, and a flag has one task. -/
theorem Reach.live_nodup {ok : Conn → Act → Conn → Prop} {c : Conn} (h : (sys S).Reach ok c) :
    (c.liveTasks.map Task.streamId).Nodup := by
  have hdistinct : (c.liveTasks.map Task.cancel).Nodup :=
    (Reach.flow h).distinct.sublist (List.filter_sublist.map _)
  rw [List.Nodup, List.pairwise_map] at hdistinct ⊢
  refine hdistinct.imp_of_mem ?_
  intro t u ht hu hne hid
  obtain ⟨x, hx, hxc⟩ := Reach.entry_of_live h ht
  obtain ⟨y, hy, hyc⟩ := Reach.entry_of_live h hu
  rw [hid, hy] at hx
  cases hx
  exact hne (hxc.symm.trans hyc)

/-- In every reachable state a task whose flag is not set serves the entry of its id, and there are
at most as many of them as entries, and at most `max_streams` if that is not zero. -/
theorem tasks_bounded {c : Conn} (h : (sys S).Reach Sys.Any c) :
    (∀ t ∈ c.liveTasks, ∃ x, c.table.get? t.streamId = some x ∧ x.cancel = t.cancel) ∧
    c.liveTasks.length ≤ c.table.len ∧
    (S.config.maxStreams ≠ 0 → c.liveTasks.length ≤ S.config.maxStreams) := by
  have hlen : c.liveTasks.length ≤ c.table.len := by
    rw [← List.length_map (f := Task.streamId)]
    refine StreamTable.length_le_len (Reach.live_nodup h) ?_
    intro s hs
    obtain ⟨t, ht, rfl⟩ := List.mem_map.mp hs
    obtain ⟨x, hx, -⟩ := Reach.entry_of_live h ht
    rw [hx]
    rintro ⟨⟩
  refine ⟨fun t ht => Reach.entry_of_live h ht, hlen, ?_⟩
  intro hmax
  have hlimit := Reach.limit h
  have hcount := c.table.count_le (by rw [hlimit]; exact hmax)
  rw [hlimit] at hcount
  exact Nat.le_trans hlen hcount

/-- Stream 1 is connected: its reader runs, and the connect task's flag is set. -/
theorem tasks_bounded_one :
    ∃ c, (sys { config := { maxStreams := 4 } }).Reach Sys.Any c ∧ c.tasks.length = 2 ∧
      c.liveTasks.length = 1 ∧ c.liveTasks.length ≤ 4 := by
  obtain ⟨c, hr, hp⟩ := Reach.of_run { config := { maxStreams := 4 } } Sys.Any attachOne
    (fun c => decide (c.tasks.length = 2 ∧ c.liveTasks.length = 1)) (by decide +kernel)
  obtain ⟨htasks, hlive⟩ := of_decide_eq_true hp
  exact ⟨c, hr, htasks, hlive, (tasks_bounded hr).2.2 (by decide)⟩

/-! ## A task whose flag is set -/

/-- The steps that a task can still take once its flag is set. -/
def TaskState.left : TaskState → Nat
  | .spawned _ => 1
  | .dialing _ => 2
  | .top => 1
  | .reading => 1
  | .sendingData _ => 2
  | .sendingControl _ => 1
  | .done => 0

theorem TaskState.left_le (st : TaskState) : st.left ≤ 2 := by
  cases st <;> simp [TaskState.left]

/-- A step of task `i`. -/
def Act.isTask (i : Nat) : Act → Bool
  | .task j _ => j == i
  | _ => false

/-- What a task whose flag is set goes on to. -/
structure Fades (t : Task) (st : TaskState) : Prop where
  left : st.left < t.state.left
  hand : Task.hand { t with state := st } = []
  notDialing : ∀ r, st ≠ .dialing r
  notReading : st ≠ .reading

/-- What a step of task `i` does to the tasks and the chunks. -/
theorem TaskTurn.tasks {c c' : Conn} {i : Nat} {t : Task} (h : TaskTurn c i t c') :
    (∃ st, c'.tasks = c.tasks.set i { t with state := st }) ∧
    (c'.reads = c.reads ∨
      t.state = .reading ∧ ∃ m, m.reader = t.cancel ∧ c'.reads = c.reads ++ [m]) := by
  cases h with
  | read hst _ hm => exact ⟨⟨_, rfl⟩, .inr ⟨hst, _, hm, rfl⟩⟩
  | readCancelled hst _ hm => exact ⟨⟨_, rfl⟩, .inr ⟨hst, _, hm, rfl⟩⟩
  | _ => exact ⟨⟨_, rfl⟩, .inl rfl⟩

theorem TaskTurn.fades {c c' : Conn} {i : Nat} {t : Task} (h : TaskTurn c i t c')
    (hf : c.flags.isCancelled t.cancel = true) :
    ∃ st, c'.tasks = c.tasks.set i { t with state := st } ∧ Fades t st := by
  have hset : ∀ {b}, c.flags.isCancelled t.cancel = b → b = false → False := by
    rintro b rfl hb
    rw [hf] at hb
    cases hb
  have hdone : 0 < t.state.left → Fades t .done :=
    fun hpos => ⟨hpos, rfl, fun r => by rintro ⟨⟩, by rintro ⟨⟩⟩
  cases h with
  | cancelled hst _ =>
    refine ⟨_, rfl, hdone ?_⟩
    rcases hst with ⟨r, hst⟩ | hst <;> simp [hst, TaskState.left]
  | dial _ hn => exact (hset hn rfl).elim
  | connected hst =>
    exact ⟨_, rfl, by simp [hst, TaskState.left], rfl, fun r => by rintro ⟨⟩, by rintro ⟨⟩⟩
  | startRead _ hn => exact (hset hn rfl).elim
  | read _ hn _ => exact (hset hn rfl).elim
  | readCancelled hst _ _ => exact ⟨_, rfl, hdone (by simp [hst, TaskState.left])⟩
  | readEnd _ hn => exact (hset hn rfl).elim
  | readEndCancelled hst _ => exact ⟨_, rfl, hdone (by simp [hst, TaskState.left])⟩
  | gone hst _ =>
    refine ⟨_, rfl, hdone ?_⟩
    rcases hst with ⟨m, hst⟩ | ⟨p, hst⟩ <;> simp [hst, TaskState.left]
  | sendData hst _ _ =>
    exact ⟨_, rfl, by simp [hst, TaskState.left], rfl, fun r => by rintro ⟨⟩, by rintro ⟨⟩⟩
  | sendControl hst _ _ => exact ⟨_, rfl, hdone (by simp [hst, TaskState.left])⟩

/-- A step that is not one of task `i` leaves the task alone, and reads nothing for it. -/
theorem step_other {c c' : Conn} {a : Act} {i : Nat} (ha : a.isTask i = false)
    (hs : step S c a = some c') {t : Task} (ht : c.tasks[i]? = some t) :
    c'.tasks[i]? = some t ∧
    (c'.reads = c.reads ∨ ∃ j u m, i ≠ j ∧ c.tasks[j]? = some u ∧ m.reader = u.cancel ∧
      c'.reads = c.reads ++ [m]) := by
  cases a with
  | main e =>
    have hl := (Conn.stepMain_turn hs).leaves
    obtain ⟨new, hnew⟩ := hl.tasks
    have hnew : c'.tasks = c.tasks ++ new := hnew
    refine ⟨?_, .inl hl.reads⟩
    rw [hnew, List.getElem?_append_left (List.getElem?_eq_some_iff.mp ht).1]
    exact ht
  | task j x =>
    have hij : j ≠ i := by simpa [Act.isTask] using ha
    obtain ⟨u, hu, hturn⟩ := stepTask_turn hs
    obtain ⟨⟨st, htasks⟩, hreads⟩ := hturn.tasks
    refine ⟨by rw [htasks, List.getElem?_set_ne hij]; exact ht, ?_⟩
    rcases hreads with hr | ⟨-, m, hm, hr⟩
    · exact .inl hr
    · exact .inr ⟨j, u, m, hij.symm, hu, hm, hr⟩
  | clientReads =>
    simp only [step] at hs
    split at hs <;> cases hs
    exact ⟨ht, .inl rfl⟩
  | otherResolve hostname port answer =>
    simp only [step] at hs
    split at hs
    · cases hs
    · split at hs <;> cases hs
      exact ⟨ht, .inl rfl⟩
  | _ => cases hs; exact ⟨ht, .inl rfl⟩

/-- No step clears a flag. -/
theorem step_isCancelled {c c' : Conn} {a : Act} (hs : step S c a = some c') {f : CancelFlag}
    (hf : c.flags.isCancelled f = true) : c'.flags.isCancelled f = true := by
  obtain ⟨d, fs, he, -, hc⟩ := step_core hs
  have hflags : c'.flags = d.flags := congrArg Core.flags hc
  by_contra hn
  have := he.isCancelled_mono (f := f) (by rw [← hflags]; exact Bool.eq_false_iff.mpr hn)
  rw [show c.core.flags = c.flags from rfl, hf] at this
  cases this

/-- A step sends to the client only what was queued, or what its reader had in hand. -/
theorem step_pipe {c c' : Conn} {a : Act} (h : (sys S).Reach Sys.Any c) (hs : step S c a = some c')
    {m : DataMsg} (hm : m ∈ c'.core.pipe) :
    m ∈ c.core.pipe ∨ ∃ t ∈ c.tasks, t.state = .sendingData m ∧ m.reader = t.cancel := by
  obtain ⟨d, fs, he, hp, hc⟩ := step_core hs
  rw [hc, pipe_emit (dataOf_plain hp)] at hm
  rcases he.pipe_cases with hd | ⟨t, ht, m', hst, hd⟩ | ⟨-, hd⟩
  · rw [hd] at hm
    exact .inl hm
  · rw [hd] at hm
    rcases List.mem_append.mp hm with hm | hm
    · exact .inl hm
    · rw [List.mem_singleton] at hm
      subst hm
      exact .inr ⟨t, ht, hst, ((Reach.flow h).held t ht m hst).1⟩
  · exact .inl (hd hm)

/-- Task `i`, which was `t` when its flag was set. -/
structure Fading (S : Setup) (c₀ : Conn) (i : Nat) (t : Task) (c : Conn) : Prop where
  reach : (sys S).Reach Sys.Any c
  cancelled : c.flags.isCancelled t.cancel = true
  task : ∃ u, c.tasks[i]? = some u ∧ u.cancel = t.cancel ∧ u.hand ⊆ t.hand ∧
    ∀ r, u.state = .dialing r → t.state = .dialing r
  sent : ∀ m ∈ c.core.pipe, m.reader = t.cancel → m ∈ c₀.core.pipe ∨ t.state = .sendingData m

/-- The task at an index is the one with its flag. -/
theorem Reach.task_inj {ok : Conn → Act → Conn → Prop} {c : Conn} (h : (sys S).Reach ok c)
    {i j : Nat} {t u : Task} (ht : c.tasks[i]? = some t) (hu : c.tasks[j]? = some u)
    (hf : t.cancel = u.cancel) : i = j := by
  have hlt : i < (c.tasks.map Task.cancel).length := by
    rw [List.length_map]
    exact (List.getElem?_eq_some_iff.mp ht).1
  refine (List.getElem?_inj hlt (Reach.flow h).distinct).mp ?_
  simp only [List.getElem?_map, ht, hu, Option.map_some, hf]

theorem hand_sendingData {t : Task} {m : DataMsg} : m ∈ t.hand ↔ t.state = .sendingData m := by
  unfold Task.hand
  split
  · next hst => rw [hst]; simp [eq_comm]
  · next hst =>
    constructor
    · intro h
      cases h
    · intro h
      exact (hst m h).elim

/-- A step of the task itself. -/
theorem Fading.own {c₀ c c' : Conn} {i : Nat} {t u : Task} {a : Act} (h : Fading S c₀ i t c)
    (hs : step S c a = some c') (ha : a.isTask i = true) (hu : c.tasks[i]? = some u)
    (huc : u.cancel = t.cancel) :
    ∃ st, c'.tasks[i]? = some { u with state := st } ∧ Fades u st ∧
      (c'.reads = c.reads ∨
        u.state = .reading ∧ ∃ m, m.reader = u.cancel ∧ c'.reads = c.reads ++ [m]) := by
  cases a with
  | task j x =>
    have hij : j = i := by simpa [Act.isTask] using ha
    subst hij
    obtain ⟨v, hv, hturn⟩ := stepTask_turn hs
    rw [hu] at hv
    cases hv
    obtain ⟨st, htasks, hfades⟩ := hturn.fades (by rw [huc]; exact h.cancelled)
    refine ⟨st, ?_, hfades, hturn.tasks.2⟩
    rw [htasks, List.getElem?_set_self (List.getElem?_eq_some_iff.mp hu).1]
  | _ => cases ha

theorem Fading.keeps {c₀ c c' : Conn} {i : Nat} {t : Task} {a : Act} (h : Fading S c₀ i t c)
    (hs : step S c a = some c') : Fading S c₀ i t c' := by
  obtain ⟨u, hu, huc, hhand, hdial⟩ := h.task
  refine ⟨.step a h.reach hs trivial, step_isCancelled hs h.cancelled, ?_, ?_⟩
  · cases ha : a.isTask i with
    | false => exact ⟨u, (step_other ha hs hu).1, huc, hhand, hdial⟩
    | true =>
      obtain ⟨st, hu', hfades, -⟩ := h.own hs ha hu huc
      refine ⟨_, hu', huc, ?_, ?_⟩
      · rw [hfades.hand]
        exact List.nil_subset _
      · intro r hr
        exact absurd hr (hfades.notDialing r)
  · intro m hm hr
    rcases step_pipe h.reach hs hm with hm | ⟨v, hv, hst, hvr⟩
    · exact h.sent m hm hr
    · obtain ⟨j, hj⟩ := List.getElem?_of_mem hv
      have hij := Reach.task_inj h.reach hu hj (by rw [huc, ← hr, hvr])
      subst hij
      rw [hu] at hj
      cases hj
      exact .inr (hand_sendingData.mp (hhand (hand_sendingData.mpr hst)))

/-- A weight of the state of task `i`. -/
def Conn.taskWeight (weight : TaskState → Nat) (c : Conn) (i : Nat) : Nat :=
  (c.tasks[i]?.map fun t => weight t.state).getD 0

theorem Conn.taskWeight_of {weight : TaskState → Nat} {c : Conn} {i : Nat} {t : Task}
    (h : c.tasks[i]? = some t) : c.taskWeight weight i = weight t.state := by
  simp only [taskWeight, h, Option.map_some, Option.getD_some]

/-- The chunks of a reader, and the one that it can still read. -/
def Conn.chunks (c : Conn) (i : Nat) (f : CancelFlag) : Nat :=
  (ofReader f c.reads).length + c.taskWeight (fun st => if st = .reading then 1 else 0) i

theorem Fading.left_le {c₀ c c' : Conn} {i : Nat} {t : Task} {a : Act} (h : Fading S c₀ i t c)
    (hs : step S c a = some c') :
    c'.taskWeight TaskState.left i + (if a.isTask i then 1 else 0) ≤
      c.taskWeight TaskState.left i := by
  obtain ⟨u, hu, huc, -⟩ := h.task
  rw [Conn.taskWeight_of hu]
  cases ha : a.isTask i with
  | false =>
    rw [Conn.taskWeight_of (step_other ha hs hu).1]
    exact le_rfl
  | true =>
    obtain ⟨st, hu', hfades, -⟩ := h.own hs ha hu huc
    rw [Conn.taskWeight_of hu']
    exact hfades.left

theorem Fading.chunks_le {c₀ c c' : Conn} {i : Nat} {t : Task} {a : Act} (h : Fading S c₀ i t c)
    (hs : step S c a = some c') : c'.chunks i t.cancel ≤ c.chunks i t.cancel := by
  obtain ⟨u, hu, huc, -⟩ := h.task
  cases ha : a.isTask i with
  | false =>
    obtain ⟨hu', hreads⟩ := step_other ha hs hu
    have hread : ofReader t.cancel c'.reads = ofReader t.cancel c.reads := by
      rcases hreads with hr | ⟨j, v, m, hij, hv, hm, hr⟩
      · rw [hr]
      · have hne : m.reader ≠ t.cancel := by
          intro he
          exact hij (Reach.task_inj h.reach hu hv (by rw [huc, ← he, hm]))
        rw [hr, ofReader_append, ofReader_other hne, List.append_nil]
    rw [Conn.chunks, Conn.chunks, hread, Conn.taskWeight_of hu', Conn.taskWeight_of hu]
  | true =>
    obtain ⟨st, hu', hfades, hreads⟩ := h.own hs ha hu huc
    simp only [Conn.chunks, Conn.taskWeight_of hu', Conn.taskWeight_of hu, if_neg hfades.notReading]
    rcases hreads with hr | ⟨hst, m, hm, hr⟩
    · rw [hr]
      omega
    · have hself : ofReader t.cancel [m] = [m] := by rw [← huc, ← hm, ofReader_self]
      rw [hr, ofReader_append, hself, List.length_append, if_pos hst]
      exact le_rfl

/-- From a reachable state in which the flag of task `i` is set, in any continuation of the run: the
task takes at most two more steps; it does not begin to connect; it reads at most one more chunk; and
of its chunks only what was written or queued then, or what it had in hand, is ever written. -/
theorem cancelled_stops {c c' : Conn} (h : (sys S).Reach Sys.Any c) {i : Nat} {t : Task}
    (ht : c.tasks[i]? = some t) (hf : c.flags.isCancelled t.cancel = true) {as : List Act}
    (hr : (sys S).run Sys.Any c as = some c') :
    as.countP (Act.isTask i) ≤ 2 ∧
    (∀ u r, c'.tasks[i]? = some u → u.state = .dialing r → t.state = .dialing r) ∧
    (ofReader t.cancel c'.reads).length ≤ (ofReader t.cancel c.reads).length + 1 ∧
    ∀ m ∈ dataOf c'.out ++ c'.data.items, m.reader = t.cancel →
      m ∈ dataOf c.out ++ c.data.items ∨ t.state = .sendingData m := by
  have hstart : Fading S c i t c :=
    ⟨h, hf, ⟨t, ht, rfl, List.Subset.refl _, fun _ hr => hr⟩, fun m hm _ => .inl hm⟩
  have hkeep : ∀ c₁ a c₂, Fading S c i t c₁ → (sys S).step c₁ a = some c₂ → Fading S c i t c₂ :=
    fun _ _ _ hfade hs => hfade.keeps hs
  have hend := Sys.run_invariant hkeep hstart hr
  have hsteps := Sys.run_bound (fun c => c.taskWeight TaskState.left i) hkeep
    (fun _ _ _ hfade hs => hfade.left_le hs) hstart hr
  have hchunks := Sys.run_bound (p := fun _ => false) (fun c => c.chunks i t.cancel) hkeep
    (fun _ _ _ hfade hs => hfade.chunks_le hs) hstart hr
  refine ⟨?_, ?_, ?_, hend.sent⟩
  · have hle := t.state.left_le
    rw [Conn.taskWeight_of ht] at hsteps
    omega
  · intro u r hu hst
    obtain ⟨v, hv, -, -, hdial⟩ := hend.task
    rw [hu] at hv
    cases hv
    exact hdial r hst
  · have hone : (if t.state = .reading then 1 else 0) ≤ 1 := by split <;> omega
    simp only [Conn.chunks, Conn.taskWeight_of ht] at hchunks
    omega

/-- The client closes stream 1 while its reader has a chunk in hand. The reader sends the chunk, and
stops. -/
theorem cancelled_stops_close :
    ∃ c c' t, (sys { config := {} }).Reach Sys.Any c ∧ c.tasks[1]? = some t ∧
      c.flags.isCancelled t.cancel = true ∧ t.state = .sendingData replyMsg ∧
      (sys { config := {} }).run Sys.Any c [.task 1 .go, .task 1 .go] = some c' ∧
      (ofReader t.cancel c'.reads).length ≤ (ofReader t.cancel c.reads).length + 1 := by
  obtain ⟨c, hr, hp⟩ := Reach.of_run { config := {} } Sys.Any
    (attachOne ++ [.task 1 .go, .task 1 (.chunk [9] none), closeOne, .main {}])
    (fun c => (c.tasks[1]?.any fun t : Task => c.flags.isCancelled t.cancel &&
        decide (t.state = .sendingData replyMsg)) &&
      ((sys { config := {} }).run Sys.Any c [.task 1 .go, .task 1 .go]).isSome) (by decide +kernel)
  obtain ⟨htask, hrun⟩ := Bool.and_eq_true_iff.mp hp
  obtain ⟨t, ht, hp⟩ := (Option.any_eq_true _ _).mp htask
  obtain ⟨hf, hst⟩ := Bool.and_eq_true_iff.mp hp
  obtain ⟨c', hrun⟩ := Option.isSome_iff_exists.mp hrun
  exact ⟨c, c', t, hr, ht, hf, of_decide_eq_true hst, hrun, (cancelled_stops hr ht hf hrun).2.2.1⟩

/-! ## After the end of the main task -/

/-- The steps that a task can still take once the main task has ended. -/
def TaskState.leftAfter : TaskState → Nat
  | .spawned _ => 3
  | .dialing _ => 2
  | .top => 3
  | .reading => 2
  | .sendingData _ => 1
  | .sendingControl _ => 1
  | .done => 0

theorem TaskState.leftAfter_le (st : TaskState) : st.leftAfter ≤ 3 := by
  cases st <;> simp [TaskState.leftAfter]

/-- The main task has ended, and what it had is as it was in `c₀`. -/
structure EndedAs (c₀ c : Conn) : Prop where
  pc : c.pc = .ended
  count : c.tasks.length = c₀.tasks.length
  out : c.out = c₀.out
  table : c.table = c₀.table
  control : c.control = c₀.control
  data : c.data = c₀.data

theorem TaskTurn.ended {c c' : Conn} {i : Nat} {t : Task} (h : TaskTurn c i t c')
    (hend : c.pc = .ended) :
    EndedAs c c' ∧ ∃ st, c'.tasks = c.tasks.set i { t with state := st } ∧
      st.leftAfter < t.state.leftAfter := by
  have hlen : ∀ t', (c.tasks.set i t').length = c.tasks.length := fun _ => List.length_set
  cases h with
  | cancelled hst _ =>
    refine ⟨⟨hend, hlen _, rfl, rfl, rfl, rfl⟩, _, rfl, ?_⟩
    rcases hst with ⟨r, hst⟩ | hst <;> simp [hst, TaskState.leftAfter]
  | gone hst _ =>
    refine ⟨⟨hend, hlen _, rfl, rfl, rfl, rfl⟩, _, rfl, ?_⟩
    rcases hst with ⟨m, hst⟩ | ⟨p, hst⟩ <;> simp [hst, TaskState.leftAfter]
  | sendData _ hpc _ => exact absurd hend hpc
  | sendControl _ hpc _ => exact absurd hend hpc
  | dial hst _ =>
    exact ⟨⟨hend, hlen _, rfl, rfl, rfl, rfl⟩, _, rfl, by simp [hst, TaskState.leftAfter]⟩
  | connected hst =>
    exact ⟨⟨hend, hlen _, rfl, rfl, rfl, rfl⟩, _, rfl, by simp [hst, TaskState.leftAfter]⟩
  | startRead hst _ =>
    exact ⟨⟨hend, hlen _, rfl, rfl, rfl, rfl⟩, _, rfl, by simp [hst, TaskState.leftAfter]⟩
  | read hst _ _ =>
    exact ⟨⟨hend, hlen _, rfl, rfl, rfl, rfl⟩, _, rfl, by simp [hst, TaskState.leftAfter]⟩
  | readCancelled hst _ _ =>
    exact ⟨⟨hend, hlen _, rfl, rfl, rfl, rfl⟩, _, rfl, by simp [hst, TaskState.leftAfter]⟩
  | readEnd hst _ =>
    exact ⟨⟨hend, hlen _, rfl, rfl, rfl, rfl⟩, _, rfl, by simp [hst, TaskState.leftAfter]⟩
  | readEndCancelled hst _ =>
    exact ⟨⟨hend, hlen _, rfl, rfl, rfl, rfl⟩, _, rfl, by simp [hst, TaskState.leftAfter]⟩

theorem EndedAs.trans {c₀ c₁ c₂ : Conn} (h : EndedAs c₀ c₁) (h' : EndedAs c₁ c₂) :
    EndedAs c₀ c₂ :=
  ⟨h'.pc, h'.count.trans h.count, h'.out.trans h.out, h'.table.trans h.table,
    h'.control.trans h.control, h'.data.trans h.data⟩

theorem EndedAs.of_step {c c' : Conn} {a : Act} (hend : c.pc = .ended)
    (hs : step S c a = some c') : EndedAs c c' := by
  cases a with
  | main e =>
    rw [step, Conn.stepMain, hend] at hs
    cases hs
  | task i x =>
    obtain ⟨t, -, hturn⟩ := stepTask_turn hs
    exact (hturn.ended hend).1
  | clientReads =>
    simp only [step] at hs
    split at hs <;> cases hs
    exact ⟨hend, rfl, rfl, rfl, rfl, rfl⟩
  | otherResolve hostname port answer =>
    simp only [step] at hs
    split at hs
    · cases hs
    · split at hs <;> cases hs
      exact ⟨hend, rfl, rfl, rfl, rfl, rfl⟩
  | _ => cases hs; exact ⟨hend, rfl, rfl, rfl, rfl, rfl⟩

theorem leftAfter_le_step {c c' : Conn} {a : Act} (hend : c.pc = .ended)
    (hs : step S c a = some c') (i : Nat) :
    c'.taskWeight TaskState.leftAfter i + (if a.isTask i then 1 else 0) ≤
      c.taskWeight TaskState.leftAfter i := by
  cases ha : a.isTask i with
  | false =>
    cases hu : c.tasks[i]? with
    | some u =>
      rw [Conn.taskWeight_of hu, Conn.taskWeight_of (step_other ha hs hu).1]
      exact le_rfl
    | none =>
      have hlen := (EndedAs.of_step hend hs).count
      have hnone : c'.tasks[i]? = none := by
        rw [List.getElem?_eq_none_iff] at hu ⊢
        omega
      simp only [Conn.taskWeight, hu, hnone]
      exact le_rfl
  | true =>
    cases a with
    | task j x =>
      have hij : j = i := by simpa [Act.isTask] using ha
      subst hij
      obtain ⟨u, hu, hturn⟩ := stepTask_turn hs
      obtain ⟨-, st, htasks, hlt⟩ := hturn.ended hend
      have hu' : c'.tasks[j]? = some { u with state := st } := by
        rw [htasks, List.getElem?_set_self (List.getElem?_eq_some_iff.mp hu).1]
      rw [Conn.taskWeight_of hu, Conn.taskWeight_of hu']
      exact hlt
    | _ => cases ha

/-- From a state in which the main task has ended, in any continuation: every task takes at most
three more steps, no task is spawned, and nothing is written to the client, put into a channel or
done to the table. -/
theorem winds_down {c c' : Conn} (hend : c.pc = .ended) {as : List Act}
    (hr : (sys S).run Sys.Any c as = some c') :
    (∀ i, as.countP (Act.isTask i) ≤ 3) ∧ EndedAs c c' := by
  have hstart : EndedAs c c := ⟨hend, rfl, rfl, rfl, rfl, rfl⟩
  have hkeep : ∀ c₁ a c₂, EndedAs c c₁ → (sys S).step c₁ a = some c₂ → EndedAs c c₂ :=
    fun _ _ _ h hs => h.trans (.of_step h.pc hs)
  refine ⟨fun i => ?_, Sys.run_invariant hkeep hstart hr⟩
  have hsteps := Sys.run_bound (fun c => c.taskWeight TaskState.leftAfter i) hkeep
    (fun _ _ _ h hs => leftAfter_le_step h.pc hs i) hstart hr
  have hle : c.taskWeight TaskState.leftAfter i ≤ 3 := by
    cases hu : c.tasks[i]? with
    | some u =>
      rw [Conn.taskWeight_of hu]
      exact u.state.leftAfter_le
    | none =>
      simp only [Conn.taskWeight, hu]
      exact Nat.zero_le 3
  omega

/-- The client's WebSocket Close ends the connection while the reader of stream 1 reads. The reader
reads a chunk, fails to send it, and stops. -/
theorem winds_down_close :
    ∃ c c', (sys { config := {} }).Reach Sys.Any c ∧ c.pc = .ended ∧
      (sys { config := {} }).run Sys.Any c [.task 1 (.chunk [9] none), .task 1 .go] = some c' ∧
      EndedAs c c' := by
  obtain ⟨c, hr, hp⟩ := Reach.of_run { config := {} } Sys.Any
    (attachOne ++ [.task 1 .go, .client (.frame { opcode := .close, payload := [] }), .main {}])
    (fun c => decide (c.pc = .ended) && ((sys { config := {} }).run Sys.Any c
      [.task 1 (.chunk [9] none), .task 1 .go]).isSome) (by decide +kernel)
  obtain ⟨hend, hrun⟩ := Bool.and_eq_true_iff.mp hp
  have hend : c.pc = .ended := of_decide_eq_true hend
  obtain ⟨c', hrun⟩ := Option.isSome_iff_exists.mp hrun
  exact ⟨c, c', hr, hend, hrun, (winds_down hend hrun).2⟩

end ShrimpWisp
