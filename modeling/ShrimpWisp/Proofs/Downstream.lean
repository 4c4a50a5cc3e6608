import ShrimpWisp.Proofs.Incarnation

/-!
# Backend DATA before the CLOSE of its stream

A backend reader sends its chunks on the data channel and the end of its stream on the control
channel. `select!` takes DATA before events, but the phases before it take events (Phase 1) before
DATA (Phase 2).

* **The way of a chunk**: read by its reader, sent to the data channel, written to the client. What
  was written and what is queued (`Core.pipe`) is in the order of the reads (`Flow`).
* `data_before_close`: if no end event is handled while DATA of its reader is queued (`DataFirst`),
  every chunk of a reader is written before the CLOSE that its end causes, in order and once.
* `data_after_close`: without the condition Phase 1 writes the CLOSE first.
-/

namespace ShrimpWisp

variable {S : Setup} {c d : Core}

/-! ## The way of a chunk -/

/-- The messages of one reader. -/
def ofReader (f : CancelFlag) (l : List DataMsg) : List DataMsg := l.filter fun m => m.reader == f

/-- The DATA among the frames for the client. -/
def dataOf (l : List ClientFrame) : List DataMsg :=
  l.filterMap fun
    | .data m => some m
    | _ => none

/-- The messages that were written to the client or are queued, the oldest first. -/
def Core.pipe (c : Core) : List DataMsg := dataOf c.out ++ c.data

/-- The message that a reader waits to send. -/
def Task.hand (t : Task) : List DataMsg :=
  match t.state with
  | .sendingData m => [m]
  | _ => []

theorem ofReader_append (f : CancelFlag) (l l' : List DataMsg) :
    ofReader f (l ++ l') = ofReader f l ++ ofReader f l' := List.filter_append ..

theorem ofReader_self (m : DataMsg) : ofReader m.reader [m] = [m] := by simp [ofReader]

theorem ofReader_other {f : CancelFlag} {m : DataMsg} (h : m.reader ≠ f) : ofReader f [m] = [] := by
  simp [ofReader, h]

theorem ofReader_eq_nil {f : CancelFlag} {l : List DataMsg} :
    ofReader f l = [] ↔ ∀ m ∈ l, m.reader ≠ f := by
  simp [ofReader]

theorem dataOf_append (l l' : List ClientFrame) : dataOf (l ++ l') = dataOf l ++ dataOf l' :=
  List.filterMap_append ..

theorem dataOf_data (l : List DataMsg) : dataOf (l.map .data) = l := by
  induction l with
  | nil => rfl
  | cons m l ih => exact congrArg (m :: ·) ih

theorem dataOf_plain {fs : List ClientFrame} (h : Plain fs) : dataOf fs = [] := by
  unfold dataOf
  rw [List.filterMap_eq_nil_iff]
  intro x hx
  have := h x hx
  cases x with
  | data m => cases this
  | _ => rfl

/-- Frames without DATA. -/
theorem pipe_emit {fs : List ClientFrame} (h : dataOf fs = []) : (c.emit fs).pipe = c.pipe := by
  unfold Core.pipe Core.emit
  dsimp only
  split
  · rw [dataOf_append, h, List.append_nil]
  · rfl

/-- A batch takes the DATA from the queue to the client. -/
theorem pipe_batch (hup : c.up = true) :
    ({ c with data := [] }.emit (c.data.map .data)).pipe = c.pipe := by
  simp only [Core.pipe, Core.emit, hup, if_true, dataOf_append, dataOf_data, List.append_nil]

theorem pipe_ended (c : Core) (rest : List Posted) (s : StreamId) (reason : CloseReason)
    (cause : Option CancelFlag) :
    (({ c with control := rest }.removeEntry s).emit [.close s reason cause]).pipe = c.pipe :=
  pipe_emit (c := { c with control := rest }.removeEntry s) rfl

/-! ## What an effect does to the reads and the pipe -/

theorem Effect.next_le (he : Effect S c d) : c.flags.next ≤ d.flags.next := by
  have hremove : ∀ {s}, c.flags.next ≤ (c.removeEntry s).flags.next := by
    intro s
    simp only [Core.removeEntry]
    split <;> exact le_rfl
  cases he with
  | remove _ => exact hremove
  | ended _ _ _ => exact hremove
  | acceptTcp _ _ _ => exact Nat.le_succ _
  | newFlag => exact Nat.le_succ _
  | refuseUdpFlag _ _ => exact Nat.le_succ _
  | acceptUdp _ _ _ _ => exact Nat.le_succ _
  | attach _ _ _ _ _ => exact Nat.le_succ _
  | attachDead _ _ _ _ _ => exact Nat.le_succ _
  | _ => exact le_rfl

theorem Effect.reads_cases (he : Effect S c d) :
    d.reads = c.reads ∨ ∃ t ∈ c.tasks, ∃ m, t.state = .reading ∧ m.reader = t.cancel ∧
      d.reads = c.reads ++ [m] := by
  cases he with
  | read ht hst _ hm _ _ => exact .inr ⟨_, List.mem_of_getElem? ht, _, hst, hm, rfl⟩
  | readCancelled ht hst hm _ _ => exact .inr ⟨_, List.mem_of_getElem? ht, _, hst, hm, rfl⟩
  | _ => exact .inl rfl

theorem Effect.pipe_cases (he : Effect S c d) :
    d.pipe = c.pipe ∨
    (∃ t ∈ c.tasks, ∃ m, t.state = .sendingData m ∧ d.pipe = c.pipe ++ [m]) ∨
    d.up = false ∧ d.pipe ⊆ c.pipe := by
  cases he with
  | ended _ _ _ => exact .inl (pipe_ended ..)
  | batch _ =>
    by_cases hup : c.up = true
    · exact .inl (pipe_batch hup)
    · refine .inr (.inr ⟨Bool.eq_false_iff.mpr hup, ?_⟩)
      simp only [Core.pipe, Core.emit, hup, List.append_nil]
      exact List.subset_append_left _ _
  | sendData ht hst =>
    refine .inr (.inl ⟨_, List.mem_of_getElem? ht, _, hst, ?_⟩)
    simp only [Core.pipe, Core.setTask, List.append_assoc]
  | _ => exact .inl rfl

/-! ## The invariant -/

/-- A reader that reads no more: its chunks are written or queued. -/
structure Settled (c : Core) (f : CancelFlag) : Prop where
  known : f.id < c.flags.next
  done : ∀ t ∈ c.tasks, t.cancel = f → t.state = .done
  idle : ∀ s, ¬ c.Trying s f
  flows : c.up = true → ofReader f c.reads = ofReader f c.pipe

/-- The invariant: each flag is held by one task at most, and the chunks of a reader are in order. -/
structure Flow (c : Core) : Prop where
  known : ∀ t ∈ c.tasks, t.cancel.id < c.flags.next
  distinct : (c.tasks.map Task.cancel).Nodup
  trying : ∀ s f, c.Trying s f → f.id < c.flags.next ∧ (∀ t ∈ c.tasks, t.cancel ≠ f) ∧
    ofReader f c.reads = []
  read : ∀ m ∈ c.reads, m.reader.id < c.flags.next
  sent : c.pipe ⊆ c.reads
  held : ∀ t ∈ c.tasks, ∀ m, t.state = .sendingData m → m.reader = t.cancel ∧ m ∈ c.reads
  flows : c.up = true → ∀ t ∈ c.tasks, t.state ≠ .done →
    ofReader t.cancel c.reads = ofReader t.cancel c.pipe ++ t.hand
  posted : ∀ p ∈ c.control, Settled c p.origin

theorem Effect.up_of_up (he : Effect S c d) (h : d.up = true) : c.up = true := by
  cases he with
  | down => cases h
  | _ => exact h

theorem Effect.reads_subset (he : Effect S c d) : c.reads ⊆ d.reads := by
  rcases he.reads_cases with hd | ⟨_, -, _, -, -, hd⟩ <;> rw [hd]
  · exact List.Subset.refl _
  · exact List.subset_append_left _ _

/-- What a task in the list after a move of task `i` is. -/
theorem Flow.mem_set (h : Flow c) {i : Nat} {t u v : Task} (ht : c.tasks[i]? = some t)
    (hu : u ∈ c.tasks.set i v) : u = v ∨ u ∈ c.tasks ∧ u.cancel ≠ t.cancel := by
  obtain ⟨j, hj⟩ := List.getElem?_of_mem hu
  by_cases hij : i = j
  · subst hij
    rw [List.getElem?_set] at hj
    simp only [if_true] at hj
    split at hj
    · exact .inl (Option.some.inj hj).symm
    · cases hj
  · rw [List.getElem?_set_ne hij] at hj
    refine .inr ⟨List.mem_of_getElem? hj, ?_⟩
    intro heq
    have hlt : i < (c.tasks.map Task.cancel).length := by
      rw [List.length_map]
      exact (List.getElem?_eq_some_iff.mp ht).1
    refine hij ((List.getElem?_inj hlt h.distinct).mp ?_)
    rw [List.getElem?_map, List.getElem?_map, ht, hj, Option.map_some, Option.map_some, heq]

/-- A new task's flag belongs to no other task, and nothing was read for it. -/
theorem Flow.spawned (h : Flow c) (he : Effect S c d) {t : Task} (ht : Spawns S c d t) :
    t.cancel.id < d.flags.next ∧ (∀ u ∈ c.tasks, u.cancel ≠ t.cancel) ∧
      ofReader t.cancel c.reads = [] := by
  cases ht with
  | connect ha _ _ _ =>
    obtain ⟨hk, hf, hr⟩ := h.trying _ _ (.inl ⟨_, _, ha⟩)
    exact ⟨Nat.lt_of_lt_of_le hk he.next_le, hf, hr⟩
  | reader hid _ _ hnext _ =>
    refine ⟨by rw [hid]; exact hnext, ?_, ?_⟩
    · intro u hu heq
      have := h.known u hu
      rw [heq, hid] at this
      exact Nat.lt_irrefl _ this
    · rw [ofReader_eq_nil]
      intro m hm heq
      have := h.read m hm
      rw [heq, hid] at this
      exact Nat.lt_irrefl _ this

theorem Flow.known_step (h : Flow c) (he : Effect S c d) :
    ∀ t ∈ d.tasks, t.cancel.id < d.flags.next :=
  he.forall_tasks (fun t ht => Nat.lt_of_lt_of_le (h.known t ht) he.next_le)
    (fun _ ht => (h.spawned he ht).1)
    fun t ht _ _ => Nat.lt_of_lt_of_le (h.known t ht) he.next_le

/-- A move keeps the flags. -/
theorem map_cancel_set {l : List Task} {i : Nat} {t : Task} (ht : l[i]? = some t)
    (st : TaskState) : (l.set i { t with state := st }).map Task.cancel = l.map Task.cancel := by
  refine List.ext_getElem? fun j => ?_
  rw [List.getElem?_map, List.getElem?_map, List.getElem?_set]
  split
  · rename_i hij
    subst hij
    rw [if_pos (List.getElem?_eq_some_iff.mp ht).1, ht]
    rfl
  · rfl

theorem Flow.distinct_step (h : Flow c) (he : Effect S c d) :
    (d.tasks.map Task.cancel).Nodup := by
  rcases he.tasks_cases with hd | ⟨u, hu, hd⟩ | ⟨i, t, st, ht, -, hd⟩ <;> rw [hd]
  · exact h.distinct
  · rw [List.map_append, List.map_singleton, List.nodup_append]
    refine ⟨h.distinct, List.nodup_singleton _, ?_⟩
    intro f hf g hg
    obtain ⟨t, ht, rfl⟩ := List.mem_map.mp hf
    rw [List.mem_singleton] at hg
    rw [hg]
    exact (h.spawned he hu).2.1 t ht
  · rw [map_cancel_set ht]
    exact h.distinct

/-- The flag of the main task's CONNECT after an effect: the one of before, or a new one. -/
theorem Effect.trying_flag (he : Effect S c d) {s : StreamId} {f : CancelFlag} (h : d.Trying s f) :
    c.Trying s f ∨ f.id = c.flags.next ∧ c.flags.next < d.flags.next := by
  rcases he.trying_cases h with ⟨h, -⟩ | ⟨rfl, hd, -⟩
  · exact .inl h
  · exact .inr ⟨rfl, by rw [hd]; exact Nat.lt_succ_self _⟩

theorem Flow.trying_step (h : Flow c) (he : Effect S c d) :
    ∀ s f, d.Trying s f → f.id < d.flags.next ∧ (∀ t ∈ d.tasks, t.cancel ≠ f) ∧
      ofReader f d.reads = [] := by
  intro s f hf
  -- The flags of the tasks are those of before: no task is spawned.
  have htasks : ∀ t ∈ d.tasks, ∃ u ∈ c.tasks, u.cancel = t.cancel := by
    intro t ht
    rcases he.tasks_cases with hd | ⟨u, hu, hd⟩ | ⟨i, u, st, hu, -, hd⟩
    · exact ⟨t, hd ▸ ht, rfl⟩
    · have hidle : d.attempt = .idle := by cases hu <;> assumption
      exact absurd hf (Core.not_trying_of_idle hidle s f)
    · rw [hd] at ht
      rcases mem_set_task ht with rfl | ht
      · exact ⟨u, List.mem_of_getElem? hu, rfl⟩
      · exact ⟨t, ht, rfl⟩
  have hreads : (∀ t ∈ c.tasks, t.cancel ≠ f) → ofReader f c.reads = [] →
      ofReader f d.reads = [] := by
    intro hn hr
    rcases he.reads_cases with hd | ⟨t, ht, m, -, hm, hd⟩ <;> rw [hd]
    · exact hr
    · rw [ofReader_append, hr, ofReader_other (by rw [hm]; exact hn t ht)]
      rfl
  rcases he.trying_flag hf with hc | ⟨hid, hlt⟩
  · obtain ⟨hk, hn, hr⟩ := h.trying s f hc
    refine ⟨Nat.lt_of_lt_of_le hk he.next_le, ?_, hreads hn hr⟩
    intro t ht
    obtain ⟨u, hu, heq⟩ := htasks t ht
    rw [← heq]
    exact hn u hu
  · have hn : ∀ t ∈ c.tasks, t.cancel ≠ f := by
      intro t ht heq
      have := h.known t ht
      rw [heq, hid] at this
      exact Nat.lt_irrefl _ this
    refine ⟨by rw [hid]; exact hlt, ?_, hreads hn ?_⟩
    · intro t ht
      obtain ⟨u, hu, heq⟩ := htasks t ht
      rw [← heq]
      exact hn u hu
    · rw [ofReader_eq_nil]
      intro m hm heq
      have := h.read m hm
      rw [heq, hid] at this
      exact Nat.lt_irrefl _ this

theorem Flow.read_step (h : Flow c) (he : Effect S c d) :
    ∀ m ∈ d.reads, m.reader.id < d.flags.next := by
  intro m hm
  refine Nat.lt_of_lt_of_le ?_ he.next_le
  rcases he.reads_cases with hd | ⟨t, ht, m', -, hm', hd⟩ <;> rw [hd] at hm
  · exact h.read m hm
  · rcases List.mem_append.mp hm with hm | hm
    · exact h.read m hm
    · rw [List.mem_singleton] at hm
      rw [hm, hm']
      exact h.known t ht

theorem Flow.sent_step (h : Flow c) (he : Effect S c d) : d.pipe ⊆ d.reads := by
  refine List.Subset.trans ?_ he.reads_subset
  rcases he.pipe_cases with hd | ⟨t, ht, m, hst, hd⟩ | ⟨-, hd⟩
  · rw [hd]; exact h.sent
  · rw [hd]
    intro m' hm'
    rcases List.mem_append.mp hm' with hm' | hm'
    · exact h.sent hm'
    · rw [List.mem_singleton] at hm'
      rw [hm']
      exact (h.held t ht m hst).2
  · exact List.Subset.trans hd h.sent

theorem Flow.held_step (h : Flow c) (he : Effect S c d) :
    ∀ t ∈ d.tasks, ∀ m, t.state = .sendingData m → m.reader = t.cancel ∧ m ∈ d.reads := by
  refine he.forall_tasks ?_ ?_ ?_
  · intro t ht m hm
    obtain ⟨hr, hm⟩ := h.held t ht m hm
    exact ⟨hr, he.reads_subset hm⟩
  · intro t ht m hm
    cases ht <;> cases hm
  · intro t ht st hst m hm
    cases hst with
    | read _ hr hd => cases hm; exact ⟨hr, by rw [hd]; exact List.mem_append_right _ List.mem_cons_self⟩
    | _ => cases hm

/-- A task moves: its own chunks are in order, and those of the other readers are as before. -/
theorem Flow.flows_move (h : Flow c) (hup : c.up = true) {i : Nat} {t : Task} {st : TaskState}
    (ht : c.tasks[i]? = some t) {reads pipe : List DataMsg}
    (hreads : ∀ f, t.cancel ≠ f → ofReader f reads = ofReader f c.reads)
    (hpipe : ∀ f, t.cancel ≠ f → ofReader f pipe = ofReader f c.pipe)
    (hown : st ≠ .done → ofReader t.cancel reads =
      ofReader t.cancel pipe ++ Task.hand { t with state := st }) :
    ∀ u ∈ c.tasks.set i { t with state := st }, u.state ≠ .done →
      ofReader u.cancel reads = ofReader u.cancel pipe ++ u.hand := by
  intro u hu hdone
  rcases h.mem_set ht hu with rfl | ⟨hu, hne⟩
  · exact hown hdone
  · rw [hreads _ hne.symm, hpipe _ hne.symm]
    exact h.flows hup u hu hdone

theorem Flow.flows_step (h : Flow c) (he : Effect S c d) (hup : d.up = true) :
    ∀ t ∈ d.tasks, t.state ≠ .done →
      ofReader t.cancel d.reads = ofReader t.cancel d.pipe ++ t.hand := by
  have hup' := he.up_of_up hup
  -- A task without a chunk in hand goes on to a state without one.
  have hquiet : ∀ {i t st}, c.tasks[i]? = some t → t.state ≠ .done → t.hand = [] →
      Task.hand { t with state := st } = [] →
      ∀ u ∈ c.tasks.set i { t with state := st }, u.state ≠ .done →
        ofReader u.cancel c.reads = ofReader u.cancel c.pipe ++ u.hand := by
    intro i t st ht hst hnil hnil'
    refine h.flows_move hup' ht (fun _ _ => rfl) (fun _ _ => rfl) fun _ => ?_
    rw [hnil', h.flows hup' t (List.mem_of_getElem? ht) hst, hnil]
  have hspawned : ∀ {t}, Spawns S c d t → ∀ u ∈ c.tasks ++ [t], u.state ≠ .done →
      ofReader u.cancel c.reads = ofReader u.cancel c.pipe ++ u.hand := by
    intro t ht u hu hdone
    rcases List.mem_append.mp hu with hu | hu
    · exact h.flows hup' u hu hdone
    · rw [List.mem_singleton] at hu
      subst hu
      obtain ⟨-, -, hr⟩ := h.spawned he ht
      have hp : ofReader u.cancel c.pipe = [] :=
        ofReader_eq_nil.mpr fun m hm => ofReader_eq_nil.mp hr m (h.sent hm)
      have hh : u.hand = [] := by cases ht <;> rfl
      rw [hr, hp, hh]
      rfl
  cases he with
  | spawnConnect ha hr hb => exact hspawned (.connect ha hr hb rfl)
  | acceptUdp _ _ _ _ => exact hspawned (.reader rfl (if_pos rfl) rfl (Nat.lt_succ_self _) rfl)
  | attach ha _ _ _ _ => exact hspawned (.reader rfl (if_pos rfl) rfl (Nat.lt_succ_self _) ha)
  | taskDone ht =>
    exact h.flows_move hup' ht (fun _ _ => rfl) (fun _ _ => rfl) fun hn => absurd rfl hn
  | dial ht hst _ => exact hquiet ht (by simp [hst]) (by simp [Task.hand, hst]) rfl
  | connected ht hst => exact hquiet ht (by simp [hst]) (by simp [Task.hand, hst]) rfl
  | connectFailed ht hst => exact hquiet ht (by simp [hst]) (by simp [Task.hand, hst]) rfl
  | startRead ht hst _ => exact hquiet ht (by simp [hst]) (by simp [Task.hand, hst]) rfl
  | readEnd ht hst _ => exact hquiet ht (by simp [hst]) (by simp [Task.hand, hst]) rfl
  | sendControl ht hst => exact hquiet ht (by simp [hst]) (by simp [Task.hand, hst]) rfl
  | @read i t m ht hst _ hm _ _ =>
    refine h.flows_move hup' ht ?_ (fun _ _ => rfl) fun _ => ?_
    · intro f hf
      rw [ofReader_append, ofReader_other (by rwa [hm]), List.append_nil]
    · have := h.flows hup' t (List.mem_of_getElem? ht) (by simp [hst])
      rw [ofReader_append, this, ← hm, ofReader_self, Task.hand, hst, List.append_nil]
      rfl
  | @readCancelled i t m ht hst hm _ _ =>
    refine h.flows_move hup' ht ?_ (fun _ _ => rfl) fun hn => absurd rfl hn
    intro f hf
    rw [ofReader_append, ofReader_other (by rwa [hm]), List.append_nil]
  | @sendData i t m ht hst =>
    have hm := (h.held t (List.mem_of_getElem? ht) m hst).1
    have hd : Core.pipe { c.setTask i t .top with data := c.data ++ [m] } = c.pipe ++ [m] := by
      simp only [Core.pipe, Core.setTask, List.append_assoc]
    rw [hd]
    refine h.flows_move hup' ht (fun _ _ => rfl) ?_ fun _ => ?_
    · intro f hf
      rw [ofReader_append, ofReader_other (by rwa [hm]), List.append_nil]
    · have := h.flows hup' t (List.mem_of_getElem? ht) (by simp [hst])
      rw [Core.setTask, ofReader_append, this, ← hm, ofReader_self, Task.hand, hst]
      exact (List.append_nil _).symm
  | batch _ => rw [pipe_batch hup']; exact h.flows hup'
  | ended _ _ _ => rw [pipe_ended]; exact h.flows hup'
  | _ => exact h.flows hup'

/-- Nothing more happens to the chunks of a reader that reads no more. -/
theorem Flow.settled_step (h : Flow c) (he : Effect S c d) {f : CancelFlag} (hs : Settled c f) :
    Settled d f := by
  refine ⟨Nat.lt_of_lt_of_le hs.known he.next_le, ?_, ?_, ?_⟩
  · refine he.forall_tasks hs.done ?_ ?_
    · intro t ht hf
      cases ht with
      | connect ha _ _ _ =>
        subst hf
        exact absurd (.inl ⟨_, _, ha⟩) (hs.idle _)
      | reader hid _ _ _ _ =>
        have := hs.known
        rw [← hf, hid] at this
        exact absurd this (Nat.lt_irrefl _)
    · intro t ht st hst hf
      have hdone := hs.done t ht hf
      cases hst with
      | done => rfl
      | _ => simp_all
  · intro s hf
    rcases he.trying_flag hf with hf | ⟨hid, -⟩
    · exact hs.idle s hf
    · exact Nat.lt_irrefl _ (hid ▸ hs.known)
  · intro hup
    have hne : ∀ t ∈ c.tasks, t.state ≠ .done → t.cancel ≠ f :=
      fun t ht hst hf => hst (hs.done t ht hf)
    have hreads : ofReader f d.reads = ofReader f c.reads := by
      rcases he.reads_cases with hd | ⟨t, ht, m, hst, hm, hd⟩ <;> rw [hd]
      rw [ofReader_append, ofReader_other (hm ▸ hne t ht (by simp [hst])), List.append_nil]
    have hpipe : ofReader f d.pipe = ofReader f c.pipe := by
      rcases he.pipe_cases with hd | ⟨t, ht, m, hst, hd⟩ | ⟨hd, -⟩
      · rw [hd]
      · have hm := (h.held t ht m hst).1
        rw [hd, ofReader_append, ofReader_other (hm ▸ hne t ht (by simp [hst])), List.append_nil]
      · rw [hup] at hd; cases hd
    rw [hreads, hpipe]
    exact hs.flows (he.up_of_up hup)

/-- An event that is sent ends its reader. -/
theorem Flow.posted_step (h : Flow c) (hb : Base c) (he : Effect S c d) :
    ∀ p ∈ d.control, Settled d p.origin := by
  have hold : ∀ p ∈ c.control, Settled d p.origin := fun p hp => h.settled_step he (h.posted p hp)
  have hrest : ∀ {p rest}, c.control = p :: rest → ∀ q ∈ rest, Settled d q.origin :=
    fun hc q hq => hold q (by rw [hc]; exact List.mem_cons_of_mem _ hq)
  cases he with
  | ended _ hc _ => exact hrest hc
  | connectedNone _ hc _ _ => exact hrest hc
  | connectedOther _ hc _ _ _ => exact hrest hc
  | attach _ hc _ _ _ => exact hrest hc
  | attachDead _ hc _ _ _ => exact hrest hc
  | @sendFailed p ha _ =>
    intro q hq
    rcases List.mem_append.mp hq with hq | hq
    · exact hold q hq
    · rw [List.mem_singleton] at hq
      subst hq
      obtain ⟨hk, hn, hr⟩ := h.trying _ _ (.inr ⟨q, ha, rfl, rfl⟩)
      refine ⟨hk, fun t ht hf => absurd hf (hn t ht), ?_, fun _ => ?_⟩
      · exact fun s => Core.not_trying_of_idle rfl s _
      · refine hr.trans (ofReader_eq_nil.mpr fun m hm => ?_).symm
        exact ofReader_eq_nil.mp hr m (h.sent hm)
  | @sendControl i t p ht hst =>
    intro q hq
    rcases List.mem_append.mp hq with hq | hq
    · exact hold q hq
    · rw [List.mem_singleton] at hq
      subst hq
      have htm := List.mem_of_getElem? ht
      rw [(hb.sending t htm q hst).1]
      refine ⟨h.known t htm, ?_, ?_, ?_⟩
      · intro u hu hf
        rcases h.mem_set ht hu with rfl | ⟨-, hne⟩
        · rfl
        · exact absurd hf hne
      · intro s hf
        exact (h.trying s _ hf).2.1 t htm rfl
      · intro hup
        have := h.flows hup t htm (by simp [hst])
        rwa [Task.hand, hst, List.append_nil] at this
  | _ => exact hold

theorem Flow.step (h : Flow c) (hb : Base c) (he : Effect S c d) : Flow d where
  known := h.known_step he
  distinct := h.distinct_step he
  trying := h.trying_step he
  read := h.read_step he
  sent := h.sent_step he
  held := h.held_step he
  flows := h.flows_step he
  posted := h.posted_step hb he

theorem Settled.emit {f : CancelFlag} (h : Settled d f) {fs : List ClientFrame} (hp : Plain fs) :
    Settled (d.emit fs) f where
  known := h.known
  done := h.done
  idle := h.idle
  flows := by rw [pipe_emit (dataOf_plain hp)]; exact h.flows

theorem Flow.emit (h : Flow d) {fs : List ClientFrame} (hp : Plain fs) : Flow (d.emit fs) where
  known := h.known
  distinct := h.distinct
  trying := h.trying
  read := h.read
  sent := by rw [pipe_emit (dataOf_plain hp)]; exact h.sent
  held := h.held
  flows := by rw [pipe_emit (dataOf_plain hp)]; exact h.flows
  posted p hpm := (h.posted p hpm).emit hp

theorem flow_start : Flow (Core.start S) where
  known _ ht := absurd ht List.not_mem_nil
  distinct := List.nodup_nil
  trying s f h := absurd h (Core.not_trying_of_idle rfl s f)
  read _ hm := absurd hm List.not_mem_nil
  sent := List.nil_subset _
  held _ ht := absurd ht List.not_mem_nil
  flows _ _ ht := absurd ht List.not_mem_nil
  posted _ hp := absurd hp List.not_mem_nil

/-- In every reachable state the chunks of a reader are written and queued in the order of its
reads. -/
theorem Reach.flow {ok : Conn → Act → Conn → Prop} {c : Conn} (h : (sys S).Reach ok c) :
    Flow c.core :=
  Reach.core (R := fun _ _ => True) (fun _ _ _ _ => trivial) flow_start
    (fun _ _ _ hr hi he hp _ => (hi.step (Reach.base hr) he).emit hp) h

/-! ## CLOSE after the DATA -/

/-- An end event finds no DATA of its reader in the data channel. -/
def Core.dataFirst (c : Core) (p : Posted) : Bool :=
  !p.event.isEnd || c.data.all fun m => m.reader != p.origin

/-- Condition on a step: the event that it handles satisfies `dataFirst`. -/
def DataFirst (c : Conn) (_ : Act) (c' : Conn) : Prop :=
  (delivered c.core.control c'.core.control).all c.core.dataFirst = true

instance (c : Conn) (a : Act) (c' : Conn) : Decidable (DataFirst c a c') :=
  inferInstanceAs (Decidable (_ = _))

theorem queue_of_dataFirst {p : Posted} (h : c.dataFirst p = true) (hend : p.event.isEnd = true) :
    ofReader p.origin c.data = [] := by
  simp only [Core.dataFirst, hend, Bool.not_true, Bool.false_or, List.all_eq_true, bne_iff_ne] at h
  exact ofReader_eq_nil.mpr h

/-- All the chunks of a reader are written. -/
structure Written (c : Core) (f : CancelFlag) : Prop where
  settled : Settled c f
  queue : ofReader f c.data = []

/-- The CLOSE that answers the end of a reader comes after its chunks. -/
def ClosedAfter (c : Core) : Prop :=
  c.up = true → ∀ pre s reason f post, c.out = pre ++ .close s reason (some f) :: post →
    Written c f ∧ ofReader f (dataOf post) = []

/-- More frames are written. -/
theorem ClosedAfter.extend (h : ClosedAfter c) (hup : d.up = true → c.up = true)
    {fs : List ClientFrame} (hout : d.out = c.out ++ fs)
    (hold : d.up = true → ∀ f, Written c f → Written d f ∧ ofReader f (dataOf fs) = [])
    (hnew : d.up = true → ∀ pre s reason f post, fs = pre ++ .close s reason (some f) :: post →
      Written d f ∧ ofReader f (dataOf post) = []) : ClosedAfter d := by
  intro hd pre s reason f post heq
  rw [hout] at heq
  rcases List.append_eq_append_iff.mp heq with ⟨pre', rfl, hfs⟩ | ⟨post', hc, hpost⟩
  · exact hnew hd pre' s reason f post hfs
  · cases post' with
    | nil => exact hnew hd [] s reason f post hpost.symm
    | cons x post' =>
      rw [List.cons_append, List.cons.injEq] at hpost
      obtain ⟨rfl, rfl⟩ := hpost
      obtain ⟨hw, hp⟩ := h (hup hd) pre s reason f post' hc
      obtain ⟨hw, hfs⟩ := hold hd f hw
      exact ⟨hw, by rw [dataOf_append, ofReader_append, hp, hfs]; rfl⟩

theorem ClosedAfter.step (h : ClosedAfter c) (hf : Flow c) (he : Effect S c d)
    (hfirst : (delivered c.control d.control).all c.dataFirst = true) : ClosedAfter d := by
  have hset : ∀ f, Settled c f → Settled d f := fun f hs => hf.settled_step he hs
  have hup : d.up = true → c.up = true := he.up_of_up
  -- Nothing is written, and nothing is queued.
  have hsame : d.out = c.out → d.data = c.data → ClosedAfter d := by
    intro hout hdata
    refine h.extend hup (by rw [hout, List.append_nil]) ?_ (by simp)
    exact fun _ f hw => ⟨⟨hset f hw.settled, by rw [hdata]; exact hw.queue⟩, rfl⟩
  cases he with
  | @ended p rest s reason _ hc hp =>
    have hend : p.event.isEnd = true := by rcases hp with hp | hp <;> rw [hp] <;> rfl
    have hfree : c.dataFirst p = true := by
      have hd : delivered c.control rest = some p := by rw [hc, delivered_cons]
      have hok : (delivered c.control rest).all c.dataFirst = true := hfirst
      rwa [hd] at hok
    by_cases hu : c.up = true
    · refine h.extend hup (if_pos hu) ?_ ?_
      · exact fun _ f hw => ⟨⟨hset f hw.settled, hw.queue⟩, rfl⟩
      · intro _ pre s' reason' f post heq
        rw [List.singleton_eq_append_iff] at heq
        rcases heq with ⟨rfl, heq⟩ | ⟨-, heq⟩
        · cases heq
          have hp' : p ∈ c.control := by rw [hc]; exact List.mem_cons_self
          exact ⟨⟨hset _ (hf.posted p hp'), queue_of_dataFirst hfree hend⟩, rfl⟩
        · cases heq
    · exact fun hd => absurd hd hu
  | batch _ =>
    by_cases hu : c.up = true
    · refine h.extend hup (if_pos hu) ?_ ?_
      · intro _ f hw
        exact ⟨⟨hset f hw.settled, rfl⟩, by rw [dataOf_data]; exact hw.queue⟩
      · intro _ pre s reason f post heq
        have : .close s reason (some f) ∈ c.data.map ClientFrame.data := by
          rw [heq]
          exact List.mem_append_right _ List.mem_cons_self
        obtain ⟨_, -, hm⟩ := List.mem_map.mp this
        cases hm
    · exact fun hd => absurd hd hu
  | @sendData i t m ht hst =>
    refine h.extend hup (List.append_nil _).symm ?_ (by simp)
    intro _ f hw
    have hm := (hf.held t (List.mem_of_getElem? ht) m hst).1
    have hne : m.reader ≠ f := by
      rw [hm]
      intro heq
      have := hw.settled.done t (List.mem_of_getElem? ht) heq
      rw [hst] at this
      cases this
    exact ⟨⟨hset f hw.settled, by
      rw [ofReader_append, hw.queue, ofReader_other hne]; rfl⟩, rfl⟩
  | _ => exact hsame rfl rfl

theorem ClosedAfter.emit (h : ClosedAfter d) {fs : List ClientFrame} (hp : Plain fs) :
    ClosedAfter (d.emit fs) := by
  by_cases hu : d.up = true
  · refine h.extend id (if_pos hu) ?_ ?_
    · exact fun _ f hw => ⟨⟨hw.settled.emit hp, hw.queue⟩, by rw [dataOf_plain hp]; rfl⟩
    · intro _ pre s reason f post heq
      have := hp (.close s reason (some f)) (by rw [heq]; exact List.mem_append_right _ List.mem_cons_self)
      cases this
  · exact fun hd => absurd hd hu

theorem Reach.closedAfter {c : Conn} (h : (sys S).Reach DataFirst c) : ClosedAfter c.core := by
  refine Reach.core (R := fun c d => (delivered c.control d.control).all c.dataFirst = true)
    (fun _ _ _ hok => hok) ?_ ?_ h
  · intro _ pre s reason f post heq
    cases pre <;> cases heq
  · intro c d fs hr hi he hp hok
    have hf := Reach.flow hr
    exact (hi.step hf he hok).emit hp

/-- In a run in which no end event is handled while DATA of its reader is queued, and as long as the
client's socket works: what was read by the reader that a CLOSE answers is written before that CLOSE,
in order and once, and nothing of it after. -/
theorem data_before_close {c : Conn} (h : (sys S).Reach DataFirst c) (hup : c.clientUp = true)
    {pre post : List ClientFrame} {s : StreamId} {reason : CloseReason} {f : CancelFlag}
    (hout : c.out = pre ++ .close s reason (some f) :: post) :
    ofReader f (dataOf pre) = ofReader f c.reads ∧ ofReader f (dataOf post) = [] := by
  obtain ⟨hw, hpost⟩ := Reach.closedAfter h hup pre s reason f post hout
  refine ⟨?_, hpost⟩
  calc ofReader f (dataOf pre)
      = ofReader f (dataOf pre) ++ ofReader f (dataOf post) ++ ofReader f c.core.data := by
        rw [hpost, hw.queue, List.append_nil, List.append_nil]
    _ = ofReader f c.core.pipe := by
        have hc : c.core.out = pre ++ .close s reason (some f) :: post := hout
        rw [Core.pipe, hc, dataOf_append, ofReader_append, ofReader_append]
        rfl
    _ = ofReader f c.reads := (hw.settled.flows hup).symm

/-- The chunk of the reader of stream 1. -/
def replyMsg : DataMsg := ⟨1, [9], ⟨1, 0⟩, 0, none⟩

/-- The reader of stream 1 reads a chunk and the end of the stream, and sends both. -/
def replyOne : List Act :=
  [.task 1 .go, .task 1 (.chunk [9] none), .task 1 .go, .task 1 .go, .task 1 .eof, .task 1 .go]

/-- The main task takes the DATA in `select!`, and then the event. -/
theorem data_before_close_reply :
    ∃ c, (sys { config := {} }).Reach DataFirst c ∧ c.clientUp = true ∧
      c.out = [.continue 1 65535, .data replyMsg] ++ [.close 1 .voluntary (some ⟨1, 0⟩)] ∧
      c.reads = [replyMsg] ∧
      ofReader ⟨1, 0⟩ (dataOf [.continue 1 65535, .data replyMsg]) = ofReader ⟨1, 0⟩ c.reads := by
  obtain ⟨c, hr, hp⟩ := Reach.of_run { config := {} } DataFirst
    (attachOne ++ replyOne ++ .main {} :: toSelect)
    (fun c => decide (c.clientUp = true ∧ c.reads = [replyMsg] ∧
      c.out = [.continue 1 65535, .data replyMsg] ++ [.close 1 .voluntary (some ⟨1, 0⟩)]))
    (by decide +kernel)
  obtain ⟨hup, hreads, hout⟩ := of_decide_eq_true hp
  exact ⟨c, hr, hup, hout, hreads, (data_before_close hr hup hout).1⟩

/-- A packet comes before the main task goes on: `select!` takes the packet, Phase 1 writes the CLOSE,
and Phase 2 the DATA after it. -/
theorem data_after_close :
    ∃ c, (sys { config := {} }).Reach Sys.Any c ∧ c.clientUp = true ∧ c.reads = [replyMsg] ∧
      c.out = [.continue 1 65535] ++ .close 1 .voluntary (some replyMsg.reader) ::
        [.data replyMsg] := by
  obtain ⟨c, hr, hp⟩ := Reach.of_run { config := {} } Sys.Any
    (attachOne ++ replyOne ++ [dataOne 7, .main { writes := [.ok 1, .ok 1] }] ++ toSelect ++ [.main {}])
    (fun c => decide (c.clientUp = true ∧ c.reads = [replyMsg] ∧
      c.out = [.continue 1 65535] ++ .close 1 .voluntary (some replyMsg.reader) ::
        [.data replyMsg])) (by decide +kernel)
  exact ⟨c, hr, of_decide_eq_true hp⟩

end ShrimpWisp
