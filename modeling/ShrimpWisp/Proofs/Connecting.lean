import ShrimpWisp.Proofs.Opening
import ShrimpWisp.Server.Loop

/-!
# Streams that connect

A Connecting entry is resolved by the event of its connect attempt. The events of an id are not told
apart, so an event may resolve the entry of a later CONNECT; but it then leaves no Connecting entry
behind, and so the attempt of a Connecting entry is always still under way.

* `StreamChange`: what a step does to the entries and the flags, without the loop.
* `Loop.Resolving`: the attempt of an entry is under way, up to its event in the control channel.
* `connecting_resolves`: every Connecting entry of a live connection has its flag unset and its
  attempt under way, and the event that is then handled resolves it.
-/

namespace ShrimpWisp

variable {S : Setup} {l l' : Loop}

/-! ## Entries and flags -/

/-- The stream still connects. -/
def ProxyStream.isConnecting : ProxyStream Octet → Bool
  | .connecting _ => true
  | _ => false

/-- A change of the entries and the flags (module doc). -/
inductive StreamChange (l l' : Loop) : Prop
  | same : l'.entry = l.entry → l'.flags = l.flags → StreamChange l l'
  | update {s x x'} : l.entry s = some x → l'.entry = (l.put s (some x')).entry →
      l'.flags = l.flags → x'.cancel = x.cancel → x'.isConnecting = x.isConnecting →
      StreamChange l l'
  | remove {s} : l'.entry = (l.removeEntry s).entry → l'.flags = (l.removeEntry s).flags →
      StreamChange l l'
  /-- A TcpConnected event for a stream that does not connect sets its flag. -/
  | mark {s x} : l.entry s = some x → x.isConnecting = false → l'.entry = l.entry →
      l'.flags = l.flags.cancel x.cancel → StreamChange l l'
  | newFlag {k} : l'.entry = l.entry → l'.flags = (l.flags.new k).2 → StreamChange l l'
  | accept {s x k} : l.entry s = none → l'.entry = (l.put s (some x)).entry →
      l'.flags = (l.flags.new k).2 → x.cancel = (l.flags.new k).1 →
      (x.isConnecting = true →
        ∃ site connect known, l'.pc = .resolvingTcp site s connect x.cancel known) →
      StreamChange l l'
  /-- A stream that connected: its flag is set, and the stream gets a new one or is dropped. -/
  | attach {s cs x k} : l.entry s = some (.connecting cs) → l'.entry = (l.put s x).entry →
      l'.flags = ((l.flags.cancel cs.cancel).new k).2 →
      (∀ y, x = some y → y.cancel = (l.flags.new k).1 ∧ y.isConnecting = false) →
      StreamChange l l'

theorem Finishes.streams {site : Site} (hf : Finishes l site l') :
    l'.entry = l.entry ∧ l'.flags = l.flags ∧ l'.tasks = l.tasks ∧ l'.control = l.control := by
  cases hf <;> exact ⟨rfl, rfl, rfl, rfl⟩

theorem Takes.streams {site : Site} {i : WsInput} (ht : Takes l site i l') :
    l'.entry = l.entry ∧ l'.flags = l.flags ∧ l'.tasks = l.tasks ∧ l'.control = l.control := by
  cases ht <;> exact ⟨rfl, rfl, rfl, rfl⟩

theorem breakLoop_streams (l : Loop) (site : Site) :
    (l.breakLoop site).entry = l.entry ∧ (l.breakLoop site).flags = l.flags ∧
      (l.breakLoop site).tasks = l.tasks ∧ (l.breakLoop site).control = l.control := by
  cases site <;> exact ⟨rfl, rfl, rfl, rfl⟩

/-- The change starts from the entries and the flags alone. -/
theorem StreamChange.from_eq {l₀ : Loop} (h : StreamChange l l') (he : l.entry = l₀.entry)
    (hf : l.flags = l₀.flags) : StreamChange l₀ l' := by
  have hput : ∀ s x, (l₀.put s x).entry = (l.put s x).entry := by
    intro s x
    simp only [Loop.put, he]
  cases h with
  | same h₁ h₂ => exact .same (h₁.trans he) (h₂.trans hf)
  | update hx h₁ h₂ hc hk => exact .update (he ▸ hx) (h₁.trans (hput _ _).symm) (h₂.trans hf) hc hk
  | remove h₁ h₂ =>
    refine .remove (h₁.trans (hput _ _).symm) (h₂.trans ?_)
    simp only [Loop.removeEntry, he, hf]
  | mark hx hk h₁ h₂ => exact .mark (he ▸ hx) hk (h₁.trans he) (by rw [h₂, hf])
  | newFlag h₁ h₂ => exact .newFlag (h₁.trans he) (by rw [h₂, hf])
  | accept hn h₁ h₂ hc hp =>
    exact .accept (he ▸ hn) (h₁.trans (hput _ _).symm) (by rw [h₂, hf]) (hf ▸ hc) hp
  | attach hx h₁ h₂ hc =>
    exact .attach (he ▸ hx) (h₁.trans (hput _ _).symm) (by rw [h₂, hf]) (hf ▸ hc)

theorem Inbound.change {l₁ : Loop} {r : WispFrameResult} (hi : Inbound S l r l₁)
    (he : l'.entry = l₁.entry) (hf : l'.flags = l₁.flags) : StreamChange l l' := by
  cases hi with
  | ignored _ => exact .same he hf
  | early hx => exact .update hx he hf rfl rfl
  | upload hx hw =>
    refine .update hx he hf ?_ rfl
    exact (counted_frame S _).2.2.trans (tcpTryWrite_frame hw).2.2.2
  | uploadDead hx hw =>
    refine .remove he (hf.trans ?_)
    simp only [Loop.emit, Loop.removeEntry, hx, ProxyStream.cancel, (tcpTryWrite_frame hw).2.2.2]
  | close => exact .remove he hf
  | refused _ => exact .same he hf
  | @throttled _ _ k _ => exact .newFlag (k := k) he hf
  | pong => exact .same he hf

theorem Suspends.change {site : Site} {r : WispFrameResult} (hs : Suspends l site r l') :
    StreamChange l l' := by
  cases hs with
  | tcp hn => exact .accept hn rfl rfl rfl fun _ => ⟨_, _, _, rfl⟩
  | udp _ => exact .same rfl rfl

theorem Delivers.change {l₁ : Loop} {p : Posted} (hd : Delivers S l p l₁)
    (he : l'.entry = l₁.entry) (hf : l'.flags = l₁.flags) : StreamChange l l' := by
  cases hd with
  | ended _ => exact .remove he hf
  | absent _ _ => exact .same he hf
  | @other _ _ _ _ x _ hx hn =>
    refine .mark hx ?_ he hf
    cases x with
    | connecting cs => exact absurd rfl (hn cs)
    | _ => rfl
  | attach _ hx => exact .attach hx he hf (by rintro _ ⟨⟩; exact ⟨rfl, rfl⟩)
  | @attachDead _ _ _ _ cs _ hx => exact .attach (k := cs.cancel.owner) hx he hf (by simp)

theorem Drains.change {l₁ : Loop} {s : StreamId} {keep died : Bool} (hd : Drains l s keep died l₁)
    (he : l'.entry = l₁.entry) (hf : l'.flags = l₁.flags) : StreamChange l l' := by
  cases hd with
  | other _ => exact .same he hf
  | empty hx _ => exact .update hx he hf rfl rfl
  | dead hx _ => exact .update hx he hf (drainPending_frame _ _).2.2.2 rfl
  | sent hx _ _ => exact .update hx he hf (drainPending_frame _ _).2.2.2 rfl
  | kept hx _ _ => exact .update hx he hf (drainPending_frame _ _).2.2.2 rfl

/-- Every step of the server is such a change. -/
theorem LoopStep.change {r : Option WispFrameResult} (hs : LoopStep S l r l') : StreamChange l l' := by
  cases hs with
  | start _ hf => exact .same hf.streams.1 hf.streams.2.1
  | deferred _ hi hf => exact hi.change hf.streams.1 hf.streams.2.1
  | deferredConnect _ hs => exact hs.change
  | inbound ht _ _ hi hf =>
    exact (hi.change hf.streams.1 hf.streams.2.1).from_eq ht.streams.1 ht.streams.2.1
  | connect ht _ hs => exact hs.change.from_eq ht.streams.1 ht.streams.2.1
  | closing ht _ _ =>
    obtain ⟨he, hf, -⟩ := breakLoop_streams _ _
    exact .same (he.trans ht.streams.1) (hf.trans ht.streams.2.1)
  | readError ht _ =>
    obtain ⟨he, hf, -⟩ := breakLoop_streams _ _
    exact .same (he.trans ht.streams.1) (hf.trans ht.streams.2.1)
  | spawned _ hf => exact .same hf.streams.1 hf.streams.2.1
  | sendFailed _ hf => exact .same hf.streams.1 hf.streams.2.1
  | udpRefused _ hf => exact .same hf.streams.1 hf.streams.2.1
  | @udpThrottled _ _ _ _ k _ _ hf => exact .newFlag (k := k) hf.streams.1 hf.streams.2.1
  | udpAccepted _ hn hf => exact .accept hn hf.streams.1 hf.streams.2.1 rfl nofun
  | phase0 _ hd => exact hd.change rfl rfl
  | deadOne _ => exact .remove rfl rfl
  | @event p rest _ _ _ _ hd =>
    exact StreamChange.from_eq (l := { l with control := rest }) (hd.change rfl rfl) rfl rfl
  | _ => exact .same rfl rfl

namespace StreamChange

theorem next_le (h : StreamChange l l') : l.flags.next ≤ l'.flags.next := by
  cases h with
  | same _ h₂ => rw [h₂]
  | update _ _ h₂ _ _ => rw [h₂]
  | remove _ h₂ =>
    rw [h₂]
    unfold Loop.removeEntry
    dsimp only
    split <;> exact Nat.le_refl _
  | mark _ _ _ h₂ => rw [h₂]; exact Nat.le_refl _
  | newFlag _ h₂ => rw [h₂]; exact Nat.le_succ _
  | accept _ _ h₂ _ _ => rw [h₂]; exact Nat.le_succ _
  | attach _ _ h₂ _ => rw [h₂]; exact Nat.le_succ _

/-- An entry after the change: the entry before it, or one with a new flag. -/
theorem entry_cases (h : StreamChange l l') {s : StreamId} {y : ProxyStream Octet}
    (hy : l'.entry s = some y) :
    (∃ x, l.entry s = some x ∧ y.cancel = x.cancel ∧ y.isConnecting = x.isConnecting) ∨
    y.cancel.id = l.flags.next ∧ l.flags.next < l'.flags.next ∧
      (y.isConnecting = true →
        ∃ site connect known, l'.pc = .resolvingTcp site s connect y.cancel known) := by
  have hkept : l.entry s = some y →
      ∃ x, l.entry s = some x ∧ y.cancel = x.cancel ∧ y.isConnecting = x.isConnecting :=
    fun hx => ⟨y, hx, rfl, rfl⟩
  -- The entry of one id is replaced.
  have hput : ∀ {s' x}, (l.put s' x).entry s = some y → s' = s ∧ x = some y ∨ l.entry s = some y := by
    intro s' x hy
    simp only [Loop.put] at hy
    split at hy
    · rename_i heq
      exact .inl ⟨heq.symm, hy⟩
    · exact .inr hy
  cases h with
  | same h₁ _ => exact .inl (hkept (h₁ ▸ hy))
  | update hx h₁ _ hc hk =>
    rw [h₁] at hy
    rcases hput hy with ⟨rfl, heq⟩ | hy
    · cases heq
      exact .inl ⟨_, hx, hc, hk⟩
    · exact .inl (hkept hy)
  | remove h₁ _ =>
    rw [h₁] at hy
    rcases hput hy with ⟨-, heq⟩ | hy
    · cases heq
    · exact .inl (hkept hy)
  | mark _ _ h₁ _ => exact .inl (hkept (h₁ ▸ hy))
  | newFlag h₁ _ => exact .inl (hkept (h₁ ▸ hy))
  | accept _ h₁ h₂ hc hp =>
    rw [h₁] at hy
    rcases hput hy with ⟨rfl, heq⟩ | hy
    · cases heq
      exact .inr ⟨by rw [hc]; rfl, by rw [h₂]; exact Nat.lt_succ_self _, hp⟩
    · exact .inl (hkept hy)
  | attach _ h₁ h₂ hc =>
    rw [h₁] at hy
    rcases hput hy with ⟨rfl, heq⟩ | hy
    · obtain ⟨hc, hk⟩ := hc y heq
      exact .inr ⟨by rw [hc]; rfl, by rw [h₂]; exact Nat.lt_succ_self _, by rw [hk]; rintro ⟨⟩⟩
    · exact .inl (hkept hy)

/-- A flag that the change sets is the flag of an entry that does not connect any more. -/
theorem cancelled_cases (h : StreamChange l l') {f : CancelFlag} (hf : f ∈ l'.flags.cancelled) :
    f ∈ l.flags.cancelled ∨
    ∃ s x, l.entry s = some x ∧ x.cancel = f ∧ ∀ y, l'.entry s = some y → y.isConnecting = false := by
  cases h with
  | same _ h₂ => exact .inl (h₂ ▸ hf)
  | update _ _ h₂ _ _ => exact .inl (h₂ ▸ hf)
  | @remove s h₁ h₂ =>
    rw [h₂] at hf
    simp only [Loop.removeEntry] at hf
    split at hf
    · rename_i x hx
      rcases List.mem_cons.mp hf with rfl | hf
      · refine .inr ⟨s, x, hx, rfl, ?_⟩
        rw [h₁]
        simp [Loop.removeEntry, Loop.put]
      · exact .inl hf
    · exact .inl hf
  | mark hx hk h₁ h₂ =>
    rw [h₂] at hf
    rcases List.mem_cons.mp hf with rfl | hf
    · refine .inr ⟨_, _, hx, rfl, ?_⟩
      rw [h₁, hx]
      rintro _ ⟨⟩
      exact hk
    · exact .inl hf
  | newFlag _ h₂ => exact .inl (by rw [h₂] at hf; exact hf)
  | accept _ _ h₂ _ _ => exact .inl (by rw [h₂] at hf; exact hf)
  | attach hx h₁ h₂ hc =>
    rw [h₂] at hf
    rcases List.mem_cons.mp hf with rfl | hf
    · refine .inr ⟨_, _, hx, rfl, ?_⟩
      rw [h₁]
      simp only [Loop.put, if_true]
      exact fun y hy => (hc y hy).2
    · exact .inl hf

end StreamChange

/-- The flags that are set, and those of the entries, were made before. -/
structure OldFlags (l : Loop) : Prop where
  cancelled : ∀ f ∈ l.flags.cancelled, f.id < l.flags.next
  entry : ∀ s x, l.entry s = some x → x.cancel.id < l.flags.next

theorem OldFlags.change (h : OldFlags l) (hc : StreamChange l l') : OldFlags l' := by
  refine ⟨?_, ?_⟩
  · intro f hf
    rcases hc.cancelled_cases hf with hf | ⟨s, x, hx, rfl, -⟩
    · exact (h.cancelled f hf).trans_le hc.next_le
    · exact (h.entry s x hx).trans_le hc.next_le
  · intro s y hy
    rcases hc.entry_cases hy with ⟨x, hx, hflag, -⟩ | ⟨hid, hlt, -⟩
    · rw [hflag]
      exact (h.entry s x hx).trans_le hc.next_le
    · rw [hid]
      exact hlt

/-! ## Connect attempts -/

/-- The event tells how a connect attempt ended. -/
def ControlEvent.isConnect : ControlEvent → Bool
  | .streamClosed .. => false
  | _ => true

/-- A connect task that has not sent its event yet. -/
def TaskState.isConnect : TaskState → Bool
  | .spawned _ | .dialing _ => true
  | .sendingControl p => p.event.isConnect
  | _ => false

/-- The main task is in `handle_tcp_connect`. -/
def Pc.isConnect : Pc → Bool
  | .resolvingTcp .. | .sending .. => true
  | _ => false

/-- The connect attempt of `s` with the flag `f` is under way: in `handle_tcp_connect`, in its task,
or as an event in the control channel. -/
inductive Loop.Resolving (l : Loop) (s : StreamId) (f : CancelFlag) : Prop
  | resolver {site connect known} : l.pc = .resolvingTcp site s connect f known → Resolving l s f
  | failing {site reason} : l.pc = .sending site ⟨.tcpConnectFailed s reason, f⟩ → Resolving l s f
  | task {t} : t ∈ l.tasks → t.streamId = s → t.cancel = f → t.state.isConnect = true →
      Resolving l s f
  | posted {p} : p ∈ l.control → p.event.streamId = s → p.event.isConnect = true → Resolving l s f

namespace Loop.Resolving

variable {s : StreamId} {f : CancelFlag}

/-- The main task is not in `handle_tcp_connect`; tasks and events only come along. -/
theorem mono (h : l.Resolving s f) (hpc : l.pc.isConnect = false) (ht : l.tasks ⊆ l'.tasks)
    (hc : l.control ⊆ l'.control) : l'.Resolving s f := by
  cases h with
  | resolver h => rw [h] at hpc; cases hpc
  | failing h => rw [h] at hpc; cases hpc
  | task hm hs hf hst => exact .task (ht hm) hs hf hst
  | posted hm hs hk => exact .posted (hc hm) hs hk

theorem congr (h : l.Resolving s f) (hpc : l'.pc = l.pc) (ht : l'.tasks = l.tasks)
    (hc : l'.control = l.control) : l'.Resolving s f := by
  cases h with
  | resolver h => exact .resolver (hpc.trans h)
  | failing h => exact .failing (hpc.trans h)
  | task hm hs hf hst => exact .task (ht ▸ hm) hs hf hst
  | posted hm hs hk => exact .posted (hc ▸ hm) hs hk

end Loop.Resolving

/-- A task that moves is done only when its flag is set, when the main task has ended, or when its
event is in the channel. -/
theorem Loop.Resolving.task_moves {s : StreamId} {f : CancelFlag} (h : l.Resolving s f)
    (hlive : l.pc ≠ .ended) (hf : l.flags.isCancelled f = false)
    (hsend : ∀ t ∈ l.tasks, ∀ p, t.state = .sendingControl p → p.event.streamId = t.streamId)
    {i : Nat} {t : Task} {st : TaskState} {control : List Posted} (ht : l.tasks[i]? = some t)
    (hm : TaskMoves l t st control) :
    Loop.Resolving { l with tasks := l.tasks.set i { t with state := st }, control } s f := by
  have hcontrol : l.control ⊆ control := by
    cases hm with
    | post _ => exact List.subset_append_left _ _
    | _ => exact List.Subset.refl _
  cases h with
  | resolver h => exact .resolver h
  | failing h => exact .failing h
  | posted hm hs hk => exact .posted (hcontrol hm) hs hk
  | @task u hu hs hc hst =>
    obtain ⟨j, hj⟩ := List.getElem?_of_mem hu
    by_cases hij : i = j
    · subst hij
      obtain rfl : t = u := Option.some.inj (ht.symm.trans hj)
      -- The task of the attempt itself moves.
      have hself : st.isConnect = true →
          Loop.Resolving { l with tasks := l.tasks.set i { t with state := st }, control } s f := by
        intro hst
        have hlt : i < l.tasks.length := (List.getElem?_eq_some_iff.mp ht).1
        exact .task (t := { t with state := st }) (List.mem_set hlt _) hs hc hst
      cases hm with
      | gone h => exact absurd h hlive
      | cancelled _ _ h => rw [hc, hf] at h; cases h
      | dial _ => exact hself rfl
      | connected _ => exact hself rfl
      | connectFailed _ => exact hself rfl
      | startRead h => rw [h] at hst; cases hst
      | read h => rw [h] at hst; cases hst
      | readEnd h _ => rw [h] at hst; cases hst
      | sendData h => rw [h] at hst; cases hst
      | @post p h =>
        rw [h] at hst
        exact .posted (List.mem_append_right _ List.mem_cons_self) ((hsend t hu p h).trans hs) hst
    · refine .task (List.mem_of_getElem? (i := j) ?_) hs hc hst
      rw [List.getElem?_set_ne hij]
      exact hj

/-- The event of a connect attempt leaves no Connecting entry behind. -/
theorem Delivers.resolves {p : Posted} (hd : Delivers S l p l') {y : ProxyStream Octet}
    (hy : l'.entry p.event.streamId = some y) : y.isConnecting = false := by
  cases hd with
  | ended hp => rcases hp with hp | hp <;> simp [hp, ControlEvent.streamId, Loop.emit,
      Loop.removeEntry, Loop.put] at hy
  | absent hp hn => simp [hp, ControlEvent.streamId, hn] at hy
  | other hp hx hn =>
    simp only [hp, ControlEvent.streamId, hx] at hy
    cases hy
    cases y with
    | connecting cs => exact absurd rfl (hn cs)
    | _ => rfl
  | attach hp _ =>
    simp only [hp, ControlEvent.streamId, Loop.emit, Loop.put, if_true] at hy
    cases hy
    rfl
  | attachDead hp _ => simp [hp, ControlEvent.streamId, Loop.emit, Loop.put] at hy

theorem Inbound.tasks {r : WispFrameResult} (hi : Inbound S l r l') :
    l'.tasks = l.tasks ∧ l'.control = l.control := by
  cases hi <;> exact ⟨rfl, rfl⟩

theorem Suspends.tasks {site : Site} {r : WispFrameResult} (hs : Suspends l site r l') :
    l'.tasks = l.tasks ∧ l'.control = l.control := by
  cases hs <;> exact ⟨rfl, rfl⟩

theorem Drains.tasks {s : StreamId} {keep died : Bool} (hd : Drains l s keep died l') :
    l'.tasks = l.tasks ∧ l'.control = l.control := by
  cases hd <;> exact ⟨rfl, rfl⟩

theorem Delivers.tasks {p : Posted} (hd : Delivers S l p l') :
    l.tasks ⊆ l'.tasks ∧ l'.control = l.control := by
  cases hd with
  | attach _ _ => exact ⟨List.subset_append_left _ _, rfl⟩
  | _ => exact ⟨List.Subset.refl _, rfl⟩

theorem Takes.idle {site : Site} {i : WsInput} (ht : Takes l site i l') : l.pc.isConnect = false := by
  cases ht with
  | inner h _ => rw [h]; rfl
  | buffered h _ => rw [h]; rfl
  | socket _ h _ _ => rw [h]; rfl

/-- The attempt of an entry that still connects after the step is still under way. -/
theorem Loop.Resolving.step {r : Option WispFrameResult} {s : StreamId} {f : CancelFlag}
    (h : l.Resolving s f) (hs : LoopStep S l r l') (hlive : l.pc ≠ .ended)
    (hf : l.flags.isCancelled f = false)
    (hsend : ∀ t ∈ l.tasks, ∀ p, t.state = .sendingControl p → p.event.streamId = t.streamId)
    {y : ProxyStream Octet} (hy : l'.entry s = some y) (hk : y.isConnecting = true) :
    l'.Resolving s f := by
  -- The main task is elsewhere, and the tasks and the channel stay as they are.
  have hsame : l.pc.isConnect = false → l'.tasks = l.tasks → l'.control = l.control →
      l'.Resolving s f := by
    intro hpc ht hc
    exact h.mono hpc (by rw [ht]; exact List.Subset.refl _) (by rw [hc]; exact List.Subset.refl _)
  have hfin : ∀ {l₁ site}, l.pc.isConnect = false → Finishes l₁ site l' →
      l₁.tasks = l.tasks ∧ l₁.control = l.control → l'.Resolving s f := by
    intro l₁ site hpc hfin h₁
    obtain ⟨-, -, ht, hc⟩ := hfin.streams
    exact hsame hpc (ht.trans h₁.1) (hc.trans h₁.2)
  cases hs with
  | nop => exact h
  | down => exact h.congr rfl rfl rfl
  | task ht hm => exact h.task_moves hlive hf hsend ht hm
  | start hpc hfi => exact hfin (by rw [hpc]; rfl) hfi ⟨rfl, rfl⟩
  | deferred hpc hi hfi => exact hfin (by rw [hpc]; rfl) hfi hi.tasks
  | deferredConnect hpc hs => exact hsame (by rw [hpc]; rfl) hs.tasks.1 hs.tasks.2
  | inbound ht _ _ hi hfi =>
    obtain ⟨-, -, ht₁, hc₁⟩ := ht.streams
    exact hfin ht.idle hfi ⟨hi.tasks.1.trans ht₁, hi.tasks.2.trans hc₁⟩
  | connect ht _ hs =>
    obtain ⟨-, -, ht₁, hc₁⟩ := ht.streams
    exact hsame ht.idle (hs.tasks.1.trans ht₁) (hs.tasks.2.trans hc₁)
  | closing ht _ _ =>
    obtain ⟨-, -, ht₁, hc₁⟩ := ht.streams
    obtain ⟨-, -, ht₂, hc₂⟩ := breakLoop_streams _ _
    exact hsame ht.idle (ht₂.trans ht₁) (hc₂.trans hc₁)
  | readError ht _ =>
    obtain ⟨-, -, ht₁, hc₁⟩ := ht.streams
    obtain ⟨-, -, ht₂, hc₂⟩ := breakLoop_streams _ _
    exact hsame ht.idle (ht₂.trans ht₁) (hc₂.trans hc₁)
  | drained hpc _ => exact hsame (by rw [hpc]; rfl) rfl rfl
  | tcpFailed hpc =>
    cases h with
    | resolver h =>
      obtain ⟨rfl, rfl, rfl, rfl, rfl⟩ := Pc.resolvingTcp.inj (hpc.symm.trans h)
      exact .failing rfl
    | failing h => cases hpc.symm.trans h
    | task hm hs hc hst => exact .task hm hs hc hst
    | posted hm hs hk => exact .posted hm hs hk
  | @spawned _ s' _ f' _ r _ hpc hfi =>
    obtain ⟨-, -, ht, hc⟩ := hfi.streams
    cases h with
    | resolver h =>
      obtain ⟨-, hs, -, hf, -⟩ := Pc.resolvingTcp.inj (hpc.symm.trans h)
      refine .task (t := ⟨s', f', f'.owner, .tcp, .spawned r⟩) ?_ hs hf rfl
      rw [ht]
      exact List.mem_append_right _ List.mem_cons_self
    | failing h => cases hpc.symm.trans h
    | task hm hs hf hst => exact .task (ht ▸ List.mem_append_left _ hm) hs hf hst
    | posted hm hs hk => exact .posted (hc ▸ hm) hs hk
  | sendFailed hpc hfi =>
    obtain ⟨-, -, ht, hc⟩ := hfi.streams
    cases h with
    | resolver h => cases hpc.symm.trans h
    | @failing _ reason h =>
      obtain ⟨-, rfl⟩ := Pc.sending.inj (hpc.symm.trans h)
      refine .posted (p := ⟨.tcpConnectFailed s reason, f⟩) ?_ rfl rfl
      rw [hc]
      exact List.mem_append_right _ List.mem_cons_self
    | task hm hs hf hst => exact .task (ht ▸ hm) hs hf hst
    | posted hm hs hk => exact .posted (hc ▸ List.mem_append_left _ hm) hs hk
  | udpRefused hpc hfi => exact hfin (by rw [hpc]; rfl) hfi ⟨rfl, rfl⟩
  | udpThrottled hpc hfi => exact hfin (by rw [hpc]; rfl) hfi ⟨rfl, rfl⟩
  | udpAccepted hpc _ hfi =>
    obtain ⟨-, -, ht, hc⟩ := hfi.streams
    refine h.mono (by rw [hpc]; rfl) ?_ (by rw [hc]; exact List.Subset.refl _)
    rw [ht]
    exact List.subset_append_left _ _
  | phase0 hpc hd => exact hsame (by rw [hpc]; rfl) hd.tasks.1 hd.tasks.2
  | phase0End hpc => exact hsame (by rw [hpc]; rfl) rfl rfl
  | deadEnd hpc => exact hsame (by rw [hpc]; rfl) rfl rfl
  | deadOne hpc => exact hsame (by rw [hpc]; rfl) rfl rfl
  | @event p rest q l₁ hctl hpc hd =>
    have hidle : l.pc.isConnect = false := by
      rcases hpc with ⟨hpc, -⟩ | ⟨hpc | hpc, -⟩ <;> rw [hpc] <;> rfl
    obtain ⟨ht, hc⟩ := hd.tasks
    cases h with
    | resolver h => rw [h] at hidle; cases hidle
    | failing h => rw [h] at hidle; cases hidle
    | task hm hs hf hst => exact .task (ht hm) hs hf hst
    | @posted p' hm hs hk' =>
      refine .posted ?_ hs hk'
      rw [hctl] at hm
      rcases List.mem_cons.mp hm with rfl | hm
      · rw [← hs] at hy
        rw [hd.resolves hy] at hk
        cases hk
      · exact hc ▸ hm
  | batch hpc =>
    refine hsame ?_ rfl rfl
    rcases hpc with ⟨hpc, -⟩ | ⟨hpc, -⟩ <;> rw [hpc] <;> rfl
  | restEnd hpc => exact hsame (by rw [hpc]; rfl) rfl rfl
  | timedOut hpc => exact hsame (by rw [hpc]; rfl) rfl rfl
  | noPing hpc => exact hsame (by rw [hpc]; rfl) rfl rfl
  | ping hpc => exact hsame (by rw [hpc]; rfl) rfl rfl

/-- A step adds to the control channel, or handles its first event. -/
theorem LoopStep.control_cases {r : Option WispFrameResult} (hs : LoopStep S l r l') :
    l.control <+: l'.control ∨
    ∃ p l₁, l.control = p :: l'.control ∧ Delivers S { l with control := l'.control } p l₁ ∧
      l'.entry = l₁.entry := by
  have hsame : l'.control = l.control → l.control <+: l'.control :=
    fun h => h ▸ List.prefix_rfl
  cases hs with
  | task _ hm =>
    cases hm with
    | post _ => exact .inl (List.prefix_append _ _)
    | _ => exact .inl List.prefix_rfl
  | start _ hf => exact .inl (hsame hf.streams.2.2.2)
  | deferred _ hi hf => exact .inl (hsame (hf.streams.2.2.2.trans hi.tasks.2))
  | deferredConnect _ hs => exact .inl (hsame hs.tasks.2)
  | inbound ht _ _ hi hf =>
    exact .inl (hsame (hf.streams.2.2.2.trans (hi.tasks.2.trans ht.streams.2.2.2)))
  | connect ht _ hs => exact .inl (hsame (hs.tasks.2.trans ht.streams.2.2.2))
  | closing ht _ _ => exact .inl (hsame ((breakLoop_streams _ _).2.2.2.trans ht.streams.2.2.2))
  | readError ht _ => exact .inl (hsame ((breakLoop_streams _ _).2.2.2.trans ht.streams.2.2.2))
  | spawned _ hf => exact .inl (hsame hf.streams.2.2.2)
  | sendFailed _ hf =>
    left
    rw [hf.streams.2.2.2]
    exact List.prefix_append _ _
  | udpRefused _ hf => exact .inl (hsame hf.streams.2.2.2)
  | udpThrottled _ hf => exact .inl (hsame hf.streams.2.2.2)
  | udpAccepted _ _ hf => exact .inl (hsame hf.streams.2.2.2)
  | phase0 _ hd => exact .inl (hsame hd.tasks.2)
  | @event p rest q l₁ hctl _ hd =>
    right
    have hrest : l₁.control = rest := hd.tasks.2
    refine ⟨p, l₁, ?_, ?_, rfl⟩
    · show l.control = p :: l₁.control
      rw [hctl, hrest]
    · show Delivers S { l with control := l₁.control } p l₁
      rw [hrest]
      exact hd
  | _ => exact .inl List.prefix_rfl

/-! ## The invariant -/

/-- The invariant: in a live connection, every Connecting entry has its flag unset and its attempt
under way. -/
structure ConnectsOk (l : Loop) : Prop extends OldFlags l where
  live : l.pc ≠ .ended → ∀ s cs, l.entry s = some (.connecting cs) →
    l.flags.isCancelled cs.cancel = false ∧ l.Resolving s cs.cancel

theorem mem_cancelled {F : Flags} {f : CancelFlag} : F.isCancelled f = true ↔ f ∈ F.cancelled := by
  simp [Flags.isCancelled]

theorem ConnectsOk.step {c c' : Conn} {r : Option WispFrameResult} (h : ConnectsOk c.loop)
    (hb : Base c.core) (hs : LoopStep S c.loop r c'.loop) : ConnectsOk c'.loop := by
  refine ⟨h.toOldFlags.change hs.change, ?_⟩
  intro hlive' s cs hy
  have hlive : c.loop.pc ≠ .ended := fun hpc => hlive' (hs.stays_ended hpc)
  rcases hs.change.entry_cases hy with ⟨x, hx, hflag, hk⟩ | ⟨hid, hlt, hpc⟩
  · cases x with
    | connecting cs₀ =>
      obtain ⟨hf, hres⟩ := h.live hlive s cs₀ hx
      have hcs : cs.cancel = cs₀.cancel := hflag
      rw [hcs]
      refine ⟨?_, hres.step hs hlive hf (fun t ht p hp => (hb.sending t ht p hp).2.1) hy rfl⟩
      -- A flag that is set now belongs to an entry of another id.
      rw [Bool.eq_false_iff]
      intro hset
      rcases hs.change.cancelled_cases (mem_cancelled.mp hset) with hold | ⟨s', x', hx', hc, hdone⟩
      · rw [mem_cancelled.mpr hold] at hf
        cases hf
      · have hss : s' = s := hb.entry_inj hx' hx (congrArg CancelFlag.owner hc)
        subst hss
        cases hdone _ hy
    | _ => cases hk
  · obtain ⟨site, connect, known, hpc⟩ := hpc rfl
    refine ⟨?_, .resolver hpc⟩
    rw [Bool.eq_false_iff]
    intro hset
    -- The flag is new, and every flag that is set is older.
    have hold : cs.cancel.id < c.loop.flags.next := by
      rcases hs.change.cancelled_cases (mem_cancelled.mp hset) with hold | ⟨s', x', hx', hc, -⟩
      · exact h.cancelled _ hold
      · rw [← hc]
        exact h.entry s' x' hx'
    have hid : cs.cancel.id = c.loop.flags.next := hid
    omega

theorem connectsOk_start (frame : Option (List UInt8)) : ConnectsOk (Conn.start S frame).loop where
  cancelled := nofun
  entry s x hx := by
    rw [Loop.start_entry] at hx
    cases hx
  live _ s cs hx := by
    rw [Loop.start_entry] at hx
    cases hx

theorem Reach.connectsOk {ok : Conn → Act → Conn → Prop} {c : Conn} (h : (sys S).Reach ok c) :
    ConnectsOk c.loop := by
  refine Reach.loop (I := ConnectsOk) connectsOk_start ?_ ?_ h
  · intro l wire credit seen h
    refine ⟨⟨h.cancelled, h.entry⟩, fun hlive s cs hx => ?_⟩
    obtain ⟨hf, hres⟩ := h.live hlive s cs hx
    exact ⟨hf, hres.congr rfl rfl rfl⟩
  · intro c a c' hr hi _ hs
    exact hi.step (Reach.base hr) hs

/-- In every reachable state of a live connection, a Connecting entry has its flag unset, and its
connect attempt is under way or its event is in the control channel; and no step that handles an
event of the id leaves the entry Connecting. -/
theorem connecting_resolves {c : Conn} (h : (sys S).Reach Sys.Any c) (hlive : c.pc ≠ .ended)
    {s : StreamId} {cs : ConnectingStream Octet} (hx : c.table.get? s = some (.connecting cs)) :
    (c.flags.isCancelled cs.cancel = false ∧ c.loop.Resolving s cs.cancel) ∧
    ∀ a c' p, step S c a = some c' → c.control.items = p :: c'.control.items →
      p.event.streamId = s → ∀ cs', c'.table.get? s ≠ some (.connecting cs') := by
  refine ⟨(Reach.connectsOk h).live hlive s cs hx, ?_⟩
  intro a c' p hs hp hsid cs' hx'
  have hlen : c'.control.items.length < c.control.items.length := by simp [hp]
  cases ha : a.isClient with
  | false =>
    rcases (step_loop ha hs).control_cases with hpre | ⟨p', l₁, hp', hd, he⟩
    · have hle : c.control.items.length ≤ c'.control.items.length := hpre.length_le
      omega
    · obtain rfl : p' = p := (List.cons.inj (hp'.symm.trans hp)).1
      have hy : l₁.entry p'.event.streamId = some (.connecting cs') := by
        rw [hsid, ← he]
        exact hx'
      cases hd.resolves hy
  | true =>
    obtain ⟨wire, credit, seen, hc⟩ := step_client ha hs
    have heq : c'.control.items = c.control.items := congrArg Loop.control hc
    rw [heq] at hlen
    omega

/-- Stream 1 was closed and opened again while its first connect task dialed: the first task's event
is in the channel, and the second entry's own attempt is at the resolver. -/
theorem connecting_resolves_reopened :
    ∃ c cs, (sys { config := {} }).Reach Sys.Any c ∧ c.table.get? 1 = some (.connecting cs) ∧
      c.control.items ≠ [] ∧ c.flags.isCancelled cs.cancel = false ∧ c.loop.Resolving 1 cs.cancel := by
  obtain ⟨c, cs, hr, hx, hp⟩ := Reach.exists_connecting { config := {} } Sys.Any
    (openOne ++ [closeOne, connectOne, .main { more := 1 }, .main {}, .task 0 .connected, .task 0 .go]) 1
    (fun c _ => c.pc != .ended && !c.control.items.isEmpty) (by decide +kernel)
  simp only [Bool.and_eq_true, bne_iff_ne, Bool.not_eq_true', List.isEmpty_eq_false_iff] at hp
  exact ⟨c, cs, hr, hx, hp.2, (connecting_resolves hr hp.1 hx).1⟩

end ShrimpWisp
