import ShrimpWisp.Proofs.Connecting
import ShrimpWisp.Proofs.Downstream
import ShrimpWisp.Proofs.Tracking

/-!
# Which streams are closed

The client learns from CLOSE frames which streams are closed. After a CLOSE the stream is out of the
table, unless the CLOSE refuses a CONNECT of an id that is in use. And a CONNECT is answered by at
most one CLOSE: the CLOSE frames of an id that were written, and those that may still follow
(`Loop.bill`), are together at most as many as its CONNECTs.

* A connect attempt and an end event under way are due one CLOSE each (`Loop.underway`).
* So is an entry, unless the event of its own flag is under way: it then stands for that event.
* The code does not see to the last point when a backend socket dies: an end event of the stream's
  reader that was sent before is not withdrawn, and answered by a second CLOSE (`CleanDeath`).
-/

namespace ShrimpWisp

variable {S : Setup} {l l' : Loop} {s : StreamId}

/-- A CLOSE of the stream. -/
def ClientFrame.isClose (s : StreamId) : ClientFrame → Bool
  | .close s' _ _ => s' == s
  | _ => false

/-- A CONNECT of the stream. -/
def WispFrameResult.isConnect (s : StreamId) : WispFrameResult → Bool
  | .wisp t s' _ => t == packetConnect && s' == s
  | .control _ => false

/-! ## What is due -/

/-- The flag of the CONNECT that the main task works on in `handle_tcp_connect`. -/
def Pc.underway (s : StreamId) : Pc → List CancelFlag
  | .resolvingTcp _ s' _ f _ => if s' = s then [f] else []
  | .sending _ p => if p.event.streamId = s then [p.origin] else []
  | _ => []

/-- The task has an event to send, or connects. -/
def TaskState.isUnderway : TaskState → Bool
  | .spawned _ | .dialing _ | .sendingControl _ => true
  | _ => false

def Task.underway (s : StreamId) (t : Task) : List CancelFlag :=
  if t.streamId = s ∧ t.state.isUnderway = true then [t.cancel] else []

def Posted.underway (s : StreamId) (p : Posted) : List CancelFlag :=
  if p.event.streamId = s then [p.origin] else []

/-- The flags of the tasks and events of an id that are under way. -/
def Loop.underway (l : Loop) (s : StreamId) : List CancelFlag :=
  l.tasks.flatMap (·.underway s) ++ l.control.flatMap (·.underway s)

/-- One for each flag under way, and one for an entry with another flag. -/
def owed (fs : List CancelFlag) : Option (ProxyStream Octet) → Nat
  | some x => if x.cancel ∈ fs then fs.length else fs.length + 1
  | none => fs.length

/-- The main task works on a UDP CONNECT of the id. -/
def Pc.udp (s : StreamId) : Pc → Nat
  | .resolvingUdp _ s' _ _ => if s' = s then 1 else 0
  | _ => 0

/-- The CLOSE frames of an id that were written. -/
def Loop.closes (l : Loop) (s : StreamId) : Nat := l.out.countP (·.isClose s)

/-- The CLOSE frames of an id that were written, and those that may still follow. -/
def Loop.bill (l : Loop) (s : StreamId) : Nat :=
  l.closes s + owed (l.pc.underway s ++ l.underway s) (l.entry s) + l.pc.udp s

/-- As `bill`, where the main task is not working on a CONNECT. -/
def Loop.idleBill (l : Loop) (s : StreamId) : Nat := l.closes s + owed (l.underway s) (l.entry s)

section Owed

variable {fs gs : List CancelFlag} {x : Option (ProxyStream Octet)}

theorem owed_perm (h : fs.Perm gs) (x : Option (ProxyStream Octet)) : owed fs x = owed gs x := by
  unfold owed
  simp only [h.length_eq, h.mem_iff]

theorem length_le_owed (fs : List CancelFlag) (x : Option (ProxyStream Octet)) :
    fs.length ≤ owed fs x := by
  unfold owed
  split
  · split <;> omega
  · exact Nat.le_refl _

theorem owed_le (fs : List CancelFlag) (x : Option (ProxyStream Octet)) :
    owed fs x ≤ fs.length + 1 := by
  unfold owed
  split
  · split <;> omega
  · omega

/-- Only the flag of the entry counts. -/
theorem owed_mono {y : Option (ProxyStream Octet)}
    (h : ∀ b, y = some b → ∃ a, x = some a ∧ b.cancel = a.cancel) : owed fs y ≤ owed fs x := by
  cases y with
  | none => exact length_le_owed fs x
  | some b =>
    obtain ⟨a, rfl, hab⟩ := h b rfl
    simp only [owed, hab, Nat.le_refl]

/-- Flags that are not under way any more: an entry of theirs stands for itself again. -/
theorem owed_drop (gs fs : List CancelFlag) (x : Option (ProxyStream Octet)) :
    owed fs x ≤ owed (gs ++ fs) x := by
  cases gs with
  | nil => exact Nat.le_refl _
  | cons f gs =>
    have hle := owed_le fs x
    have hge := length_le_owed (f :: gs ++ fs) x
    simp only [List.length_append, List.length_cons] at hge
    omega

/-- The event of an entry's own flag stands for the entry. -/
theorem owed_start {a : ProxyStream Octet} (h : a.cancel ∉ fs) :
    owed (a.cancel :: fs) (some a) = owed fs (some a) := by
  simp [owed, h]

/-! Tasks move: `A` are the flags of the tasks, `A'` those after the step, `C` those of the events. -/

variable {P A A' C us : List CancelFlag}

theorem owed_move (h : A'.Perm A) : owed (P ++ (A' ++ C)) x = owed (P ++ (A ++ C)) x :=
  owed_perm ((h.append_right _).append_left _) x

/-- The task is done without an event. -/
theorem owed_done (h : (A' ++ us).Perm A) : owed (P ++ (A' ++ C)) x ≤ owed (P ++ (A ++ C)) x := by
  have hperm : (P ++ (A ++ C)).Perm (us ++ (P ++ (A' ++ C))) := by
    rw [List.perm_iff_count]
    intro f
    have hf := h.count_eq f
    simp only [List.count_append] at hf ⊢
    omega
  rw [owed_perm hperm]
  exact owed_drop _ _ _

/-- The task's event goes into the channel. -/
theorem owed_post (h : (A' ++ us).Perm A) :
    owed (P ++ (A' ++ (C ++ us))) x = owed (P ++ (A ++ C)) x := by
  refine owed_perm ?_ x
  rw [List.perm_iff_count]
  intro f
  have hf := h.count_eq f
  simp only [List.count_append] at hf ⊢
  omega

/-- A reader starts to report the end of its entry. -/
theorem owed_report {a : ProxyStream Octet} (h : A'.Perm (A ++ [a.cancel]))
    (hn : a.cancel ∉ P ++ (A ++ C)) : owed (P ++ (A' ++ C)) (some a) = owed (P ++ (A ++ C)) (some a) := by
  have hperm : (P ++ (A' ++ C)).Perm (a.cancel :: (P ++ (A ++ C))) := by
    rw [List.perm_iff_count]
    intro f
    have hf := h.count_eq f
    simp only [List.count_append, List.count_cons, List.count_nil] at hf ⊢
    omega
  rw [owed_perm hperm, owed_start hn]

end Owed

/-! ## Changes of what is under way -/

/-- One element of a list is replaced. -/
theorem flatMap_set_perm {α β : Type} {as : List α} {i : Nat} {a : α} (h : as[i]? = some a) (b : α)
    (g : α → List β) : ((as.set i b).flatMap g ++ g a).Perm (as.flatMap g ++ g b) := by
  induction as generalizing i with
  | nil => cases h
  | cons c as ih =>
    cases i with
    | zero =>
      obtain rfl : c = a := Option.some.inj h
      simp only [List.set_cons_zero, List.flatMap_cons]
      refine List.perm_append_comm.trans ?_
      rw [List.append_assoc]
      exact List.perm_append_comm.append_left _
    | succ i =>
      simp only [List.set_cons_succ, List.flatMap_cons, List.append_assoc]
      exact (ih h).append_left _

theorem underway_of_idle {pc : Pc} (h : pc.attempt = .idle) (s : StreamId) : pc.underway s = [] := by
  cases pc <;> first | rfl | cases h

theorem udp_of_idle {pc : Pc} (h : pc.attempt = .idle) (s : StreamId) : pc.udp s = 0 := by
  cases pc <;> first | rfl | cases h

theorem bill_idle (h : l.pc.attempt = .idle) : l.bill s = l.idleBill s := by
  unfold Loop.bill Loop.idleBill
  rw [underway_of_idle h, udp_of_idle h, List.nil_append, Nat.add_zero]

/-- The parts of a bill. -/
theorem idleBill_congr (he : l'.entry s = l.entry s) (ht : l'.tasks = l.tasks)
    (hc : l'.control = l.control) (hcl : l'.closes s = l.closes s) : l'.idleBill s = l.idleBill s := by
  unfold Loop.idleBill Loop.underway
  rw [he, ht, hc, hcl]

/-- Some frames are written, and the entry keeps its flag or goes. -/
theorem idleBill_le {k : Nat} (ht : l'.tasks = l.tasks) (hc : l'.control = l.control)
    (hcl : l'.closes s ≤ l.closes s + k)
    (hx : ∀ y, l'.entry s = some y → ∃ x, l.entry s = some x ∧ y.cancel = x.cancel) :
    l'.idleBill s ≤ l.idleBill s + k := by
  have hle : owed (l.underway s) (l'.entry s) ≤ owed (l.underway s) (l.entry s) := owed_mono hx
  unfold Loop.idleBill
  rw [show l'.underway s = l.underway s by unfold Loop.underway; rw [ht, hc]]
  omega

/-- An entry goes, and no event of its flag is under way: it made room for one CLOSE. -/
theorem idleBill_dead {x : ProxyStream Octet} (ht : l'.tasks = l.tasks) (hc : l'.control = l.control)
    (hcl : l'.closes s ≤ l.closes s + 1) (hx : l.entry s = some x) (hn : l'.entry s = none)
    (hflag : x.cancel ∉ l.underway s) : l'.idleBill s ≤ l.idleBill s := by
  unfold Loop.idleBill
  rw [show l'.underway s = l.underway s by unfold Loop.underway; rw [ht, hc], hx, hn]
  simp only [owed, hflag, if_false]
  omega

theorem Loop.closes_emit (l : Loop) (fs : List ClientFrame) (s : StreamId) :
    (l.emit fs).closes s ≤ l.closes s + fs.countP (·.isClose s) := by
  unfold Loop.closes
  rw [Loop.emit_out, List.countP_append]
  split
  · exact Nat.le_refl _
  · exact Nat.le_add_right _ _

theorem closes_close (s s' : StreamId) (reason : CloseReason) (cause : Option CancelFlag) :
    [ClientFrame.close s' reason cause].countP (·.isClose s) = if s' = s then 1 else 0 := by
  simp [ClientFrame.isClose]

theorem flushThen_closes (l : Loop) (q : Pc) (s : StreamId) :
    (l.flushThen q).closes s = l.closes s := by
  have hcont : l.continueFrames.countP (·.isClose s) = 0 := by
    rw [List.countP_eq_zero]
    intro f hf
    obtain ⟨p, -, rfl⟩ := List.mem_map.mp hf
    exact Bool.false_ne_true
  unfold Loop.closes
  rw [show (l.flushThen q).out = l.out ++ if l.up then l.continueFrames else [] from l.emit_out _,
    List.countP_append]
  split
  · rw [hcont, Nat.add_zero]
  · rfl

theorem Finishes.closes {site : Site} (h : Finishes l site l') : l'.closes s = l.closes s := by
  cases h with
  | flush _ => exact flushThen_closes ..
  | yield => exact flushThen_closes ..
  | next => rfl

theorem breakLoop_closes (l : Loop) (site : Site) (s : StreamId) :
    (l.breakLoop site).closes s = l.closes s := by
  cases site with
  | inner => exact flushThen_closes ..
  | deferred => rfl
  | select => rfl

theorem Takes.closes {site : Site} {i : WsInput} (h : Takes l site i l') :
    l'.closes s = l.closes s := by
  unfold Loop.closes
  rw [h.pc.2.1]

theorem Takes.attempt {site : Site} {i : WsInput} (h : Takes l site i l') :
    l.pc.attempt = .idle := by
  rcases h.pc.1 with ⟨hpc, -⟩ | ⟨hpc, -⟩ <;> rw [hpc] <;> rfl

theorem flushThen_idle {q : Pc} (h : q.attempt = .idle) : (l.flushThen q).pc.attempt = .idle := by
  unfold Loop.flushThen
  dsimp only
  split
  · exact h
  · rfl

theorem Finishes.idle {site : Site} (h : Finishes l site l') : l'.pc.attempt = .idle := by
  cases h with
  | flush _ => exact flushThen_idle rfl
  | yield => exact flushThen_idle rfl
  | next => rfl

theorem Finishes.bill {site : Site} (h : Finishes l site l') : l'.bill s = l.idleBill s := by
  obtain ⟨he, -, ht, hc⟩ := h.streams
  rw [bill_idle h.idle]
  exact idleBill_congr (by rw [he]) ht hc h.closes

/-! ## The parts of a step -/

/-- A frame is handled: a CONNECT that is refused is answered by one CLOSE. -/
theorem Inbound.bill {r : WispFrameResult} (hi : Inbound S l r l')
    (hdead : ∀ payload tcp, r = .wisp packetData s payload → l.entry s = some (.tcp tcp) →
      l'.entry s = none → tcp.cancel ∉ l.underway s) :
    l'.idleBill s ≤ l.idleBill s + if r.isConnect s then 1 else 0 := by
  -- The entry of `s'` is replaced by one with the same flag, or goes.
  have hput : ∀ s' x, l'.entry = (l.put s' x).entry →
      (∀ y, x = some y → ∃ x₀, l.entry s' = some x₀ ∧ y.cancel = x₀.cancel) →
      ∀ y, l'.entry s = some y → ∃ x, l.entry s = some x ∧ y.cancel = x.cancel := by
    intro s' x he hx y hy
    simp only [he, Loop.put] at hy
    split at hy
    · rename_i heq
      rw [heq]
      exact hx y hy
    · exact ⟨y, hy, rfl⟩
  have hsame : ∀ y, l.entry s = some y → ∃ x, l.entry s = some x ∧ y.cancel = x.cancel :=
    fun y hy => ⟨y, hy, rfl⟩
  have hcalm : l'.tasks = l.tasks → l'.control = l.control → l'.closes s ≤ l.closes s →
      (∀ y, l'.entry s = some y → ∃ x, l.entry s = some x ∧ y.cancel = x.cancel) →
      l'.idleBill s ≤ l.idleBill s + if r.isConnect s then 1 else 0 :=
    fun ht hc hcl hx => (idleBill_le (k := 0) ht hc hcl hx).trans (Nat.le_add_right _ _)
  cases hi with
  | ignored _ => exact Nat.le_add_right _ _
  | early hx =>
    refine hcalm rfl rfl (Nat.le_refl _) (hput _ _ rfl ?_)
    rintro _ ⟨⟩
    exact ⟨_, hx, rfl⟩
  | upload hx hw =>
    refine hcalm rfl rfl (Nat.le_refl _) (hput _ _ rfl ?_)
    rintro _ ⟨⟩
    exact ⟨_, hx, (counted_frame S _).2.2.trans (tcpTryWrite_frame hw).2.2.2⟩
  | @uploadDead s' payload tcp _ _ _ _ hx hw =>
    refine Nat.le_add_right_of_le ?_
    have hcl := Loop.closes_emit (l.put s' none) [.close s' .networkError none] s
    rw [closes_close] at hcl
    by_cases hs : s' = s
    · subst hs
      rw [if_pos rfl] at hcl
      have hn : (l.put s' none).entry s' = none := if_pos rfl
      exact idleBill_dead rfl rfl hcl hx hn (hdead payload tcp rfl hx hn)
    · rw [if_neg hs] at hcl
      exact idleBill_le (k := 0) rfl rfl hcl (hput s' none rfl (by simp))
  | close => exact hcalm rfl rfl (Nat.le_refl _) (hput _ _ rfl (by simp))
  | @refused s' payload reason _ =>
    have hcl := Loop.closes_emit l [.close s' reason none] s
    rw [closes_close] at hcl
    have hle : (l.emit [.close s' reason none]).idleBill s ≤ l.idleBill s + _ :=
      idleBill_le rfl rfl hcl hsame
    refine hle.trans (Nat.le_of_eq ?_)
    simp [WispFrameResult.isConnect]
  | @throttled s' payload k _ =>
    have hcl := Loop.closes_emit (l.newFlag k) [.close s' .throttled none] s
    rw [closes_close] at hcl
    have hle : ((l.newFlag k).emit [.close s' .throttled none]).idleBill s ≤ l.idleBill s + _ :=
      idleBill_le rfl rfl hcl hsame
    refine hle.trans (Nat.le_of_eq ?_)
    simp [WispFrameResult.isConnect]
  | pong => exact hcalm rfl rfl (Loop.closes_emit ..) hsame

/-- A CONNECT that is accepted as far as the resolver has an attempt under way. -/
theorem Suspends.bill {site : Site} {r : WispFrameResult} (hs : Suspends l site r l') :
    l'.bill s ≤ l.idleBill s + if r.isConnect s then 1 else 0 := by
  cases hs with
  | @tcp s' payload connect k known hn =>
    by_cases hss : s' = s
    · subst hss
      unfold Loop.bill Loop.idleBill
      simp only [Pc.underway, Loop.put, if_true, Pc.udp, owed, hn, List.singleton_append,
        ConnectingStream.new, ProxyStream.cancel, List.mem_cons_self, List.length_cons,
        WispFrameResult.isConnect, beq_self_eq_true, Bool.and_self]
      exact Nat.le_refl _
    · have hne : ¬ s = s' := fun h => hss h.symm
      unfold Loop.bill Loop.idleBill
      simp only [Pc.underway, Loop.put, hss, hne, if_false, Pc.udp, List.nil_append]
      exact Nat.le_add_right _ _
  | @udp s' payload connect known hn =>
    unfold Loop.bill Loop.idleBill
    simp only [Pc.underway, Pc.udp, List.nil_append, WispFrameResult.isConnect, beq_self_eq_true,
      Bool.true_and, beq_iff_eq]
    exact Nat.le_refl _

/-- A reader that is spawned has nothing under way. -/
theorem Delivers.underway {p : Posted} (hd : Delivers S l p l') : l'.underway s = l.underway s := by
  cases hd with
  | @attach s' _ _ _ cs _ _ _ _ =>
    have htop : ∀ (f : CancelFlag) (sock : Inc),
        Task.underway s ⟨s', f, sock, .tcp, .top⟩ = [] := fun _ _ => if_neg (by simp [TaskState.isUnderway])
    unfold Loop.underway Loop.emit
    simp only [List.flatMap_append, List.flatMap_singleton, htop, List.append_nil]
    rfl
  | _ => rfl

/-- The event's own id: one CLOSE at most, and after it no entry. -/
theorem Delivers.own {p : Posted} (hd : Delivers S l p l') (fs : List CancelFlag) :
    l'.closes p.event.streamId + owed fs (l'.entry p.event.streamId) ≤
      l.closes p.event.streamId + fs.length + 1 := by
  have hcalm : l'.closes p.event.streamId ≤ l.closes p.event.streamId →
      l'.closes p.event.streamId + owed fs (l'.entry p.event.streamId) ≤
        l.closes p.event.streamId + fs.length + 1 := by
    intro hcl
    have hle := owed_le fs (l'.entry p.event.streamId)
    omega
  have hclose : l'.closes p.event.streamId ≤ l.closes p.event.streamId + 1 →
      l'.entry p.event.streamId = none →
      l'.closes p.event.streamId + owed fs (l'.entry p.event.streamId) ≤
        l.closes p.event.streamId + fs.length + 1 := by
    intro hcl hn
    rw [hn]
    simp only [owed]
    omega
  cases hd with
  | @ended s' reason hp =>
    have hs : p.event.streamId = s' := by rcases hp with hp | hp <;> rw [hp] <;> rfl
    have hcl := Loop.closes_emit (l.removeEntry s') [.close s' reason (some p.origin)] s'
    rw [closes_close, if_pos rfl] at hcl
    rw [hs] at hclose ⊢
    exact hclose hcl (if_pos rfl)
  | absent _ _ => exact hcalm (Nat.le_refl _)
  | other _ _ _ => exact hcalm (Nat.le_refl _)
  | attach _ _ => exact hcalm (Loop.closes_emit ..)
  | @attachDead s' _ _ _ _ hp hx =>
    have hs : p.event.streamId = s' := by rw [hp]; rfl
    have hcl := Loop.closes_emit (l.put s' none) [.close s' .networkError none] s'
    rw [closes_close, if_pos rfl] at hcl
    rw [hs] at hclose ⊢
    exact hclose hcl (if_pos rfl)

theorem Delivers.elsewhere {p : Posted} (hd : Delivers S l p l') (hs : p.event.streamId ≠ s) :
    l'.closes s ≤ l.closes s ∧ l'.entry s = l.entry s := by
  have hput : ∀ {s' x}, p.event.streamId = s' → (l.put s' x).entry s = l.entry s := by
    rintro s' x rfl
    exact if_neg (Ne.symm hs)
  have hclose : ∀ {l₁ : Loop} {s' reason cause}, p.event.streamId = s' →
      (l₁.emit [.close s' reason cause]).closes s ≤ l₁.closes s := by
    rintro l₁ s' reason cause rfl
    have hcl := Loop.closes_emit l₁ [.close p.event.streamId reason cause] s
    rw [closes_close, if_neg hs] at hcl
    exact hcl
  cases hd with
  | @ended s' reason hp =>
    have hs' : p.event.streamId = s' := by rcases hp with hp | hp <;> rw [hp] <;> rfl
    exact ⟨hclose hs', hput hs'⟩
  | absent _ _ => exact ⟨Nat.le_refl _, rfl⟩
  | other _ _ _ => exact ⟨Nat.le_refl _, rfl⟩
  | attach hp _ => exact ⟨Loop.closes_emit .., hput (by rw [hp]; rfl)⟩
  | attachDead hp _ => exact ⟨hclose (by rw [hp]; rfl), hput (by rw [hp]; rfl)⟩

/-- An event is handled. The event itself made room for one CLOSE. -/
theorem Delivers.bill {p : Posted} (hd : Delivers S l p l') :
    l'.idleBill s ≤ l.closes s + owed (p.underway s ++ l.underway s) (l.entry s) := by
  unfold Loop.idleBill
  rw [hd.underway]
  by_cases hs : p.event.streamId = s
  · subst hs
    have hle := hd.own (l.underway p.event.streamId)
    have hge := length_le_owed (p.origin :: l.underway p.event.streamId) (l.entry p.event.streamId)
    rw [Posted.underway, if_pos rfl, List.singleton_append]
    simp only [List.length_cons] at hge
    omega
  · obtain ⟨hcl, he⟩ := hd.elsewhere hs
    rw [Posted.underway, if_neg hs, List.nil_append, he]
    omega

/-! ## Tasks -/

/-- A reader that still reads has no event under way. -/
theorem Flow.not_underway {c : Conn} (hw : Flow c.core) {t : Task} (ht : t ∈ c.tasks)
    (hst : t.state = .reading) (s : StreamId) :
    t.cancel ∉ c.loop.pc.underway s ++ c.loop.underway s := by
  unfold Loop.underway
  simp only [List.mem_append, List.mem_flatMap]
  rintro (hp | ⟨u, hu, hmem⟩ | ⟨p, hp, hmem⟩)
  · -- The main task works on a CONNECT whose flag no task has.
    have htry : c.core.Trying s t.cancel := by
      have hp : t.cancel ∈ c.pc.underway s := hp
      unfold Core.Trying
      unfold Pc.underway at hp
      show (∃ connect known, c.pc.attempt = _) ∨ ∃ p, c.pc.attempt = _ ∧ _
      split at hp
      · rename_i hpc
        split at hp
        · rename_i heq
          rw [List.mem_singleton] at hp
          exact .inl ⟨_, _, by rw [hpc, heq, hp]; rfl⟩
        · cases hp
      · rename_i hpc
        split at hp
        · rename_i heq
          rw [List.mem_singleton] at hp
          exact .inr ⟨_, by rw [hpc]; rfl, heq, hp.symm⟩
        · cases hp
      · cases hp
    exact (hw.trying s t.cancel htry).2.1 t ht rfl
  · -- Another task with the same flag.
    unfold Task.underway at hmem
    split at hmem
    · rename_i h
      rw [List.mem_singleton] at hmem
      obtain rfl : t = u := List.inj_on_of_nodup_map hw.distinct ht hu hmem
      rw [hst] at h
      cases h.2
    · cases hmem
  · unfold Posted.underway at hmem
    split at hmem
    · rw [List.mem_singleton] at hmem
      have hdone := (hw.posted p hp).done t ht hmem
      rw [hst] at hdone
      cases hdone
    · cases hmem

theorem TaskMoves.bill {c : Conn} (hb : Base c.core) (hw : Flow c.core) {i : Nat} {t : Task}
    {st : TaskState} {control : List Posted} (ht : c.tasks[i]? = some t)
    (hm : TaskMoves c.loop t st control) :
    Loop.bill { c.loop with tasks := c.loop.tasks.set i { t with state := st }, control } s ≤
      c.loop.bill s := by
  have hmem : t ∈ c.tasks := List.mem_of_getElem? ht
  have hperm := flatMap_set_perm ht { t with state := st } (Task.underway s)
  refine Nat.add_le_add_right (Nat.add_le_add_left ?_ _) _
  have hdone : ∀ st', st' = TaskState.done → Task.underway s { t with state := st' } = [] := by
    rintro _ rfl
    exact if_neg (by simp [TaskState.isUnderway])
  -- The task is under way before and after the move, or neither.
  have hsame : t.state.isUnderway = st.isUnderway →
      Task.underway s { t with state := st } = t.underway s := by
    intro hu
    unfold Task.underway
    rw [hu]
  have hmove : t.state.isUnderway = st.isUnderway → control = c.control.items →
      owed (c.loop.pc.underway s ++ Loop.underway
        { c.loop with tasks := c.loop.tasks.set i { t with state := st }, control } s) (c.table.get? s) ≤
      owed (c.loop.pc.underway s ++ c.loop.underway s) (c.table.get? s) := by
    rintro hu rfl
    rw [hsame hu, List.perm_append_right_iff] at hperm
    exact Nat.le_of_eq (owed_move hperm)
  cases hm with
  | gone _ =>
    rw [hdone _ rfl, List.append_nil] at hperm
    exact owed_done hperm
  | cancelled _ _ _ =>
    rw [hdone _ rfl, List.append_nil] at hperm
    exact owed_done hperm
  | dial h => exact hmove (by rw [h]; rfl) rfl
  | connected h => exact hmove (by rw [h]; rfl) rfl
  | connectFailed h => exact hmove (by rw [h]; rfl) rfl
  | startRead h => exact hmove (by rw [h]; rfl) rfl
  | read h => exact hmove (by rw [h]; rfl) rfl
  | sendData h => exact hmove (by rw [h]; rfl) rfl
  | @readEnd reason h hf =>
    have hnone : t.underway s = [] := if_neg (by rw [h]; simp [TaskState.isUnderway])
    rw [hnone, List.append_nil] at hperm
    by_cases hs : t.streamId = s
    · -- The flag is unset, so the entry is the reader's own.
      subst hs
      obtain ⟨x, hx, hflag⟩ := hb.flagged t.streamId t.cancel (.task hmem) hf
      have hself : Task.underway t.streamId
          { t with state := .sendingControl ⟨.streamClosed t.streamId reason, t.cancel⟩ } =
          [x.cancel] := by
        rw [hflag]
        exact if_pos ⟨rfl, rfl⟩
      rw [hself] at hperm
      have hn := hw.not_underway hmem h t.streamId
      rw [← hflag] at hn
      have hx : c.loop.entry t.streamId = some x := hx
      rw [hx]
      exact Nat.le_of_eq (owed_report hperm hn)
    · have hother : Task.underway s
          { t with state := .sendingControl ⟨.streamClosed t.streamId reason, t.cancel⟩ } = [] :=
        if_neg fun h => hs h.1
      rw [hother, List.append_nil] at hperm
      exact Nat.le_of_eq (owed_move hperm)
  | @post p h =>
    obtain ⟨horigin, hsid, -⟩ := hb.sending t hmem p h
    have hevent : t.underway s = p.underway s := by
      unfold Task.underway Posted.underway
      rw [h, horigin, hsid]
      simp [TaskState.isUnderway]
    rw [hdone _ rfl, List.append_nil, hevent] at hperm
    unfold Loop.underway
    rw [show List.flatMap (Posted.underway s) (c.loop.control ++ [p]) =
      c.loop.control.flatMap (Posted.underway s) ++ p.underway s by simp]
    exact Nat.le_of_eq (owed_post hperm)

/-! ## Streams with a dead socket -/

/-- The streams that Phase 0 found dead are connected, each of them once. -/
structure DeadOk (l : Loop) : Prop where
  phase0 : ∀ todo kept dead, l.pc = .phase0 todo kept dead → dead.Nodup ∧
    ∀ s ∈ dead, s ∉ todo ∧ ∃ tcp, l.entry s = some (.tcp tcp)
  removal : ∀ dead, l.pc = .phase0Dead dead → dead.Nodup ∧
    ∀ s ∈ dead, ∃ tcp, l.entry s = some (.tcp tcp)

theorem DeadOk.of_pc (h₁ : ∀ todo kept dead, l.pc = .phase0 todo kept dead → dead = [])
    (h₂ : ∀ dead, l.pc ≠ .phase0Dead dead) : DeadOk l where
  phase0 todo kept dead hpc := by simp [h₁ todo kept dead hpc]
  removal dead hpc := absurd hpc (h₂ dead)

theorem deadOk_flushThen {q : Pc} (h₁ : ∀ todo kept dead, q = .phase0 todo kept dead → dead = [])
    (h₂ : ∀ dead, q ≠ .phase0Dead dead) : DeadOk (l.flushThen q) := by
  refine .of_pc ?_ ?_ <;> unfold Loop.flushThen <;> dsimp only <;> split
  · exact h₁
  · nofun
  · exact h₂
  · nofun

theorem deadOk_finishes {site : Site} (hf : Finishes l site l') : DeadOk l' := by
  cases hf with
  | flush _ => exact deadOk_flushThen nofun nofun
  | yield =>
    refine deadOk_flushThen ?_ nofun
    rintro _ _ _ ⟨⟩
    rfl
  | next => exact .of_pc nofun nofun

theorem deadOk_suspends {site : Site} {r : WispFrameResult} (hs : Suspends l site r l') :
    DeadOk l' := by
  cases hs <;> exact .of_pc nofun nofun

theorem deadOk_ended (h : l.pc = .ended) : DeadOk l := by
  refine .of_pc ?_ ?_ <;> rw [h] <;> nofun

/-- Phase 0 visits an id: the other entries stay, and a dead one is still connected. -/
theorem Drains.entries {keep died : Bool} (hd : Drains l s keep died l') :
    (∀ s', s' ≠ s → l'.entry s' = l.entry s') ∧
      (died = true → ∃ tcp, l'.entry s = some (.tcp tcp)) := by
  have hput : ∀ x, ∀ s', s' ≠ s → (l.put s x).entry s' = l.entry s' := fun _ _ hne => if_neg hne
  cases hd with
  | other _ => exact ⟨fun _ _ => rfl, nofun⟩
  | empty _ _ => exact ⟨hput _, nofun⟩
  | dead _ _ => exact ⟨hput _, fun _ => ⟨_, if_pos rfl⟩⟩
  | sent _ _ _ => exact ⟨hput _, nofun⟩
  | kept _ _ _ => exact ⟨hput _, nofun⟩

/-- Phase 0 keeps the flags of the entries. -/
theorem Drains.flags {keep died : Bool} {s' : StreamId} (hd : Drains l s' keep died l') :
    ∀ y, l'.entry s = some y → ∃ x, l.entry s = some x ∧ y.cancel = x.cancel := by
  have hput : ∀ {tcp tcp' : TcpProxyStream Octet}, l.entry s' = some (.tcp tcp) →
      tcp'.cancel = tcp.cancel → ∀ y, (l.put s' (some (.tcp tcp'))).entry s = some y →
      ∃ x, l.entry s = some x ∧ y.cancel = x.cancel := by
    intro tcp tcp' hx hc y hy
    simp only [Loop.put] at hy
    split at hy
    · rename_i heq
      cases hy
      exact ⟨.tcp tcp, by rw [heq]; exact hx, hc⟩
    · exact ⟨y, hy, rfl⟩
  cases hd with
  | other _ => exact fun y hy => ⟨y, hy, rfl⟩
  | empty hx _ => exact hput hx rfl
  | dead hx _ => exact hput hx (drainPending_frame _ _).2.2.2
  | sent hx _ _ => exact hput hx (drainPending_frame _ _).2.2.2
  | kept hx _ _ => exact hput hx (drainPending_frame _ _).2.2.2

theorem DeadOk.step {r : Option WispFrameResult} (h : DeadOk l) (htrack : TrackOk l)
    (hs : LoopStep S l r l') : DeadOk l' := by
  cases hs with
  | nop => exact h
  | down => exact ⟨h.phase0, h.removal⟩
  | task _ _ => exact ⟨h.phase0, h.removal⟩
  | start _ hf => exact deadOk_finishes hf
  | deferred _ _ hf => exact deadOk_finishes hf
  | deferredConnect _ hs => exact deadOk_suspends hs
  | inbound _ _ _ _ hf => exact deadOk_finishes hf
  | connect _ _ hs => exact deadOk_suspends hs
  | closing _ _ _ => exact deadOk_ended (Loop.breakLoop_pc _ _)
  | readError _ _ => exact deadOk_ended (Loop.breakLoop_pc _ _)
  | drained _ _ =>
    refine deadOk_flushThen ?_ nofun
    rintro _ _ _ ⟨⟩
    rfl
  | tcpFailed _ => exact .of_pc nofun nofun
  | spawned _ hf => exact deadOk_finishes hf
  | sendFailed _ hf => exact deadOk_finishes hf
  | udpRefused _ hf => exact deadOk_finishes hf
  | udpThrottled _ hf => exact deadOk_finishes hf
  | udpAccepted _ _ hf => exact deadOk_finishes hf
  | @phase0 s todo kept dead keep died l₁ hpc hd =>
    obtain ⟨hnodup, hdead⟩ := h.phase0 _ _ _ hpc
    obtain ⟨hother, hself⟩ := hd.entries
    have hlist : s ∉ todo := by
      have hn := htrack.nodup
      rw [htrack.phase0 _ _ _ hpc] at hn
      exact (List.nodup_cons.mp (List.nodup_append.mp hn).2.1).1
    have hnew : s ∉ dead := fun hs => (hdead s hs).1 List.mem_cons_self
    have hold : ∀ s' ∈ dead, s' ∉ todo ∧ ∃ tcp, l₁.entry s' = some (.tcp tcp) := by
      intro s' hs'
      obtain ⟨hn, htcp⟩ := hdead s' hs'
      rw [hother s' (fun heq => hnew (heq ▸ hs'))]
      exact ⟨fun hm => hn (List.mem_cons_of_mem _ hm), htcp⟩
    refine ⟨?_, nofun⟩
    rintro _ _ _ ⟨⟩
    cases died with
    | false => exact ⟨hnodup, hold⟩
    | true =>
      refine ⟨List.concat_eq_append ▸ hnodup.concat hnew, ?_⟩
      intro s' hs'
      rcases List.mem_append.mp hs' with hs' | hs'
      · exact hold s' hs'
      · rw [List.mem_singleton] at hs'
        subst hs'
        exact ⟨hlist, hself rfl⟩
  | phase0End hpc =>
    obtain ⟨hnodup, hdead⟩ := h.phase0 _ _ _ hpc
    refine ⟨nofun, ?_⟩
    rintro _ ⟨⟩
    exact ⟨hnodup, fun s hs => (hdead s hs).2⟩
  | deadEnd _ => exact .of_pc nofun nofun
  | @deadOne s dead hpc =>
    obtain ⟨hnodup, hdead⟩ := h.removal _ hpc
    obtain ⟨hs, hnodup⟩ := List.nodup_cons.mp hnodup
    refine ⟨nofun, ?_⟩
    rintro _ ⟨⟩
    refine ⟨hnodup, fun s' hs' => ?_⟩
    obtain ⟨tcp, hx⟩ := hdead s' (List.mem_cons_of_mem _ hs')
    have hne : s' ≠ s := by
      rintro rfl
      exact hs hs'
    exact ⟨tcp, (if_neg hne).trans hx⟩
  | event _ hpc _ =>
    refine .of_pc ?_ ?_ <;> rcases hpc with ⟨-, rfl⟩ | ⟨-, rfl⟩ <;> nofun
  | batch hpc =>
    refine .of_pc ?_ ?_ <;> rcases hpc with ⟨-, rfl⟩ | ⟨-, rfl⟩ <;> dsimp only <;> split <;> nofun
  | restEnd _ => exact .of_pc nofun nofun
  | timedOut _ => exact deadOk_ended rfl
  | noPing _ => exact .of_pc nofun nofun
  | ping _ => exact .of_pc nofun nofun

theorem Reach.deadOk {ok : Conn → Act → Conn → Prop} {c : Conn} (h : (sys S).Reach ok c) :
    DeadOk c.loop :=
  Reach.loop (I := DeadOk) (fun _ => .of_pc nofun nofun) (fun _ _ _ _ hi => ⟨hi.phase0, hi.removal⟩)
    (fun _ _ _ hr hi _ hs => hi.step (Reach.trackOk hr) hs) h

/-! ## Steps -/

section Resolved

variable {site : Site} {s' : StreamId} {connect : ConnectPayload} {known : Option Resolved}

/-- The connect task that is spawned owes what the main task did. -/
theorem bill_spawned {cancel : CancelFlag} (hpc : l.pc = .resolvingTcp site s' connect cancel known)
    (res : Resolved) :
    Loop.idleBill
      { l with tasks := l.tasks ++ [⟨s', cancel, cancel.owner, .tcp, .spawned res⟩] } s =
      l.bill s := by
  have htask : Task.underway s ⟨s', cancel, cancel.owner, .tcp, .spawned res⟩ =
      (Pc.resolvingTcp site s' connect cancel known).underway s := by
    simp [Task.underway, Pc.underway, TaskState.isUnderway]
  unfold Loop.bill Loop.idleBill Loop.underway
  rw [hpc]
  refine congrArg _ (owed_perm ?_ _)
  simp only [List.flatMap_append, List.flatMap_singleton, htask]
  rw [List.append_assoc]
  exact List.perm_append_comm_assoc _ _ _

/-- The event that the main task sent owes what the main task did. -/
theorem bill_sent {p : Posted} (hpc : l.pc = .sending site p) :
    Loop.idleBill { l with control := l.control ++ [p] } s = l.bill s := by
  have hpost : Posted.underway s p = (Pc.sending site p).underway s := rfl
  unfold Loop.bill Loop.idleBill Loop.underway
  rw [hpc]
  refine congrArg _ (owed_perm ?_ _)
  simp only [List.flatMap_append, List.flatMap_singleton, hpost]
  rw [← List.append_assoc]
  exact List.perm_append_comm

/-- The CLOSE that answers a UDP CONNECT was on the bill. -/
theorem bill_udpClosed (hpc : l.pc = .resolvingUdp site s' connect known) (he : l'.entry = l.entry)
    (ht : l'.tasks = l.tasks) (hc : l'.control = l.control) (hcl : l'.closes s = l.closes s)
    (reason : CloseReason) : (l'.emit [.close s' reason none]).idleBill s ≤ l.bill s := by
  have hclose := l'.closes_emit [.close s' reason none] s
  rw [closes_close, hcl] at hclose
  have hle : (l'.emit [.close s' reason none]).idleBill s ≤ l.idleBill s + if s' = s then 1 else 0 := by
    refine idleBill_le ht hc hclose ?_
    intro y hy
    exact ⟨y, by rw [← he]; exact hy, rfl⟩
  refine hle.trans (Nat.le_of_eq ?_)
  unfold Loop.bill Loop.idleBill
  rw [hpc]
  rfl

/-- The entry of a UDP stream takes the place of its CONNECT. -/
theorem bill_udpAccepted (hpc : l.pc = .resolvingUdp site s' connect known) (hn : l.entry s' = none)
    (k : Inc) (addr : SocketAddr) :
    Loop.idleBill
      { (l.newFlag k).put s' (some (.udp ⟨k, addr, (l.flags.new k).1⟩)) with
        tasks := l.tasks ++ [⟨s', (l.flags.new k).1, k, .udp, .top⟩] } s ≤ l.bill s := by
  have htask : ∀ f, Task.underway s ⟨s', f, k, .udp, .top⟩ = [] :=
    fun _ => if_neg (by simp [TaskState.isUnderway])
  unfold Loop.bill Loop.idleBill Loop.underway
  rw [hpc]
  simp only [List.flatMap_append, List.flatMap_singleton, htask, List.append_nil, Pc.underway,
    Pc.udp, List.nil_append]
  by_cases hs : s' = s
  · subst hs
    have hle := owed_le (l.tasks.flatMap (·.underway s') ++ l.control.flatMap (·.underway s'))
      (some (.udp ⟨k, addr, (l.flags.new k).1⟩))
    simp only [Loop.put, if_true, hn]
    exact Nat.add_le_add_left hle _
  · simp only [Loop.put, if_neg (Ne.symm hs), if_neg hs]
    exact Nat.le_refl _

end Resolved

/-- A dead stream is removed and its CLOSE written. -/
theorem bill_dead {s' : StreamId} {tcp : TcpProxyStream Octet} (hx : l.entry s' = some (.tcp tcp))
    (hclean : s' = s → tcp.cancel ∉ l.underway s) :
    ((l.removeEntry s').emit [.close s' .networkError none]).idleBill s ≤ l.idleBill s := by
  have hcl := (l.removeEntry s').closes_emit [.close s' .networkError none] s
  rw [closes_close] at hcl
  by_cases hs : s' = s
  · subst hs
    rw [if_pos rfl] at hcl
    exact idleBill_dead rfl rfl hcl hx (if_pos rfl) (hclean rfl)
  · rw [if_neg hs] at hcl
    refine idleBill_le (k := 0) rfl rfl hcl ?_
    intro y hy
    exact ⟨y, (if_neg (Ne.symm hs)).symm.trans hy, rfl⟩

/-- A step writes no more CLOSE frames of an id than its bill allows; a CONNECT adds one. -/
theorem LoopStep.bill {c c' : Conn} {r : Option WispFrameResult} (hb : Base c.core) (hw : Flow c.core)
    (hdead : DeadOk c.loop) (hs : LoopStep S c.loop r c'.loop)
    (hclean : ∀ tcp, c.table.get? s = some (.tcp tcp) → c'.table.get? s = none →
      (∃ payload, r = some (.wisp packetData s payload)) ∨ (∃ dead, c.pc = .phase0Dead (s :: dead)) →
      tcp.cancel ∉ c.loop.underway s) :
    c'.loop.bill s ≤ c.loop.bill s + r.toList.countP (·.isConnect s) := by
  generalize hl' : c'.loop = l' at hs
  have hclean : ∀ tcp, c.loop.entry s = some (.tcp tcp) → l'.entry s = none →
      (∃ payload, r = some (.wisp packetData s payload)) ∨ (∃ dead, c.pc = .phase0Dead (s :: dead)) →
      tcp.cancel ∉ c.loop.underway s := by
    rw [← hl']
    exact hclean
  -- The main task is not working on a CONNECT, before and after the step.
  have hcalm : c.pc.attempt = .idle → l'.pc.attempt = .idle → l'.idleBill s ≤ c.loop.idleBill s →
      l'.bill s ≤ c.loop.bill s + r.toList.countP (·.isConnect s) := by
    intro hq hq' hle
    rw [bill_idle hq', bill_idle (l := c.loop) hq]
    omega
  have hsame : ∀ {pc}, c.pc = pc → pc.attempt = .idle → l'.pc.attempt = .idle →
      l'.entry = c.loop.entry → l'.tasks = c.loop.tasks → l'.control = c.loop.control →
      l'.closes s ≤ c.loop.closes s →
      l'.bill s ≤ c.loop.bill s + r.toList.countP (·.isConnect s) := by
    intro pc hpc hq hq' he ht hc hcl
    refine hcalm (by rw [hpc]; exact hq) hq' (idleBill_le (k := 0) ht hc hcl ?_)
    intro y hy
    exact ⟨y, by rw [← he]; exact hy, rfl⟩
  have hinbound : ∀ {l₁ l₂ site q}, Finishes l₂ site l' → r = some q → Inbound S l₁ q l₂ →
      l₁.entry = c.loop.entry ∧ l₁.flags = c.loop.flags ∧ l₁.tasks = c.loop.tasks ∧
        l₁.control = c.loop.control → l₁.closes s = c.loop.closes s → c.pc.attempt = .idle →
      l'.bill s ≤ c.loop.bill s + r.toList.countP (·.isConnect s) := by
    rintro l₁ l₂ site q hf rfl hi ⟨he, -, ht, hc⟩ hcl hq
    have hbill : l₁.idleBill s = c.loop.idleBill s := idleBill_congr (by rw [he]) ht hc hcl
    have hun : l₁.underway s = c.loop.underway s := by
      unfold Loop.underway
      rw [ht, hc]
    have hle := hi.bill (s := s) (by
      rintro payload tcp rfl hx hn
      rw [hun]
      rw [he] at hx
      rw [← hf.streams.1] at hn
      exact hclean tcp hx hn (.inl ⟨payload, rfl⟩))
    rw [hf.bill, bill_idle (l := c.loop) hq]
    simp only [Option.toList_some, List.countP_singleton]
    omega
  have hsuspend : ∀ {l₁ site q}, Suspends l₁ site q l' → r = some q →
      l₁.entry = c.loop.entry ∧ l₁.flags = c.loop.flags ∧ l₁.tasks = c.loop.tasks ∧
        l₁.control = c.loop.control → l₁.closes s = c.loop.closes s → c.pc.attempt = .idle →
      l'.bill s ≤ c.loop.bill s + r.toList.countP (·.isConnect s) := by
    rintro l₁ site q hsu rfl ⟨he, -, ht, hc⟩ hcl hq
    have hbill : l₁.idleBill s = c.loop.idleBill s := idleBill_congr (by rw [he]) ht hc hcl
    have hle := hsu.bill (s := s)
    rw [bill_idle (l := c.loop) hq]
    simp only [Option.toList_some, List.countP_singleton]
    omega
  cases hs with
  | nop => exact Nat.le_add_right _ _
  | down => exact Nat.le_add_right _ _
  | task ht hm => exact Nat.le_add_right_of_le (hm.bill hb hw ht)
  | start hpc hf =>
    refine hcalm (by rw [show c.pc = _ from hpc]; rfl) hf.idle (Nat.le_of_eq ?_)
    rw [← bill_idle hf.idle, hf.bill]
  | deferred hpc hi hf =>
    exact hinbound hf rfl hi ⟨rfl, rfl, rfl, rfl⟩ rfl (by rw [show c.pc = _ from hpc]; rfl)
  | deferredConnect hpc hs =>
    exact hsuspend hs rfl ⟨rfl, rfl, rfl, rfl⟩ rfl (by rw [show c.pc = _ from hpc]; rfl)
  | inbound ht _ _ hi hf => exact hinbound hf rfl hi ht.streams ht.closes ht.attempt
  | connect ht _ hs => exact hsuspend hs rfl ht.streams ht.closes ht.attempt
  | @closing site i r l₁ ht _ _ =>
    obtain ⟨he, -, ht₁, hc⟩ := ht.streams
    obtain ⟨he', -, ht', hc'⟩ := breakLoop_streams (l₁.emit [.wsClose]) site
    have hcl := (l₁.closes_emit [.wsClose] s).trans (Nat.le_of_eq ht.closes)
    exact hsame rfl ht.attempt (by rw [Loop.breakLoop_pc]; rfl) (he'.trans he) (ht'.trans ht₁)
      (hc'.trans hc) ((Nat.le_of_eq (breakLoop_closes ..)).trans hcl)
  | @readError site i l₁ ht _ =>
    obtain ⟨he, -, ht₁, hc⟩ := ht.streams
    obtain ⟨he', -, ht', hc'⟩ := breakLoop_streams l₁ site
    exact hsame rfl ht.attempt (by rw [Loop.breakLoop_pc]; rfl) (he'.trans he) (ht'.trans ht₁)
      (hc'.trans hc) (Nat.le_of_eq ((breakLoop_closes ..).trans ht.closes))
  | drained hpc _ =>
    exact hsame hpc rfl (flushThen_idle rfl) rfl rfl rfl (Nat.le_of_eq (flushThen_closes ..))
  | @tcpFailed site s' connect cancel known reason hpc =>
    refine Nat.le_add_right_of_le (Nat.le_of_eq ?_)
    unfold Loop.bill
    rw [hpc]
    rfl
  | spawned hpc hf =>
    rw [hf.bill, bill_spawned hpc]
    exact Nat.le_add_right _ _
  | sendFailed hpc hf =>
    rw [hf.bill, bill_sent hpc]
    exact Nat.le_add_right _ _
  | udpRefused hpc hf =>
    rw [hf.bill]
    exact Nat.le_add_right_of_le (bill_udpClosed hpc rfl rfl rfl rfl _)
  | udpThrottled hpc hf =>
    rw [hf.bill]
    exact Nat.le_add_right_of_le (bill_udpClosed hpc rfl rfl rfl rfl _)
  | udpAccepted hpc hn hf =>
    rw [hf.bill]
    exact Nat.le_add_right_of_le (bill_udpAccepted hpc hn _ _)
  | phase0 hpc hd =>
    refine hcalm (by rw [show c.pc = _ from hpc]; rfl) rfl (idleBill_le (k := 0) hd.tasks.1 hd.tasks.2 ?_
      hd.flags)
    unfold Loop.closes
    exact Nat.le_of_eq (congrArg _ (by cases hd <;> rfl))
  | phase0End hpc => exact hsame hpc rfl rfl rfl rfl rfl (Nat.le_refl _)
  | deadEnd hpc => exact hsame hpc rfl rfl rfl rfl rfl (Nat.le_refl _)
  | @deadOne s' dead hpc =>
    obtain ⟨tcp, hx⟩ := (hdead.removal _ hpc).2 s' List.mem_cons_self
    refine hcalm (by rw [show c.pc = _ from hpc]; rfl) rfl (bill_dead hx ?_)
    rintro rfl
    exact hclean tcp hx (if_pos rfl) (.inr ⟨dead, hpc⟩)
  | @event p rest q l₁ hctl hpc hd =>
    have hq : c.pc.attempt = .idle := by
      rcases hpc with ⟨hpc, -⟩ | ⟨hpc | hpc, -⟩ <;> rw [show c.pc = _ from hpc] <;> rfl
    have hq' : q.attempt = .idle := by
      rcases hpc with ⟨-, rfl⟩ | ⟨-, rfl⟩ <;> rfl
    refine hcalm hq hq' (hd.bill.trans (Nat.le_of_eq ?_))
    unfold Loop.idleBill Loop.underway
    refine congrArg _ (owed_perm ?_ _)
    simp only [hctl, List.flatMap_cons]
    exact List.perm_append_comm_assoc _ _ _
  | @batch ms q hpc =>
    have hq : c.pc.attempt = .idle := by
      rcases hpc with ⟨hpc, -⟩ | ⟨hpc, -⟩ <;> rw [show c.pc = _ from hpc] <;> rfl
    have hq' : (if ms.isEmpty || c.loop.up then q else .ended).attempt = .idle := by
      split
      · rcases hpc with ⟨-, rfl⟩ | ⟨-, rfl⟩ <;> rfl
      · rfl
    have hcl := c.loop.closes_emit (ms.map .data) s
    have hzero : (ms.map ClientFrame.data).countP (·.isClose s) = 0 := by
      simp [List.countP_eq_zero, ClientFrame.isClose]
    rw [hzero] at hcl
    exact hsame rfl hq hq' rfl rfl rfl hcl
  | restEnd hpc => exact hsame hpc rfl rfl rfl rfl rfl (Nat.le_refl _)
  | timedOut hpc => exact hsame hpc rfl rfl rfl rfl rfl (Nat.le_refl _)
  | noPing hpc => exact hsame hpc rfl rfl rfl rfl rfl (Nat.le_refl _)
  | ping hpc => exact hsame hpc rfl rfl rfl rfl rfl (c.loop.closes_emit [.ping] s)

/-! ## The entry after a CLOSE -/

/-- The main task works on a UDP CONNECT of an id without an entry. -/
def UdpFree (l : Loop) : Prop :=
  ∀ site s connect known, l.pc = .resolvingUdp site s connect known → l.entry s = none

theorem udpFree_of_idle (h : l.pc.attempt = .idle) : UdpFree l := by
  intro site s connect known hpc
  rw [hpc] at h
  cases h

theorem udpFree_suspends {site : Site} {r : WispFrameResult} (hs : Suspends l site r l') :
    UdpFree l' := by
  cases hs with
  | tcp _ =>
    intro site s connect known hpc
    cases hpc
  | udp hn =>
    rintro _ _ _ _ ⟨⟩
    exact hn

theorem UdpFree.step {r : Option WispFrameResult} (h : UdpFree l) (hs : LoopStep S l r l') :
    UdpFree l' := by
  cases hs with
  | nop => exact h
  | down => exact h
  | task _ _ => exact h
  | start _ hf => exact udpFree_of_idle hf.idle
  | deferred _ _ hf => exact udpFree_of_idle hf.idle
  | deferredConnect _ hs => exact udpFree_suspends hs
  | inbound _ _ _ _ hf => exact udpFree_of_idle hf.idle
  | connect _ _ hs => exact udpFree_suspends hs
  | closing _ _ _ => exact udpFree_of_idle (by rw [Loop.breakLoop_pc]; rfl)
  | readError _ _ => exact udpFree_of_idle (by rw [Loop.breakLoop_pc]; rfl)
  | drained _ _ => exact udpFree_of_idle (flushThen_idle rfl)
  | spawned _ hf => exact udpFree_of_idle hf.idle
  | sendFailed _ hf => exact udpFree_of_idle hf.idle
  | udpRefused _ hf => exact udpFree_of_idle hf.idle
  | udpThrottled _ hf => exact udpFree_of_idle hf.idle
  | udpAccepted _ _ hf => exact udpFree_of_idle hf.idle
  | event _ hpc _ => rcases hpc with ⟨-, rfl⟩ | ⟨-, rfl⟩ <;> exact udpFree_of_idle rfl
  | batch hpc =>
    rcases hpc with ⟨-, rfl⟩ | ⟨-, rfl⟩ <;> refine udpFree_of_idle ?_ <;> dsimp only <;> split <;> rfl
  | tcpFailed _ =>
    intro site s connect known hpc
    cases hpc
  | _ => exact udpFree_of_idle rfl

theorem Reach.udpFree {ok : Conn → Act → Conn → Prop} {c : Conn} (h : (sys S).Reach ok c) :
    UdpFree c.loop :=
  Reach.loop (I := UdpFree) (fun _ => udpFree_of_idle rfl) (fun _ _ _ _ hi => hi) (fun _ _ _ _ hi _ hs => hi.step hs) h

/-- A CLOSE of `s` leaves no entry of `s`, or it refuses a CONNECT and leaves the entry alone. -/
def ClosesEntry (l : Loop) (r : Option WispFrameResult) (entry : StreamId → Option (ProxyStream Octet))
    (f : ClientFrame) : Prop :=
  ∀ s reason cause, f = .close s reason cause → entry s = none ∨
    reason = .invalidInfo ∧ (∃ payload, r = some (.wisp packetConnect s payload)) ∧
      entry s = l.entry s

theorem closesEntry_one {r : Option WispFrameResult} {entry : StreamId → Option (ProxyStream Octet)}
    {reason : CloseReason} {cause : Option CancelFlag} (hn : entry s = none) :
    ∀ f ∈ [ClientFrame.close s reason cause], ClosesEntry l r entry f := by
  intro f hf s' reason' cause' heq
  rw [List.mem_singleton] at hf
  cases hf.symm.trans heq
  exact .inl hn

theorem closesEntry_of_ne {r : Option WispFrameResult} {entry : StreamId → Option (ProxyStream Octet)}
    {f : ClientFrame} (h : ∀ s reason cause, f ≠ .close s reason cause) : ClosesEntry l r entry f :=
  fun s reason cause heq => absurd heq (h s reason cause)

theorem Inbound.closesEntry {r : WispFrameResult} (hi : Inbound S l r l') :
    Writes (ClosesEntry l (some r) l'.entry) l l' := by
  cases hi with
  | ignored _ => exact .of_eq rfl
  | early _ => exact .of_eq rfl
  | upload _ _ => exact .of_eq rfl
  | @uploadDead s' _ _ _ _ _ _ _ _ =>
    exact Writes.emit (l := l) (closesEntry_one (if_pos rfl))
  | close => exact .of_eq rfl
  | @refused s' payload reason hr =>
    refine .emit ?_
    rcases hr with rfl | hn
    · intro f hf s reason cause heq
      rw [List.mem_singleton] at hf
      cases hf.symm.trans heq
      exact .inr ⟨rfl, ⟨payload, rfl⟩, rfl⟩
    · exact closesEntry_one hn
  | throttled hn => exact Writes.emit (l := l) (closesEntry_one hn)
  | pong =>
    refine .emit ?_
    intro f hf
    rw [List.mem_singleton] at hf
    exact closesEntry_of_ne (by rw [hf]; nofun)

theorem Delivers.closesEntry {p : Posted} {r : Option WispFrameResult} (hd : Delivers S l p l') :
    Writes (ClosesEntry l r l'.entry) l l' := by
  cases hd with
  | ended _ => exact Writes.emit (l := l) (closesEntry_one (if_pos rfl))
  | absent _ _ => exact .of_eq rfl
  | other _ _ _ => exact .of_eq rfl
  | attach _ _ =>
    refine Writes.emit (l := l) ?_
    intro f hf
    rw [List.mem_singleton] at hf
    exact closesEntry_of_ne (by rw [hf]; nofun)
  | attachDead _ _ => exact Writes.emit (l := l) (closesEntry_one (if_pos rfl))

/-- The entry is the one that a frame was checked with. -/
theorem Writes.closesEntry_of_eq {l₀ l₁ l₂ : Loop} {r : Option WispFrameResult}
    (h : Writes (ClosesEntry l₁ r l₂.entry) l₁ l₂) (he₁ : l₁.entry = l₀.entry)
    (he : l'.entry = l₂.entry) : Writes (ClosesEntry l₀ r l'.entry) l₁ l₂ := by
  obtain ⟨fs, hout, hp⟩ := h
  refine ⟨fs, hout, fun f hf s reason cause heq => ?_⟩
  have := hp f hf s reason cause heq
  rwa [he₁, ← he] at this

theorem LoopStep.closesEntry {r : Option WispFrameResult} (hs : LoopStep S l r l') (hudp : UdpFree l) :
    Writes (ClosesEntry l r l'.entry) l l' := by
  have hcont : ∀ s n, ClosesEntry l r l'.entry (.continue s n) := fun s n => closesEntry_of_ne nofun
  have hne : ∀ {f g}, f ∈ [g] → (∀ s reason cause, g ≠ .close s reason cause) →
      ClosesEntry l r l'.entry f := by
    intro f g hf hg
    rw [List.mem_singleton] at hf
    exact closesEntry_of_ne (by rw [hf]; exact hg)
  have hfinish : ∀ {l₁ site}, Finishes l₁ site l' → l₁.out = l.out →
      Writes (ClosesEntry l r l'.entry) l l' :=
    fun hf hout => (Writes.of_eq hout).trans (.finishes hcont hf)
  -- A CLOSE for an id without an entry, then what follows the frame.
  have hclose : ∀ {l₁ : Loop} {site s reason}, Finishes (l₁.emit [.close s reason none]) site l' →
      l₁.out = l.out → l₁.entry = l.entry → l.entry s = none →
      Writes (ClosesEntry l r l'.entry) l l' := by
    intro l₁ site s reason hf hout he hn
    refine (Writes.of_eq hout).trans ((Writes.emit (closesEntry_one ?_)).trans (.finishes hcont hf))
    rw [hf.streams.1]
    exact (congrFun he s).trans hn
  cases hs with
  | start _ hf => exact .finishes hcont hf
  | deferred _ hi hf =>
    exact (hi.closesEntry.closesEntry_of_eq rfl hf.streams.1).trans (.finishes hcont hf)
  | deferredConnect _ hs => exact .of_eq (by cases hs <;> rfl)
  | inbound ht _ _ hi hf =>
    refine (Writes.of_eq ht.pc.2.1).trans (Writes.trans ?_ (.finishes hcont hf))
    exact hi.closesEntry.closesEntry_of_eq ht.streams.1 hf.streams.1
  | connect ht _ hs => exact (Writes.of_eq ht.pc.2.1).trans (.of_eq (by cases hs <;> rfl))
  | closing ht _ _ =>
    refine (Writes.of_eq ht.pc.2.1).trans (Writes.trans ?_ (.breakLoop hcont _))
    exact .emit fun f hf => hne hf nofun
  | readError ht _ => exact (Writes.of_eq ht.pc.2.1).trans (.breakLoop hcont _)
  | drained _ _ => exact .flushThen hcont _
  | spawned _ hf => exact hfinish hf rfl
  | sendFailed _ hf => exact hfinish hf rfl
  | udpRefused hpc hf => exact hclose hf rfl rfl (hudp _ _ _ _ hpc)
  | udpThrottled hpc hf => exact hclose hf rfl rfl (hudp _ _ _ _ hpc)
  | udpAccepted _ _ hf => exact hfinish hf rfl
  | phase0 _ hd => exact .of_eq (by cases hd <;> rfl)
  | deadOne _ => exact Writes.emit (l := l) (closesEntry_one (if_pos rfl))
  | event _ _ hd => exact hd.closesEntry
  | batch _ =>
    refine Writes.emit (l := l) fun f hf => ?_
    obtain ⟨m, -, rfl⟩ := List.mem_map.mp hf
    exact closesEntry_of_ne nofun
  | ping _ => exact Writes.emit (l := l) fun f hf => hne hf nofun
  | _ => exact .of_eq rfl

/-! ## Runs -/

/-- An event of the task with the flag is in the control channel, or still to be sent. -/
def Conn.endUnderway (c : Conn) (f : CancelFlag) : Bool :=
  c.control.items.any (·.origin == f) || c.tasks.any fun t => t.cancel == f && t.state.isUnderway

/-- The stream whose socket a step may find dead: that of a DATA packet, or the next one in
Phase 0. -/
def Conn.mayDie (S : Setup) (c : Conn) (a : Act) : Option StreamId :=
  match c.pc with
  | .phase0Dead (s :: _) => some s
  | _ =>
    match c.handled S a with
    | some (.wisp t s _) => if t = packetData then some s else none
    | _ => none

/-- Condition on a step: it removes no stream with a dead socket while an event of the stream's own
reader is under way. -/
def CleanDeath (S : Setup) (c : Conn) (a : Act) (c' : Conn) : Prop :=
  (match c.mayDie S a with
  | some s =>
    match c.table.get? s with
    | some (.tcp tcp) => (c'.table.get? s).isSome || !c.endUnderway tcp.cancel
    | _ => true
  | none => true) = true

instance (S : Setup) (c : Conn) (a : Act) (c' : Conn) : Decidable (CleanDeath S c a c') :=
  inferInstanceAs (Decidable (_ = _))

theorem mayDie_data {c : Conn} {a : Act} {payload : List UInt8}
    (h : c.handled S a = some (.wisp packetData s payload)) : c.mayDie S a = some s := by
  unfold Conn.mayDie
  split
  · rename_i hpc
    cases a with
    | main e => simp [Conn.handled, hpc] at h
    | _ => cases h
  · rw [h]
    exact if_pos rfl

theorem CleanDeath.not_underway {c c' : Conn} {a : Act} (h : CleanDeath S c a c')
    (hm : c.mayDie S a = some s) {tcp : TcpProxyStream Octet}
    (hx : c.table.get? s = some (.tcp tcp)) (hn : c'.table.get? s = none) :
    tcp.cancel ∉ c.loop.underway s := by
  simp only [CleanDeath, hm, hx, hn, Option.isSome_none, Bool.false_or, Bool.not_eq_true',
    Conn.endUnderway, Bool.or_eq_false_iff, List.any_eq_false, beq_iff_eq, Bool.and_eq_true,
    not_and] at h
  obtain ⟨hctl, htasks⟩ := h
  unfold Loop.underway
  simp only [List.mem_append, List.mem_flatMap]
  rintro (⟨t, ht, hmem⟩ | ⟨p, hp, hmem⟩)
  · unfold Task.underway at hmem
    split at hmem
    · rename_i hst
      exact htasks t ht (List.mem_singleton.mp hmem).symm hst.2
    · cases hmem
  · unfold Posted.underway at hmem
    split at hmem
    · exact hctl p hp (List.mem_singleton.mp hmem).symm
    · cases hmem

/-- The frames that the server handled, beside its state. -/
def loggedSys (S : Setup) : Sys (Conn × List WispFrameResult) Act := (sys S).logged (Conn.handled S)

theorem Reach.bill {p : Conn × List WispFrameResult}
    (h : (loggedSys S).Reach (fun p a p' => CleanDeath S p.1 a p'.1) p) (s : StreamId) :
    p.1.loop.bill s ≤ p.2.countP (·.isConnect s) := by
  refine h.invariant (I := fun p => p.1.loop.bill s ≤ p.2.countP (·.isConnect s)) ?_ ?_
  · rintro ⟨c, log⟩ ⟨⟨frame, rfl⟩, rfl⟩
    show (Conn.start S frame).loop.bill s ≤ 0
    simp only [Loop.bill, Loop.start_entry, owed]
    exact Nat.le_refl _
  · rintro ⟨c, log⟩ a ⟨c', log'⟩ hr hi hs hok
    have hr : (sys S).Reach (CleanDeath S) c := hr.of_logged
    obtain ⟨hstep, hlog⟩ := Sys.logged_step hs
    have hi : c.loop.bill s ≤ log.countP (·.isConnect s) := hi
    show c'.loop.bill s ≤ log'.countP (·.isConnect s)
    rw [show log' = _ from hlog, List.countP_append]
    cases ha : a.isClient with
    | true =>
      obtain ⟨wire, credit, seen, hc⟩ := step_client ha hstep
      rw [hc]
      exact Nat.le_add_right_of_le hi
    | false =>
      have hle := (step_loop ha hstep).bill (s := s) (Reach.base hr) (Reach.flow hr) (Reach.deadOk hr) (by
        intro tcp hx hn hwhy
        refine CleanDeath.not_underway hok ?_ hx hn
        rcases hwhy with ⟨payload, hh⟩ | ⟨dead, hpc⟩
        · exact mayDie_data hh
        · show (match c.pc with | .phase0Dead (s :: _) => some s | _ => _) = some s
          rw [hpc])
      exact hle.trans (Nat.add_le_add_right hi _)

/-- In every run: after a step that writes a CLOSE of a stream the stream has no entry, unless the
CLOSE refuses a CONNECT with InvalidInfo and leaves the entry of the id as it was. And if no stream
is removed for a dead socket while an event of its own reader is under way, then at every point
there are at most as many CLOSE frames of an id as CONNECTs of it were handled. -/
theorem close_agreement {c : Conn} {log : List WispFrameResult}
    (h : (loggedSys S).Reach Sys.Any (c, log)) (s : StreamId) :
    (∀ a c' reason cause, step S c a = some c' → .close s reason cause ∈ c'.out.drop c.out.length →
      c'.table.get? s = none ∨ reason = .invalidInfo ∧
        (∃ payload, c.handled S a = some (.wisp packetConnect s payload)) ∧
        c'.table.get? s = c.table.get? s) ∧
    ((loggedSys S).Reach (fun p a p' => CleanDeath S p.1 a p'.1) (c, log) →
      c.out.countP (·.isClose s) ≤ log.countP (·.isConnect s)) := by
  refine ⟨?_, ?_⟩
  · intro a c' reason cause hs hm
    have hr : (sys S).Reach Sys.Any c := @Sys.Reach.of_logged _ _ (sys S) Sys.Any _ _ (c, log) h
    cases ha : a.isClient with
    | true =>
      obtain ⟨wire, credit, seen, hc⟩ := step_client ha hs
      rw [show c'.out = c.out from congrArg Loop.out hc, List.drop_length] at hm
      cases hm
    | false =>
      obtain ⟨fs, hout, hp⟩ := (step_loop ha hs).closesEntry (Reach.udpFree hr)
      rw [show c'.out = c.out ++ fs from hout, List.drop_left] at hm
      exact hp _ hm s reason cause rfl
  · intro hclean
    have hle : c.loop.bill s ≤ log.countP (·.isConnect s) := Reach.bill hclean s
    have hcl : c.out.countP (·.isClose s) ≤ c.loop.bill s := by
      unfold Loop.bill
      exact Nat.le_add_right_of_le (Nat.le_add_right _ _)
    exact hcl.trans hle

/-- A run with its log, without a deferred frame, whose last state is computed to satisfy `P`. -/
theorem Reach.of_logged_run (S : Setup) (ok : Conn → Act → Conn → Prop)
    [∀ c a c', Decidable (ok c a c')] (as : List Act) (P : Conn → List WispFrameResult → Bool)
    (h : ((loggedSys S).run (fun p a p' => ok p.1 a p'.1) (Conn.start S none, []) as).any
      (fun p => P p.1 p.2) = true) :
    ∃ c log, (loggedSys S).Reach (fun p a p' => ok p.1 a p'.1) (c, log) ∧ P c log = true := by
  obtain ⟨⟨c, log⟩, hc, hp⟩ := (Option.any_eq_true _ _).mp h
  exact ⟨c, log, Sys.Reach.of_run (.init ⟨⟨none, rfl⟩, rfl⟩) hc, hp⟩

/-- Stream 1 is connected, and the backend closes it. -/
def backendCloses : List Act := attachOne ++ [.task 1 .go, .task 1 .eof, .task 1 .go]

/-- The CLOSE for the end of the backend's side is the only one. -/
theorem close_agreement_eof :
    ∃ c log, (loggedSys { config := {} }).Reach (fun p a p' => CleanDeath { config := {} } p.1 a p'.1)
      (c, log) ∧ c.out.countP (·.isClose 1) = 1 ∧
      c.out.countP (·.isClose 1) ≤ log.countP (·.isConnect 1) := by
  obtain ⟨c, log, hr, hp⟩ := Reach.of_logged_run { config := {} } (CleanDeath { config := {} })
    (backendCloses ++ [.main {}]) (fun c _ => c.out.countP (·.isClose 1) == 1) (by decide +kernel)
  have hany : (loggedSys { config := {} }).Reach Sys.Any (c, log) := hr.mono fun _ _ _ _ => trivial
  exact ⟨c, log, hr, of_decide_eq_true hp, (close_agreement hany 1).2 hr⟩

/-- What `close_disagreement` computes of a refused CONNECT. -/
def refusesOne (c c' : Conn) : Bool :=
  decide (c'.out = c.out ++ [.close 1 .invalidInfo none]) && (c'.table.get? 1).isSome

/-- A CONNECT of stream 1, which is in use, is answered with a CLOSE, and the stream stays. And when
the socket of stream 1 is found dead after the backend has closed it, the client gets two CLOSE
frames for one CONNECT. -/
theorem close_disagreement :
    (∃ c a c', (sys { config := {} }).Reach Sys.Any c ∧ step { config := {} } c a = some c' ∧
      c'.out = c.out ++ [.close 1 .invalidInfo none] ∧ c'.table.get? 1 ≠ none) ∧
    ∃ c log, (loggedSys { config := {} }).Reach Sys.Any (c, log) ∧
      c.out.countP (·.isClose 1) = 2 ∧ log.countP (·.isConnect 1) = 1 := by
  refine ⟨?_, ?_⟩
  · obtain ⟨c, hr, hp⟩ := Reach.of_run { config := {} } Sys.Any (openOne ++ [connectOne])
      (fun c => (step { config := {} } c (.main {})).any (refusesOne c)) (by decide +kernel)
    obtain ⟨c', hs, hc⟩ := (Option.any_eq_true _ _).mp hp
    simp only [refusesOne, Bool.and_eq_true, decide_eq_true_eq] at hc
    exact ⟨c, _, c', hr, hs, hc.1, Option.isSome_iff_ne_none.mp hc.2⟩
  · obtain ⟨c, log, hr, hp⟩ := Reach.of_logged_run { config := {} } Sys.Any
      (backendCloses ++ [dataOne 7, .main { writes := [.err, .err] }] ++ toSelect)
      (fun c log => c.out.countP (·.isClose 1) == 2 && log.countP (·.isConnect 1) == 1)
      (by decide +kernel)
    simp only [Bool.and_eq_true, beq_iff_eq] at hp
    exact ⟨c, log, hr, hp⟩

end ShrimpWisp
