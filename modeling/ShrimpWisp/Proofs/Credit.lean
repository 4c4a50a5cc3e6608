import ShrimpWisp.Proofs.Upload
import ShrimpWisp.Server.Loop

/-!
# The client's credits

The client may send one DATA packet of a stream for each of its credits, and a CONTINUE gives it a
full buffer again. The server counts the packets since the last CONTINUE and queues the next one when
the count reaches a threshold that is at most the buffer.

* `CreditOk`: while no CONTINUE of a connected stream is on its way, the client's credits, the DATA
  packets on their way and the count add up to a full buffer. CONTINUEs are queued only while
  inbound frames are handled.
* `credit_flow`: so a client without credits for a connected stream has a DATA packet or a CONTINUE
  on its way.
-/

namespace ShrimpWisp

variable {S : Setup} {l l' : Loop}

/-- The frame is a DATA packet of the stream. -/
def WispFrameResult.isData (s : StreamId) : WispFrameResult → Bool
  | .wisp t s' _ => t == packetData && s' == s
  | .control _ => false

/-- The client sent a DATA packet of the stream. -/
def WsInput.isData (s : StreamId) : WsInput → Bool
  | .broken => false
  | .frame f => (WispFrameResult.ofFrame f).isData s

/-- The DATA packets of a stream on their way to the server, or in its buffer. -/
def Loop.inFlight (l : Loop) (s : StreamId) : Nat := (l.wsBuf ++ l.wire).countP (·.isData s)

/-- A CONTINUE of the stream waits to be written, or is on its way to the client. -/
def Loop.Granted (S : Setup) (l : Loop) (s : StreamId) : Prop :=
  (s, S.config.bufferSize) ∈ l.continues ∨ .continue s S.config.bufferSize ∈ l.out.drop l.seen

/-- A CONTINUE is on its way, or credits, packets on their way and the count make a buffer; `extra`
is for a packet that is being handled. -/
def Loop.Owes (S : Setup) (l : Loop) (extra : StreamId → Nat) : Prop :=
  ∀ s tcp, l.entry s = some (.tcp tcp) → l.Granted S s ∨
    S.config.bufferSize.toNat ≤ l.credit s + tcp.packetsSinceContinue + l.inFlight s + extra s

/-- No CONTINUEs are queued: from Phase 0 to the next inbound frame. -/
def Pc.flushed : Pc → Bool
  | .phase0 .. | .phase0Dead _ | .phase1 | .select | .controlRest => true
  | _ => false

/-- Every CONTINUE grants a full buffer. -/
structure FullGrants (S : Setup) (l : Loop) : Prop where
  seen : l.seen ≤ l.out.length
  queued : ∀ p ∈ l.continues, p.2 = S.config.bufferSize
  written : ∀ s n, .continue s n ∈ l.out → n = S.config.bufferSize

/-- The invariant (module doc). -/
structure CreditOk (S : Setup) (l : Loop) : Prop extends FullGrants S l where
  owes : l.up = true → l.pc ≠ .ended → l.Owes S fun _ => 0

/-! ## Frames for the client -/

theorem Loop.Granted.append {s : StreamId} (h : l.Granted S s) (hseen : l.seen ≤ l.out.length)
    {fs : List ClientFrame} (hc : l'.continues = l.continues) (hout : l'.out = l.out ++ fs)
    (hs : l'.seen = l.seen) : l'.Granted S s := by
  rcases h with h | h
  · exact .inl (hc ▸ h)
  · right
    rw [hout, hs, List.drop_append_of_le_length hseen]
    exact List.mem_append_left _ h

theorem FullGrants.append (h : FullGrants S l) {fs : List ClientFrame}
    (hfs : ∀ s n, .continue s n ∈ fs → n = S.config.bufferSize)
    (hc : ∀ p ∈ l'.continues, p ∈ l.continues ∨ p.2 = S.config.bufferSize)
    (hout : l'.out = l.out ++ fs) (hs : l'.seen = l.seen) : FullGrants S l' := by
  refine ⟨?_, ?_, ?_⟩
  · rw [hs, hout, List.length_append]
    exact Nat.le_add_right_of_le h.seen
  · intro p hp
    rcases hc p hp with hp | hp
    · exact h.queued p hp
    · exact hp
  · intro s n hm
    rw [hout] at hm
    rcases List.mem_append.mp hm with hm | hm
    · exact h.written s n hm
    · exact hfs s n hm

/-- The entries, the credits and the packets on their way stay as they are; CONTINUEs move on. -/
theorem Loop.Owes.mono {extra : StreamId → Nat} (h : l.Owes S extra)
    (he : l'.entry = l.entry) (hc : l'.credit = l.credit) (hb : l'.wsBuf = l.wsBuf)
    (hw : l'.wire = l.wire) (hg : ∀ s, l.Granted S s → l'.Granted S s) : l'.Owes S extra := by
  intro s tcp hx
  rcases h s tcp (he ▸ hx) with h | h
  · exact .inl (hg s h)
  · right
    unfold Loop.inFlight at h ⊢
    rw [hc, hb, hw]
    exact h

theorem Loop.flushThen_out (l : Loop) (q : Pc) :
    (l.flushThen q).out = l.out ++ if l.up then l.continueFrames else [] := l.emit_out _

/-- The flush writes the queued CONTINUEs. -/
theorem Loop.Granted.flushThen {s : StreamId} (h : l.Granted S s) (hup : l.up = true)
    (hseen : l.seen ≤ l.out.length) (q : Pc) : (l.flushThen q).Granted S s := by
  right
  rw [show (l.flushThen q).seen = l.seen from rfl, Loop.flushThen_out, hup, if_pos rfl,
    List.drop_append_of_le_length hseen]
  rcases h with h | h
  · exact List.mem_append_right _ (List.mem_map.mpr ⟨_, h, rfl⟩)
  · exact List.mem_append_left _ h

theorem FullGrants.flushThen (h : FullGrants S l) (q : Pc) : FullGrants S (l.flushThen q) := by
  refine h.append ?_ nofun (l.flushThen_out q) rfl
  intro s n hm
  split at hm
  · obtain ⟨p, hp, heq⟩ := List.mem_map.mp hm
    cases heq
    exact h.queued p hp
  · cases hm

/-! ## The parts of a step -/

/-- The handling of a frame is over, up to what follows at its site. -/
structure CreditPart (S : Setup) (l : Loop) (extra : StreamId → Nat) : Prop extends FullGrants S l where
  owes : l.up = true → l.Owes S extra

theorem creditOk_flushThen (h : CreditPart S l fun _ => 0) (q : Pc) : CreditOk S (l.flushThen q) where
  toFullGrants := h.toFullGrants.flushThen q
  owes hup _ := (h.owes hup).mono rfl rfl rfl rfl fun _ hg => hg.flushThen hup h.seen q

theorem creditOk_finishes (h : CreditPart S l fun _ => 0) {site : Site} (hf : Finishes l site l') :
    CreditOk S l' := by
  cases hf with
  | flush _ => exact creditOk_flushThen h _
  | yield => exact creditOk_flushThen h _
  | next =>
    refine ⟨⟨h.seen, h.queued, h.written⟩, fun hup _ => ?_⟩
    exact (h.owes hup).mono rfl rfl rfl rfl fun _ hg => hg

/-- The main task ends. -/
theorem creditOk_ended (h : FullGrants S l) (hpc : l.pc = .ended) : CreditOk S l :=
  ⟨h, fun _ hne => absurd hpc hne⟩

theorem creditOk_breakLoop (h : FullGrants S l) (site : Site) : CreditOk S (l.breakLoop site) := by
  have hquit : CreditOk S { l with pc := .ended } := creditOk_ended ⟨h.seen, h.queued, h.written⟩ rfl
  cases site with
  | inner => exact creditOk_ended (h.flushThen _) (l.breakLoop_pc .inner)
  | deferred => exact hquit
  | select => exact hquit

/-- Frames without a CONTINUE are written. -/
theorem CreditPart.emit {extra : StreamId → Nat} (h : CreditPart S l extra) {fs : List ClientFrame}
    (hfs : ∀ s n, .continue s n ∈ fs → n = S.config.bufferSize) : CreditPart S (l.emit fs) extra := by
  have hout := l.emit_out fs
  refine ⟨h.toFullGrants.append ?_ (fun p hp => .inl hp) hout rfl, fun hup => ?_⟩
  · intro s n hm
    split at hm
    · exact hfs s n hm
    · cases hm
  · exact (h.owes hup).mono rfl rfl rfl rfl fun _ hg => hg.append h.seen rfl hout rfl

/-- The entry of `s` changes. -/
theorem CreditPart.put {extra extra' : StreamId → Nat} (h : CreditPart S l extra) {s : StreamId}
    {x : Option (ProxyStream Octet)} (hextra : ∀ s', s' ≠ s → extra s' ≤ extra' s')
    (hx : l.up = true → ∀ tcp, x = some (.tcp tcp) → l.Granted S s ∨ S.config.bufferSize.toNat ≤
      l.credit s + tcp.packetsSinceContinue + l.inFlight s + extra' s) :
    CreditPart S (l.put s x) extra' := by
  refine ⟨⟨h.seen, h.queued, h.written⟩, fun hup => ?_⟩
  intro s' tcp hs
  simp only [Loop.put] at hs
  split at hs
  · rename_i heq
    rw [heq]
    exact hx hup tcp hs
  · rename_i hne
    rcases h.owes hup s' tcp hs with h | h
    · exact .inl h
    · exact .inr (h.trans (Nat.add_le_add_left (hextra s' hne) _))

theorem CreditPart.congr {extra : StreamId → Nat} (h : CreditPart S l extra)
    (he : l'.entry = l.entry) (hc : l'.continues = l.continues) (hout : l'.out = l.out)
    (hs : l'.seen = l.seen) (hcr : l'.credit = l.credit) (hb : l'.wsBuf = l.wsBuf)
    (hw : l'.wire = l.wire) (hup : l'.up = l.up) : CreditPart S l' extra := by
  have hout' : l'.out = l.out ++ [] := by rw [hout, List.append_nil]
  refine ⟨h.toFullGrants.append (by simp) (fun p hp => .inl (hc ▸ hp)) hout' hs, fun hu => ?_⟩
  exact (h.owes (hup ▸ hu)).mono he hcr hb hw fun _ hg => hg.append h.seen hc hout' hs

/-- The packet that is being handled. -/
def WispFrameResult.extra (r : WispFrameResult) (s : StreamId) : Nat := if r.isData s then 1 else 0

theorem extra_data (s : StreamId) (payload : List UInt8) :
    (WispFrameResult.wisp packetData s payload).extra s = 1 := by
  simp [WispFrameResult.extra, WispFrameResult.isData]

theorem extra_data_ne {s s' : StreamId} (h : s' ≠ s) (payload : List UInt8) :
    (WispFrameResult.wisp packetData s payload).extra s' = 0 := by
  simp [WispFrameResult.extra, WispFrameResult.isData, h.symm]

theorem extra_of_ne {t : UInt8} (ht : t ≠ packetData) (s s' : StreamId) (payload : List UInt8) :
    (WispFrameResult.wisp t s payload).extra s' = 0 := by
  simp [WispFrameResult.extra, WispFrameResult.isData, ht]

/-- The handled packet is counted, or its stream is not connected. -/
theorem creditPart_inbound {r : WispFrameResult} (h : CreditPart S l r.extra) (hi : Inbound S l r l') :
    CreditPart S l' fun _ => 0 := by
  have hzero : (∀ s, r.extra s = 0) → CreditPart S l fun _ => 0 := by
    intro h0
    have : r.extra = fun _ => 0 := funext h0
    rwa [this] at h
  -- A DATA packet of `s`, and the entry of `s` becomes `x`.
  have hdata : ∀ {s payload x}, r = .wisp packetData s payload →
      (l.up = true → ∀ tcp, x = some (.tcp tcp) → l.Granted S s ∨ S.config.bufferSize.toNat ≤
        l.credit s + tcp.packetsSinceContinue + l.inFlight s) →
      CreditPart S (l.put s x) fun _ => 0 := by
    rintro s payload x rfl hx
    refine h.put (fun s' hne => ?_) hx
    rw [extra_data_ne hne]
  cases hi with
  | ignored hn =>
    refine ⟨h.toFullGrants, fun hup s tcp hx => ?_⟩
    have h0 : r.extra s = 0 := by
      cases r with
      | control f => rfl
      | wisp t s' payload =>
        by_cases ht : t = packetData
        · subst ht
          refine extra_data_ne ?_ payload
          rintro rfl
          exact hn s payload tcp rfl hx
        · exact extra_of_ne ht s' s payload
    have := h.owes hup s tcp hx
    rwa [h0] at this
  | early _ => exact hdata rfl (by simp)
  | @upload s payload tcp tcp' _ _ _ hx hw =>
    have hsince : tcp'.packetsSinceContinue = tcp.packetsSinceContinue := (tcpTryWrite_frame hw).2.1
    have hcount := counted_packets S tcp'
    cases hdue : (counted S tcp').1 with
    | true =>
      refine ⟨?_, fun hup s' tcp'' hs => ?_⟩
      · refine @FullGrants.append S l _ h.toFullGrants [] (by simp) ?_ (List.append_nil _).symm rfl
        intro p hp
        rcases List.mem_append.mp hp with hp | hp
        · exact .inl hp
        · rw [List.mem_singleton] at hp
          exact .inr (by rw [hp])
      · have hgrant : ∀ {s''}, l.Granted S s'' ∨ s'' = s →
            Loop.Granted S { l with continues := l.continues ++ [(s, S.config.bufferSize)] } s'' := by
          rintro s'' ((hg | hg) | rfl)
          · exact .inl (List.mem_append_left _ hg)
          · exact .inr hg
          · exact .inl (List.mem_append_right _ List.mem_cons_self)
        by_cases hne : s' = s
        · exact .inl (hgrant (.inr hne))
        · simp only [Loop.put, hne, if_false] at hs
          rcases h.owes hup s' tcp'' hs with hg | hle
          · exact .inl (hgrant (.inl hg))
          · right
            rw [extra_data_ne hne] at hle
            exact hle
    | false =>
      rw [hdue, if_neg (by decide), hsince] at hcount
      have hput := hdata (s := s) (x := some (.tcp (counted S tcp').2)) rfl (by
        rintro hup _ ⟨⟩
        rcases h.owes hup s tcp hx with hg | hle
        · exact .inl hg
        · right
          rw [extra_data] at hle
          omega)
      exact hput.congr rfl rfl rfl rfl rfl rfl rfl rfl
  | uploadDead _ _ =>
    refine CreditPart.emit ?_ (by simp)
    exact (hdata (x := none) rfl (by simp)).congr rfl rfl rfl rfl rfl rfl rfl rfl
  | close =>
    refine ((hzero (extra_of_ne (by decide) _ · _)).put (x := none) ?_ (by simp)).congr
      rfl rfl rfl rfl rfl rfl rfl rfl
    exact fun _ _ => Nat.le_refl _
  | refused _ => exact (hzero (extra_of_ne (by decide) _ · _)).emit (by simp)
  | throttled _ =>
    refine CreditPart.emit ?_ (by simp)
    exact (hzero (extra_of_ne (by decide) _ · _)).congr rfl rfl rfl rfl rfl rfl rfl rfl
  | pong => exact (hzero fun _ => rfl).emit (by simp)

theorem CreditPart.ok (h : CreditPart S l fun _ => 0) : CreditOk S l :=
  ⟨h.toFullGrants, fun hup _ => h.owes hup⟩

theorem creditOk_suspends {site : Site} {r : WispFrameResult} (h : CreditPart S l r.extra)
    (hs : Suspends l site r l') : CreditOk S l' := by
  cases hs with
  | @tcp s payload _ _ _ _ =>
    have h0 : (WispFrameResult.wisp packetConnect s payload).extra = fun _ => 0 :=
      funext fun s' => extra_of_ne (by decide) s s' payload
    rw [h0] at h
    refine CreditPart.ok ?_
    exact (h.put (s := s) (x := some (.connecting _)) (fun _ _ => Nat.le_refl _) (by simp)).congr
      rfl rfl rfl rfl rfl rfl rfl rfl
  | @udp s payload _ _ _ =>
    have h0 : (WispFrameResult.wisp packetConnect s payload).extra = fun _ => 0 :=
      funext fun s' => extra_of_ne (by decide) s s' payload
    rw [h0] at h
    refine CreditPart.ok ?_
    exact h.congr rfl rfl rfl rfl rfl rfl rfl rfl

/-- A frame that is taken leaves the packets on their way. -/
theorem Takes.creditPart {site : Site} {i : WsInput} (ht : Takes l site i l') (h : CreditOk S l)
    {r : WispFrameResult} (hr : site.read S i = some r) : CreditPart S l' r.extra := by
  obtain ⟨f, rfl, rfl⟩ : ∃ f, i = .frame f ∧ r = .ofFrame f := read_eq_some hr
  have hflight : ∀ s, l.inFlight s = l'.inFlight s + (WispFrameResult.ofFrame f).extra s := by
    intro s
    unfold Loop.inFlight WispFrameResult.extra
    cases ht with
    | inner _ hb => simp only [hb, List.cons_append, List.countP_cons]; rfl
    | buffered _ hb => simp only [hb, List.cons_append, List.countP_cons]; rfl
    | socket n _ hb hw =>
      simp only [hb, hw, List.nil_append, List.countP_cons, List.take_append_drop]
      rfl
  have hsame : l'.entry = l.entry ∧ l'.continues = l.continues ∧ l'.out = l.out ∧
      l'.seen = l.seen ∧ l'.credit = l.credit ∧ l'.up = l.up := by
    cases ht <;> exact ⟨rfl, rfl, rfl, rfl, rfl, rfl⟩
  obtain ⟨he, hc, hout, hs, hcr, hup⟩ := hsame
  have hout' : l'.out = l.out ++ [] := by rw [hout, List.append_nil]
  refine ⟨h.toFullGrants.append (by simp) (fun p hp => .inl (hc ▸ hp)) hout' hs, fun hu => ?_⟩
  intro s tcp hx
  rcases h.owes (hup ▸ hu) ht.ne_ended s tcp (he ▸ hx) with hg | hle
  · exact .inl (hg.append h.seen hc hout' hs)
  · right
    replace hle : S.config.bufferSize.toNat ≤
        l.credit s + tcp.packetsSinceContinue + l.inFlight s := hle
    rw [hflight s] at hle
    rw [hcr]
    omega

/-- An event is handled: a stream that becomes connected gets a CONTINUE at once. -/
theorem creditPart_delivers (h : CreditPart S l fun _ => 0) {p : Posted} (hd : Delivers S l p l') :
    CreditPart S l' fun _ => 0 := by
  have hput : ∀ {s x}, (∀ tcp, x ≠ some (.tcp tcp)) → CreditPart S (l.put s x) fun _ => 0 :=
    fun hx => h.put (fun _ _ => Nat.le_refl _) (fun _ tcp he => absurd he (hx tcp))
  cases hd with
  | ended _ =>
    refine CreditPart.emit ?_ (by simp)
    exact (hput (x := none) (by simp)).congr rfl rfl rfl rfl rfl rfl rfl rfl
  | absent _ _ => exact h
  | other _ _ _ => exact h.congr rfl rfl rfl rfl rfl rfl rfl rfl
  | @attach s _ _ _ cs pending w _ hx =>
    let l₁ := l.put s none
    have h₁ : CreditPart S (l₁.emit [.continue s S.config.bufferSize]) fun _ => 0 :=
      (hput (x := none) (by simp)).emit (by simp)
    refine ⟨⟨h₁.seen, h₁.queued, h₁.written⟩, fun hup => ?_⟩
    intro s' tcp hs
    have hup : l.up = true := hup
    by_cases hne : s' = s
    · left
      right
      show _ ∈ (l₁.emit [.continue s S.config.bufferSize]).out.drop l.seen
      rw [Loop.emit_out, show l₁.up = true from hup, if_pos rfl,
        List.drop_append_of_le_length (show l.seen ≤ l₁.out.length from h.seen), hne]
      exact List.mem_append_right _ List.mem_cons_self
    · refine h₁.owes hup s' tcp ?_
      simp only [Loop.emit, Loop.put, hne, if_false] at hs
      simp only [l₁, Loop.emit, Loop.put, hne, if_false]
      exact hs
  | attachDead _ _ =>
    refine CreditPart.emit ?_ (by simp)
    exact (hput (x := none) (by simp)).congr rfl rfl rfl rfl rfl rfl rfl rfl

/-- Phase 0 leaves the count of a stream alone. -/
theorem creditPart_drains (h : CreditPart S l fun _ => 0) {s : StreamId} {keep died : Bool}
    (hd : Drains l s keep died l') : CreditPart S l' fun _ => 0 := by
  have hput : ∀ {tcp tcp' : TcpProxyStream Octet}, l.entry s = some (.tcp tcp) →
      tcp'.packetsSinceContinue = tcp.packetsSinceContinue →
      CreditPart S (l.put s (some (.tcp tcp'))) fun _ => 0 := by
    intro tcp tcp' hx hc
    refine h.put (fun _ _ => Nat.le_refl _) ?_
    rintro hup _ ⟨⟩
    rw [hc]
    exact h.owes hup s tcp hx
  cases hd with
  | other _ => exact h
  | empty hx _ => exact hput hx rfl
  | dead hx _ => exact hput hx (drainPending_frame _ _).2.1
  | sent hx _ _ => exact hput hx (drainPending_frame _ _).2.1
  | kept hx _ _ => exact hput hx (drainPending_frame _ _).2.1

/-! ## Steps of the server -/

theorem CreditOk.part (h : CreditOk S l) (hpc : l.pc ≠ .ended) : CreditPart S l fun _ => 0 :=
  { h.toFullGrants with owes := fun hup => h.owes hup hpc }

theorem CreditOk.step {r : Option WispFrameResult} (h : CreditOk S l) (hs : LoopStep S l r l') :
    CreditOk S l' := by
  have hfinish : ∀ {l₁ site}, Finishes l₁ site l' → CreditPart S l₁ (fun _ => 0) → CreditOk S l' :=
    fun hf h => creditOk_finishes h hf
  -- The state before a step of the main task, with `pc` its program counter.
  have hpart : ∀ {pc}, l.pc = pc → pc ≠ .ended → CreditPart S l fun _ => 0 :=
    fun hpc hne => h.part (by rw [hpc]; exact hne)
  have hextra : ∀ {r : WispFrameResult}, CreditPart S l (fun _ => 0) → CreditPart S l r.extra := by
    intro r hp
    refine ⟨hp.toFullGrants, fun hup s tcp hx => ?_⟩
    rcases hp.owes hup s tcp hx with hg | hle
    · exact .inl hg
    · exact .inr (hle.trans (Nat.add_le_add_left (Nat.zero_le _) _))
  cases hs with
  | nop => exact h
  | down => exact ⟨⟨h.seen, h.queued, h.written⟩, nofun⟩
  | task _ _ =>
    refine ⟨⟨h.seen, h.queued, h.written⟩, fun hup hpc => ?_⟩
    exact (h.owes hup hpc).mono rfl rfl rfl rfl fun _ hg => hg
  | start hpc hf => exact hfinish hf (hpart hpc nofun)
  | deferred hpc hi hf => exact hfinish hf (creditPart_inbound (hextra (hpart hpc nofun)) hi)
  | deferredConnect hpc hs => exact creditOk_suspends (hextra (hpart hpc nofun)) hs
  | inbound ht hr _ hi hf => exact hfinish hf (creditPart_inbound (ht.creditPart h hr) hi)
  | connect ht hr hs => exact creditOk_suspends (ht.creditPart h hr) hs
  | closing ht hr _ => exact creditOk_breakLoop ((ht.creditPart h hr).emit (by simp)).toFullGrants _
  | readError ht _ =>
    refine creditOk_breakLoop ?_ _
    cases ht <;> exact ⟨h.seen, h.queued, h.written⟩
  | drained hpc _ => exact creditOk_flushThen (hpart hpc nofun) _
  | tcpFailed hpc =>
    refine CreditPart.ok ?_
    exact (hpart hpc nofun).congr rfl rfl rfl rfl rfl rfl rfl rfl
  | spawned hpc hf =>
    refine hfinish hf ?_
    exact (hpart hpc nofun).congr rfl rfl rfl rfl rfl rfl rfl rfl
  | sendFailed hpc hf =>
    refine hfinish hf ?_
    exact (hpart hpc nofun).congr rfl rfl rfl rfl rfl rfl rfl rfl
  | udpRefused hpc hf => exact hfinish hf ((hpart hpc nofun).emit (by simp))
  | udpThrottled hpc hf =>
    refine hfinish hf (CreditPart.emit ?_ (by simp))
    exact (hpart hpc nofun).congr rfl rfl rfl rfl rfl rfl rfl rfl
  | udpAccepted hpc _ hf =>
    refine hfinish hf ?_
    exact ((hpart hpc nofun).put (x := some (.udp _)) (fun _ _ => Nat.le_refl _) (by simp)).congr
      rfl rfl rfl rfl rfl rfl rfl rfl
  | @phase0 s todo kept dead keep died l₁ hpc hd =>
    refine CreditPart.ok ?_
    exact (creditPart_drains (hpart hpc nofun) hd).congr rfl rfl rfl rfl rfl rfl rfl rfl
  | phase0End hpc =>
    refine CreditPart.ok ?_
    exact (hpart hpc nofun).congr rfl rfl rfl rfl rfl rfl rfl rfl
  | deadEnd hpc =>
    refine CreditPart.ok ?_
    exact (hpart hpc nofun).congr rfl rfl rfl rfl rfl rfl rfl rfl
  | @deadOne s dead hpc =>
    refine CreditPart.ok ?_
    have hput : CreditPart S (l.put s none) fun _ => 0 :=
      (hpart hpc nofun).put (fun _ _ => Nat.le_refl _) (by simp)
    have hemit : CreditPart S ((l.put s none).emit [.close s .networkError none]) fun _ => 0 :=
      hput.emit (by simp)
    exact hemit.congr rfl rfl rfl rfl rfl rfl rfl rfl
  | @event p rest q l₁ _ hpc hd =>
    have hne : l.pc ≠ .ended := by
      rcases hpc with ⟨hpc, -⟩ | ⟨hpc | hpc, -⟩ <;> rw [hpc] <;> nofun
    refine CreditPart.ok ?_
    have h₁ : CreditPart S { l with control := rest } fun _ => 0 :=
      (h.part hne).congr rfl rfl rfl rfl rfl rfl rfl rfl
    exact (creditPart_delivers h₁ hd).congr rfl rfl rfl rfl rfl rfl rfl rfl
  | @batch ms q hpc =>
    have hne : l.pc ≠ .ended := by
      rcases hpc with ⟨hpc, -⟩ | ⟨hpc, -⟩ <;> rw [hpc] <;> nofun
    refine CreditPart.ok ?_
    have hemit : CreditPart S (l.emit (ms.map .data)) fun _ => 0 := (h.part hne).emit (by simp)
    exact hemit.congr rfl rfl rfl rfl rfl rfl rfl rfl
  | restEnd hpc =>
    refine CreditPart.ok ?_
    exact (hpart hpc nofun).congr rfl rfl rfl rfl rfl rfl rfl rfl
  | timedOut hpc => exact creditOk_ended ⟨h.seen, h.queued, h.written⟩ rfl
  | noPing hpc =>
    refine CreditPart.ok ?_
    exact (hpart hpc nofun).congr rfl rfl rfl rfl rfl rfl rfl rfl
  | ping hpc =>
    refine CreditPart.ok ?_
    have hemit : CreditPart S (l.emit [.ping]) fun _ => 0 := (hpart hpc nofun).emit (by simp)
    exact hemit.congr rfl rfl rfl rfl rfl rfl rfl rfl

/-! ## Steps of the client -/

theorem inFlight_append (buf wire : List WsInput) (i : WsInput) (s : StreamId) :
    (buf ++ (wire ++ [i])).countP (·.isData s) =
      (buf ++ wire).countP (·.isData s) + if i.isData s then 1 else 0 := by
  rw [← List.append_assoc, List.countP_append, List.countP_singleton]

/-- A DATA packet costs a credit, and a CONNECT gives a full buffer. -/
theorem creditSent_cases (c : Conn) (i : WsInput) (hc : c.hasCredit (.client i) = true)
    (s : StreamId) :
    S.config.bufferSize.toNat ≤ c.creditSent S i s ∨
      c.creditSent S i s + (if i.isData s then 1 else 0) = c.credit s := by
  cases i with
  | broken => exact .inr rfl
  | frame f =>
    unfold Conn.creditSent WsInput.isData WispFrameResult.isData
    unfold Conn.hasCredit at hc
    cases hf : WispFrameResult.ofFrame f with
    | control g => simp [hf]
    | wisp t s' payload =>
      simp only [hf] at hc ⊢
      by_cases hconn : t = packetConnect
      · subst hconn
        by_cases hs : s = s'
        · simp [hs]
        · right
          simp [hs, show ¬ packetConnect = packetData by decide]
      · by_cases hdata : t = packetData
        · subst hdata
          have hpos : 0 < c.credit s' := by simpa using hc
          right
          by_cases hs : s = s'
          · subst hs
            simp [show ¬ packetData = packetConnect by decide]
            omega
          · simp [hs, Ne.symm hs, show ¬ packetData = packetConnect by decide]
        · right
          simp [hconn, hdata]

theorem CreditOk.client {c : Conn} (h : CreditOk S c.loop) {i : WsInput}
    (hc : c.hasCredit (.client i) = true) :
    CreditOk S { c with wire := c.wire ++ [i], credit := c.creditSent S i }.loop := by
  refine ⟨⟨h.seen, h.queued, h.written⟩, ?_⟩
  intro hup hpc s tcp hx
  rcases h.owes hup hpc s tcp hx with hg | hle
  · exact .inl hg
  · right
    have hcases := creditSent_cases (S := S) c i hc s
    replace hle : S.config.bufferSize.toNat ≤
        c.credit s + tcp.packetsSinceContinue + (c.wsBuf ++ c.wire).countP (·.isData s) := hle
    show S.config.bufferSize.toNat ≤ c.creditSent S i s + tcp.packetsSinceContinue +
      (c.wsBuf ++ (c.wire ++ [i])).countP (·.isData s) + 0
    rw [inFlight_append]
    omega

/-- The client receives the next frame. -/
theorem CreditOk.clientReads {c : Conn} (h : CreditOk S c.loop) {f : ClientFrame}
    (hf : c.out[c.seen]? = some f) :
    CreditOk S { c with seen := c.seen + 1, credit := c.creditSeen f }.loop := by
  obtain ⟨hlt, hget⟩ := List.getElem?_eq_some_iff.mp hf
  have hdrop : c.out.drop c.seen = f :: c.out.drop (c.seen + 1) := by
    rw [List.drop_eq_getElem_cons hlt, hget]
  refine ⟨⟨hlt, h.queued, h.written⟩, ?_⟩
  intro hup hpc s tcp hx
  -- The frame is a CONTINUE of `s`, or it leaves the credits of `s` alone.
  by_cases hgrant : f = .continue s S.config.bufferSize
  · right
    subst hgrant
    show S.config.bufferSize.toNat ≤ c.creditSeen (.continue s S.config.bufferSize) s + _ + _ + 0
    simp only [Conn.creditSeen, if_true]
    omega
  · have hsame : c.creditSeen f s = c.credit s := by
      cases f with
      | «continue» s' n =>
        have hn : n = S.config.bufferSize :=
          h.written s' n (by rw [← hget]; exact List.getElem_mem hlt)
        have hne : s ≠ s' := by
          rintro rfl
          exact hgrant (by rw [hn])
        simp [Conn.creditSeen, hne]
      | _ => rfl
    rcases h.owes hup hpc s tcp hx with (hg | hg) | hle
    · exact .inl (.inl hg)
    · left
      right
      have hg : .continue s S.config.bufferSize ∈ c.out.drop c.seen := hg
      rw [hdrop] at hg
      exact (List.mem_cons.mp hg).resolve_left (Ne.symm hgrant)
    · right
      show S.config.bufferSize.toNat ≤ c.creditSeen f s + _ + _ + _
      rw [hsame]
      exact hle

/-! ## Runs -/

/-- No CONTINUEs are queued where none may be. -/
def ContinuesFlushed (l : Loop) : Prop := l.pc.flushed = true → l.continues = []

theorem continuesFlushed_finishes {site : Site} (hf : Finishes l site l') : ContinuesFlushed l' := by
  cases hf with
  | flush _ => exact fun _ => rfl
  | yield => exact fun _ => rfl
  | next => exact nofun

theorem continuesFlushed_breakLoop (l : Loop) (site : Site) : ContinuesFlushed (l.breakLoop site) := by
  intro h
  rw [l.breakLoop_pc] at h
  cases h

theorem ContinuesFlushed.step {r : Option WispFrameResult} (h : ContinuesFlushed l) (hs : LoopStep S l r l') :
    ContinuesFlushed l' := by
  have hphase : ∀ {pc}, l.pc = pc → pc.flushed = true → l.continues = [] :=
    fun hpc hf => h (by rw [hpc]; exact hf)
  cases hs with
  | nop => exact h
  | down => exact h
  | task _ _ => exact h
  | start _ hf => exact continuesFlushed_finishes hf
  | deferred _ _ hf => exact continuesFlushed_finishes hf
  | deferredConnect _ hs => cases hs <;> nofun
  | inbound _ _ _ _ hf => exact continuesFlushed_finishes hf
  | connect _ _ hs => cases hs <;> nofun
  | closing _ _ _ => exact continuesFlushed_breakLoop _ _
  | readError _ _ => exact continuesFlushed_breakLoop _ _
  | drained _ _ => exact fun _ => rfl
  | tcpFailed _ => exact nofun
  | spawned _ hf => exact continuesFlushed_finishes hf
  | sendFailed _ hf => exact continuesFlushed_finishes hf
  | udpRefused _ hf => exact continuesFlushed_finishes hf
  | udpThrottled _ hf => exact continuesFlushed_finishes hf
  | udpAccepted _ _ hf => exact continuesFlushed_finishes hf
  | phase0 hpc hd =>
    intro _
    cases hd <;> exact hphase hpc rfl
  | phase0End hpc => exact fun _ => hphase hpc rfl
  | deadEnd hpc => exact fun _ => hphase hpc rfl
  | deadOne hpc => exact fun _ => hphase hpc rfl
  | event _ hpc hd =>
    intro _
    have hc : l.continues = [] := by
      rcases hpc with ⟨hpc, -⟩ | ⟨hpc | hpc, -⟩ <;> exact hphase hpc rfl
    cases hd <;> exact hc
  | batch hpc =>
    intro _
    rcases hpc with ⟨hpc, -⟩ | ⟨hpc, -⟩ <;> exact hphase hpc rfl
  | restEnd _ => exact nofun
  | timedOut _ => exact nofun
  | noPing _ => exact nofun
  | ping _ => exact nofun

theorem Reach.continuesFlushed {ok : Conn → Act → Conn → Prop} {c : Conn} (h : (sys S).Reach ok c) :
    ContinuesFlushed c.loop :=
  Reach.loop (I := ContinuesFlushed) (fun _ => nofun) (fun _ _ _ _ hi => hi)
    (fun _ _ _ _ hi _ hs => hi.step hs) h

end ShrimpWisp
