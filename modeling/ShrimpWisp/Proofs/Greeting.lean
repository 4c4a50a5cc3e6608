import ShrimpWisp.Server.HandshakeWire
import ShrimpWisp.Proofs.Segments

/-!
# The handshake on its socket, and over whole frames

`Server/Handshake` takes the client's frames as given, and which of the writes succeed. Here it is
refined by the handshake on the socket: the client's bytes in any pieces, pings that `read_frame`
answers by itself, and writes that take a part of a frame.

* `WebSocket.inputs`: the frames in the client's bytes.
* `InHandshake.turn`: one round of `read_frame` takes the next of them, `Turn` says how.
* `readWsBinaryWire_sim`: `read_ws_binary_handshake` on the socket does what it does on these frames.
* `handshakeWire_refines`: so does the whole handshake, and the socket has taken the bytes of the
  frames that were handed over.
-/

namespace ShrimpWisp

/-! ## Frames in and out -/

/-- A parsed frame, or the end of the stream, as the next input. -/
def WsInput.ofDecoded : Option (Except WebSocketError MaskedFrame) → WsInput
  | some r => .ofParsed r
  | none => .broken

/-- The frames in the bytes that were not read yet. -/
def WebSocket.inputs (ws : WebSocket) : List WsInput :=
  (parsed ws.limit (ws.buffer ++ (arriving ws.incoming).1) (arriving ws.incoming).2).map .ofDecoded

/-- A frame handed to the WebSocket. -/
def WsOut.frame : WsOut → Frame
  | .binary payload => .binary payload
  | .pong payload => .pong payload

/-- Its bytes: final, and without a mask. -/
def WsOut.wire : WsOut → List UInt8
  | .binary payload => encodeFrame .binary payload
  | .pong payload => encodeFrame .pong payload

theorem WsOut.wire_frame (o : WsOut) : o.frame.wire = o.wire := by
  cases o <;> rfl

/-- What the socket keeps during the handshake. -/
structure InHandshake (ws : WebSocket) : Prop where
  limit : ws.limit = maxMessageSize
  autoClose : ws.autoClose = false
  autoPong : ws.autoPong = true
  server : ws.half.client = false
  notClosed : ws.half.closed = false

theorem inHandshake_upgradedSocket (buffer : List UInt8) (incoming : List (List UInt8))
    (room : List Nat) : InHandshake (upgradedSocket buffer incoming room) := ⟨rfl, rfl, rfl, rfl, rfl⟩

variable {ws : WebSocket}

/-- The write of a frame. -/
theorem InHandshake.write (hs : InHandshake ws) (o : WsOut) :
    ∃ ok ws', ws.writeFrame o.frame = some (if ok then .ok () else .error .io, ws') ∧ InHandshake ws' ∧
      ws'.inputs = ws.inputs ∧ ws'.unread = ws.unread ∧
      ws.outgoing.Puts o.wire (ok, ws'.outgoing) := by
  obtain ⟨r, hr, hw⟩ := WriteHalf.writeFrame_wrote (.x86 false) 0 #v[0, 0, 0, 0] ws.half ws.outgoing
    o.frame
  have hop : o.frame.opcode ≠ .close := by cases o <;> rintro ⟨⟩
  have hframed : WriteHalf.framed (.x86 false) 0 #v[0, 0, 0, 0] ws.half o.frame = o.frame := by
    rw [WriteHalf.framed, hs.server, Bool.false_and]
    rfl
  rw [hframed, WsOut.wire_frame] at hw
  cases hw with
  | refused hcl => exact absurd (hs.notClosed.symm.trans hcl) (by decide)
  | @written ok stream' buf hcl hput =>
    refine ⟨ok, { ws with
      half := { ws.half with
        closed := ws.half.closed || decide (o.frame.opcode = .close), writeBuffer := buf }
      outgoing := stream' }, by rw [WebSocket.writeFrame, hr]; rfl, ?_, rfl, rfl, hput⟩
    refine ⟨hs.limit, hs.autoClose, hs.autoPong, hs.server, ?_⟩
    simp only [hs.notClosed, decide_eq_false hop, Bool.or_false]

/-! ## One round -/

/-- What a round of `read_frame` makes of the client's frames: there is none yet, an error, a frame,
or a ping, which is answered. -/
inductive Turn (ws : WebSocket) : Prop
  | waits (ws' : WebSocket) : ws.inputs = [] → ws'.outgoing = ws.outgoing → InHandshake ws' →
      ws.readFrameRound = some (.inr (.pending ws')) → Turn ws
  | fails (e : SocketError) (ws' : WebSocket) (i : WsInput) (rest : List WsInput) :
      ws.inputs = i :: rest → readFrameInner maxMessageSize i = none →
      ws'.outgoing = ws.outgoing → InHandshake ws' →
      ws.readFrameRound = some (.inr (.ready (.error e) ws')) → Turn ws
  | frame (f : WsFrame) (ws' : WebSocket) : ws.inputs = .frame f ::
        (if (WispFrameResult.ofFrame f).closes then [] else WebSocket.inputs ws') →
      readFrameInner maxMessageSize (.frame f) = some f → f.opcode ≠ .ping →
      ws'.outgoing = ws.outgoing → InHandshake ws' →
      ws.readFrameRound = some (.inr (.ready (.ok f) ws')) → Turn ws
  | ping (f : WsFrame) (ws₁ : WebSocket) : ws.inputs = .frame f :: WebSocket.inputs ws₁ →
      readFrameInner maxMessageSize (.frame f) = some f → f.opcode = .ping →
      ws₁.outgoing = ws.outgoing → InHandshake ws₁ → ws₁.unread < ws.unread →
      (∀ {ws'}, ws₁.writeFrame (.pong f.payload) = some (.ok (), ws') →
        ws.readFrameRound = some (.inl ws')) →
      (∀ {e ws'}, ws₁.writeFrame (.pong f.payload) = some (.error e, ws') →
        ws.readFrameRound = some (.inr (.ready (.error (.write e)) ws'))) → Turn ws

/-- The next of the client's frames, and the bytes after it. -/
theorem WebSocket.inputs_of_item {r : Except WebSocketError MaskedFrame} {buffer : List UInt8}
    {incoming : List (List UInt8)}
    (h : (wispDecoder ws.limit).await ws.incoming ws.buffer = .item r buffer incoming) :
    ws.inputs = .ofParsed r :: (if (wispDecoder ws.limit).ends ((wispDecoder ws.limit).inner (some r))
        then [] else inputs { ws with buffer, incoming }) ∧
      ∃ x rest, ReadHalf.tryParseFrameBuffered ws.limit x = some (r, rest) := by
  obtain ⟨hd, he⟩ := Decoder.await_item h []
  simp only [List.append_nil] at hd he
  refine ⟨?_, _, _, hd⟩
  rw [inputs, parsed, (wispDecoder ws.limit).decoded_some hd, List.map_cons, ← he]
  congr 1
  split <;> rfl

/-- The round of a frame. -/
theorem InHandshake.turn_frame (hs : InHandshake ws) {f : MaskedFrame} {buffer : List UInt8}
    {incoming : List (List UInt8)}
    (hin : ws.inputs = .ofParsed (.ok f) ::
      (if (wispDecoder ws.limit).ends ((wispDecoder ws.limit).inner (some (.ok f))) then []
        else WebSocket.inputs { ws with buffer, incoming }))
    (hcheck : checkFrame ws.limit (.ofParsed (.ok f)) = some f.unmask)
    (hp : ReadHalf.parseFrameHeader ws.limit ws.buffer ws.incoming =
      .ready (.ok f) buffer incoming) : Turn ws := by
  have hlt : WebSocket.unread { ws with buffer, incoming } < ws.unread :=
    WebSocket.parseFrameHeader_lt hp
  have hs' : InHandshake { ws with buffer, incoming } :=
    ⟨hs.limit, hs.autoClose, hs.autoPong, hs.server, hs.notClosed⟩
  rw [hs.limit] at hcheck
  have hin : ws.inputs = .frame f.unmask :: (if (WispFrameResult.ofFrame f.unmask).closes then []
      else WebSocket.inputs { ws with buffer, incoming }) := hin
  have hcheck : checkFrame maxMessageSize (.frame f.unmask) = some f.unmask := hcheck
  have hround : ws.readFrameRound = WebSocket.endRound false (ReadHalf.obliged false true f.unmask).1
      (WebSocket.writeObliged { ws with buffer, incoming }
        (ReadHalf.obliged false true f.unmask).2) := by
    rw [WebSocket.readFrameRound, hp]
    simp only [hs.autoClose, hs.autoPong, hs.notClosed]
  generalize f.unmask = g at *
  by_cases hping : g.opcode = .ping
  · have hob : ReadHalf.obliged false true g = (.ok none, some (.pong g.payload)) := by
      simp only [ReadHalf.obliged, hping, if_true]
    have hcl : (WispFrameResult.ofFrame g).closes = false := by
      simp [WispFrameResult.ofFrame, hping, WispFrameResult.closes]
    have hopen : ({ ws with buffer, incoming } : WebSocket).half.closed = false := hs.notClosed
    refine .ping g { ws with buffer, incoming } ?_ ?_ hping rfl hs' hlt ?_ ?_
    · rw [hin, hcl]
      rfl
    · rw [readFrameInner, hcheck]
      simp [hping]
    · intro ws' hw
      rw [hround, hob, WebSocket.writeObliged, if_neg (by rw [hopen]; decide), hw]
      rfl
    · intro e ws' hw
      rw [hround, hob, WebSocket.writeObliged, if_neg (by rw [hopen]; decide), hw]
      rfl
  by_cases htext : g.opcode = .text ∧ g.fin = true ∧ Utf8.valid g.payload = false
  · have hob : ReadHalf.obliged false true g = (.error (.webSocket .invalidUtf8), none) := by
      simp only [ReadHalf.obliged, htext.1, htext.2.1, htext.2.2, Bool.not_false, Bool.and_self, if_true]
    refine .fails (.webSocket .invalidUtf8) { ws with buffer, incoming } (.frame g) _ hin ?_ rfl hs' ?_
    · rw [readFrameInner, hcheck]
      exact if_pos htext
    · rw [hround, hob]
      rfl
  · have hob : ReadHalf.obliged false true g = (.ok (some g), none) := by
      unfold ReadHalf.obliged
      split
      · rfl
      · next h => exact absurd h hping
      · next h =>
        rw [if_neg]
        intro hc
        obtain ⟨hfin, hval⟩ := (Bool.and_eq_true _ _).mp hc
        exact htext ⟨h, hfin, by simpa using hval⟩
      · rfl
    refine .frame g { ws with buffer, incoming } hin ?_ hping rfl hs' ?_
    · rw [readFrameInner, hcheck]
      exact if_neg htext
    · rw [hround, hob]
      rfl

theorem InHandshake.turn (hs : InHandshake ws) : Turn ws := by
  have hawait := parseFrameHeader_await ws.limit ws.buffer ws.incoming
  cases ha : (wispDecoder ws.limit).await ws.incoming ws.buffer with
  | pending b =>
    rw [ha] at hawait
    obtain ⟨hb, he⟩ := Decoder.await_pending ha []
    simp only [arriving, List.append_nil] at hb he
    refine .waits { ws with buffer := b, incoming := [] } ?_ rfl
      ⟨hs.limit, hs.autoClose, hs.autoPong, hs.server, hs.notClosed⟩ ?_
    · rw [WebSocket.inputs, ← hb, ← he, parsed,
        (wispDecoder ws.limit).decoded_none (Decoder.decode_of_await_pending ha)]
      rfl
    · rw [WebSocket.readFrameRound, hawait]
  | eof b rest =>
    rw [ha] at hawait
    obtain ⟨hn, he⟩ := Decoder.await_eof ha []
    simp only [List.append_nil] at hn he
    refine .fails (.webSocket .unexpectedEof) { ws with buffer := b, incoming := rest } .broken [] ?_
      rfl rfl ⟨hs.limit, hs.autoClose, hs.autoPong, hs.server, hs.notClosed⟩ ?_
    · rw [WebSocket.inputs, parsed, (wispDecoder ws.limit).decoded_none hn, he]
      rfl
    · rw [WebSocket.readFrameRound, hawait]
  | item r b rest =>
    rw [ha] at hawait
    obtain ⟨hin, x, y, hx⟩ := WebSocket.inputs_of_item ha
    cases r with
    | error e =>
      refine .fails (.webSocket e) { ws with buffer := b, incoming := rest } .broken _ hin rfl rfl
        ⟨hs.limit, hs.autoClose, hs.autoPong, hs.server, hs.notClosed⟩ ?_
      rw [WebSocket.readFrameRound, hawait]
    | ok f =>
      exact hs.turn_frame hin (checkFrame_ofParsed hx) hawait

/-! ## The first Binary message -/

/-- The writes from `start` on: `count` of them, and all succeed, or all but the last. -/
def WritesGo (wok : Nat → Bool) (start count : Nat) (ok : Bool) : Prop :=
  ∀ i < count, wok (start + i) = (ok || decide (i + 1 < count))

theorem WritesGo.head {wok : Nat → Bool} {start count : Nat} {ok : Bool}
    (h : WritesGo wok start (count + 1) ok) (hc : ok = false → 0 < count) : wok start = true := by
  have h0 := h 0 (Nat.succ_pos count)
  rw [Nat.add_zero] at h0
  rw [h0]
  cases ok with
  | true => rfl
  | false => exact decide_eq_true (Nat.succ_lt_succ (hc rfl))

theorem WritesGo.tail {wok : Nat → Bool} {start count : Nat} {ok : Bool}
    (h : WritesGo wok start (count + 1) ok) : WritesGo wok (start + 1) count ok := by
  intro i hi
  have := h (i + 1) (by omega)
  rw [Nat.add_assoc, Nat.add_comm 1 i, this]
  simp

/-- Neither the message that is waited for nor the end. -/
theorem readWsBinaryHandshake_skip (wok : Nat → Bool) {f : WsFrame} (rest : List WsInput)
    (sent : List WsOut) (hf : readFrameInner maxMessageSize (.frame f) = some f)
    (hb : f.opcode ≠ .binary) (hc : f.opcode ≠ .close) (hp : f.opcode ≠ .ping) :
    readWsBinaryHandshake wok (.frame f :: rest) sent = readWsBinaryHandshake wok rest sent := by
  rw [readWsBinaryHandshake, hf]
  simp only

/-- `read_ws_binary_handshake` on the socket, after the frames `sent`, does what it does on the
client's frames with the same writes. -/
def Simulated (ws : WebSocket) (sent : List WsOut) : Prop :=
  ∃ a ws' more ok, readWsBinaryWire ws = some (a, ws') ∧ InHandshake ws' ∧
    ws.outgoing.Puts (more.flatMap WsOut.wire) (ok, ws'.outgoing) ∧
    (ok = false → a = .failed .webSocket ∧ more ≠ []) ∧
    ∀ wok, WritesGo wok sent.length more.length ok →
      readWsBinaryHandshake wok ws.inputs sent = (a, sent ++ more)

/-- A round that ends it without a write. -/
theorem Simulated.of_done {ws' : WebSocket} {sent : List WsOut} {a : Await (List UInt8)}
    (h : readWsBinaryRound ws = some (.inr (a, ws'))) (hs' : InHandshake ws')
    (hout : ws'.outgoing = ws.outgoing)
    (ha : ∀ wok, readWsBinaryHandshake wok ws.inputs sent = (a, sent)) : Simulated ws sent := by
  refine ⟨a, ws', [], true, readWsBinaryRounds.loop_done h, hs', ?_, (fun h => by cases h),
    fun wok _ => ?_⟩
  · rw [hout]
    exact .nil _
  · rw [ha, List.append_nil]

/-- A round that goes on without a write. -/
theorem Simulated.of_again {ws' : WebSocket} {sent : List WsOut}
    (h : readWsBinaryRound ws = some (.inl ws')) (hout : ws'.outgoing = ws.outgoing)
    (hin : ∀ wok, readWsBinaryHandshake wok ws.inputs sent =
      readWsBinaryHandshake wok ws'.inputs sent) (hsim : Simulated ws' sent) :
    Simulated ws sent := by
  obtain ⟨a, ws₂, more, ok, hw, hs₂, hput, hbad, hsim⟩ := hsim
  refine ⟨a, ws₂, more, ok, ?_, hs₂, hout ▸ hput, hbad, fun wok hgo => ?_⟩
  · rw [readWsBinaryWire, readWsBinaryRounds.loop_again h]
    exact hw
  · rw [hin]
    exact hsim wok hgo

/-- A frame that is no ping. -/
theorem Simulated.of_frame {f : WsFrame} {ws' : WebSocket} {sent : List WsOut}
    (hin : ws.inputs = .frame f ::
      (if (WispFrameResult.ofFrame f).closes then [] else WebSocket.inputs ws'))
    (hf : readFrameInner maxMessageSize (.frame f) = some f) (hping : f.opcode ≠ .ping)
    (hout : ws'.outgoing = ws.outgoing) (hs' : InHandshake ws')
    (hr : ws.readFrameRound = some (.inr (.ready (.ok f) ws'))) (hsim : Simulated ws' sent) :
    Simulated ws sent := by
  have hread := WebSocket.readFrame_done hr
  by_cases hbin : f.opcode = .binary
  · have hround : readWsBinaryRound ws = some (.inr (.ready f.payload, ws')) := by
      rw [readWsBinaryRound, hread]
      simp only [hbin]
    refine .of_done hround hs' hout fun wok => ?_
    rw [hin, readWsBinaryHandshake, hf]
    simp only [hbin]
  by_cases hclose : f.opcode = .close
  · have hround : readWsBinaryRound ws = some (.inr (.failed .clientClosed, ws')) := by
      rw [readWsBinaryRound, hread]
      simp only [hclose]
    refine .of_done hround hs' hout fun wok => ?_
    rw [hin, readWsBinaryHandshake, hf]
    simp only [hclose]
  · have hround : readWsBinaryRound ws = some (.inl ws') := by
      rw [readWsBinaryRound, hread]
      simp only
    have hcl : (WispFrameResult.ofFrame f).closes = false := by
      unfold WispFrameResult.ofFrame
      split
      · next h => exact absurd h hbin
      · exact beq_false_of_ne hclose
    refine .of_again hround hout (fun wok => ?_) hsim
    rw [hin, hcl, readWsBinaryHandshake_skip wok _ _ hf hbin hclose hping]
    rfl

/-- A ping, and its pong. -/
theorem Simulated.of_ping {f : WsFrame} {ws₁ : WebSocket} {sent : List WsOut}
    (hin : ws.inputs = .frame f :: ws₁.inputs)
    (hf : readFrameInner maxMessageSize (.frame f) = some f) (hping : f.opcode = .ping)
    (hout : ws₁.outgoing = ws.outgoing) (hs₁ : InHandshake ws₁)
    (hok : ∀ {ws'}, ws₁.writeFrame (.pong f.payload) = some (.ok (), ws') →
      ws.readFrameRound = some (.inl ws'))
    (herr : ∀ {e ws'}, ws₁.writeFrame (.pong f.payload) = some (.error e, ws') →
      ws.readFrameRound = some (.inr (.ready (.error (.write e)) ws')))
    (hsim : ∀ ws₂, InHandshake ws₂ → ws₂.unread = ws₁.unread →
      Simulated ws₂ (sent ++ [.pong f.payload])) : Simulated ws sent := by
  obtain ⟨ok₀, ws₂, hw, hs₂, hin₂, hun₂, hput₀⟩ := hs₁.write (.pong f.payload)
  have hstep : ∀ wok, readWsBinaryHandshake wok ws.inputs sent =
      if wok sent.length then readWsBinaryHandshake wok ws₂.inputs (sent ++ [.pong f.payload])
      else (.failed .webSocket, sent ++ [.pong f.payload]) := by
    intro wok
    rw [hin, readWsBinaryHandshake, hf, hin₂]
    simp only [hping]
  rw [hout] at hput₀
  cases ok₀ with
  | false =>
    have hround : readWsBinaryRound ws = some (.inr (.failed .webSocket, ws₂)) := by
      rw [readWsBinaryRound, WebSocket.readFrame_done (herr hw)]
    refine ⟨_, ws₂, [.pong f.payload], false, readWsBinaryRounds.loop_done hround, hs₂, ?_,
      fun _ => ⟨rfl, by simp⟩, fun wok hgo => ?_⟩
    · rw [List.flatMap_cons, List.flatMap_nil, List.append_nil]
      exact hput₀
    · have h0 : wok sent.length = false := by simpa using hgo 0 (by simp)
      rw [hstep, h0]
      rfl
  | true =>
    obtain ⟨a, ws₃, more, ok, hw₃, hs₃, hput, hbad, hsim⟩ := hsim ws₂ hs₂ hun₂
    refine ⟨a, ws₃, .pong f.payload :: more, ok, ?_, hs₃, ?_,
      fun hf => ⟨(hbad hf).1, by simp⟩, fun wok hgo => ?_⟩
    · rw [readWsBinaryWire_again (hok hw)]
      exact hw₃
    · rw [List.flatMap_cons]
      simpa using hput₀.seq hput
    · have h0 := hgo.head fun hf => List.length_pos_of_ne_nil (hbad hf).2
      have hrest := hsim wok (by rw [List.length_append]; exact hgo.tail)
      rw [hstep, h0, hrest, List.append_assoc]
      rfl

theorem readWsBinaryWire_sim (hs : InHandshake ws) (sent : List WsOut) : Simulated ws sent := by
  -- on the bytes that were not read yet; each round takes a frame of them
  induction hn : ws.unread using Nat.strongRecOn generalizing ws sent with
  | ind n ih =>
    cases hs.turn with
    | waits ws' hin hout hs' hr =>
      have hround : readWsBinaryRound ws = some (.inr (.waiting, ws')) := by
        rw [readWsBinaryRound, WebSocket.readFrame_done hr]
      exact .of_done hround hs' hout fun wok => by rw [hin]; rfl
    | fails e ws' i rest hin hnone hout hs' hr =>
      have hround : readWsBinaryRound ws = some (.inr (.failed .webSocket, ws')) := by
        rw [readWsBinaryRound, WebSocket.readFrame_done hr]
      exact .of_done hround hs' hout fun wok => by rw [hin, readWsBinaryHandshake, hnone]
    | frame f ws' hin hf hping hout hs' hr =>
      have hlt := WebSocket.readFrameRound_lt hr rfl
      exact .of_frame hin hf hping hout hs' hr (ih _ (hn ▸ hlt) hs' sent rfl)
    | ping f ws₁ hin hf hping hout hs₁ hlt hok herr =>
      exact .of_ping hin hf hping hout hs₁ hok herr fun ws₂ hs₂ hun =>
        ih ws₂.unread (by omega) hs₂ _ rfl

/-! ## The handshake -/

section Refines

variable (bcryptVerify : Str → Str → Bool) (config : ServerConfig)

/-- The handshake on the socket that ended so is the one over whole frames, with some of its writes
failing: the last one, or none. -/
def Refines (ws : WebSocket) (r : Option WireEnd) (abs : (Nat → Bool) → Handshake) : Prop :=
  ∃ a ws' sent ok, r = some (a, ws') ∧
    ws.outgoing.Puts (sent.flatMap WsOut.wire) (ok, ws'.outgoing) ∧
    ∀ wok, WritesGo wok 0 sent.length ok → abs wok = ⟨a, sent⟩

section Last

variable {ws₁ : WebSocket} {sent : List WsOut} {abs : (Nat → Bool) → Handshake}

/-- One more frame at the end of the handshake. -/
theorem Refines.of_last (hs : InHandshake ws₁)
    (hput : ws.outgoing.Puts (sent.flatMap WsOut.wire) (true, ws₁.outgoing)) (o : WsOut)
    (good bad : Await (Option (List UInt8))) {r : Option WireEnd}
    (hr : ∀ (ok : Bool) ws', ws₁.writeFrame o.frame = some (if ok then .ok () else .error .io, ws') →
      r = some (if ok then good else bad, ws'))
    (habs : ∀ wok, WritesGo wok 0 sent.length true →
      abs wok = ⟨if wok sent.length then good else bad, sent ++ [o]⟩) : Refines ws r abs := by
  obtain ⟨ok, ws₂, hw, -, -, -, hput₂⟩ := hs.write o
  refine ⟨if ok then good else bad, ws₂, sent ++ [o], ok, hr ok ws₂ hw, ?_, fun wok hgo => ?_⟩
  · rw [List.flatMap_append, List.flatMap_cons, List.flatMap_nil, List.append_nil]
    simpa using hput.seq hput₂
  · have hlen : (sent ++ [o]).length = sent.length + 1 := by simp
    rw [hlen] at hgo
    have hlast := hgo sent.length (Nat.lt_succ_self _)
    rw [Nat.zero_add, decide_eq_false (by omega), Bool.or_false] at hlast
    rw [habs wok, hlast]
    intro i hi
    rw [hgo i (by omega), decide_eq_true (by omega), Bool.or_true, Bool.true_or]

theorem Refines.reject (hs : InHandshake ws₁)
    (hput : ws.outgoing.Puts (sent.flatMap WsOut.wire) (true, ws₁.outgoing)) (reason : CloseReason)
    (msg : Str) (habs : ∀ wok, WritesGo wok 0 sent.length true →
      abs wok = ShrimpWisp.reject wok sent reason msg) :
    Refines ws (rejectWire ws₁ reason msg) abs := by
  refine .of_last hs hput (.binary (buildCloseFrame streamIdControl reason)) (.failed (.protocol msg))
    (.failed .webSocket) (fun ok ws' hw => ?_) (fun wok hgo => ?_)
  · rw [rejectWire, show Frame.binary _ = (WsOut.binary _).frame from rfl, hw]
    cases ok <;> rfl
  · rw [habs wok hgo, ShrimpWisp.reject]
    split <;> rfl

theorem Refines.admitted (hs : InHandshake ws₁)
    (hput : ws.outgoing.Puts (sent.flatMap WsOut.wire) (true, ws₁.outgoing))
    (deferred : Option (List UInt8)) (habs : ∀ wok, WritesGo wok 0 sent.length true →
      abs wok = admitClient wok config sent deferred) :
    Refines ws (admitWire config ws₁ deferred) abs := by
  refine .of_last hs hput (.binary (buildInitialContinueFrame config.bufferSize)) (.ready deferred)
    (.failed .webSocket) (fun ok ws' hw => ?_) (fun wok hgo => ?_)
  · rw [admitWire, show Frame.binary _ = (WsOut.binary _).frame from rfl, hw]
    cases ok <;> rfl
  · rw [habs wok hgo, admitClient]

theorem Refines.first (hs : InHandshake ws₁)
    (hput : ws.outgoing.Puts (sent.flatMap WsOut.wire) (true, ws₁.outgoing))
    (firstPayload : List UInt8) (habs : ∀ wok, WritesGo wok 0 sent.length true →
      abs wok = handshakeFirst bcryptVerify wok config sent firstPayload) :
    Refines ws (handshakeFirstWire bcryptVerify config ws₁ firstPayload) abs := by
  unfold handshakeFirstWire
  unfold handshakeFirst at habs
  split
  · next hi =>
    simp only [hi, if_true] at habs
    split
    · next hm =>
      simp only [hm, if_true, ne_eq, not_false_eq_true] at habs
      exact .reject hs hput _ _ habs
    · next hm =>
      simp only [hm, if_false] at habs
      split
      · next ha =>
        simp only [ha, if_true] at habs
        exact .reject hs hput _ _ habs
      · next ha =>
        simp only [ha] at habs
        exact .admitted config hs hput _ habs
  · next hi =>
    simp only [hi] at habs
    split
    · next ha =>
      simp only [ha, if_true] at habs
      exact .reject hs hput _ _ habs
    · next ha =>
      simp only [ha] at habs
      exact .admitted config hs hput _ habs

end Last

theorem handshakeWire_refined (hs : InHandshake ws) (isV2 : Bool) :
    Refines ws (handshakeWire bcryptVerify config isV2 ws)
      fun wok => handshake bcryptVerify wok config isV2 ws.inputs := by
  unfold handshakeWire handshake
  cases isV2 with
  | false =>
    simp only [Bool.false_eq_true, if_false]
    split
    · exact .reject hs (.nil _) _ _ fun wok _ => rfl
    · exact .admitted config hs (.nil _) _ fun wok _ => rfl
  | true =>
    simp only [if_true]
    obtain ⟨ok₀, ws₁, hw, hs₁, hin₁, -, hput₀⟩ := hs.write serverInfo
    have hw : ws.writeFrame (.binary (buildServerInfoFrame [])) =
        some (if ok₀ then .ok () else .error .io, ws₁) := hw
    rw [hw]
    cases ok₀ with
    | false =>
      refine ⟨.failed .webSocket, ws₁, [serverInfo], false, rfl, ?_, fun wok hgo => ?_⟩
      · rw [List.flatMap_cons, List.flatMap_nil, List.append_nil]
        exact hput₀
      · have h0 : wok 0 = false := by simpa using hgo 0 (by simp)
        simp only [handshakeRead, h0]
        rfl
    | true =>
      obtain ⟨a, ws₂, more, ok, hread, hs₂, hput, hbad, hsim⟩ :=
        readWsBinaryWire_sim hs₁ [serverInfo]
      have hall : ws.outgoing.Puts ((serverInfo :: more).flatMap WsOut.wire) (ok, ws₂.outgoing) := by
        rw [List.flatMap_cons]
        simpa using hput₀.seq hput
      -- what the frame level reads, once all the writes up to here are as on the socket
      have habs : ∀ wok, WritesGo wok 0 (serverInfo :: more).length ok →
          handshakeRead wok ws.inputs = (a, serverInfo :: more) := by
        intro wok hgo
        have h0 := WritesGo.head hgo fun hf => List.length_pos_of_ne_nil (hbad hf).2
        have := hsim wok hgo.tail
        rw [handshakeRead, h0, ← hin₁]
        exact this
      simp only [if_true, Option.bind_eq_bind, Option.bind_some, hread]
      cases a with
      | ready firstPayload =>
        have hok : ok = true := by
          cases ok with
          | true => rfl
          | false => exact absurd (hbad rfl).1 (by rintro ⟨⟩)
        subst hok
        exact .first bcryptVerify config hs₂ hall firstPayload fun wok hgo => by
          simp only [habs wok hgo]
      | failed e =>
        exact ⟨.failed e, ws₂, serverInfo :: more, ok, rfl, hall, fun wok hgo => by
          simp only [habs wok hgo]⟩
      | waiting =>
        exact ⟨.waiting, ws₂, serverInfo :: more, ok, rfl, hall, fun wok hgo => by
          simp only [habs wok hgo]⟩

/-- The handshake on its socket, for any pieces of the client's bytes and any short or failing
writes, ends as the handshake over the frames in these bytes does for some outcome of its writes;
the socket has taken the bytes of the frames that were handed over there, all of them if all the
writes succeed. No index is out of range. -/
theorem handshakeWire_refines (isV2 : Bool) (buffer : List UInt8) (incoming : List (List UInt8))
    (room : List Nat) :
    ∃ wok ws' h,
      handshake bcryptVerify wok config isV2 (upgradedSocket buffer incoming room).inputs = h ∧
      handshakeWire bcryptVerify config isV2 (upgradedSocket buffer incoming room) =
        some (h.outcome, ws') ∧
      ws'.outgoing.sent <+: h.sent.flatMap WsOut.wire ∧
      ((∀ k < h.sent.length, wok k = true) →
        ws'.outgoing.sent = h.sent.flatMap WsOut.wire) := by
  obtain ⟨a, ws', sent, ok, hrun, hput, habs⟩ := handshakeWire_refined bcryptVerify config
    (inHandshake_upgradedSocket buffer incoming room) isV2
  have hgo : WritesGo (fun k => ok || decide (k + 1 < sent.length)) 0 sent.length ok := by
    intro i _
    rw [Nat.zero_add]
  refine ⟨_, ws', ⟨a, sent⟩, habs _ hgo, hrun, ?_, fun hall => ?_⟩
  · cases ok with
    | true =>
      have := hput.all rfl
      exact this ▸ List.prefix_rfl
    | false =>
      obtain ⟨-, p, hp, hsent⟩ := hput.part rfl
      have hsent : ws'.outgoing.sent = p := hsent
      exact hsent ▸ hp
  · cases ok with
    | true => exact hput.all rfl
    | false =>
      -- the last write failed, if there was one
      cases hlen : sent.length with
      | zero =>
        obtain ⟨-, p, hp, hsent⟩ := hput.part rfl
        have hsent : ws'.outgoing.sent = p := hsent
        rw [List.length_eq_zero_iff.mp hlen] at hp ⊢
        exact hsent.trans (List.prefix_nil.mp hp)
      | succ n =>
        have := hall n (by rw [hlen]; exact Nat.lt_succ_self n)
        rw [Bool.false_or, hlen] at this
        exact absurd (of_decide_eq_true this) (Nat.lt_irrefl _)

end Refines

end ShrimpWisp
