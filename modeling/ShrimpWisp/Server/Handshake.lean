import ShrimpWisp.Protocol.Frame
import ShrimpWisp.Server.Config
import ShrimpWisp.Ws.Reader

/-!
# The Wisp handshake and its authentication (`src/server/connection.rs`)

`handle_connection` up to the main loop, as a function of what the client sends (`reads`) and of
which writes to the client succeed (`wok`, by position). The result records every frame that was
handed to the WebSocket.

* `verifyAuth`, `verifyPassword`: the credentials check. `bcrypt::verify` is a parameter.
* `handshake_auth`: with required auth, only a v2 client whose first Binary message is an INFO with
  valid credentials gets past the handshake; every other first message is answered by one CLOSE.
-/

namespace ShrimpWisp

/-- The loop of `parse_client_info_extensions`, with the entries found so far. Each round takes at
least the five bytes of an entry's header, so `fuel = data.length` is enough. -/
def clientInfoLoop : Nat → List UInt8 → List ExtensionEntry → List ExtensionEntry
  | 0, _, extensions => extensions
  | fuel + 1, id :: a :: b :: c :: d :: data, extensions =>
    let length := (le32 a b c d).toNat
    if data.length < length then extensions
    else
      clientInfoLoop fuel (data.drop length) (extensions ++ [{ id, payload := data.take length }])
  | _, _, extensions => extensions

/-- Extensions of a raw client INFO, up to the first malformed entry. -/
def parseClientInfoExtensions (payload : List UInt8) : List ExtensionEntry :=
  if payload.length ≤ wispHeaderSize + 2 then []
  else
    let data := payload.drop (wispHeaderSize + 2)
    clientInfoLoop data.length data []

section Auth

variable (bcryptVerify : Str → Str → Bool)

/-- A password against a stored value: a bcrypt hash or plain text. -/
def verifyPassword (passwordBytes : List UInt8) (stored : Str) : Bool :=
  match fromUtf8 passwordBytes with
  | none => false
  | some password =>
    if (lit "$2b$").isPrefixOf stored || (lit "$2a$").isPrefixOf stored then
      bcryptVerify password stored
    else password == stored

/-- The raw password of the user `default`. -/
def verifyDefault (authPayload : List UInt8) (config : ServerConfig) : Bool :=
  match config.authUsers.lookup (lit "default") with
  | some stored => verifyPassword bcryptVerify authPayload stored
  | none => false

/-- The payload of the extension 0x02: `[username_len, username, password]` with users, the raw
password without. -/
def verifyAuth (authPayload : List UInt8) (config : ServerConfig) : Bool :=
  if !config.authUsers.isEmpty then
    match authPayload with
    | len :: b :: rest =>
      let usernameLen := len.toNat
      if 1 + usernameLen + 1 ≤ authPayload.length then
        match fromUtf8 ((b :: rest).take usernameLen) with
        | none => false
        | some username =>
          match config.authUsers.lookup username with
          | some stored => verifyPassword bcryptVerify ((b :: rest).drop usernameLen) stored
          | none => false
      else verifyDefault bcryptVerify authPayload config
    | _ => verifyDefault bcryptVerify authPayload config
  else
    match config.authPassword with
    | some requiredPw => authPayload == requiredPw
    | none => false

end Auth

/-- The errors that end `handle_connection` before its loop. -/
inductive ConnectionError where
  | webSocket
  | clientClosed
  | protocol (msg : Str)
  deriving DecidableEq, Repr

/-- A frame handed to the WebSocket during the handshake. -/
inductive WsOut where
  | binary (payload : List UInt8)
  | pong (payload : List UInt8)
  deriving DecidableEq, Repr

/-- An awaited value: it is there, it failed, or the client has not sent enough yet. -/
inductive Await (α : Type) where
  | ready (a : α)
  | failed (e : ConnectionError)
  | waiting
  deriving DecidableEq, Repr

section Handshake

variable (bcryptVerify : Str → Str → Bool) (wok : Nat → Bool)

/-- `read_ws_binary_handshake`: the first Binary message, and the frames handed over so far. A Ping
is answered inside `read_frame` (`auto_pong` is on), other frames are skipped. -/
def readWsBinaryHandshake : List WsInput → List WsOut → Await (List UInt8) × List WsOut
  | [], sent => (.waiting, sent)
  | i :: rest, sent =>
    match readFrameInner maxMessageSize i with
    | none => (.failed .webSocket, sent)
    | some f =>
      match f.opcode with
      | .binary => (.ready f.payload, sent)
      | .close => (.failed .clientClosed, sent)
      | .ping =>
        if wok sent.length then readWsBinaryHandshake rest (sent ++ [.pong f.payload])
        else (.failed .webSocket, sent ++ [.pong f.payload])
      | _ => readWsBinaryHandshake rest sent

/-- `is_valid_info`: at least 7 bytes, type INFO, stream 0. -/
def isValidInfo (firstPayload : List UInt8) : Bool :=
  match firstPayload with
  | t :: a :: b :: c :: d :: rest =>
    decide (2 ≤ rest.length) && t == packetInfo && le32 a b c d == streamIdControl
  | _ => false

/-- The major version of an INFO. -/
def clientMajor (firstPayload : List UInt8) : UInt8 := firstPayload.getD wispHeaderSize 0

/-- The credentials in the first extension 0x02 of an INFO are valid. -/
def authed (config : ServerConfig) (firstPayload : List UInt8) : Bool :=
  match (parseClientInfoExtensions firstPayload).find? (·.id == 0x02) with
  | some ext => verifyAuth bcryptVerify ext.payload config
  | none => false

/-- The end of a handshake: past it with a deferred frame or without, failed, or waiting. -/
structure Handshake where
  outcome : Await (Option (List UInt8))
  sent : List WsOut
  deriving DecidableEq, Repr

/-- A CLOSE on stream 0, then the error. -/
def reject (sent : List WsOut) (reason : CloseReason) (msg : Str) : Handshake where
  outcome := .failed (if wok sent.length then .protocol msg else .webSocket)
  sent := sent ++ [.binary (buildCloseFrame streamIdControl reason)]

/-- The initial CONTINUE, then the main loop. -/
def admitClient (config : ServerConfig) (sent : List WsOut) (deferred : Option (List UInt8)) :
    Handshake where
  outcome := if wok sent.length then .ready deferred else .failed .webSocket
  sent := sent ++ [.binary (buildInitialContinueFrame config.bufferSize)]

/-- The frame that opens a v2 handshake. -/
def serverInfo : WsOut := .binary (buildServerInfoFrame [])

/-- The handshake after the first Binary message of a v2 client. -/
def handshakeFirst (config : ServerConfig) (sent : List WsOut) (firstPayload : List UInt8) :
    Handshake :=
  if isValidInfo firstPayload then
    if clientMajor firstPayload ≠ wispVersionMajor then
      reject wok sent .incompatibleExtensions (lit "Incompatible Wisp version")
    else if config.isAuthRequired && !authed bcryptVerify config firstPayload then
      reject wok sent .authInvalidCredentials (lit "Auth failed")
    else admitClient wok config sent none
  else if config.isAuthRequired then reject wok sent .authRequired (lit "Auth required")
  else admitClient wok config sent (some firstPayload)

/-- The first Binary message of the handshake, with the frames handed over before it. -/
def handshakeRead (reads : List WsInput) : Await (List UInt8) × List WsOut :=
  if wok 0 then readWsBinaryHandshake wok reads [serverInfo] else (.failed .webSocket, [serverInfo])

/-- `handle_connection`, Step 2. -/
def handshake (config : ServerConfig) (isV2 : Bool) (reads : List WsInput) : Handshake :=
  if isV2 then
    match handshakeRead wok reads with
    | (.ready firstPayload, sent) => handshakeFirst bcryptVerify wok config sent firstPayload
    | (.failed e, sent) => ⟨.failed e, sent⟩
    | (.waiting, sent) => ⟨.waiting, sent⟩
  else if config.isAuthRequired then
    reject wok [] .authRequired (lit "Auth required, v2 protocol mandatory")
  else admitClient wok config [] none

end Handshake

/-! ## What is sent -/

/-- The CLOSE packets among the frames handed over. -/
def closesOf (sent : List WsOut) : List (StreamId × CloseReason) :=
  sent.filterMap fun
    | .binary p =>
      match parseWispFrame p with
      | some (.close id reason) => some (id, reason)
      | _ => none
    | .pong _ => none

/-- The CONTINUE packets among the frames handed over. -/
def continuesOf (sent : List WsOut) : List (StreamId × UInt32) :=
  sent.filterMap fun
    | .binary p =>
      match parseWispFrame p with
      | some (.continue id n) => some (id, n)
      | _ => none
    | .pong _ => none

/-- The handshake ended with exactly one CLOSE, on stream 0 with this reason, and no CONTINUE. -/
structure Rejected (r : Handshake) (reason : CloseReason) : Prop where
  failed : ∃ e, r.outcome = .failed e
  closes : closesOf r.sent = [(streamIdControl, reason)]
  continues : continuesOf r.sent = []

/-- `first` is the first Binary message of the client; only other frames precede it. -/
def FirstBinary (reads : List WsInput) (first : List UInt8) : Prop :=
  ∃ pre f post, reads = pre ++ .frame f :: post ∧ f.opcode = .binary ∧ f.payload = first ∧
    ∀ i ∈ pre, ∃ g, i = .frame g ∧ g.opcode ≠ .binary

section Facts

variable (bcryptVerify : Str → Str → Bool) (wok : Nat → Bool)

theorem parseWispFrame_close (reason : CloseReason) :
    parseWispFrame (buildCloseFrame streamIdControl reason) =
      some (.close streamIdControl reason) := by
  cases reason <;> decide

/-- Frames without a CLOSE or CONTINUE packet: those handed over before the client's message. -/
def Quiet (sent : List WsOut) : Prop := closesOf sent = [] ∧ continuesOf sent = []

theorem closesOf_append (l l' : List WsOut) : closesOf (l ++ l') = closesOf l ++ closesOf l' :=
  List.filterMap_append

theorem continuesOf_append (l l' : List WsOut) :
    continuesOf (l ++ l') = continuesOf l ++ continuesOf l' :=
  List.filterMap_append

theorem Quiet.append_pong {sent : List WsOut} (h : Quiet sent) (p : List UInt8) :
    Quiet (sent ++ [.pong p]) := by
  refine ⟨?_, ?_⟩
  · rw [closesOf_append, h.1]; rfl
  · rw [continuesOf_append, h.2]; rfl

theorem quiet_serverInfo : Quiet [serverInfo] := ⟨rfl, rfl⟩

theorem quiet_nil : Quiet [] := ⟨rfl, rfl⟩

theorem readWsBinaryHandshake_quiet (reads : List WsInput) {sent : List WsOut} (h : Quiet sent) :
    Quiet (readWsBinaryHandshake wok reads sent).2 := by
  induction reads generalizing sent with
  | nil => exact h
  | cons i rest ih =>
    unfold readWsBinaryHandshake
    split
    · exact h
    · split
      · exact h
      · exact h
      · split
        · exact ih (h.append_pong _)
        · exact h.append_pong _
      · exact ih h

theorem handshakeRead_quiet (reads : List WsInput) : Quiet (handshakeRead wok reads).2 := by
  unfold handshakeRead
  split
  · exact readWsBinaryHandshake_quiet wok reads quiet_serverInfo
  · exact quiet_serverInfo

theorem readWsBinaryHandshake_first {reads : List WsInput} {sent sent' : List WsOut}
    {first : List UInt8} (h : readWsBinaryHandshake wok reads sent = (.ready first, sent')) :
    FirstBinary reads first := by
  -- Skipped frames are not Binary, so they extend the prefix of the rest of the client's frames.
  have skip : ∀ {i rest f}, readFrameInner maxMessageSize i = some f → f.opcode ≠ .binary →
      FirstBinary rest first → FirstBinary (i :: rest) first := by
    rintro i rest f hi hb ⟨pre, g, post, rfl, hg, hp, hpre⟩
    refine ⟨i :: pre, g, post, rfl, hg, hp, ?_⟩
    intro j hj
    rcases List.mem_cons.mp hj with rfl | hj
    · exact ⟨f, readFrameInner_eq_some hi, hb⟩
    · exact hpre j hj
  induction reads generalizing sent with
  | nil => cases h
  | cons i rest ih =>
    unfold readWsBinaryHandshake at h
    split at h
    · cases h
    · rename_i f hf
      split at h
      · rename_i hb
        cases h
        exact ⟨[], f, rest, by rw [readFrameInner_eq_some hf]; rfl, hb, rfl, by simp⟩
      · cases h
      · rename_i hb
        split at h
        · exact skip hf (by rw [hb]; decide) (ih h)
        · cases h
      · rename_i hb _ _
        exact skip hf hb (ih h)

theorem handshakeRead_first {reads : List WsInput} {sent : List WsOut} {first : List UInt8}
    (h : handshakeRead wok reads = (.ready first, sent)) : FirstBinary reads first := by
  unfold handshakeRead at h
  split at h
  · exact readWsBinaryHandshake_first wok h
  · cases h

theorem rejected_reject {sent : List WsOut} (h : Quiet sent) (reason : CloseReason) (msg : Str) :
    Rejected (reject wok sent reason msg) reason where
  failed := ⟨_, rfl⟩
  closes := by
    simp only [reject, closesOf_append, h.1, List.nil_append]
    simp [closesOf, parseWispFrame_close]
  continues := by
    simp only [reject, continuesOf_append, h.2, List.nil_append]
    simp [continuesOf, parseWispFrame_close]

theorem Rejected.not_ready {r : Handshake} {reason : CloseReason} (h : Rejected r reason)
    (d : Option (List UInt8)) : r.outcome ≠ .ready d := by
  obtain ⟨e, he⟩ := h.failed
  rw [he]; exact nofun

/-- What a required auth asks of the first Binary message. -/
structure Credentials (config : ServerConfig) (first : List UInt8) : Prop where
  info : isValidInfo first = true
  major : clientMajor first = wispVersionMajor
  auth : ∃ ext, (parseClientInfoExtensions first).find? (·.id == 0x02) = some ext ∧
    verifyAuth bcryptVerify ext.payload config = true

theorem authed_iff (config : ServerConfig) (first : List UInt8) :
    authed bcryptVerify config first = true ↔
      ∃ ext, (parseClientInfoExtensions first).find? (·.id == 0x02) = some ext ∧
        verifyAuth bcryptVerify ext.payload config = true := by
  unfold authed
  split
  · rename_i ext he; simp [he]
  · rename_i he; simp [he]

/-- The reason of the CLOSE for a first message that does not meet `Credentials`. -/
def rejectReason (first : List UInt8) : CloseReason :=
  if isValidInfo first then
    if clientMajor first ≠ wispVersionMajor then .incompatibleExtensions else .authInvalidCredentials
  else .authRequired

/-- The step after the first message: past the handshake with credentials, else one CLOSE. -/
theorem handshakeFirst_auth {config : ServerConfig} (hauth : config.isAuthRequired = true)
    {sent : List WsOut} (hs : Quiet sent) (first : List UInt8) :
    (Credentials bcryptVerify config first ∧
      handshakeFirst bcryptVerify wok config sent first = admitClient wok config sent none) ∨
    (¬ Credentials bcryptVerify config first ∧
      Rejected (handshakeFirst bcryptVerify wok config sent first) (rejectReason first)) := by
  unfold handshakeFirst rejectReason
  by_cases hi : isValidInfo first = true
  · simp only [hi, if_true]
    by_cases hm : clientMajor first ≠ wispVersionMajor
    · refine .inr ⟨fun h => hm h.major, ?_⟩
      simp only [hm, if_true, ne_eq, not_false_eq_true]
      exact rejected_reject wok hs _ _
    · simp only [hm, if_false, hauth, Bool.true_and]
      by_cases ha : authed bcryptVerify config first = true
      · refine .inl ⟨⟨hi, not_not.mp hm, (authed_iff bcryptVerify config first).mp ha⟩, ?_⟩
        simp [ha]
      · refine .inr ⟨fun h => ha ((authed_iff bcryptVerify config first).mpr h.auth), ?_⟩
        simp only [ha, Bool.not_false, if_true]
        exact rejected_reject wok hs _ _
  · refine .inr ⟨fun h => hi h.info, ?_⟩
    simp only [hi, hauth, if_true, Bool.false_eq_true, if_false]
    exact rejected_reject wok hs _ _

/-- With required auth, only a v2 client with valid credentials gets past the handshake or is
granted a CONTINUE, and no message is deferred. Every other client that gets to its first message,
and every client without v2, is sent exactly one CLOSE. -/
theorem handshake_requires_credentials {config : ServerConfig}
    (hauth : config.isAuthRequired = true) (isV2 : Bool) (reads : List WsInput) :
    (∀ d, (handshake bcryptVerify wok config isV2 reads).outcome = .ready d →
      d = none ∧ isV2 = true ∧
        ∃ first, FirstBinary reads first ∧ Credentials bcryptVerify config first) ∧
    (continuesOf (handshake bcryptVerify wok config isV2 reads).sent ≠ [] →
      isV2 = true ∧ ∃ first, FirstBinary reads first ∧ Credentials bcryptVerify config first) ∧
    (isV2 = false → Rejected (handshake bcryptVerify wok config isV2 reads) .authRequired) ∧
    (isV2 = true → ∀ first, (handshakeRead wok reads).1 = .ready first →
      FirstBinary reads first ∧ (¬ Credentials bcryptVerify config first →
        Rejected (handshake bcryptVerify wok config isV2 reads) (rejectReason first))) := by
  cases isV2 with
  | false =>
    have hr : Rejected (handshake bcryptVerify wok config false reads) .authRequired := by
      simp only [handshake, hauth, Bool.false_eq_true, if_false, if_true]
      exact rejected_reject wok quiet_nil _ _
    exact ⟨fun d hd => absurd hd (hr.not_ready d), fun hc => absurd hr.continues hc, fun _ => hr,
      nofun⟩
  | true =>
    have hquiet := handshakeRead_quiet wok reads
    rcases hread : handshakeRead wok reads with ⟨first | e | _, sent⟩
    · rw [hread] at hquiet
      have hfirst := handshakeRead_first wok hread
      have hrun : handshake bcryptVerify wok config true reads =
          handshakeFirst bcryptVerify wok config sent first := by
        simp only [handshake, hread, if_true]
      rcases handshakeFirst_auth bcryptVerify wok hauth hquiet first with ⟨hc, he⟩ | ⟨hc, hr⟩
      · refine ⟨?_, fun _ => ⟨rfl, first, hfirst, hc⟩, nofun, ?_⟩
        · intro d hd
          rw [hrun, he] at hd
          simp only [admitClient] at hd
          split at hd
          · cases hd; exact ⟨rfl, rfl, first, hfirst, hc⟩
          · cases hd
        · rintro - first' hf
          cases hf
          exact ⟨hfirst, fun hn => absurd hc hn⟩
      · rw [hrun]
        refine ⟨fun d hd => absurd hd (hr.not_ready d), fun hn => absurd hr.continues hn, nofun, ?_⟩
        rintro - first' hf
        cases hf
        exact ⟨hfirst, fun _ => hr⟩
    all_goals
      rw [hread] at hquiet
      have hrun : (handshake bcryptVerify wok config true reads).sent = sent := by
        simp only [handshake, hread, if_true]
      refine ⟨?_, fun hc => absurd (by rw [hrun]; exact hquiet.2) hc, nofun, nofun⟩
      intro d hd
      simp only [handshake, hread, if_true] at hd
      cases hd

end Facts

/-- The first message of a v2 client that sends the password `pw`. -/
def infoWithPassword : List UInt8 :=
  packetInfo :: toLe32 streamIdControl ++ [2, 1] ++ (0x02 :: toLe32 2 ++ lit "pw")

theorem handshake_requires_credentials_pw :
    ∃ first, FirstBinary [.frame ⟨true, .ping, []⟩, .frame ⟨true, .binary, infoWithPassword⟩] first ∧
      Credentials (fun _ _ => false) { authPassword := some (lit "pw") } first :=
  ((handshake_requires_credentials (fun _ _ => false) (fun _ => true)
    (show ServerConfig.isAuthRequired { authPassword := some (lit "pw") } = true from rfl) true
    [.frame ⟨true, .ping, []⟩, .frame ⟨true, .binary, infoWithPassword⟩]).1 none
      (by decide +kernel)).2.2

end ShrimpWisp
