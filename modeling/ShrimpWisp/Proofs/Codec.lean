import ShrimpWisp.Protocol.Frame
import ShrimpWisp.Server.Handshake

/-!
# The Wisp codec

The packets of `src/protocol/frame.rs`, read and built, and the entries of an INFO, which are also
read by the handshake's own loop.

* `wisp_codec`: DATA, CONTINUE and CLOSE read back as they were built; a message is a CONNECT, or
  no packet at all, exactly if it has (or has not) the grammar of one.
* `Unread`: bytes at which the entries of an INFO end: an incomplete header, or a payload that
  is longer than what follows.
* `info_entries`: the entries of a message are those of its longest well-formed prefix, and both
  loops find the same ones.
-/

namespace ShrimpWisp

/-! ## CONNECT -/

/-- A hostname that a CONNECT may carry: 1 to 253 bytes of UTF-8. -/
structure ConnectPayload.Valid (p : ConnectPayload) : Prop where
  ne_nil : p.hostname ≠ []
  length_le : p.hostname.length ≤ 253
  utf8 : Utf8.valid p.hostname = true

theorem parseConnectPayload_iff (bytes : List UInt8) (p : ConnectPayload) :
    parseConnectPayload bytes = some p ↔ p.Valid ∧ bytes = connectPayloadBytes p := by
  constructor
  · intro h
    obtain ⟨-, hne, hle, hv⟩ := parseConnectPayload_hostname h
    refine ⟨⟨hne, hle, hv⟩, ?_⟩
    unfold parseConnectPayload at h
    split at h
    · next t p0 p1 b host =>
      split at h
      · cases h
      next streamType ht =>
      dsimp only at h
      split at h
      · cases h
      split at h
      · cases h
      next hostname hu =>
      cases h
      unfold fromUtf8 at hu
      split at hu
      · cases hu
        unfold StreamType.fromByte at ht
        split at ht
        · next hb => cases ht; simp [connectPayloadBytes, toLe16_le16, hb]
        · split at ht
          · next hb => cases ht; simp [connectPayloadBytes, toLe16_le16, hb]
          · cases ht
      · cases hu
    · cases h
  · rintro ⟨⟨hne, hle, hv⟩, rfl⟩
    exact parseConnectPayload_bytes hne hle hv

/-- The bytes of a packet: its type, the stream id, and the body. -/
theorem parseWispFrame_packet (t : UInt8) (id : StreamId) (body : List UInt8) :
    parseWispFrame (t :: toLe32 id ++ body) =
      if t = packetData then some (.data id body)
      else if t = packetConnect then parseConnect id body
      else if t = packetContinue then parseContinue id body
      else if t = packetClose then parseClose id body
      else if t = packetInfo then parseInfo id body
      else none := by
  simp only [toLe32, List.cons_append, List.nil_append, parseWispFrame, le32_toLe32]

section PacketTypes

variable (id : StreamId) (body : List UInt8)

theorem packet_data :
    parseWispFrame (packetData :: toLe32 id ++ body) = some (.data id body) := by
  rw [parseWispFrame_packet, if_pos rfl]

theorem packet_connect :
    parseWispFrame (packetConnect :: toLe32 id ++ body) = parseConnect id body := by
  rw [parseWispFrame_packet, if_neg (by decide), if_pos rfl]

theorem packet_continue :
    parseWispFrame (packetContinue :: toLe32 id ++ body) = parseContinue id body := by
  rw [parseWispFrame_packet, if_neg (by decide), if_neg (by decide), if_pos rfl]

theorem packet_close :
    parseWispFrame (packetClose :: toLe32 id ++ body) = parseClose id body := by
  rw [parseWispFrame_packet, if_neg (by decide), if_neg (by decide), if_neg (by decide), if_pos rfl]

theorem packet_info :
    parseWispFrame (packetInfo :: toLe32 id ++ body) = parseInfo id body := by
  rw [parseWispFrame_packet, if_neg (by decide), if_neg (by decide), if_neg (by decide),
    if_neg (by decide), if_pos rfl]

end PacketTypes

theorem parseWispFrame_data (id : StreamId) (payload : List UInt8) :
    parseWispFrame (buildDataHeader id ++ payload) = some (.data id payload) :=
  packet_data id payload

/-- A message with a header is a packet of some type, id and body. -/
theorem exists_packet {b : List UInt8} (h : wispHeaderSize ≤ b.length) :
    ∃ t id body, b = t :: toLe32 id ++ body ∧ body = b.drop wispHeaderSize ∧ t = b.getD 0 0 := by
  obtain _ | ⟨t, _ | ⟨b0, _ | ⟨b1, _ | ⟨b2, _ | ⟨b3, body⟩⟩⟩⟩⟩ := b
  iterate 5 exact absurd h (by simp [wispHeaderSize])
  exact ⟨t, le32 b0 b1 b2 b3, body, by simp [toLe32_le32], rfl, rfl⟩

theorem parseWispFrame_short {b : List UInt8} (h : b.length < wispHeaderSize) :
    parseWispFrame b = none := by
  unfold parseWispFrame
  split
  · simp only [List.length_cons, wispHeaderSize] at h
    omega
  · rfl

/-- The messages that are no packet: too short for a header, a type byte that no packet has, or a
body that is too short or, of a CONNECT, outside of its grammar. -/
inductive Malformed : List UInt8 → Prop
  | short {b} : b.length < wispHeaderSize → Malformed b
  | unknown {t id body} :
      t ∉ [packetConnect, packetData, packetContinue, packetClose, packetInfo] →
      Malformed (t :: toLe32 id ++ body)
  | badConnect {id body} : (∀ p : ConnectPayload, p.Valid → body ≠ connectPayloadBytes p) →
      Malformed (packetConnect :: toLe32 id ++ body)
  | shortContinue {id body} : body.length < 4 → Malformed (packetContinue :: toLe32 id ++ body)
  | emptyClose {id} : Malformed (packetClose :: toLe32 id ++ [])
  | shortInfo {id body} : body.length < 2 → Malformed (packetInfo :: toLe32 id ++ body)

theorem parseContinue_eq_none {id : StreamId} {body : List UInt8} :
    parseContinue id body = none ↔ body.length < 4 := by
  unfold parseContinue
  split
  · simp
  · next hshort =>
    obtain _ | ⟨a, _ | ⟨b, _ | ⟨c, _ | ⟨d, rest⟩⟩⟩⟩ := body
    iterate 4 simp
    exact absurd rfl (hshort a b c d rest)

theorem parseInfo_eq_none {id : StreamId} {body : List UInt8} :
    parseInfo id body = none ↔ body.length < 2 := by
  unfold parseInfo
  split
  · simp
  · next hshort =>
    obtain _ | ⟨a, _ | ⟨b, rest⟩⟩ := body
    iterate 2 simp
    exact absurd rfl (hshort a b rest)

theorem parseConnect_eq_none {id : StreamId} {body : List UInt8} :
    parseConnect id body = none ↔ ∀ p : ConnectPayload, p.Valid → body ≠ connectPayloadBytes p := by
  rw [parseConnect_eq, Option.map_eq_none_iff, Option.eq_none_iff_forall_ne_some]
  constructor
  · intro h p hp hb
    exact h p ((parseConnectPayload_iff body p).mpr ⟨hp, hb⟩)
  · intro h p hp
    obtain ⟨hv, hb⟩ := (parseConnectPayload_iff body p).mp hp
    exact h p hv hb

theorem malformed_of_none {b : List UInt8} (h : parseWispFrame b = none) : Malformed b := by
  by_cases hl : b.length < wispHeaderSize
  · exact .short hl
  obtain ⟨t, id, body, rfl, -⟩ := exists_packet (Nat.le_of_not_lt hl)
  rw [parseWispFrame_packet] at h
  split at h
  · cases h
  next hdata =>
  split at h
  · next ht =>
    subst ht
    exact .badConnect (parseConnect_eq_none.mp h)
  next hconnect =>
  split at h
  · next ht =>
    subst ht
    exact .shortContinue (parseContinue_eq_none.mp h)
  next hcontinue =>
  split at h
  · next ht =>
    subst ht
    cases body with
    | nil => exact .emptyClose
    | cons r body => cases h
  next hclose =>
  split at h
  · next ht =>
    subst ht
    exact .shortInfo (parseInfo_eq_none.mp h)
  · next hinfo => exact .unknown (by simp [hdata, hconnect, hcontinue, hclose, hinfo])

theorem Malformed.eq_none {b : List UInt8} (h : Malformed b) : parseWispFrame b = none := by
  cases h with
  | short hl => exact parseWispFrame_short hl
  | unknown ht =>
    simp only [List.mem_cons, List.not_mem_nil, or_false, not_or] at ht
    obtain ⟨h1, h2, h3, h4, h5⟩ := ht
    rw [parseWispFrame_packet, if_neg h2, if_neg h1, if_neg h3, if_neg h4, if_neg h5]
  | badConnect hp =>
    rw [packet_connect]
    exact parseConnect_eq_none.mpr hp
  | shortContinue hb =>
    rw [packet_continue]
    exact parseContinue_eq_none.mpr hb
  | emptyClose =>
    rw [packet_close]
    rfl
  | shortInfo hb =>
    rw [packet_info]
    exact parseInfo_eq_none.mpr hb

theorem parseWispFrame_eq_none (b : List UInt8) : parseWispFrame b = none ↔ Malformed b :=
  ⟨malformed_of_none, Malformed.eq_none⟩

theorem parseWispFrame_eq_connect (b : List UInt8) (id : StreamId) (p : ConnectPayload) :
    parseWispFrame b = some (.connect id p) ↔
      p.Valid ∧ b = packetConnect :: toLe32 id ++ connectPayloadBytes p := by
  constructor
  · intro h
    by_cases hl : b.length < wispHeaderSize
    · rw [parseWispFrame_short hl] at h
      cases h
    obtain ⟨t, id', body, rfl, -⟩ := exists_packet (Nat.le_of_not_lt hl)
    rw [parseWispFrame_packet] at h
    split at h
    · cases h
    split at h
    · next ht =>
      rw [parseConnect_eq] at h
      obtain ⟨q, hq, he⟩ := Option.map_eq_some_iff.mp h
      cases he
      obtain ⟨hv, rfl⟩ := (parseConnectPayload_iff body p).mp hq
      exact ⟨hv, by rw [ht]⟩
    split at h
    · unfold parseContinue at h
      split at h <;> cases h
    split at h
    · unfold parseClose at h
      split at h <;> cases h
    split at h
    · unfold parseInfo at h
      split at h <;> cases h
    · cases h
  · rintro ⟨hv, rfl⟩
    rw [packet_connect, parseConnect_eq, (parseConnectPayload_iff _ p).mpr ⟨hv, rfl⟩]
    rfl

/-- The packets that the server builds read back, and the grammar of a CONNECT and of what is no
packet (module doc). -/
theorem wisp_codec :
    (∀ id payload, parseWispFrame (buildDataHeader id ++ payload) = some (.data id payload)) ∧
    (∀ id n, parseWispFrame (buildContinueFrame id n) = some (.continue id n)) ∧
    (∀ id reason, parseWispFrame (buildCloseFrame id reason) = some (.close id reason)) ∧
    (∀ b id p, parseWispFrame b = some (.connect id p) ↔
      p.Valid ∧ b = packetConnect :: toLe32 id ++ connectPayloadBytes p) ∧
    ∀ b, parseWispFrame b = none ↔ Malformed b := by
  refine ⟨parseWispFrame_data, fun id n => ?_, fun id reason => ?_, parseWispFrame_eq_connect,
    parseWispFrame_eq_none⟩
  · rw [buildContinueFrame, packet_continue]
    simp only [toLe32, parseContinue, le32_toLe32]
  · rw [buildCloseFrame, packet_close, parseClose, CloseReason.fromByte_asByte]

/-! ## The entries of an INFO -/

/-- The bytes of an entry: its id, the length of its payload, the payload. -/
def encodeExtension (e : ExtensionEntry) : List UInt8 :=
  e.id :: toLe32 e.payload.length.toUInt32 ++ e.payload

def encodeExtensions (es : List ExtensionEntry) : List UInt8 := es.flatMap encodeExtension

/-- Bytes at which the entries end (module doc). -/
inductive Unread : List UInt8 → Prop
  | short {data} : data.length < 5 → Unread data
  | long {id a b c d data} : data.length < (le32 a b c d).toNat →
      Unread (id :: a :: b :: c :: d :: data)

theorem parseExtensionsFrom_unread {data : List UInt8} (h : Unread data) (fuel : Nat) :
    parseExtensionsFrom fuel data = [] := by
  cases fuel with
  | zero => rfl
  | succ fuel =>
    cases h with
    | short hl =>
      unfold parseExtensionsFrom
      split
      · rfl
      · simp only [List.length_cons] at hl
        omega
      · rfl
    | long hl => simp only [parseExtensionsFrom, if_pos hl]

/-- An entry at the front of the data, with enough fuel for it and for what follows. -/
theorem parseExtensionsFrom_encode {e : ExtensionEntry} (he : e.payload.length < 2 ^ 32)
    (fuel : Nat) (data : List UInt8) :
    parseExtensionsFrom (fuel + 1) (encodeExtension e ++ data) =
      e :: parseExtensionsFrom fuel data := by
  have hlen : e.payload.length.toUInt32.toNat = e.payload.length := by
    simp only [Nat.toUInt32, UInt32.toNat_ofNat']
    exact Nat.mod_eq_of_lt he
  simp only [encodeExtension, toLe32, List.cons_append, List.nil_append, parseExtensionsFrom,
    le32_toLe32, List.length_append]
  rw [hlen, if_neg (by omega), List.take_left, List.drop_left]

/-- The data is at its end, or it starts with an entry. -/
theorem unread_or_entry (data : List UInt8) :
    Unread data ∨ ∃ e rest, e.payload.length < 2 ^ 32 ∧ data = encodeExtension e ++ rest := by
  obtain _ | ⟨id, _ | ⟨a, _ | ⟨b, _ | ⟨c, _ | ⟨d, data⟩⟩⟩⟩⟩ := data
  iterate 5 exact .inl (.short (by simp))
  by_cases hl : data.length < (le32 a b c d).toNat
  · exact .inl (.long hl)
  · right
    have htake : (data.take (le32 a b c d).toNat).length = (le32 a b c d).toNat := by
      rw [List.length_take]
      omega
    refine ⟨⟨id, data.take (le32 a b c d).toNat⟩, data.drop (le32 a b c d).toNat, ?_, ?_⟩
    · rw [htake]
      exact (le32 a b c d).toNat_lt
    · have hword : (le32 a b c d).toNat.toUInt32 = le32 a b c d := by
        simp [Nat.toUInt32]
      simp only [encodeExtension, htake, hword, toLe32_le32]
      simp

theorem length_encodeExtension (e : ExtensionEntry) :
    (encodeExtension e).length = 5 + e.payload.length := by
  simp only [encodeExtension, toLe32, List.length_append, List.length_cons, List.length_nil]

/-- The loop has enough fuel: more makes no difference. -/
theorem parseExtensionsFrom_fuel {fuel : Nat} {data : List UInt8} (h : data.length ≤ fuel) :
    parseExtensionsFrom fuel data = parseExtensions data := by
  suffices hs : ∀ n m (data : List UInt8), data.length ≤ n → data.length ≤ m →
      parseExtensionsFrom n data = parseExtensionsFrom m data from
    hs _ _ data h (Nat.le_refl _)
  intro n
  induction n with
  | zero =>
    intro m data hn _
    rw [List.eq_nil_of_length_eq_zero (Nat.le_zero.mp hn)]
    rw [parseExtensionsFrom_unread (.short (by simp)),
      parseExtensionsFrom_unread (.short (by simp))]
  | succ n ih =>
    intro m data hn hm
    obtain hu | ⟨e, rest, he, rfl⟩ := unread_or_entry data
    · rw [parseExtensionsFrom_unread hu, parseExtensionsFrom_unread hu]
    · rw [List.length_append, length_encodeExtension] at hn hm
      obtain _ | m := m
      · omega
      · rw [parseExtensionsFrom_encode he, parseExtensionsFrom_encode he,
          ih m rest (by omega) (by omega)]

theorem parseExtensions_encode {es : List ExtensionEntry}
    (h : ∀ e ∈ es, e.payload.length < 2 ^ 32) (data : List UInt8) :
    parseExtensions (encodeExtensions es ++ data) = es ++ parseExtensions data := by
  induction es with
  | nil => rfl
  | cons e es ih =>
    have hcons : encodeExtensions (e :: es) ++ data =
        encodeExtension e ++ (encodeExtensions es ++ data) := by
      simp [encodeExtensions]
    have hlen : (encodeExtensions es ++ data).length ≤
        (encodeExtension e ++ (encodeExtensions es ++ data)).length := by
      simp only [List.length_append]
      omega
    rw [hcons, ← parseExtensionsFrom_fuel (Nat.le_succ _),
      parseExtensionsFrom_encode (h e (.head _)), parseExtensionsFrom_fuel hlen,
      ih fun x hx => h x (.tail _ hx)]
    rfl

/-- The entries that are found are those of the data up to where they end. -/
theorem parseExtensions_spec (data : List UInt8) :
    ∃ es rest, (∀ e ∈ es, e.payload.length < 2 ^ 32) ∧ Unread rest ∧
      data = encodeExtensions es ++ rest := by
  induction hn : data.length using Nat.strongRecOn generalizing data with
  | ind n ih =>
    subst hn
    obtain hu | ⟨e, data, he, rfl⟩ := unread_or_entry data
    · exact ⟨[], data, by simp, hu, rfl⟩
    · have hlt : data.length < (encodeExtension e ++ data).length := by
        rw [List.length_append, length_encodeExtension]
        omega
      obtain ⟨es, rest, hes, hu, hd⟩ := ih _ hlt data rfl
      refine ⟨e :: es, rest, ?_, hu, ?_⟩
      · intro x hx
        obtain rfl | hx := List.mem_cons.mp hx
        · exact he
        · exact hes x hx
      · rw [encodeExtensions, List.flatMap_cons, List.append_assoc]
        exact congrArg _ hd

@[simp] theorem parseExtensions_nil : parseExtensions [] = [] := rfl

theorem parseExtensions_unread {data : List UInt8} (h : Unread data) : parseExtensions data = [] :=
  parseExtensionsFrom_unread h _

/-- The handshake's loop finds the same entries. -/
theorem clientInfoLoop_eq (fuel : Nat) (data : List UInt8) (extensions : List ExtensionEntry) :
    clientInfoLoop fuel data extensions = extensions ++ parseExtensionsFrom fuel data := by
  induction fuel generalizing data extensions with
  | zero => simp [clientInfoLoop, parseExtensionsFrom]
  | succ fuel ih =>
    obtain _ | ⟨id, _ | ⟨a, _ | ⟨b, _ | ⟨c, _ | ⟨d, data⟩⟩⟩⟩⟩ := data
    iterate 5 simp [clientInfoLoop, parseExtensionsFrom]
    simp only [clientInfoLoop, parseExtensionsFrom]
    split
    · simp
    · rw [ih, List.append_assoc]
      rfl

theorem parseClientInfoExtensions_packet (t : UInt8) (id : StreamId) (major minor : UInt8)
    (data : List UInt8) :
    parseClientInfoExtensions (t :: toLe32 id ++ major :: minor :: data) = parseExtensions data := by
  unfold parseClientInfoExtensions
  have hdrop : (t :: toLe32 id ++ major :: minor :: data).drop (wispHeaderSize + 2) = data := rfl
  have hlen : (t :: toLe32 id ++ major :: minor :: data).length = 7 + data.length := by
    simp only [toLe32, List.length_append, List.length_cons, List.length_nil]
    omega
  rw [hdrop, hlen]
  split
  · next hl =>
    have hnil : data = [] := List.eq_nil_of_length_eq_zero (by rw [wispHeaderSize] at hl; omega)
    rw [hnil]
    rfl
  · dsimp only
    rw [clientInfoLoop_eq, List.nil_append]
    rfl

/-- The entries of an INFO (module doc): those that the server sends read back; those of any data
are the longest list that the data starts with, found in as many rounds as the data has bytes; and
the authentication reads the list that the parser of packets returns. -/
theorem info_entries :
    (∀ es : List ExtensionEntry, (∀ e ∈ es, e.payload.length < 2 ^ 32) →
      parseWispFrame (buildServerInfoFrame es) = some (.info 0 2 1 es)) ∧
    (∀ data, (∀ fuel, data.length ≤ fuel → parseExtensionsFrom fuel data = parseExtensions data) ∧
      (∃ rest, data = encodeExtensions (parseExtensions data) ++ rest ∧ Unread rest) ∧
      ∀ es : List ExtensionEntry, (∀ e ∈ es, e.payload.length < 2 ^ 32) →
        encodeExtensions es <+: data → es <+: parseExtensions data) ∧
    ∀ m : List UInt8, 7 ≤ m.length → m.head? = some packetInfo →
      ∃ id major minor,
        parseWispFrame m = some (.info id major minor (parseClientInfoExtensions m)) := by
  refine ⟨fun es hes => ?_, fun data => ⟨fun _ h => parseExtensionsFrom_fuel h, ?_, ?_⟩, ?_⟩
  · have hread : parseExtensions (encodeExtensions es) = es := by
      simpa using parseExtensions_encode hes []
    have hbytes : buildServerInfoFrame es =
        packetInfo :: toLe32 streamIdControl ++ 2 :: 1 :: encodeExtensions es := rfl
    rw [hbytes, packet_info, parseInfo, hread]
    rfl
  · obtain ⟨es, rest, hes, hu, rfl⟩ := parseExtensions_spec data
    refine ⟨rest, ?_, hu⟩
    rw [parseExtensions_encode hes, parseExtensions_unread hu, List.append_nil]
  · rintro es hes ⟨rest, rfl⟩
    rw [parseExtensions_encode hes]
    exact List.prefix_append _ _
  · intro m hm ht
    have hm5 : wispHeaderSize ≤ m.length := by rw [wispHeaderSize]; omega
    obtain ⟨t, id, body, rfl, -⟩ := exists_packet hm5
    cases ht
    obtain _ | ⟨major, _ | ⟨minor, data⟩⟩ := body
    iterate 2 exact absurd hm (by simp [toLe32])
    refine ⟨id, major, minor, ?_⟩
    rw [parseClientInfoExtensions_packet, packet_info, parseInfo]

/-- An INFO with two entries and a third one that is cut off. -/
theorem info_entries_cut :
    parseWispFrame (buildServerInfoFrame [⟨1, [7]⟩, ⟨2, []⟩]) = some (.info 0 2 1 [⟨1, [7]⟩, ⟨2, []⟩]) ∧
    [⟨1, [7]⟩] <+: parseExtensions (encodeExtensions [⟨1, [7]⟩] ++ [2, 9, 0, 0, 0]) ∧
    ∃ id major minor, parseWispFrame [5, 0, 0, 0, 0, 2, 1, 9] = some (.info id major minor []) :=
  ⟨info_entries.1 _ (by decide), (info_entries.2.1 _).2.2 _ (by decide) (List.prefix_append _ _),
    info_entries.2.2 [5, 0, 0, 0, 0, 2, 1, 9] (by decide) rfl⟩

end ShrimpWisp
