import Mathlib.Data.List.Forall2
import ShrimpWisp.Server.RealIp

/-!
# The upgrade of a connection

* `requests_answered`: whatever requests a client sends, each is answered by what it is alone. Those
  that ask for the upgrade with a key and with version 13 get a response 101.
* `upgrade_received`: the handler gets the upgrade of the first request, and no other. A later
  request that is answered 101 opens no WebSocket. The server speaks version 2 if its response names a
  subprotocol.
* `clientIp_received`: which IP the client has, by the first request and the address of the peer.
-/

namespace ShrimpWisp

/-! ## The elements of a header -/

/-- `element` stands in a list of the header, between commas and whitespace, in any case. -/
def HasElement (headers : HeaderMap) (header element : Str) : Prop :=
  ∃ v ∈ headers.getAll header, ∃ before x after, before ++ x ++ after ∈ v.splitOn (ch ',') ∧
    (∀ b ∈ before, isAsciiWhitespace b = true) ∧ (∀ b ∈ after, isAsciiWhitespace b = true) ∧
    toAsciiLowercase x = toAsciiLowercase element

theorem isAsciiWhitespace_asciiLower (b : UInt8) :
    isAsciiWhitespace (asciiLower b) = isAsciiWhitespace b := by
  unfold asciiLower
  split
  · next h =>
    have h₂₀ : (0x20 : UInt8).toNat = 32 := rfl
    have hadd := UInt8.toNat_add b 0x20
    simp only [ch, Bool.and_eq_true, decide_eq_true_eq, UInt8.le_iff_toNat_le, Char.reduceToNat,
      Nat.toUInt8, UInt8.toNat_ofNat'] at h
    rw [Bool.eq_iff_iff]
    simp only [isAsciiWhitespace, Bool.or_eq_true, beq_iff_eq, ← UInt8.toNat_inj, hadd,
      UInt8.reduceToNat]
    omega
  · rfl

theorem tight_toAsciiLowercase {s : Str} :
    Tight isAsciiWhitespace (toAsciiLowercase s) ↔ Tight isAsciiWhitespace s := by
  simp only [Tight, toAsciiLowercase, List.head?_map, List.getLast?_map, Option.mem_def,
    Option.map_eq_some_iff, forall_exists_index, and_imp, forall_apply_eq_imp_iff₂,
    isAsciiWhitespace_asciiLower]

theorem headerContainsValue_iff {headers : HeaderMap} {header value : Str}
    (ht : Tight isAsciiWhitespace value) :
    headerContainsValue headers header value = true ↔ HasElement headers header value := by
  simp only [headerContainsValue, List.any_eq_true, eqIgnoreAsciiCase, beq_iff_eq]
  constructor
  · rintro ⟨v, hv, x, hx, heq⟩
    obtain ⟨-, before, after, hx', hbefore, hafter⟩ :=
      trim_eq_iff.mp (Eq.refl (trim isAsciiWhitespace x))
    exact ⟨v, hv, before, trim isAsciiWhitespace x, after, hx' ▸ hx, hbefore, hafter, heq⟩
  · rintro ⟨v, hv, before, x, after, hmem, hbefore, hafter, heq⟩
    refine ⟨v, hv, _, hmem, ?_⟩
    have hx : Tight isAsciiWhitespace x := by
      rw [← tight_toAsciiLowercase, heq, tight_toAsciiLowercase]
      exact ht
    rw [trim_eq_iff.mpr ⟨hx, before, after, rfl, hbefore, hafter⟩]
    exact heq

/-! ## The service -/

/-- The request asks for the upgrade. -/
def AsksUpgrade (req : Request) : Prop :=
  HasElement req.headers (lit "connection") (lit "Upgrade") ∧
    HasElement req.headers (lit "upgrade") (lit "websocket")

theorem isUpgradeRequest_iff {req : Request} : isUpgradeRequest req = true ↔ AsksUpgrade req := by
  have hupgrade : Tight isAsciiWhitespace (lit "Upgrade") := by
    constructor <;> rintro _ ⟨⟩ <;> rfl
  have hwebsocket : Tight isAsciiWhitespace (lit "websocket") := by
    constructor <;> rintro _ ⟨⟩ <;> rfl
  rw [isUpgradeRequest, Bool.and_eq_true, headerContainsValue_iff hupgrade,
    headerContainsValue_iff hwebsocket]
  rfl

/-- The request can be upgraded. -/
structure Switches (req : Request) : Prop where
  asks : AsksUpgrade req
  key : (req.headers.get (lit "Sec-WebSocket-Key")).isSome = true
  version : req.headers.get (lit "Sec-WebSocket-Version") = some (lit "13")

/-- The subprotocol of a request, or of its response. -/
def HeaderMap.subprotocol (headers : HeaderMap) : Option (List UInt8) :=
  headers.get (lit "sec-websocket-protocol")

section

variable (sha1 : List UInt8 → List UInt8) (encode : List UInt8 → Str)

/-- The response that switches protocols. -/
structure Accepts (req : Request) (resp : Response) : Prop where
  status : resp.status = 101
  connection : resp.headers.getAll (lit "connection") = [lit "upgrade"]
  upgrade : resp.headers.getAll (lit "upgrade") = [lit "websocket"]
  accept : ∀ key, req.headers.get (lit "Sec-WebSocket-Key") = some key →
    resp.headers.getAll (lit "Sec-WebSocket-Accept") = [secWebsocketProtocol sha1 encode key]
  subprotocol : resp.headers.subprotocol = req.headers.subprotocol
  extensions : resp.headers.getAll (lit "sec-websocket-extensions") = []

/-- The response to a request. -/
structure Answered (req : Request) (resp : Response) : Prop where
  accepted : Switches req → Accepts sha1 encode req resp
  bad : AsksUpgrade req → ¬ Switches req → resp.status = 400
  other : ¬ AsksUpgrade req → resp.status = 200

variable {sha1 encode} {config : ServerConfig}

theorem upgrade_error {req : Request} (ha : AsksUpgrade req) (h : ¬ Switches req) :
    ∃ e, upgrade sha1 encode req = .error e := by
  unfold upgrade
  split
  · exact ⟨_, rfl⟩
  · next key hkey =>
    refine ⟨.invalidSecWebsocketVersion, if_pos ?_⟩
    intro hversion
    exact h ⟨ha, by rw [hkey]; rfl, hversion⟩

theorem getAll_echoProtocol (protocol : Option (List UInt8)) (headers : HeaderMap) {n : Str}
    (hext : toAsciiLowercase (lit "sec-websocket-extensions") ≠ toAsciiLowercase n)
    (hprot : toAsciiLowercase (lit "sec-websocket-protocol") ≠ toAsciiLowercase n) :
    (echoProtocol protocol headers).getAll n = headers.getAll n := by
  unfold echoProtocol
  rw [HeaderMap.getAll_remove, if_neg hext]
  cases protocol with
  | none => rfl
  | some p => exact (HeaderMap.getAll_insert ..).trans (if_neg hprot)

theorem subprotocol_echoProtocol (protocol : Option (List UInt8)) {headers : HeaderMap}
    (h : headers.subprotocol = none) : (echoProtocol protocol headers).subprotocol = protocol := by
  have hext : toAsciiLowercase (lit "sec-websocket-extensions") ≠
      toAsciiLowercase (lit "sec-websocket-protocol") := by decide
  unfold HeaderMap.subprotocol HeaderMap.get echoProtocol
  rw [HeaderMap.getAll_remove, if_neg hext]
  cases protocol with
  | none => exact h
  | some p =>
    dsimp only
    rw [HeaderMap.getAll_insert, if_pos rfl]
    rfl

theorem extensions_echoProtocol (protocol : Option (List UInt8)) (headers : HeaderMap) :
    (echoProtocol protocol headers).getAll (lit "sec-websocket-extensions") = [] := by
  unfold echoProtocol
  rw [HeaderMap.getAll_remove, if_pos rfl]

theorem getAll_switchingProtocols (key : List UInt8) (n : Str) :
    (switchingProtocols sha1 encode key).headers.getAll n =
      (if lit "connection" = toAsciiLowercase n then [lit "upgrade"] else []) ++
      (if lit "upgrade" = toAsciiLowercase n then [lit "websocket"] else []) ++
      (if lit "sec-websocket-accept" = toAsciiLowercase n then
        [secWebsocketProtocol sha1 encode key] else []) := by
  simp only [switchingProtocols, HeaderMap.getAll_append, HeaderMap.getAll_empty, List.nil_append]
  rfl

/-- A request that can be upgraded is, and the sender is used if it is there. -/
theorem service_switches {req : Request} (h : Switches req) (tx : Bool) :
    Accepts sha1 encode req (service sha1 encode config tx req).1 ∧
    (service sha1 encode config tx req).2 =
      if tx then some ⟨req.headers.subprotocol.isSome, capturedHeaders config req⟩ else none := by
  obtain ⟨key, hkey⟩ := Option.isSome_iff_exists.mp h.key
  have hup : upgrade sha1 encode req = .ok (switchingProtocols sha1 encode key) := by
    simp only [upgrade, hkey, h.version, ne_eq, not_true_eq_false, if_false]
  have hask : isUpgradeRequest req = true := isUpgradeRequest_iff.mpr h.asks
  simp only [service, hask, hup, Bool.not_true, Bool.false_eq_true, if_false]
  refine ⟨⟨rfl, ?_, ?_, ?_, ?_, ?_⟩, rfl⟩
  · rw [getAll_echoProtocol _ _ (by decide) (by decide), getAll_switchingProtocols,
      if_pos (by decide), if_neg (by decide), if_neg (by decide)]
    rfl
  · rw [getAll_echoProtocol _ _ (by decide) (by decide), getAll_switchingProtocols,
      if_neg (by decide), if_pos (by decide), if_neg (by decide)]
    rfl
  · intro key' hkey'
    rw [hkey] at hkey'
    cases hkey'
    rw [getAll_echoProtocol _ _ (by decide) (by decide), getAll_switchingProtocols,
      if_neg (by decide), if_neg (by decide), if_pos (by decide)]
    rfl
  · refine subprotocol_echoProtocol _ ?_
    rw [HeaderMap.subprotocol, HeaderMap.get, getAll_switchingProtocols, if_neg (by decide),
      if_neg (by decide), if_neg (by decide)]
    rfl
  · exact extensions_echoProtocol _ _

/-- What the service does with other requests. -/
theorem service_others {req : Request} (h : ¬ Switches req) (tx : Bool) :
    (AsksUpgrade req → (service sha1 encode config tx req).1.status = 400) ∧
    (¬ AsksUpgrade req → (service sha1 encode config tx req).1.status = 200) ∧
    (service sha1 encode config tx req).2 = none := by
  by_cases hask : AsksUpgrade req
  · obtain ⟨e, he⟩ := @upgrade_error sha1 encode _ hask h
    have hyes : isUpgradeRequest req = true := isUpgradeRequest_iff.mpr hask
    simp only [service, hyes, he, Bool.not_true, Bool.false_eq_true, if_false]
    exact ⟨fun _ => trivial, fun hno => absurd hask hno, trivial⟩
  · have hno : isUpgradeRequest req = false :=
      Bool.eq_false_iff.mpr fun hyes => hask (isUpgradeRequest_iff.mp hyes)
    simp only [service, hno, Bool.not_false, if_true]
    refine ⟨fun hyes => absurd hyes hask, fun _ => ?_, ?_⟩
    · split <;> rfl
    · split <;> rfl

theorem service_answered (req : Request) (tx : Bool) :
    Answered sha1 encode req (service sha1 encode config tx req).1 where
  accepted h := (service_switches h tx).1
  bad ha h := (service_others h tx).1 ha
  other ha := (service_others (fun h => ha h.asks) tx).2.1 ha

/-! ## The runs -/

/-- The upgrade of a request. -/
def upgradeOf (config : ServerConfig) (req : Request) : UpgradeResult :=
  ⟨req.headers.subprotocol.isSome, capturedHeaders config req⟩

/-- The sender is there as long as no request came, and what the receiver gets is of the first. -/
structure UpgradeOk (config : ServerConfig) (s : HttpConn) (requests : List Request) : Prop where
  tx : s.tx = true ↔ requests = [] ∧ s.serving = true
  waiting : s.rx = .waiting ↔ s.tx = true
  received : ∀ u, s.rx = .received u ↔
    ∃ first rest, requests = first :: rest ∧ Switches first ∧ u = upgradeOf config first

theorem HttpConn.responses_send (s : HttpConn) (sent : Option UpgradeResult) :
    (s.send sent).responses = s.responses := by
  unfold send
  split <;> rfl

/-- The first request takes the sender. -/
theorem UpgradeOk.first {s : HttpConn} {req : Request}
    (htx : s.tx = true) (responses : List Response) :
    UpgradeOk config { s.send (service sha1 encode config s.tx req).2 with responses } [req] := by
  rw [HttpConn.send, if_pos htx]
  refine ⟨?_, ?_, ?_⟩
  · simp
  · by_cases hs : Switches req
    · rw [(service_switches hs s.tx).2, if_pos htx]
      simp
    · rw [(service_others hs s.tx).2.2]
      simp
  · intro u
    by_cases hs : Switches req
    · rw [(service_switches hs s.tx).2, if_pos htx]
      simp [hs, upgradeOf, eq_comm]
    · rw [(service_others hs s.tx).2.2]
      simp [hs]

/-- Without the sender, nothing changes for the receiver. -/
theorem UpgradeOk.later {s : HttpConn} {requests : List Request} (h : UpgradeOk config s requests)
    (hs : s.serving = true) (htx : s.tx = false) (req : Request) (sent : Option UpgradeResult)
    (responses : List Response) :
    UpgradeOk config { s.send sent with responses } (requests ++ [req]) := by
  have hne : requests ≠ [] := by
    intro hnil
    rw [h.tx.mpr ⟨hnil, hs⟩] at htx
    cases htx
  obtain ⟨first, rest, rfl⟩ := List.exists_cons_of_ne_nil hne
  have hsend : s.send sent = s := by
    rw [HttpConn.send, htx, if_neg Bool.false_ne_true]
  rw [hsend]
  refine ⟨?_, h.waiting, ?_⟩
  · simp [htx]
  · intro u
    rw [h.received u]
    simp

/-- The connection ends. -/
theorem UpgradeOk.closed {s : HttpConn} {requests : List Request}
    (h : UpgradeOk config s requests) :
    UpgradeOk config { s.send none with serving := false } requests := by
  unfold HttpConn.send
  cases htx : s.tx with
  | true =>
    obtain ⟨rfl, -⟩ := h.tx.mp htx
    exact ⟨by simp, by simp, by simp⟩
  | false =>
    refine ⟨by simp [htx], ?_, h.received⟩
    simpa using h.waiting

/-- The state of a connection and its requests. -/
structure HttpOk (sha1 : List UInt8 → List UInt8) (encode : List UInt8 → Str)
    (config : ServerConfig) (s : HttpConn) (requests : List Request) : Prop where
  answered : List.Forall₂ (Answered sha1 encode) requests s.responses
  delivers : UpgradeOk config s requests

theorem Reach.httpOk {s : HttpConn} {requests : List Request}
    (h : (upgradeSys sha1 encode config).Reach Sys.Any (s, requests)) :
    HttpOk sha1 encode config s requests := by
  refine h.invariant (I := fun p => HttpOk sha1 encode config p.1 p.2) ?_ ?_
  · rintro ⟨_, _⟩ ⟨rfl, rfl⟩
    exact ⟨.nil, by simp, by simp, by simp⟩
  · rintro ⟨s, requests⟩ a ⟨s', requests'⟩ _ hi hs _
    obtain ⟨hs, rfl⟩ := Sys.logged_step hs
    cases a with
    | closed =>
      cases hs
      rw [Option.toList_none, List.append_nil]
      refine ⟨?_, hi.delivers.closed⟩
      rw [show HttpConn.responses _ = s.responses from s.responses_send none]
      exact hi.answered
    | request req =>
      simp only [HttpConn.step] at hs
      split at hs
      next hserving =>
        cases hs
        refine ⟨List.rel_append hi.answered (.cons (service_answered req s.tx) .nil), ?_⟩
        cases htx : s.tx with
        | true =>
          obtain ⟨hnil, -⟩ := hi.delivers.tx.mp htx
          have hnil : requests = [] := hnil
          subst hnil
          rw [← htx]
          exact UpgradeOk.first htx _
        | false => exact hi.delivers.later hserving htx req _ _
      next => cases hs

/-- Whatever requests come, each is answered by what it is alone (`Answered`). -/
theorem requests_answered {s : HttpConn} {requests : List Request}
    (h : (upgradeSys sha1 encode config).Reach Sys.Any (s, requests)) :
    List.Forall₂ (Answered sha1 encode) requests s.responses :=
  (Reach.httpOk h).answered

/-- The handler waits until the first request, and gets the upgrade if it is one. It is of version 2
if the client was told a subprotocol. -/
theorem upgrade_received {s : HttpConn} {requests : List Request}
    (h : (upgradeSys sha1 encode config).Reach Sys.Any (s, requests)) :
    (s.rx = .waiting ↔ requests = [] ∧ s.serving = true) ∧
    (∀ u, s.rx = .received u ↔
      ∃ first rest, requests = first :: rest ∧ Switches first ∧ u = upgradeOf config first) ∧
    ∀ u, s.rx = .received u → ∃ resp rest, s.responses = resp :: rest ∧ resp.status = 101 ∧
      u.isV2 = resp.headers.subprotocol.isSome := by
  obtain ⟨hanswered, hdelivers⟩ := Reach.httpOk h
  refine ⟨hdelivers.waiting.trans hdelivers.tx, hdelivers.received, ?_⟩
  intro u hu
  obtain ⟨first, rest, rfl, hs, rfl⟩ := (hdelivers.received u).mp hu
  obtain ⟨resp, resps, hresp, -, hr⟩ := List.forall₂_cons_left_iff.mp hanswered
  have hacc := hresp.accepted hs
  refine ⟨resp, resps, hr, hacc.status, ?_⟩
  rw [hacc.subprotocol]
  rfl

theorem HttpConn.serving_send (s : HttpConn) (sent : Option UpgradeResult) :
    (s.send sent).serving = s.serving := by
  unfold send
  split <;> rfl

/-- Any requests may come. -/
theorem reach_requests (requests : List Request) :
    ∃ s, (upgradeSys sha1 encode config).Reach Sys.Any (s, requests) ∧ s.serving = true := by
  induction requests using List.reverseRecOn with
  | nil => exact ⟨{}, .init ⟨rfl, rfl⟩, rfl⟩
  | append_singleton requests req ih =>
    obtain ⟨s, hr, hs⟩ := ih
    obtain ⟨s', hstep, hs'⟩ : ∃ s', s.step sha1 encode config (.request req) = some s' ∧
        s'.serving = true := by
      rw [HttpConn.step, if_pos hs]
      exact ⟨_, rfl, (s.serving_send _).trans hs⟩
    exact ⟨s', .step (.request req) hr (congrArg (Option.map _) hstep) trivial, hs'⟩

end

/-- A request for the upgrade, over a proxy. -/
def upgradeRequest : Request where
  method := lit "GET"
  path := lit "/"
  headers := (((((HeaderMap.empty.append (lit "Connection") (lit "keep-alive, Upgrade")).append
    (lit "Upgrade") (lit "websocket")).append
    (lit "Sec-WebSocket-Key") (lit "dGhlIHNhbXBsZSBub25jZQ==")).append
    (lit "Sec-WebSocket-Version") (lit "13")).append
    (lit "Sec-WebSocket-Protocol") (lit "wisp-v2")).append
    (lit "X-Forwarded-For") (lit "198.51.100.9, 192.0.2.7")

/-- SHA-1 of the key of `upgradeRequest`. -/
def sampleSha1 (_ : List UInt8) : List UInt8 :=
  [0xb3, 0x7a, 0x4f, 0x2c, 0xc0, 0x62, 0x4f, 0x16, 0x90, 0xf6, 0x46, 0x06, 0xcf, 0x38, 0x59, 0x45,
    0xb2, 0xbe, 0xc4, 0xea]

/-- Its Base64. -/
def sampleEncode (_ : List UInt8) : Str := lit "s3pPLMBiTxaQ9kYGzzhZRbK+xOo="

/-- The real IP is enabled, for a proxy at 192.0.2.7. -/
def behindProxy : ServerConfig where
  realIpEnabled := true
  realIpTrustedProxies := [lit "192.0.2.7"]
  realIpHeaders := [lit "X-Forwarded-For"]

theorem switches_upgradeRequest : Switches upgradeRequest where
  asks := isUpgradeRequest_iff.mp (by decide +kernel)
  key := by decide +kernel
  version := by decide +kernel

/-- The client asks for the upgrade twice, and both are answered as the first. -/
theorem requests_answered_twice :
    ∃ s, (upgradeSys sampleSha1 sampleEncode behindProxy).Reach Sys.Any
        (s, [upgradeRequest, upgradeRequest]) ∧
      List.Forall₂ (Answered sampleSha1 sampleEncode) [upgradeRequest, upgradeRequest]
        s.responses := by
  obtain ⟨s, hr, -⟩ :=
    @reach_requests sampleSha1 sampleEncode behindProxy [upgradeRequest, upgradeRequest]
  exact ⟨s, hr, requests_answered hr⟩

/-- The second upgrade is not received. -/
theorem upgrade_received_twice :
    ∃ s, (upgradeSys sampleSha1 sampleEncode behindProxy).Reach Sys.Any
        (s, [upgradeRequest, upgradeRequest]) ∧
      s.rx = .received (upgradeOf behindProxy upgradeRequest) := by
  obtain ⟨s, hr, -⟩ :=
    @reach_requests sampleSha1 sampleEncode behindProxy [upgradeRequest, upgradeRequest]
  obtain ⟨-, hreceived, -⟩ := upgrade_received hr
  exact ⟨s, hr, (hreceived _).mpr ⟨_, _, rfl, switches_upgradeRequest, rfl⟩⟩

/-! ## The IP of the client -/

/-- The address is in a trusted network, or is a trusted one. -/
def TrustedPeer {Net : Type} (parseNet : Str → Option Net) (newNet : IpAddr → Nat → Option Net)
    (contains : Net → IpAddr → Bool) (proxies : List Str) (peer : IpAddr) : Prop :=
  ∃ s ∈ proxies, ∃ net, contains net peer = true ∧
    (parseNet s = some net ∨ parseNet s = none ∧
      ∃ ip, parseIpAddr s = some ip ∧ newNet ip (Security.hostLength ip) = some net)

theorem isTrustedProxy_iff {Net : Type} {parseNet : Str → Option Net}
    {newNet : IpAddr → Nat → Option Net} {contains : Net → IpAddr → Bool} {proxies : List Str}
    {peer : IpAddr} :
    Security.isTrustedProxy contains peer
      (Security.parseTrustedProxies parseNet newNet proxies) = true ↔
      TrustedPeer parseNet newNet contains proxies peer := by
  have hany : ∀ nets : List Net, Security.isTrustedProxy contains peer nets = true ↔
      ∃ net ∈ nets, contains net peer = true := by
    intro nets
    cases nets with
    | nil => simp [Security.isTrustedProxy]
    | cons net nets => simp [Security.isTrustedProxy]
  rw [hany]
  simp only [Security.parseTrustedProxies, List.mem_filterMap]
  constructor
  · rintro ⟨net, ⟨s, hs, hnet⟩, hcontains⟩
    refine ⟨s, hs, net, hcontains, ?_⟩
    split at hnet
    · next h => exact .inl (h.trans hnet)
    · next h =>
      split at hnet
      · next ip hip => exact .inr ⟨h, ip, hip, hnet⟩
      · cases hnet
  · rintro ⟨s, hs, net, hcontains, hnet⟩
    refine ⟨net, ⟨s, hs, ?_⟩, hcontains⟩
    rcases hnet with h | ⟨h, ip, hip, hnet⟩
    · rw [h]
    · simp only [h, hip, hnet]

/-- The first valid address in the headers of a request, by the order of the configured headers. -/
def realIpOf (config : ServerConfig) (req : Request) : Option IpAddr :=
  (config.realIpHeaders.flatMap req.headers.getAll).findSome? fun value =>
    (toStr value).bind Security.leftmostIp

/-- A search whose hits are all the same. -/
theorem findSome?_const {α β : Type} {f : α → Option β} {l : List α} {r : Option β}
    (hf : ∀ x ∈ l, f x = none ∨ f x = r) (hr : ∃ x ∈ l, f x = r) : l.findSome? f = r := by
  cases r with
  | none =>
    rw [List.findSome?_eq_none_iff]
    exact fun x hx => (hf x hx).elim id id
  | some b =>
    obtain ⟨x, hx, hfx⟩ := hr
    cases hl : l.findSome? f with
    | none =>
      rw [List.findSome?_eq_none_iff] at hl
      rw [hl x hx] at hfx
      cases hfx
    | some b' =>
      obtain ⟨y, hy, hfy⟩ := List.exists_of_findSome?_eq_some hl
      rcases hf y hy with h | h
      · rw [hfy] at h
        cases h
      · rw [← hfy, h]

/-- A search for `target` finds nothing in what is captured for another header. -/
theorem findSome?_other {fields : List (Str × List UInt8)} {captured target : Str}
    (h : toAsciiLowercase captured ≠ toAsciiLowercase target) :
    (capturedFor fields captured).findSome? (fun f =>
      if toAsciiLowercase f.1 = toAsciiLowercase target then Security.leftmostIp f.2 else none) =
        none := by
  rw [List.findSome?_eq_none_iff]
  intro f hf
  obtain ⟨g, -, hg⟩ := List.mem_filterMap.mp hf
  split at hg
  next hcap =>
    obtain ⟨v, -, rfl⟩ := Option.map_eq_some_iff.mp hg
    exact if_neg fun htarget => h (hcap.symm.trans htarget)
  next => cases hg

/-- In what is captured for the same header, it finds what a search of the request finds. -/
theorem findSome?_same {fields : List (Str × List UInt8)}
    (hl : ∀ f ∈ fields, toAsciiLowercase f.1 = f.1) {captured target : Str}
    (h : toAsciiLowercase captured = toAsciiLowercase target) :
    (capturedFor fields captured).findSome? (fun f =>
      if toAsciiLowercase f.1 = toAsciiLowercase target then Security.leftmostIp f.2 else none) =
        ((fields.filter fun f => f.1 == toAsciiLowercase target).map (·.2)).findSome? fun value =>
          (toStr value).bind Security.leftmostIp := by
  induction fields with
  | nil => rfl
  | cons f fields ih =>
    have ih := ih fun g hg => hl g (List.mem_cons_of_mem f hg)
    have hf := hl f (List.mem_cons_self ..)
    unfold capturedFor at ih ⊢
    rw [List.filterMap_cons, List.filter_cons, hf, h]
    by_cases heq : f.1 = toAsciiLowercase target
    · rw [if_pos heq, if_pos (beq_iff_eq.mpr heq), List.map_cons, List.findSome?_cons]
      cases htext : toStr f.2 with
      | none => rw [h] at ih; exact ih
      | some v =>
        rw [h] at ih
        simp only [Option.map_some, List.findSome?_cons, heq, toAsciiLowercase_idem, if_true,
          Option.bind_some, ih]
    · rw [if_neg heq, if_neg (by simpa using heq)]
      rw [h] at ih
      exact ih

theorem findSome?_flatMap {α β γ : Type} {f : β → Option γ} {g : α → List β} (l : List α) :
    (l.flatMap g).findSome? f = l.findSome? fun x => (g x).findSome? f := by
  induction l with
  | nil => rfl
  | cons x l ih =>
    rw [List.flatMap_cons, List.findSome?_append, ih, List.findSome?_cons]
    cases (g x).findSome? f <;> rfl

theorem findSome?_congr {α β : Type} {f g : α → Option β} {l : List α}
    (h : ∀ x ∈ l, f x = g x) : l.findSome? f = l.findSome? g := by
  induction l with
  | nil => rfl
  | cons x l ih =>
    rw [List.findSome?_cons, List.findSome?_cons, h x (List.mem_cons_self ..),
      ih fun y hy => h y (List.mem_cons_of_mem x hy)]

/-- To capture the headers first and to search them then is to search the request. -/
theorem extractRealIp_captured {config : ServerConfig} (hen : config.realIpEnabled = true)
    (req : Request) :
    Security.extractRealIp (capturedHeaders config req) config.realIpHeaders =
      realIpOf config req := by
  rw [Security.extractRealIp, capturedHeaders, if_pos hen, realIpOf, findSome?_flatMap]
  refine findSome?_congr fun target htarget => ?_
  rw [findSome?_flatMap]
  refine findSome?_const ?_ ⟨target, htarget, findSome?_same req.headers.lower rfl⟩
  intro captured _
  by_cases h : toAsciiLowercase captured = toAsciiLowercase target
  · exact .inr (findSome?_same req.headers.lower h)
  · exact .inl (findSome?_other h)

/-- The IP of the client of an upgraded connection: if the real IP is enabled and the peer is
trusted, the first valid address in the configured headers of the first request, else that of the peer. -/
theorem clientIp_received {sha1 : List UInt8 → List UInt8} {encode : List UInt8 → Str}
    {config : ServerConfig} {s : HttpConn} {requests : List Request}
    (h : (upgradeSys sha1 encode config).Reach Sys.Any (s, requests)) {u : UpgradeResult}
    (hu : s.rx = .received u) {Net : Type} (parseNet : Str → Option Net)
    (newNet : IpAddr → Nat → Option Net) (contains : Net → IpAddr → Bool) (peer : IpAddr) :
    ∃ first rest, requests = first :: rest ∧
      (config.realIpEnabled = true →
        TrustedPeer parseNet newNet contains config.realIpTrustedProxies peer →
        clientIp contains config
          (Security.parseTrustedProxies parseNet newNet config.realIpTrustedProxies) peer u =
            (realIpOf config first).getD peer) ∧
      (¬ (config.realIpEnabled = true ∧
          TrustedPeer parseNet newNet contains config.realIpTrustedProxies peer) →
        clientIp contains config
          (Security.parseTrustedProxies parseNet newNet config.realIpTrustedProxies) peer u =
            peer) := by
  obtain ⟨first, rest, rfl, -, rfl⟩ := ((Reach.httpOk h).delivers.received u).mp hu
  refine ⟨first, rest, rfl, ?_, ?_⟩
  · intro hen ht
    rw [clientIp, hen, Bool.true_and, if_pos (isTrustedProxy_iff.mpr ht), upgradeOf,
      extractRealIp_captured hen]
    cases hheaders : config.realIpHeaders with
    | nil =>
      rw [realIpOf, hheaders]
      rfl
    | cons _ _ => rfl
  · intro hno
    unfold clientIp
    split
    next hen =>
      rw [Bool.and_eq_true] at hen
      rw [if_neg]
      intro ht
      exact hno ⟨hen.1, isTrustedProxy_iff.mp ht⟩
    next => rfl

/-- The proxy at 192.0.2.7 names 198.51.100.9 as its client. A network is a single address here. -/
theorem clientIp_received_proxy :
    ∃ s u, (upgradeSys sampleSha1 sampleEncode behindProxy).Reach Sys.Any (s, [upgradeRequest]) ∧
      s.rx = .received u ∧
      clientIp (fun net ip => net == ip) behindProxy
        (Security.parseTrustedProxies (fun _ => none) (fun ip _ => some ip)
          behindProxy.realIpTrustedProxies)
        (.v4 ⟨192, 0, 2, 7⟩) u = .v4 ⟨198, 51, 100, 9⟩ := by
  obtain ⟨s, hr, -⟩ := @reach_requests sampleSha1 sampleEncode behindProxy [upgradeRequest]
  have hu : s.rx = .received (upgradeOf behindProxy upgradeRequest) :=
    ((Reach.httpOk hr).delivers.received _).mpr ⟨_, _, rfl, switches_upgradeRequest, rfl⟩
  obtain ⟨first, rest, hrequests, htrusted, -⟩ :=
    clientIp_received hr hu (fun _ => none) (fun ip _ => some ip) (fun net ip => net == ip)
      (.v4 ⟨192, 0, 2, 7⟩)
  cases hrequests
  refine ⟨s, _, hr, hu, ?_⟩
  rw [htrusted rfl]
  · decide +kernel
  · exact ⟨lit "192.0.2.7", by decide, .v4 ⟨192, 0, 2, 7⟩, by decide,
      .inr ⟨rfl, _, by decide +kernel, rfl⟩⟩

end ShrimpWisp
