import ShrimpWisp.Proofs.Egress
import ShrimpWisp.Server.Loop

/-!
# Where datagrams go

A DATA packet of a UDP stream is passed to `try_send_to` on the stream's socket; the result is
dropped.

* `Conn.datagram`: the datagram of a step with its socket, and the CONNECT that was the latest one of
  its id. A socket has the number of the CONNECT it was bound for.
* `datagrams_to_current`: it leaves from the socket of that CONNECT and goes to the address that was
  resolved for it, which the egress policy permits. A TCP stream can write to the socket of an
  earlier one (`data_to_stale_socket`).
-/

namespace ShrimpWisp

variable {S : Setup}

structure Datagram where
  streamId : StreamId
  /-- The latest accepted CONNECT of the id. -/
  current : Option Inc
  /-- The socket that sends it. -/
  socket : Inc
  dest : SocketAddr
  payload : List UInt8
  deriving DecidableEq, Repr

/-- The datagram of a DATA packet. -/
def Conn.datagramOf (c : Conn) : WispFrameResult → Option Datagram
  | .wisp t s payload =>
    if t = packetData then
      match c.table.get? s with
      | some (.udp u) => some ⟨s, c.current s, u.socket, u.destAddr, payload⟩
      | _ => none
    else none
  | _ => none

/-- The datagram of an action. -/
def Conn.datagram (S : Setup) (c : Conn) (a : Act) : Option Datagram :=
  (c.handled S a).bind c.datagramOf

/-- The connection with the log of its datagrams. -/
def datagramSys (S : Setup) : Sys (Conn × List Datagram) Act := (sys S).logged (Conn.datagram S)

/-- The datagram left from the socket that was bound for the CONNECT `inc` of its id, and went to the
address that was resolved for it. -/
structure SentFor (S : Setup) (c : Conn) (g : Datagram) (inc : Inc) : Prop where
  current : g.current = some inc
  socket : g.socket = inc
  resolved : ∃ r, r.addr = g.dest ∧ ⟨inc, r⟩ ∈ c.bound
  permitted : Permitted S c inc g.dest

theorem Permitted.mono {c c' : Conn} {inc : Inc} {addr : SocketAddr} (h : Permitted S c inc addr)
    (hl : c.accepted ⊆ c'.accepted) : Permitted S c' inc addr := by
  obtain ⟨a, ha, h⟩ := h
  exact ⟨a, hl ha, h⟩

theorem Effect.bound_subset {c d : Core} (he : Effect S c d) : c.bound ⊆ d.bound := by
  cases he with
  | acceptUdp _ _ _ _ => exact List.subset_cons_self _ _
  | _ => exact List.Subset.refl _

theorem SentFor.step {c c' : Conn} {g : Datagram} {inc : Inc} {a : Act} (h : SentFor S c g inc)
    (hs : step S c a = some c') : SentFor S c' g inc := by
  obtain ⟨d, fs, he, -, hc⟩ := step_core hs
  have hbound : c.bound ⊆ c'.bound := by
    have h : c'.bound = d.bound := congrArg Core.bound hc
    rw [h]
    exact he.bound_subset
  have haccepted : c.accepted ⊆ c'.accepted := by
    have h : c'.accepted = d.accepted := congrArg Core.accepted hc
    rw [h]
    exact he.accepted_subset
  obtain ⟨r, hr, hb⟩ := h.resolved
  exact ⟨h.current, h.socket, ⟨r, hr, hbound hb⟩, h.permitted.mono haccepted⟩

/-- A datagram leaves from the socket of its stream and goes to the stream's destination. Both are
those of the latest CONNECT. -/
theorem Reach.sentFor {ok : Conn → Act → Conn → Prop} {c : Conn} (h : (sys S).Reach ok c) {a : Act}
    {g : Datagram} (hg : c.datagram S a = some g) : ∃ inc, SentFor S c g inc := by
  obtain ⟨r, -, hr⟩ := Option.bind_eq_some_iff.mp hg
  unfold Conn.datagramOf at hr
  split at hr
  next t s payload =>
    split at hr
    next =>
      split at hr
      next u hu =>
        cases hr
        have hcurrent : c.core.current s = some u.cancel.owner := (Reach.base h).owner s _ hu
        have he := Reach.egress h
        have hu := he.dests s u hu
        obtain ⟨r, hr, hb⟩ := hu.dest
        refine ⟨u.cancel.owner, hcurrent, hu.socket, ⟨r, hr, hb⟩, ?_⟩
        rw [← hr]
        exact (he.opened _ (List.mem_append_right _ hb)).permitted
      next => cases hr
    next => cases hr
  next => cases hr

/-- Every datagram leaves from the socket of the CONNECT that was the latest one of its id when its
packet was handled, and goes to the address that was resolved for it. The egress policy permits it. -/
theorem datagrams_to_current {c : Conn} {log : List Datagram}
    (h : (datagramSys S).Reach Sys.Any (c, log)) : ∀ g ∈ log, ∃ inc, SentFor S c g inc := by
  refine h.invariant (I := fun p => ∀ g ∈ p.2, ∃ inc, SentFor S p.1 g inc) ?_ ?_
  · rintro ⟨_, _⟩ ⟨-, rfl⟩ g hg
    cases hg
  · rintro ⟨c, log⟩ a ⟨c', log'⟩ hr hi hs _
    have hr : (sys S).Reach Sys.Any c := @Sys.Reach.of_logged _ _ (sys S) Sys.Any _ _ (c, log) hr
    obtain ⟨hs, rfl⟩ := Sys.logged_step hs
    have hs : step S c a = some c' := hs
    intro g hg
    rcases List.mem_append.mp hg with hg | hg
    · obtain ⟨inc, hsent⟩ := hi g hg
      exact ⟨inc, hsent.step hs⟩
    · obtain ⟨inc, hsent⟩ := Reach.sentFor hr (Option.mem_toList.mp hg)
      exact ⟨inc, hsent.step hs⟩

/-- Stream 2 is opened over UDP, and a packet is sent. -/
theorem datagrams_to_current_two :
    ∃ c log, (datagramSys { config := {} }).Reach Sys.Any (c, log) ∧
      log = [⟨2, some 1, 1, ⟨.v4 ⟨192, 0, 2, 1⟩, 53⟩, [7]⟩] ∧
      ∃ inc, SentFor { config := {} } c ⟨2, some 1, 1, ⟨.v4 ⟨192, 0, 2, 1⟩, 53⟩, [7]⟩ inc := by
  have h : ((datagramSys { config := {} }).run Sys.Any (Conn.start { config := {} } none, [])
      (openTwo ++ toSelect ++ [.client (packet packetData 2 [7]), .main {}])).any
        (fun p => decide (p.2 = [⟨2, some 1, 1, ⟨.v4 ⟨192, 0, 2, 1⟩, 53⟩, [7]⟩])) = true := by
    decide +kernel
  obtain ⟨⟨c, log⟩, hp, hlog⟩ := (Option.any_eq_true _ _).mp h
  have hlog : log = _ := of_decide_eq_true hlog
  have hr : (datagramSys { config := {} }).Reach Sys.Any (c, log) :=
    Sys.Reach.of_run (.init (by exact ⟨⟨none, rfl⟩, rfl⟩)) hp
  refine ⟨c, log, hr, hlog, datagrams_to_current hr _ ?_⟩
  rw [hlog]
  exact List.mem_singleton_self _

end ShrimpWisp
