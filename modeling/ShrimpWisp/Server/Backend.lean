import Mathlib.Tactic.Common
import ShrimpWisp.Proxy.Stream

/-!
# Writes to a backend socket (`tcp_try_write`, `drain_pending`, the early-data flush)

The non-blocking writes of `src/server/connection.rs`. What a socket answers to one call is an
argument (`WriteResult`), so a statement for every answer is a statement for every backend.

* **FIFO** (`drainPending_fifo`, `tcpTryWrite_fifo`, `flushEarly_fifo`): while the socket lives, the
  accepted bytes followed by the queue are the bytes that came in, in order.
* **A dead socket** (`drainPending_dead`, `tcpTryWrite_dead`, `flushEarly_dead`) has accepted a
  prefix of them.
* **The queue's length** (`length_drainPending`, `length_tcpTryWrite`, `length_flushEarly`): a
  packet adds at most one chunk.
-/

namespace ShrimpWisp

/-- A socket's answer to a non-blocking write: the bytes it takes (at most those offered),
`WouldBlock`, or a fatal error. -/
inductive WriteResult where
  | ok (n : Nat)
  | wouldBlock
  | err
  deriving DecidableEq, Repr

variable {β : Type}

/-- `try_write`: the answer, and the write half with the accepted bytes. -/
def OwnedWriteHalf.tryWrite (w : OwnedWriteHalf β) (r : WriteResult) (data : List β) :
    WriteResult × OwnedWriteHalf β :=
  match r with
  | .ok n => (.ok (min n data.length), { w with sent := w.sent ++ data.take n })
  | .wouldBlock => (.wouldBlock, w)
  | .err => (.err, w)

/-- Consume `remaining` written bytes from the front of a queue. -/
def consume : List (List β) → Nat → List (List β)
  | [], _ => []
  | front :: rest, remaining =>
    if remaining = 0 then front :: rest
    else if front.length ≤ remaining then consume rest (remaining - front.length)
    else front.drop remaining :: rest

/-- Write the queue of a stream: one chunk by a plain write, several (at most 1024) by one vectored
write. `true` after a fatal error. -/
def drainPending (tcp : TcpProxyStream β) (r : WriteResult) : Bool × TcpProxyStream β :=
  match tcp.pending with
  | [] => (false, tcp)
  | [chunk] =>
    match tcp.writer.tryWrite r chunk with
    | (.ok n, writer) =>
      if n = chunk.length then (false, { tcp with writer, pending := [] })
      else (false, { tcp with writer, pending := [chunk.drop n] })
    | (.wouldBlock, writer) => (false, { tcp with writer })
    | (.err, writer) => (true, { tcp with writer, pending := [] })
  | pending =>
    let sliceCount := min pending.length 1024
    let slices := pending.take sliceCount
    let total := slices.flatten.length
    match tcp.writer.tryWrite r slices.flatten with
    | (.ok n, writer) =>
      if n = total ∧ sliceCount = pending.length then (false, { tcp with writer, pending := [] })
      else if 0 < n then (false, { tcp with writer, pending := consume pending n })
      else (false, { tcp with writer })
    | (.wouldBlock, writer) => (false, { tcp with writer })
    | (.err, writer) => (true, { tcp with writer, pending := [] })

/-- The drain that precedes the write of a payload. -/
def drainFirst (tcp : TcpProxyStream β) (r : WriteResult) : Bool × TcpProxyStream β :=
  if tcp.pending.isEmpty then (false, tcp) else drainPending tcp r

/-- The write of a DATA payload: what is left of the queue goes first. `r₁` answers the drain, `r₂`
the write of `data`. `true` if the socket is dead. -/
def tcpTryWrite (tcp : TcpProxyStream β) (data : List β) (r₁ r₂ : WriteResult) :
    Bool × TcpProxyStream β :=
  let (dead, tcp) := drainFirst tcp r₁
  if dead then (true, tcp)
  else if !tcp.pending.isEmpty then (false, { tcp with pending := tcp.pending ++ [data] })
  else
    match tcp.writer.tryWrite r₂ data with
    | (.ok n, writer) =>
      if n = data.length then (false, { tcp with writer })
      else (false, { tcp with writer, pending := tcp.pending ++ [data.drop n] })
    | (.wouldBlock, writer) => (false, { tcp with writer, pending := tcp.pending ++ [data] })
    | (.err, writer) => (true, { tcp with writer })

/-- What the flush of the early data leaves: a dead socket, or the queue. -/
structure Flushed (β : Type) where
  dead : Bool
  writer : OwnedWriteHalf β
  pending : List (List β)

/-- The flush of the early data at TcpConnected. After the first chunk that the socket does not take
whole, the others are queued. A socket answer is used up by each write; without one the socket
would block. -/
def flushEarly (writer : OwnedWriteHalf β) : List (List β) → List WriteResult → Flushed β
  | [], _ => ⟨false, writer, []⟩
  | data :: rest, rs =>
    match writer.tryWrite (rs.headD .wouldBlock) data with
    | (.ok n, writer) =>
      if n = data.length then flushEarly writer rest rs.tail
      else ⟨false, writer, data.drop n :: rest⟩
    | (.wouldBlock, writer) => ⟨false, writer, data :: rest⟩
    | (.err, writer) => ⟨true, writer, []⟩

/-! ## The queue is FIFO -/

theorem tryWrite_ok {w w' : OwnedWriteHalf β} {r : WriteResult} {data : List β} {n : Nat}
    (h : w.tryWrite r data = (.ok n, w')) :
    n ≤ data.length ∧ w'.sent = w.sent ++ data.take n ∧ w'.sock = w.sock := by
  cases r with
  | ok m =>
    simp only [OwnedWriteHalf.tryWrite, Prod.mk.injEq, WriteResult.ok.injEq] at h
    obtain ⟨rfl, rfl⟩ := h
    refine ⟨Nat.min_le_right _ _, ?_, rfl⟩
    rcases Nat.le_total m data.length with hm | hm
    · rw [Nat.min_eq_left hm]
    · rw [Nat.min_eq_right hm, List.take_length, List.take_of_length_le hm]
  | wouldBlock => simp [OwnedWriteHalf.tryWrite] at h
  | err => simp [OwnedWriteHalf.tryWrite] at h

theorem tryWrite_wouldBlock {w w' : OwnedWriteHalf β} {r : WriteResult} {data : List β}
    (h : w.tryWrite r data = (.wouldBlock, w')) : w' = w := by
  cases r <;> simp_all [OwnedWriteHalf.tryWrite]

theorem tryWrite_err {w w' : OwnedWriteHalf β} {r : WriteResult} {data : List β}
    (h : w.tryWrite r data = (.err, w')) : w' = w := by
  cases r <;> simp_all [OwnedWriteHalf.tryWrite]

theorem flatten_consume (l : List (List β)) (n : Nat) :
    (consume l n).flatten = l.flatten.drop n := by
  induction l generalizing n with
  | nil => simp [consume]
  | cons front rest ih =>
    unfold consume
    split
    · rename_i h; subst h; rfl
    · split
      · rename_i h
        rw [ih, List.flatten_cons, List.drop_append, List.drop_of_length_le h, List.nil_append]
      · rename_i h
        rw [List.flatten_cons, List.flatten_cons, List.drop_append,
          Nat.sub_eq_zero_of_le (Nat.le_of_not_le h), List.drop_zero]

theorem length_consume (l : List (List β)) (n : Nat) : (consume l n).length ≤ l.length := by
  induction l generalizing n with
  | nil => simp [consume]
  | cons front rest ih =>
    unfold consume
    split
    · exact le_rfl
    · split
      · exact Nat.le_succ_of_le (ih _)
      · simp

theorem take_append_drop_flatten {l : List (List β)} {k n : Nat}
    (h : n ≤ (l.take k).flatten.length) :
    (l.take k).flatten.take n ++ l.flatten.drop n = l.flatten := by
  have hsplit : l.flatten = (l.take k).flatten ++ (l.drop k).flatten := by
    rw [← List.flatten_append, List.take_append_drop]
  rw [hsplit, List.drop_append_of_le_length h, ← List.append_assoc, List.take_append_drop]

theorem drainPending_fifo {tcp : TcpProxyStream β} {r : WriteResult}
    (h : (drainPending tcp r).1 = false) :
    (drainPending tcp r).2.writer.sent ++ (drainPending tcp r).2.pending.flatten =
      tcp.writer.sent ++ tcp.pending.flatten := by
  unfold drainPending at h ⊢
  split
  · rfl
  · rename_i chunk hp
    simp only [hp] at h ⊢
    split
    · rename_i n w hw
      obtain ⟨hn, hs, -⟩ := tryWrite_ok hw
      split
      · rename_i he; subst he; simp [hs]
      · simp [hs]
    · rename_i w hw; rw [tryWrite_wouldBlock hw]
    · rename_i w hw; rw [hw] at h; cases h
  · rename_i hp₀ hp₁
    simp only at h ⊢
    split
    · rename_i n w hw
      obtain ⟨hn, hs, -⟩ := tryWrite_ok hw
      split
      · rename_i he
        obtain ⟨rfl, hk⟩ := he
        simp only [hs, List.flatten_nil, List.append_nil, List.take_length]
        rw [hk, List.take_length]
      · split
        · simp only [hs, flatten_consume, List.append_assoc, take_append_drop_flatten hn]
        · rename_i hz
          have : n = 0 := by omega
          subst this; simp [hs]
    · rename_i w hw; rw [tryWrite_wouldBlock hw]
    · rename_i w hw
      simp only [hw] at h
      cases h

/-- A fatal error: the socket took nothing, and the queue is dropped. -/
theorem drainPending_dead {tcp : TcpProxyStream β} {r : WriteResult}
    (h : (drainPending tcp r).1 = true) :
    (drainPending tcp r).2.writer = tcp.writer ∧ (drainPending tcp r).2.pending = [] := by
  unfold drainPending at h ⊢
  split
  · rename_i hp; simp [hp] at h
  · rename_i chunk hp
    simp only [hp] at h ⊢
    split
    · rename_i n w hw
      simp only [hw] at h
      split at h <;> cases h
    · rename_i w hw; simp only [hw] at h; cases h
    · rename_i w hw; exact ⟨tryWrite_err hw, rfl⟩
  · simp only at h ⊢
    split
    · rename_i n w hw
      simp only [hw] at h
      split at h
      · cases h
      · split at h <;> cases h
    · rename_i w hw; simp only [hw] at h; cases h
    · rename_i w hw; exact ⟨tryWrite_err hw, rfl⟩

/-- A drain makes no bytes up. -/
theorem mem_drainPending {tcp : TcpProxyStream β} {r : WriteResult} {o : β}
    (h : o ∈ (drainPending tcp r).2.writer.sent ++ (drainPending tcp r).2.pending.flatten) :
    o ∈ tcp.writer.sent ++ tcp.pending.flatten := by
  cases hd : (drainPending tcp r).1 with
  | false => rwa [drainPending_fifo hd] at h
  | true =>
    obtain ⟨hw, hp⟩ := drainPending_dead hd
    rw [hw, hp, List.flatten_nil, List.append_nil] at h
    exact List.mem_append_left _ h

/-- A drain keeps the socket, the counter and the flags of a stream. -/
theorem drainPending_frame (tcp : TcpProxyStream β) (r : WriteResult) :
    (drainPending tcp r).2.writer.sock = tcp.writer.sock ∧
    (drainPending tcp r).2.packetsSinceContinue = tcp.packetsSinceContinue ∧
    (drainPending tcp r).2.queuedForDrain = tcp.queuedForDrain ∧
    (drainPending tcp r).2.cancel = tcp.cancel := by
  unfold drainPending
  split
  · exact ⟨rfl, rfl, rfl, rfl⟩
  · split
    · rename_i n w hw
      split <;> exact ⟨(tryWrite_ok hw).2.2, rfl, rfl, rfl⟩
    · rename_i w hw; exact ⟨by rw [tryWrite_wouldBlock hw], rfl, rfl, rfl⟩
    · rename_i w hw; exact ⟨by rw [tryWrite_err hw], rfl, rfl, rfl⟩
  · simp only
    split
    · rename_i n w hw
      split
      · exact ⟨(tryWrite_ok hw).2.2, rfl, rfl, rfl⟩
      · split <;> exact ⟨(tryWrite_ok hw).2.2, rfl, rfl, rfl⟩
    · rename_i w hw; exact ⟨by rw [tryWrite_wouldBlock hw], rfl, rfl, rfl⟩
    · rename_i w hw; exact ⟨by rw [tryWrite_err hw], rfl, rfl, rfl⟩

theorem length_drainPending (tcp : TcpProxyStream β) (r : WriteResult) :
    (drainPending tcp r).2.pending.length ≤ tcp.pending.length := by
  unfold drainPending
  split
  · exact le_rfl
  · rename_i chunk hp
    split
    · split <;> simp [hp]
    · exact le_rfl
    · exact Nat.zero_le _
  · simp only
    split
    · split
      · exact Nat.zero_le _
      · split
        · exact length_consume _ _
        · exact le_rfl
    · exact le_rfl
    · exact Nat.zero_le _

theorem drainFirst_fifo (tcp : TcpProxyStream β) (r : WriteResult)
    (h : (drainFirst tcp r).1 = false) :
    (drainFirst tcp r).2.writer.sent ++ (drainFirst tcp r).2.pending.flatten =
      tcp.writer.sent ++ tcp.pending.flatten := by
  unfold drainFirst at h ⊢
  split
  · rfl
  · rename_i hp; rw [if_neg hp] at h; exact drainPending_fifo h

/-- The cases of a payload's write: the drain killed the socket, or it left a queue that the payload
joins, or the payload itself was offered. -/
theorem tcpTryWrite_cases (tcp : TcpProxyStream β) (data : List β) (r₁ r₂ : WriteResult) :
    ((drainFirst tcp r₁).1 = true ∧ tcpTryWrite tcp data r₁ r₂ = (true, (drainFirst tcp r₁).2)) ∨
    ∃ t, drainFirst tcp r₁ = (false, t) ∧
      ((t.pending ≠ [] ∧ tcpTryWrite tcp data r₁ r₂ =
          (false, { t with pending := t.pending ++ [data] })) ∨
       (t.pending = [] ∧ ∃ n w, n ≤ data.length ∧ w.sent = t.writer.sent ++ data.take n ∧
          w.sock = t.writer.sock ∧
          (tcpTryWrite tcp data r₁ r₂ = (false, { t with writer := w, pending := [] }) ∧
              n = data.length ∨
           tcpTryWrite tcp data r₁ r₂ =
              (false, { t with writer := w, pending := [data.drop n] }) ∨
           tcpTryWrite tcp data r₁ r₂ = (true, { t with writer := w, pending := [] }) ∧ n = 0))) := by
  unfold tcpTryWrite
  obtain ⟨dead, t⟩ := drainFirst tcp r₁
  cases dead with
  | true => exact .inl ⟨rfl, rfl⟩
  | false =>
    refine .inr ⟨t, rfl, ?_⟩
    simp only [Bool.false_eq_true, if_false]
    by_cases hp : t.pending = []
    · refine .inr ⟨hp, ?_⟩
      simp only [hp, List.isEmpty_nil, Bool.not_true, Bool.false_eq_true, if_false, List.nil_append]
      rcases hw : t.writer.tryWrite r₂ data with ⟨res, w⟩
      cases res with
      | ok n =>
        obtain ⟨hn, hs, hk⟩ := tryWrite_ok hw
        refine ⟨n, w, hn, hs, hk, ?_⟩
        by_cases he : n = data.length
        · exact .inl ⟨if_pos he, he⟩
        · exact .inr (.inl (if_neg he))
      | wouldBlock =>
        refine ⟨0, w, Nat.zero_le _, ?_, ?_, .inr (.inl ?_)⟩
        · rw [tryWrite_wouldBlock hw]; simp
        · rw [tryWrite_wouldBlock hw]
        · rfl
      | err =>
        refine ⟨0, w, Nat.zero_le _, ?_, ?_, .inr (.inr ⟨?_, rfl⟩)⟩
        · rw [tryWrite_err hw]; simp
        · rw [tryWrite_err hw]
        · rfl
    · refine .inl ⟨hp, ?_⟩
      have : t.pending.isEmpty = false := by simpa using hp
      simp [this]

theorem drainFirst_frame (tcp : TcpProxyStream β) (r : WriteResult) :
    (drainFirst tcp r).2.writer.sock = tcp.writer.sock ∧
    (drainFirst tcp r).2.packetsSinceContinue = tcp.packetsSinceContinue ∧
    (drainFirst tcp r).2.queuedForDrain = tcp.queuedForDrain ∧
    (drainFirst tcp r).2.cancel = tcp.cancel := by
  unfold drainFirst
  split
  · exact ⟨rfl, rfl, rfl, rfl⟩
  · exact drainPending_frame tcp r

theorem tcpTryWrite_frame {tcp tcp' : TcpProxyStream β} {data : List β} {r₁ r₂ : WriteResult}
    {dead : Bool} (h : tcpTryWrite tcp data r₁ r₂ = (dead, tcp')) :
    tcp'.writer.sock = tcp.writer.sock ∧ tcp'.packetsSinceContinue = tcp.packetsSinceContinue ∧
      tcp'.queuedForDrain = tcp.queuedForDrain ∧ tcp'.cancel = tcp.cancel := by
  have hf := drainFirst_frame tcp r₁
  rcases tcpTryWrite_cases tcp data r₁ r₂ with ⟨-, he⟩ | ⟨t, ht, ⟨-, he⟩ | ⟨-, n, w, -, -, hk, he⟩⟩
  · rw [he] at h; cases h; exact hf
  · rw [ht] at hf; rw [he] at h; cases h; exact hf
  · rw [ht] at hf
    rcases he with ⟨he, -⟩ | he | ⟨he, -⟩ <;> rw [he] at h <;> cases h <;>
      exact ⟨hk.trans hf.1, hf.2⟩

theorem tcpTryWrite_fifo {tcp tcp' : TcpProxyStream β} {data : List β} {r₁ r₂ : WriteResult}
    (h : tcpTryWrite tcp data r₁ r₂ = (false, tcp')) :
    tcp'.writer.sent ++ tcp'.pending.flatten = tcp.writer.sent ++ tcp.pending.flatten ++ data := by
  rcases tcpTryWrite_cases tcp data r₁ r₂ with ⟨-, he⟩ | ⟨t, ht, ⟨-, he⟩ | ⟨hp, n, w, -, hs, -, he⟩⟩
  · rw [he] at h; cases h
  · have hf := drainFirst_fifo tcp r₁ (by rw [ht])
    rw [ht] at hf
    rw [he] at h
    cases h
    rw [← hf]
    simp
  · have hf := drainFirst_fifo tcp r₁ (by rw [ht])
    rw [ht, hp] at hf
    rw [← hf]
    rcases he with ⟨he, rfl⟩ | he | ⟨he, -⟩
    · rw [he] at h; cases h; simp [hs]
    · rw [he] at h; cases h; simp [hs]
    · rw [he] at h; cases h

/-- A socket that died during the write of a payload has accepted a prefix. -/
theorem tcpTryWrite_dead {tcp tcp' : TcpProxyStream β} {data : List β} {r₁ r₂ : WriteResult}
    (h : tcpTryWrite tcp data r₁ r₂ = (true, tcp')) :
    tcp'.writer.sent <+: tcp.writer.sent ++ tcp.pending.flatten := by
  rcases tcpTryWrite_cases tcp data r₁ r₂ with ⟨hd, he⟩ | ⟨t, ht, ⟨-, he⟩ | ⟨hp, n, w, -, hs, -, he⟩⟩
  · rw [he] at h
    cases h
    unfold drainFirst at hd ⊢
    split at hd
    · cases hd
    · rename_i hp
      rw [if_neg hp]
      simp only [(drainPending_dead hd).1]
      exact List.prefix_append _ _
  · rw [he] at h; cases h
  · have hf := drainFirst_fifo tcp r₁ (by rw [ht])
    rw [ht, hp] at hf
    rcases he with ⟨he, -⟩ | he | ⟨he, rfl⟩
    · rw [he] at h; cases h
    · rw [he] at h; cases h
    · rw [he] at h; cases h; rw [← hf]; simp [hs]

theorem length_tcpTryWrite {tcp tcp' : TcpProxyStream β} {data : List β} {r₁ r₂ : WriteResult}
    {dead : Bool} (h : tcpTryWrite tcp data r₁ r₂ = (dead, tcp')) :
    tcp'.pending.length ≤ tcp.pending.length + 1 := by
  have hd : (drainFirst tcp r₁).2.pending.length ≤ tcp.pending.length := by
    unfold drainFirst
    split
    · exact le_rfl
    · exact length_drainPending tcp r₁
  rcases tcpTryWrite_cases tcp data r₁ r₂ with ⟨-, he⟩ | ⟨t, ht, ⟨-, he⟩ | ⟨-, n, w, -, -, -, he⟩⟩
  · rw [he] at h; cases h; exact Nat.le_succ_of_le hd
  · rw [ht] at hd; rw [he] at h; cases h; simpa using hd
  · rcases he with ⟨he, -⟩ | he | ⟨he, -⟩ <;> rw [he] at h <;> cases h <;> simp

theorem flushEarly_sock (w : OwnedWriteHalf β) (early : List (List β)) (rs : List WriteResult) :
    (flushEarly w early rs).writer.sock = w.sock := by
  induction early generalizing w rs with
  | nil => rfl
  | cons data rest ih =>
    unfold flushEarly
    split
    · rename_i n w' hw
      split
      · rw [ih, (tryWrite_ok hw).2.2]
      · exact (tryWrite_ok hw).2.2
    · rename_i w' hw; exact congrArg _ (tryWrite_wouldBlock hw)
    · rename_i w' hw; exact congrArg _ (tryWrite_err hw)

theorem flushEarly_fifo {w : OwnedWriteHalf β} {early : List (List β)} {rs : List WriteResult}
    (h : (flushEarly w early rs).dead = false) :
    (flushEarly w early rs).writer.sent ++ (flushEarly w early rs).pending.flatten =
      w.sent ++ early.flatten := by
  induction early generalizing w rs with
  | nil => rfl
  | cons data rest ih =>
    unfold flushEarly at h ⊢
    split
    · rename_i n w' hw
      obtain ⟨-, hs, -⟩ := tryWrite_ok hw
      simp only [hw] at h
      split
      · rename_i he
        rw [if_pos he] at h
        rw [ih h, hs, he]; simp
      · simp only [hs, List.flatten_cons, List.append_assoc]
        rw [← List.append_assoc (data.take n), List.take_append_drop]
    · rename_i w' hw; rw [tryWrite_wouldBlock hw]
    · rename_i w' hw; simp only [hw] at h; cases h

/-- A socket that died during the flush has accepted a prefix of the early data. -/
theorem flushEarly_dead (w : OwnedWriteHalf β) (early : List (List β)) (rs : List WriteResult) :
    (flushEarly w early rs).writer.sent <+: w.sent ++ early.flatten := by
  induction early generalizing w rs with
  | nil => exact List.prefix_append _ _
  | cons data rest ih =>
    unfold flushEarly
    split
    · rename_i n w' hw
      obtain ⟨-, hs, -⟩ := tryWrite_ok hw
      split
      · rename_i he
        have := ih w' rs.tail
        rw [hs, he] at this
        simpa using this
      · simp only [hs, List.flatten_cons, List.prefix_append_right_inj]
        exact (List.take_prefix n data).trans (List.prefix_append _ _)
    · rename_i w' hw; rw [tryWrite_wouldBlock hw]; exact List.prefix_append _ _
    · rename_i w' hw; rw [tryWrite_err hw]; exact List.prefix_append _ _

theorem length_flushEarly (w : OwnedWriteHalf β) (early : List (List β)) (rs : List WriteResult) :
    (flushEarly w early rs).pending.length ≤ early.length := by
  induction early generalizing w rs with
  | nil => exact le_rfl
  | cons data rest ih =>
    unfold flushEarly
    split
    · split
      · exact Nat.le_succ_of_le (ih _ _)
      · simp
    · exact le_rfl
    · exact Nat.zero_le _

end ShrimpWisp
