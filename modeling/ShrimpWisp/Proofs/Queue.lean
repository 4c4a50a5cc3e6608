import Mathlib.Data.List.Induction
import Mathlib.Logic.Function.Iterate
import ShrimpWisp.Server.Backend

/-!
# The write queue of a TCP stream

The calls that touch the queue of a `TcpProxyStream`: `tcp_try_write` for each DATA packet and
`drain_pending` in between, with any answers of the socket. Both callers remove the stream when a
call returns `true`, so a run ends there.

* `runQueue_spec`: a run without a fatal error loses, repeats and reorders nothing; after one, the
  socket has taken a part from the front. The early-data flush obeys the same law.
* `drainPending_progress`: against a socket that takes all it is offered, a drain shortens the queue
  and finitely many drains empty it, unless 1024 empty chunks in a row come before another chunk. A
  vectored write of empty slices takes zero bytes, which `drain_pending` reads as would-block.
-/

namespace ShrimpWisp

variable {β : Type}

/-! ## Runs of calls -/

/-- A call on the queue, with the socket's answers to the writes that it may make. -/
inductive QueueCall (β : Type) where
  | write (data : List β) (r₁ r₂ : WriteResult)
  | drain (r : WriteResult)
  deriving DecidableEq, Repr

namespace QueueCall

/-- The call's result (`true` for a dead socket) and the stream after it. -/
def exec (tcp : TcpProxyStream β) : QueueCall β → Bool × TcpProxyStream β
  | write data r₁ r₂ => tcpTryWrite tcp data r₁ r₂
  | drain r => drainPending tcp r

/-- The bytes that a call brings in. -/
def payload : QueueCall β → List β
  | write data _ _ => data
  | drain _ => []

/-- A write that the call makes is answered by a fatal error. A queue that is not empty is written
first; a payload is offered only when the queue is empty. -/
def Fatal (tcp : TcpProxyStream β) : QueueCall β → Prop
  | write _ r₁ r₂ =>
    (tcp.pending ≠ [] ∧ r₁ = .err) ∨
      ((drainFirst tcp r₁).1 = false ∧ (drainFirst tcp r₁).2.pending = [] ∧ r₂ = .err)
  | drain r => tcp.pending ≠ [] ∧ r = .err

end QueueCall

/-- The calls in turn, up to the first that finds the socket dead. -/
def runQueue (tcp : TcpProxyStream β) : List (QueueCall β) → Bool × TcpProxyStream β
  | [] => (false, tcp)
  | call :: calls =>
    match call.exec tcp with
    | (true, tcp) => (true, tcp)
    | (false, tcp) => runQueue tcp calls

/-- A write that a flush makes is answered by a fatal error: the chunks before it were taken
whole. -/
def FlushFatal : List (List β) → List WriteResult → Prop
  | [], _ => False
  | data :: rest, rs =>
    match rs.headD .wouldBlock with
    | .ok n => data.length ≤ n ∧ FlushFatal rest rs.tail
    | .wouldBlock => False
    | .err => True

/-! ## A dead socket is one that answered with a fatal error -/

theorem drainPending_dead_iff (tcp : TcpProxyStream β) (r : WriteResult) :
    (drainPending tcp r).1 = true ↔ tcp.pending ≠ [] ∧ r = .err := by
  unfold drainPending
  split
  · next hp => simp [hp]
  · next chunk hp =>
    cases r with
    | ok n =>
      simp only [OwnedWriteHalf.tryWrite]
      split <;> simp
    | wouldBlock => simp [OwnedWriteHalf.tryWrite]
    | err => simp [OwnedWriteHalf.tryWrite, hp]
  · next h0 _ =>
    cases r with
    | ok n =>
      simp only [OwnedWriteHalf.tryWrite]
      split
      · simp
      · split <;> simp
    | wouldBlock => simp [OwnedWriteHalf.tryWrite]
    | err => simpa [OwnedWriteHalf.tryWrite] using h0

theorem drainFirst_dead_iff (tcp : TcpProxyStream β) (r : WriteResult) :
    (drainFirst tcp r).1 = true ↔ tcp.pending ≠ [] ∧ r = .err := by
  unfold drainFirst
  split
  · next hp => simp [List.isEmpty_iff.mp hp]
  · exact drainPending_dead_iff tcp r

theorem tcpTryWrite_dead_iff (tcp : TcpProxyStream β) (data : List β) (r₁ r₂ : WriteResult) :
    (tcpTryWrite tcp data r₁ r₂).1 = true ↔ (QueueCall.write data r₁ r₂).Fatal tcp := by
  simp only [tcpTryWrite, QueueCall.Fatal, ← drainFirst_dead_iff tcp r₁]
  obtain ⟨dead, t⟩ := drainFirst tcp r₁
  cases dead with
  | true => simp
  | false =>
    by_cases hp : t.pending = []
    · cases r₂ with
      | ok n =>
        by_cases hn : min n data.length = data.length <;> simp [hp, OwnedWriteHalf.tryWrite, hn]
      | wouldBlock => simp [hp, OwnedWriteHalf.tryWrite]
      | err => simp [hp, OwnedWriteHalf.tryWrite]
    · simp [hp]

theorem QueueCall.dead_iff (tcp : TcpProxyStream β) (call : QueueCall β) :
    (call.exec tcp).1 = true ↔ call.Fatal tcp := by
  cases call with
  | write data r₁ r₂ => exact tcpTryWrite_dead_iff tcp data r₁ r₂
  | drain r => exact drainPending_dead_iff tcp r

theorem flushEarly_dead_iff (w : OwnedWriteHalf β) (early : List (List β))
    (rs : List WriteResult) : (flushEarly w early rs).dead = true ↔ FlushFatal early rs := by
  induction early generalizing w rs with
  | nil => simp [flushEarly, FlushFatal]
  | cons data rest ih =>
    unfold flushEarly FlushFatal
    cases rs.headD .wouldBlock with
    | ok n =>
      simp only [OwnedWriteHalf.tryWrite]
      split
      · next hn =>
        rw [ih, and_iff_right]
        omega
      · next hn =>
        have : ¬ data.length ≤ n := by omega
        simp [this]
    | wouldBlock => simp [OwnedWriteHalf.tryWrite]
    | err => simp [OwnedWriteHalf.tryWrite]

/-! ## Nothing is lost, repeated or reordered -/

/-- The law of a queue: what the socket takes, after what it took before (`sent`), and the queue are
the bytes that came in; a dead socket has taken a part of these from the front. -/
def QueueLaw (sent input : List β) (dead : Bool) (sent' queue : List β) : Prop :=
  ∃ accepted, sent' = sent ++ accepted ∧ (dead = false → accepted ++ queue = input) ∧
    (dead = true → accepted <+: input)

namespace QueueLaw

variable {sent sent' sent'' input input' queue queue' : List β} {dead : Bool}

theorem trans (h : QueueLaw sent input false sent' queue)
    (h' : QueueLaw sent' (queue ++ input') dead sent'' queue') :
    QueueLaw sent (input ++ input') dead sent'' queue' := by
  obtain ⟨xs, rfl, hlive, -⟩ := h
  obtain ⟨ys, rfl, hlive', hdead'⟩ := h'
  rw [← hlive rfl]
  refine ⟨xs ++ ys, List.append_assoc .., fun hd => ?_, fun hd => ?_⟩
  · rw [List.append_assoc, hlive' hd, List.append_assoc]
  · rw [List.append_assoc, List.prefix_append_right_inj]
    exact hdead' hd

/-- Nothing comes in after a fatal error. -/
theorem stop (h : QueueLaw sent input true sent' queue) (more : List β) :
    QueueLaw sent (input ++ more) true sent' queue := by
  obtain ⟨xs, hs, -, hdead⟩ := h
  exact ⟨xs, hs, nofun, fun _ => (hdead rfl).trans (List.prefix_append _ _)⟩

/-- The law from the bytes on the wire, when they only grow. -/
theorem of_fifo (hgrow : sent <+: sent') (hlive : dead = false → sent' ++ queue = sent ++ input)
    (hdead : dead = true → sent' <+: sent ++ input) : QueueLaw sent input dead sent' queue := by
  obtain ⟨xs, rfl⟩ := hgrow
  refine ⟨xs, rfl, fun hd => ?_, fun hd => ?_⟩
  · have := hlive hd
    rwa [List.append_assoc, List.append_cancel_left_eq] at this
  · exact (List.prefix_append_right_inj _).mp (hdead hd)

end QueueLaw

theorem tryWrite_grows {w w' : OwnedWriteHalf β} {r res : WriteResult} {data : List β}
    (h : w.tryWrite r data = (res, w')) : w.sent <+: w'.sent := by
  cases r <;> cases h
  · exact List.prefix_append _ _
  · exact List.prefix_refl _
  · exact List.prefix_refl _

theorem drainPending_grows (tcp : TcpProxyStream β) (r : WriteResult) :
    tcp.writer.sent <+: (drainPending tcp r).2.writer.sent := by
  unfold drainPending
  split
  · exact List.prefix_refl _
  · next chunk hp =>
    rcases hr : tcp.writer.tryWrite r chunk with ⟨res, writer⟩
    have hw := tryWrite_grows hr
    cases res with
    | ok n =>
      dsimp only
      split <;> exact hw
    | wouldBlock => exact hw
    | err => exact hw
  · dsimp only
    rcases hr : tcp.writer.tryWrite r _ with ⟨res, writer⟩
    have hw := tryWrite_grows hr
    cases res with
    | ok n =>
      dsimp only
      split
      · exact hw
      · split <;> exact hw
    | wouldBlock => exact hw
    | err => exact hw

theorem drainFirst_grows (tcp : TcpProxyStream β) (r : WriteResult) :
    tcp.writer.sent <+: (drainFirst tcp r).2.writer.sent := by
  unfold drainFirst
  split
  · exact List.prefix_refl _
  · exact drainPending_grows tcp r

theorem tcpTryWrite_grows (tcp : TcpProxyStream β) (data : List β) (r₁ r₂ : WriteResult) :
    tcp.writer.sent <+: (tcpTryWrite tcp data r₁ r₂).2.writer.sent := by
  have hd := drainFirst_grows tcp r₁
  rcases tcpTryWrite_cases tcp data r₁ r₂ with ⟨-, he⟩ | ⟨t, ht, ⟨-, he⟩ | ⟨-, n, w, -, hs, -, he⟩⟩
  · rwa [he]
  · rw [ht] at hd
    rwa [he]
  · rw [ht] at hd
    have hw : tcp.writer.sent <+: w.sent := hd.trans (hs ▸ List.prefix_append _ _)
    rcases he with ⟨he, -⟩ | he | ⟨he, -⟩ <;> rw [he] <;> exact hw

theorem flushEarly_grows (w : OwnedWriteHalf β) (early : List (List β)) (rs : List WriteResult) :
    w.sent <+: (flushEarly w early rs).writer.sent := by
  induction early generalizing w rs with
  | nil => exact List.prefix_refl _
  | cons data rest ih =>
    unfold flushEarly
    rcases hr : w.tryWrite _ data with ⟨res, w'⟩
    have hw := tryWrite_grows hr
    cases res with
    | ok n =>
      dsimp only
      split
      · exact hw.trans (ih w' rs.tail)
      · exact hw
    | wouldBlock => exact hw
    | err => exact hw

/-- One call. -/
theorem QueueCall.law (tcp : TcpProxyStream β) (call : QueueCall β) :
    QueueLaw tcp.writer.sent (tcp.pending.flatten ++ call.payload) (call.exec tcp).1
      (call.exec tcp).2.writer.sent (call.exec tcp).2.pending.flatten := by
  cases call with
  | write data r₁ r₂ =>
    refine .of_fifo (tcpTryWrite_grows tcp data r₁ r₂) (fun hd => ?_) (fun hd => ?_)
    · rw [← List.append_assoc]
      exact tcpTryWrite_fifo (Prod.ext hd rfl)
    · have := tcpTryWrite_dead (Prod.ext hd rfl)
      rw [← List.append_assoc]
      exact this.trans (List.prefix_append _ _)
  | drain r =>
    refine .of_fifo (drainPending_grows tcp r) (fun hd => ?_) (fun hd => ?_)
    · rw [payload, List.append_nil]
      exact drainPending_fifo hd
    · rw [QueueCall.exec, (drainPending_dead hd).1]
      exact List.prefix_append _ _

theorem runQueue_law (tcp : TcpProxyStream β) (calls : List (QueueCall β)) :
    QueueLaw tcp.writer.sent (tcp.pending.flatten ++ calls.flatMap QueueCall.payload)
      (runQueue tcp calls).1 (runQueue tcp calls).2.writer.sent
      (runQueue tcp calls).2.pending.flatten := by
  induction calls generalizing tcp with
  | nil => exact ⟨[], by simp [runQueue], by simp [runQueue], by simp [runQueue]⟩
  | cons call calls ih =>
    have hcall := call.law tcp
    rw [runQueue, List.flatMap_cons, ← List.append_assoc]
    rcases he : call.exec tcp with ⟨_ | _, t⟩
    · rw [he] at hcall
      exact hcall.trans (ih t)
    · rw [he] at hcall
      exact hcall.stop _

/-- A run ends early at a call whose write was answered by a fatal error. -/
theorem runQueue_dead_iff (tcp : TcpProxyStream β) (calls : List (QueueCall β)) :
    (runQueue tcp calls).1 = true ↔
      ∃ done call rest, calls = done ++ call :: rest ∧ (runQueue tcp done).1 = false ∧
        call.Fatal (runQueue tcp done).2 := by
  induction calls generalizing tcp with
  | nil => simp [runQueue]
  | cons call calls ih =>
    have hcall := call.dead_iff tcp
    rw [runQueue]
    rcases he : call.exec tcp with ⟨_ | _, t⟩
    · rw [he] at hcall
      rw [ih t]
      constructor
      · rintro ⟨done, c, rest, rfl, hlive, hf⟩
        refine ⟨call :: done, c, rest, rfl, ?_, ?_⟩ <;> rw [runQueue, he] <;> assumption
      · rintro ⟨done, c, rest, hsplit, hlive, hf⟩
        cases done with
        | nil =>
          obtain ⟨rfl, rfl⟩ := List.cons.inj hsplit
          exact absurd (hcall.mpr hf) (by simp)
        | cons c' done =>
          obtain ⟨rfl, rfl⟩ := List.cons.inj hsplit
          rw [runQueue, he] at hlive hf
          exact ⟨done, c, rest, rfl, hlive, hf⟩
    · rw [he] at hcall
      exact iff_of_true rfl ⟨[], call, calls, rfl, rfl, hcall.mp rfl⟩

theorem flushEarly_law (w : OwnedWriteHalf β) (early : List (List β)) (rs : List WriteResult) :
    QueueLaw w.sent early.flatten (flushEarly w early rs).dead (flushEarly w early rs).writer.sent
      (flushEarly w early rs).pending.flatten :=
  .of_fifo (flushEarly_grows w early rs) (fun hd => flushEarly_fifo hd)
    fun _ => flushEarly_dead w early rs

/-- The write queue is FIFO: for every run of calls and answers of the socket, and for the flush of
every list of early data. The result `true` is that of a call with a fatal error. -/
theorem writeQueue_fifo :
    (∀ (tcp : TcpProxyStream β) (calls : List (QueueCall β)),
      QueueLaw tcp.writer.sent (tcp.pending.flatten ++ calls.flatMap QueueCall.payload)
        (runQueue tcp calls).1 (runQueue tcp calls).2.writer.sent
        (runQueue tcp calls).2.pending.flatten ∧
      ((runQueue tcp calls).1 = true ↔
        ∃ done call rest, calls = done ++ call :: rest ∧ (runQueue tcp done).1 = false ∧
          call.Fatal (runQueue tcp done).2)) ∧
    (∀ (w : OwnedWriteHalf β) (early : List (List β)) (rs : List WriteResult),
      QueueLaw w.sent early.flatten (flushEarly w early rs).dead (flushEarly w early rs).writer.sent
        (flushEarly w early rs).pending.flatten ∧
      ((flushEarly w early rs).dead = true ↔ FlushFatal early rs)) := by
  constructor
  · intro tcp calls
    exact ⟨runQueue_law tcp calls, runQueue_dead_iff tcp calls⟩
  · intro w early rs
    exact ⟨flushEarly_law w early rs, flushEarly_dead_iff w early rs⟩

/-! ## Progress against an accepting socket -/

/-- The bytes that a drain offers to the socket. -/
def TcpProxyStream.offered (tcp : TcpProxyStream β) : List β := (tcp.pending.take 1024).flatten

/-- A drain of which the socket takes every byte. -/
def drainAccepted (tcp : TcpProxyStream β) : Bool × TcpProxyStream β :=
  drainPending tcp (.ok tcp.offered.length)

/-- The queue after such a drain. -/
def afterDrain (pending : List (List β)) : List (List β) :=
  if pending.length ≤ 1024 then [] else consume pending (pending.take 1024).flatten.length

/-- 1024 empty chunks in a row, and a further chunk after them. -/
def Stalls (pending : List (List β)) : Prop :=
  ∃ pre post, pending = pre ++ (List.replicate 1024 [] ++ post) ∧ post ≠ []

theorem consume_zero (l : List (List β)) : consume l 0 = l := by
  cases l <;> rfl

theorem drainAccepted_eq (tcp : TcpProxyStream β) :
    drainAccepted tcp = (false, { tcp with
      writer := { tcp.writer with sent := tcp.writer.sent ++ tcp.offered }
      pending := afterDrain tcp.pending }) := by
  obtain ⟨⟨sock, sent⟩, pending, since, queued, cancel⟩ := tcp
  unfold drainAccepted drainPending TcpProxyStream.offered afterDrain
  rcases pending with _ | ⟨chunk, _ | ⟨chunk', pending⟩⟩
  · simp
  · simp [OwnedWriteHalf.tryWrite]
  · dsimp only
    generalize chunk :: chunk' :: pending = q
    have htake : q.take (min q.length 1024) = q.take 1024 := by
      rw [Nat.min_comm, ← List.take_eq_take_min]
    simp only [OwnedWriteHalf.tryWrite, htake, Nat.min_self, List.take_length, true_and]
    by_cases hl : q.length ≤ 1024
    · simp [hl]
    · have hmin : ¬ min q.length 1024 = q.length := by omega
      simp only [hl, hmin, if_false]
      split
      · rfl
      · next h0 =>
        have h0 : (q.take 1024).flatten.length = 0 := by omega
        simp only [h0, consume_zero]

/-- A list ends in some number of empty chunks. -/
theorem exists_trailing (l : List (List β)) :
    l = List.replicate l.length [] ∨
      ∃ front last j, l = front ++ last :: List.replicate j [] ∧ last ≠ [] := by
  induction l using List.reverseRecOn with
  | nil => exact .inl rfl
  | append_singleton l chunk ih =>
    by_cases hc : chunk = []
    · subst hc
      rcases ih with h | ⟨front, last, j, rfl, hlast⟩
      · left
        rw [List.length_append, List.length_singleton, List.replicate_succ', ← h]
      · right
        refine ⟨front, last, j + 1, ?_, hlast⟩
        rw [List.replicate_succ', List.append_assoc, List.cons_append]
    · exact .inr ⟨l, chunk, 0, rfl, hc⟩

/-- Chunks that end in one with bytes are consumed by their bytes. -/
theorem consume_append {last : List β} (hlast : last ≠ []) (front rest : List (List β)) :
    consume (front ++ last :: rest) (front.flatten.length + last.length) = rest := by
  have hpos := List.length_pos_iff.mpr hlast
  induction front with
  | nil =>
    rw [List.nil_append, consume, if_neg (by simp; omega), if_pos (by simp)]
    simp [consume_zero]
  | cons chunk front ih =>
    rw [List.cons_append, consume, if_neg (by omega),
      if_pos (by rw [List.flatten_cons, List.length_append]; omega)]
    rw [show (chunk :: front).flatten.length + last.length - chunk.length =
      front.flatten.length + last.length by rw [List.flatten_cons, List.length_append]; omega]
    exact ih

/-- A long queue loses its chunks up to the last one with bytes among the first 1024. Without such a
chunk it stays as it is. -/
theorem afterDrain_cases {q : List (List β)} (hl : 1024 < q.length) :
    (∃ post, q = List.replicate 1024 [] ++ post ∧ post ≠ [] ∧ afterDrain q = q) ∨
      ∃ front last rest, q = front ++ last :: rest ∧ last ≠ [] ∧ front.length < 1024 ∧
        afterDrain q = rest := by
  have hlen : (q.take 1024).length = 1024 := by rw [List.length_take]; omega
  have hdrop : q.drop 1024 ≠ [] := by
    rw [Ne, List.drop_eq_nil_iff]
    omega
  have hsplit := List.take_append_drop 1024 q
  unfold afterDrain
  rw [if_neg (by omega)]
  rcases exists_trailing (q.take 1024) with h | ⟨front, last, j, h, hlast⟩
  · left
    rw [hlen] at h
    refine ⟨q.drop 1024, by rw [← h, hsplit], hdrop, ?_⟩
    rw [h, List.flatten_replicate_nil, List.length_nil, consume_zero]
  · right
    refine ⟨front, last, List.replicate j [] ++ q.drop 1024, ?_, hlast, ?_, ?_⟩
    · rw [← List.cons_append, ← List.append_assoc, ← h, hsplit]
    · have := congrArg List.length h
      rw [hlen, List.length_append, List.length_cons] at this
      omega
    · have hbytes : (q.take 1024).flatten.length = front.flatten.length + last.length := by
        rw [h]
        simp
      rw [hbytes]
      conv => lhs; arg 1; rw [← hsplit, h, List.append_assoc, List.cons_append]
      exact consume_append hlast front _

theorem Stalls.length {q : List (List β)} (h : Stalls q) : 1024 < q.length := by
  obtain ⟨pre, post, rfl, hpost⟩ := h
  have := List.length_pos_iff.mpr hpost
  simp only [List.length_append, List.length_replicate]
  omega

theorem Stalls.append {q : List (List β)} (h : Stalls q) (front : List (List β)) :
    Stalls (front ++ q) := by
  obtain ⟨pre, post, rfl, hpost⟩ := h
  exact ⟨front ++ pre, post, (List.append_assoc ..).symm, hpost⟩

/-- The empty chunks stay: the chunk with bytes at which a drain ends is before them. -/
theorem Stalls.after {q : List (List β)} (h : Stalls q) : Stalls (afterDrain q) := by
  rcases afterDrain_cases h.length with ⟨post, -, -, he⟩ | ⟨front, last, rest, hq, hlast, hf, he⟩
  · rwa [he]
  · rw [he]
    obtain ⟨pre, post, rfl, hpost⟩ := h
    rcases List.append_eq_append_iff.mp hq with ⟨mid, rfl, hmid⟩ | ⟨mid, rfl, hmid⟩
    · -- The chunk `last` would be one of the empty ones.
      have hlt : mid.length < 1024 := by
        rw [List.length_append] at hf
        omega
      have hat := congrArg (·[mid.length]?) hmid
      simp only [List.getElem?_append, List.length_replicate, hlt, if_true, List.getElem?_replicate,
        Nat.lt_irrefl, if_false, Nat.sub_self, List.getElem?_cons_zero, Option.some.injEq] at hat
      exact absurd hat.symm hlast
    · cases mid with
      | nil =>
        rw [List.nil_append, List.replicate_succ, List.cons_append] at hmid
        exact absurd (List.cons.inj hmid).1 hlast
      | cons chunk mid => exact ⟨mid, post, (List.cons.inj hmid).2, hpost⟩

theorem afterDrain_progress {q : List (List β)} (hne : q ≠ []) (h : ¬ Stalls q) :
    (afterDrain q).length < q.length ∧ ¬ Stalls (afterDrain q) := by
  by_cases hl : q.length ≤ 1024
  · have he : afterDrain q = [] := if_pos hl
    rw [he]
    exact ⟨List.length_pos_iff.mpr hne, fun hs => absurd hs.length (by simp)⟩
  · rcases afterDrain_cases (Nat.lt_of_not_le hl) with
      ⟨post, hq, hpost, -⟩ | ⟨front, last, rest, rfl, -, -, he⟩
    · exact absurd ⟨[], post, hq, hpost⟩ h
    · rw [he]
      refine ⟨by simp; omega, fun hs => h ?_⟩
      rw [← List.singleton_append, ← List.append_assoc]
      exact hs.append _

/-- The stream after `k` drains of which the socket takes every byte. -/
def drainTimes (k : Nat) (tcp : TcpProxyStream β) : TcpProxyStream β :=
  (fun t => (drainAccepted t).2)^[k] tcp

theorem drainTimes_pending (k : Nat) (tcp : TcpProxyStream β) :
    (drainTimes k tcp).pending = afterDrain^[k] tcp.pending := by
  induction k generalizing tcp with
  | zero => rfl
  | succ k ih =>
    have h := ih (drainAccepted tcp).2
    rw [drainAccepted_eq] at h
    rw [drainTimes, Function.iterate_succ_apply, Function.iterate_succ_apply]
    rw [drainAccepted_eq]
    exact h

theorem Stalls.iterate {q : List (List β)} (h : Stalls q) (k : Nat) : Stalls (afterDrain^[k] q) := by
  induction k generalizing q with
  | zero => exact h
  | succ k ih =>
    rw [Function.iterate_succ_apply]
    exact ih h.after

/-- Each drain shortens a queue that does not stall, so as many drains as it has chunks empty it. -/
theorem exists_emptied (k : Nat) {q : List (List β)} (hl : q.length ≤ k) (h : ¬ Stalls q) :
    ∃ k, afterDrain^[k] q = [] := by
  induction k generalizing q with
  | zero => exact ⟨0, List.length_eq_zero_iff.mp (Nat.le_zero.mp hl)⟩
  | succ k ih =>
    by_cases hne : q = []
    · exact ⟨0, hne⟩
    · obtain ⟨hlt, hs⟩ := afterDrain_progress hne h
      obtain ⟨m, hm⟩ := ih (by omega) hs
      exact ⟨m + 1, hm⟩

/-- Against a socket that takes every byte it is offered, a drain returns `false` and shortens the
queue, and finitely many drains empty it, exactly if the queue has no 1024 empty chunks in a row
before another chunk. -/
theorem drainPending_progress (tcp : TcpProxyStream β) (hne : tcp.pending ≠ []) :
    ((drainPending tcp (.ok tcp.offered.length)).1 = false ∧
      (drainPending tcp (.ok tcp.offered.length)).2.pending.length < tcp.pending.length ∧
      ∃ k, (drainTimes k tcp).pending = []) ↔
    ¬ ∃ pre post, tcp.pending = pre ++ (List.replicate 1024 [] ++ post) ∧ post ≠ [] := by
  have he := drainAccepted_eq tcp
  rw [drainAccepted] at he
  simp only [he, true_and, drainTimes_pending]
  constructor
  · rintro ⟨-, k, hk⟩ hs
    have := (Stalls.iterate hs k).length
    rw [hk] at this
    exact absurd this (by simp)
  · intro hs
    exact ⟨(afterDrain_progress hne hs).1, exists_emptied _ (Nat.le_refl _) hs⟩

/-- A stream with the given queue. -/
def queued (pending : List (List UInt8)) : TcpProxyStream UInt8 :=
  { writer := ⟨0, []⟩, pending, packetsSinceContinue := 0, queuedForDrain := false,
    cancel := ⟨0, 0⟩ }

theorem drainPending_progress_short :
    (queued [[1], [], [2]]).pending ≠ [] ∧
      (drainPending (queued [[1], [], [2]]) (.ok 2)).2.pending.length < 3 := by
  have h := drainPending_progress (queued [[1], [], [2]]) (by decide)
  refine ⟨by decide, (h.mpr ?_).2.1⟩
  rintro ⟨pre, post, hq, -⟩
  have := congrArg List.length hq
  simp only [queued, List.length_append, List.length_replicate, List.length_cons,
    List.length_nil] at this
  omega

/-- Empty DATA packets for a blocked socket queue up as empty chunks. -/
theorem runQueue_empty (k : Nat) (tcp : TcpProxyStream β) (hne : tcp.pending ≠ [])
    (calls : List (QueueCall β)) :
    runQueue tcp (List.replicate k (.write [] .wouldBlock .wouldBlock) ++ calls) =
      runQueue { tcp with pending := tcp.pending ++ List.replicate k [] } calls := by
  induction k generalizing tcp with
  | zero => simp
  | succ k ih =>
    have hcall : QueueCall.exec tcp (.write [] .wouldBlock .wouldBlock) =
        (false, { tcp with pending := tcp.pending ++ [[]] }) := by
      have hdrain : drainFirst tcp .wouldBlock = (false, tcp) := by
        rw [drainFirst, if_neg (by simpa using hne)]
        unfold drainPending
        split <;> rfl
      simp [QueueCall.exec, tcpTryWrite, hdrain, hne]
    rw [List.replicate_succ, List.cons_append, runQueue, hcall]
    dsimp only
    rw [ih _ (by simp), List.replicate_succ, List.append_assoc, List.singleton_append]

theorem flatten_take_replicate (m k : Nat) :
    ((List.replicate k ([] : List β)).take m).flatten = [] := by
  rw [List.take_replicate, List.flatten_replicate_nil]

theorem afterDrain_replicate {k : Nat} (hk : 1024 < k) :
    afterDrain (List.replicate k ([] : List β)) = List.replicate k [] := by
  rw [afterDrain, if_neg (by rw [List.length_replicate]; omega), flatten_take_replicate,
    List.length_nil, consume_zero]

/-- The socket takes the byte before `k` empty chunks, and these stay. -/
theorem drain_byte {k : Nat} (hk : 1024 ≤ k) (b : UInt8) :
    drainPending (queued ([b] :: List.replicate k [])) (.ok 1) =
      (false, { queued (List.replicate k []) with writer := ⟨0, [b]⟩ }) := by
  have htake : (([b] :: List.replicate k []).take 1024).flatten = [b] := by
    rw [List.take_succ_cons, List.flatten_cons, flatten_take_replicate, List.append_nil]
  have hafter : afterDrain ([b] :: List.replicate k []) = List.replicate k [] := by
    rw [afterDrain, if_neg (by rw [List.length_cons, List.length_replicate]; omega), htake]
    exact consume_append (List.cons_ne_nil _ _) [] _
  have h := drainAccepted_eq (queued ([b] :: List.replicate k []))
  simpa only [drainAccepted, TcpProxyStream.offered, queued, htake, hafter, List.nil_append,
    List.length_singleton] using h

/-- A byte for a blocked socket, `k` empty DATA packets, and the socket takes the byte. -/
def stallingCalls (k : Nat) : List (QueueCall UInt8) :=
  .write [7] .wouldBlock .wouldBlock ::
    (List.replicate k (.write [] .wouldBlock .wouldBlock) ++ [.drain (.ok 1)])

/-- The stream after `stallingCalls`. -/
def stalled (k : Nat) : TcpProxyStream UInt8 :=
  { queued (List.replicate k []) with writer := ⟨0, [7]⟩ }

theorem runQueue_stallingCalls {k : Nat} (hk : 1024 ≤ k) :
    runQueue (queued []) (stallingCalls k) = (false, stalled k) := by
  have hblocked : QueueCall.exec (queued []) (.write [7] .wouldBlock .wouldBlock) =
      (false, queued [[7]]) := rfl
  have hdrained : QueueCall.exec (queued ([7] :: List.replicate k [])) (.drain (.ok 1)) =
      (false, stalled k) := drain_byte hk 7
  rw [stallingCalls, runQueue, hblocked]
  refine (runQueue_empty k (queued [[7]]) (List.cons_ne_nil _ _) _).trans ?_
  change runQueue (queued ([7] :: List.replicate k [])) [.drain (.ok 1)] = _
  rw [runQueue, hdrained]
  rfl

theorem stalled_pending (k : Nat) : (stalled k).pending = List.replicate k [] := rfl

theorem stalls_replicate (k : Nat) : Stalls (List.replicate (1024 + (k + 1)) ([] : List β)) :=
  ⟨[], List.replicate (k + 1) [], by rw [List.replicate_append_replicate, List.nil_append],
    List.cons_ne_nil _ _⟩

/-- A client can build a queue that stalls: no drain shortens it, though the socket takes all that
it is offered. -/
theorem drainPending_stalls :
    runQueue (queued []) (stallingCalls 1025) = (false, stalled 1025) ∧
      (stalled 1025).pending ≠ [] ∧
      ¬ (drainPending (stalled 1025) (.ok (stalled 1025).offered.length)).2.pending.length <
          (stalled 1025).pending.length ∧
      ∀ k, (drainTimes k (stalled 1025)).pending ≠ [] := by
  refine ⟨runQueue_stallingCalls (by omega), ?_, ?_, fun k hk => ?_⟩
  · rw [stalled_pending, List.replicate_succ]
    exact List.cons_ne_nil _ _
  · rw [← drainAccepted, drainAccepted_eq]
    dsimp only
    rw [stalled_pending, afterDrain_replicate (by omega)]
    exact Nat.lt_irrefl _
  · have hs : Stalls (stalled 1025).pending := stalls_replicate 0
    have := (hs.iterate k).length
    rw [← drainTimes_pending, hk] at this
    exact absurd this (by simp)

end ShrimpWisp
