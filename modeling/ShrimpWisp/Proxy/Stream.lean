import Mathlib.Data.List.AList
import ShrimpWisp.Rust.Net
import ShrimpWisp.Protocol.Types

/-!
# Streams and the stream table (`src/proxy/stream.rs`)

* **Cancel flags** (`CancelFlag`, `Flags`). A flag is a shared cell (`Rc<Cell<bool>>`): its
  identity, and in `Flags` the cells that are set. A flag also records the accepted CONNECT for
  which it was made (`owner`); this is history, read by no function.
* **Streams** (`ProxyStream`) over a type `β` of payload bytes: the code never looks into a
  payload. A backend socket's write half holds the bytes that the socket has accepted.
* **The table** (`StreamTable`): a vector for small ids and a map for the others, with a counter of
  the entries of both. The counter's meaning, its bound and the split of the ids are fields of the
  table.
* `get?_insert`, `get?_remove`, `get?_set`: the table as a map.
-/

namespace ShrimpWisp

/-- The number of an accepted CONNECT, in the order of acceptance: one incarnation of a stream. -/
abbrev Inc := Nat

/-- A cancellation flag: the identity of the shared cell. -/
structure CancelFlag where
  id : Nat
  owner : Inc
  deriving DecidableEq, Repr

/-- The flags made so far, and those that are set. -/
structure Flags where
  next : Nat := 0
  cancelled : List CancelFlag := []

namespace Flags

/-- `CancelFlag::new`. -/
def new (F : Flags) (owner : Inc) : CancelFlag × Flags :=
  (⟨F.next, owner⟩, { F with next := F.next + 1 })

/-- `CancelFlag::cancel`. All clones see it. -/
def cancel (F : Flags) (f : CancelFlag) : Flags := { F with cancelled := f :: F.cancelled }

/-- `CancelFlag::is_cancelled`. -/
def isCancelled (F : Flags) (f : CancelFlag) : Bool := F.cancelled.contains f

@[simp] theorem isCancelled_new (F : Flags) (owner : Inc) (f : CancelFlag) :
    (F.new owner).2.isCancelled f = F.isCancelled f := rfl

theorem isCancelled_cancel (F : Flags) (f g : CancelFlag) :
    (F.cancel f).isCancelled g = (g == f || F.isCancelled g) := by
  simp only [isCancelled, cancel, List.contains_cons]

end Flags

variable {β : Type}

/-- The write half of a backend TCP socket: which socket, and the bytes it has accepted. -/
structure OwnedWriteHalf (β : Type) where
  sock : Inc
  sent : List β
  deriving DecidableEq, Repr

/-- TCP proxy stream state. -/
structure TcpProxyStream (β : Type) where
  writer : OwnedWriteHalf β
  /-- Chunks that could not be written immediately, the oldest first. -/
  pending : List (List β)
  /-- Packets received from the client since the last CONTINUE. -/
  packetsSinceContinue : Nat
  /-- The stream is tracked in `streams_with_pending`. -/
  queuedForDrain : Bool
  cancel : CancelFlag
  deriving DecidableEq, Repr

/-- UDP proxy stream state. -/
structure UdpProxyStream where
  socket : Inc
  destAddr : SocketAddr
  cancel : CancelFlag
  deriving DecidableEq, Repr

/-- A stream that is still connecting to the backend. -/
structure ConnectingStream (β : Type) where
  /-- Early DATA packets, queued before the connection completes. -/
  earlyData : List (List β)
  cancel : CancelFlag
  deriving DecidableEq, Repr

/-- Per-stream proxy state. -/
inductive ProxyStream (β : Type) where
  | tcp (s : TcpProxyStream β)
  | udp (s : UdpProxyStream)
  | connecting (s : ConnectingStream β)
  deriving DecidableEq, Repr

/-- The cancel flag of a stream. -/
def ProxyStream.cancel : ProxyStream β → CancelFlag
  | .tcp s => s.cancel
  | .udp s => s.cancel
  | .connecting s => s.cancel

namespace TcpProxyStream

def withPending (writer : OwnedWriteHalf β) (pending : List (List β)) (cancel : CancelFlag) :
    TcpProxyStream β where
  writer := writer
  pending := pending
  packetsSinceContinue := 0
  queuedForDrain := !pending.isEmpty
  cancel := cancel

/-- Count a DATA packet; `true` if a CONTINUE should be sent. -/
def recordPacket (s : TcpProxyStream β) (threshold : Nat) : Bool × TcpProxyStream β :=
  (threshold ≤ s.packetsSinceContinue + 1,
    { s with packetsSinceContinue := s.packetsSinceContinue + 1 })

def resetCounter (s : TcpProxyStream β) : TcpProxyStream β := { s with packetsSinceContinue := 0 }

end TcpProxyStream

namespace ConnectingStream

def new (cancel : CancelFlag) : ConnectingStream β := ⟨[], cancel⟩

def queueEarlyData (s : ConnectingStream β) (data : List β) : ConnectingStream β :=
  { s with earlyData := s.earlyData ++ [data] }

end ConnectingStream

/-! ## The table -/

/-- Ids below this are an index of the vector. -/
def directIndexLimit : Nat := 8192

/-- The occupied slots of a vector. -/
def occupied (l : List (Option (ProxyStream β))) : Nat := l.countP Option.isSome

/-- The stream table (module doc). -/
structure StreamTable (β : Type) where
  direct : List (Option (ProxyStream β))
  sparse : AList fun _ : StreamId => ProxyStream β
  activeCount : Nat
  maxStreams : Nat
  direct_le : direct.length ≤ directIndexLimit
  sparse_ge : ∀ id ∈ sparse, directIndexLimit ≤ id.toNat
  /-- The counter is the number of active entries across both stores. -/
  count_eq : activeCount = occupied direct + sparse.entries.length
  count_le : maxStreams ≠ 0 → activeCount ≤ maxStreams

theorem occupied_set {l : List (Option (ProxyStream β))} {i : Nat} (hi : i < l.length)
    (x : Option (ProxyStream β)) :
    occupied (l.set i x) + (if (l[i]).isSome then 1 else 0) =
      occupied l + (if x.isSome then 1 else 0) := by
  induction l generalizing i with
  | nil => simp at hi
  | cons y l ih =>
    cases i with
    | zero => simp [occupied, List.countP_cons]; omega
    | succ i =>
      have := ih (by simpa using hi) (i := i)
      simp only [occupied, List.set_cons_succ, List.countP_cons, List.getElem_cons_succ] at this ⊢
      omega

theorem lt_length_of_join_isSome {l : List (Option (ProxyStream β))} {i : Nat}
    (h : (l[i]?).join.isSome) : i < l.length := by
  by_contra hge
  rw [List.getElem?_eq_none (Nat.le_of_not_lt hge)] at h
  exact absurd h (by simp)

theorem length_erase_add_one {m : AList fun _ : StreamId => ProxyStream β} {id : StreamId}
    (h : id ∈ m) : (m.erase id).entries.length + 1 = m.entries.length := by
  have hk : (m.erase id).keys = m.keys.erase id := AList.keys_erase id m
  have hl : (m.erase id).keys.length = m.keys.length - 1 := by
    rw [hk, List.length_erase_of_mem (AList.mem_keys.mp h)]
  have hpos : 0 < m.keys.length := List.length_pos_of_mem (AList.mem_keys.mp h)
  simp only [AList.keys, List.keys, List.length_map] at hl hpos
  omega

namespace StreamTable

def new (maxStreams : Nat) : StreamTable β where
  direct := []
  sparse := ∅
  activeCount := 0
  maxStreams := maxStreams
  direct_le := Nat.zero_le _
  sparse_ge id h := absurd h (AList.notMem_empty id)
  count_eq := rfl
  count_le _ := Nat.zero_le _

/-- `get_mut`, for reading. -/
def get? (t : StreamTable β) (streamId : StreamId) : Option (ProxyStream β) :=
  if streamId.toNat < directIndexLimit then (t.direct[streamId.toNat]?).join
  else t.sparse.lookup streamId

def contains (t : StreamTable β) (streamId : StreamId) : Bool := (t.get? streamId).isSome

/-- The number of active streams. -/
def len (t : StreamTable β) : Nat := t.activeCount

/-- `Vec::resize_with` up to the index `i`. -/
def resize (l : List (Option (ProxyStream β))) (i : Nat) : List (Option (ProxyStream β)) :=
  l ++ List.replicate (i + 1 - l.length) none

theorem occupied_resize (l : List (Option (ProxyStream β))) (i : Nat) :
    occupied (resize l i) = occupied l := by
  simp [occupied, resize, List.countP_append, List.countP_replicate]

theorem length_resize (l : List (Option (ProxyStream β))) (i : Nat) :
    (resize l i).length = max l.length (i + 1) := by
  simp [resize]; omega

/-- The limit is reached. -/
def full (t : StreamTable β) : Bool := 0 < t.maxStreams && t.maxStreams ≤ t.activeCount

/-- Insert a stream. `false` if the limit is reached or the id is taken. -/
def insert (t : StreamTable β) (streamId : StreamId) (stream : ProxyStream β) :
    Bool × StreamTable β :=
  if hf : t.full then (false, t)
  else if hid : streamId.toNat < directIndexLimit then
    let d := resize t.direct streamId.toNat
    if hs : (d[streamId.toNat]?).join.isSome then
      (false, { t with
        direct := d
        direct_le := by rw [length_resize]; have := t.direct_le; omega
        count_eq := by rw [occupied_resize]; exact t.count_eq })
    else
      (true, { t with
        direct := d.set streamId.toNat (some stream)
        activeCount := t.activeCount + 1
        direct_le := by
          rw [List.length_set, length_resize]; have := t.direct_le; omega
        count_eq := by
          have hlt : streamId.toNat < d.length := by rw [length_resize]; omega
          have h := occupied_set hlt (some stream)
          rw [List.getElem?_eq_getElem hlt] at hs
          rw [occupied_resize] at h
          have e : d[streamId.toNat] = none := by simpa using hs
          simp only [e, Option.isSome_none, Option.isSome_some, if_true, Bool.false_eq_true,
            if_false] at h
          rw [t.count_eq]; omega
        count_le := fun hm => by
          simp only [full, Bool.and_eq_true, decide_eq_true_eq, not_and, not_le] at hf
          exact hf (Nat.pos_of_ne_zero hm) })
  else if hs : (t.sparse.lookup streamId).isSome then (false, t)
  else
    (true, { t with
      sparse := t.sparse.insert streamId stream
      activeCount := t.activeCount + 1
      sparse_ge := fun id h => by
        rcases (AList.mem_insert _).mp h with rfl | h
        · exact Nat.le_of_not_lt hid
        · exact t.sparse_ge id h
      count_eq := by
        have hn : streamId ∉ t.sparse := by
          rw [← AList.lookup_isSome]; exact hs
        rw [AList.entries_insert_of_notMem hn, t.count_eq]
        simp only [List.length_cons]; omega
      count_le := fun hm => by
        simp only [full, Bool.and_eq_true, decide_eq_true_eq, not_and, not_le] at hf
        exact hf (Nat.pos_of_ne_zero hm) })

/-- Take the entry of `streamId` out of the two stores. -/
def takeEntry (t : StreamTable β) (streamId : StreamId) : StreamTable β :=
  if hid : streamId.toNat < directIndexLimit then
    if hs : (t.direct[streamId.toNat]?).join.isSome then
      { t with
        direct := t.direct.set streamId.toNat none
        activeCount := t.activeCount - 1
        direct_le := by rw [List.length_set]; exact t.direct_le
        count_eq := by
          have hlt := lt_length_of_join_isSome hs
          have h := occupied_set hlt none
          rw [List.getElem?_eq_getElem hlt] at hs
          have e : (t.direct[streamId.toNat]).isSome = true := by simpa using hs
          simp only [e, if_true, Option.isSome_none, Bool.false_eq_true, if_false] at h
          rw [t.count_eq]; omega
        count_le := fun hm => Nat.le_trans (Nat.sub_le _ _) (t.count_le hm) }
    else t
  else if hs : streamId ∈ t.sparse then
    { t with
      sparse := t.sparse.erase streamId
      activeCount := t.activeCount - 1
      sparse_ge := fun id h => t.sparse_ge id (AList.mem_erase.mp h).2
      count_eq := by
        have hp := length_erase_add_one hs
        rw [t.count_eq, ← hp]; omega
      count_le := fun hm => Nat.le_trans (Nat.sub_le _ _) (t.count_le hm) }
  else t

/-- Write through the reference that `get_mut` returns. Without an entry nothing changes. -/
def set (t : StreamTable β) (streamId : StreamId) (stream : ProxyStream β) : StreamTable β :=
  if hid : streamId.toNat < directIndexLimit then
    if hs : (t.direct[streamId.toNat]?).join.isSome then
      { t with
        direct := t.direct.set streamId.toNat (some stream)
        direct_le := by rw [List.length_set]; exact t.direct_le
        count_eq := by
          have hlt := lt_length_of_join_isSome hs
          have h := occupied_set hlt (some stream)
          rw [List.getElem?_eq_getElem hlt] at hs
          have e : (t.direct[streamId.toNat]).isSome = true := by simpa using hs
          simp only [e, if_true, Option.isSome_some] at h
          rw [t.count_eq]; omega }
    else t
  else if hs : streamId ∈ t.sparse then
    { t with
      sparse := t.sparse.insert streamId stream
      sparse_ge := fun id h => by
        rcases (AList.mem_insert _).mp h with rfl | h
        · exact Nat.le_of_not_lt hid
        · exact t.sparse_ge id h
      count_eq := by
        have hp := length_erase_add_one hs
        rw [AList.entries_insert, t.count_eq, ← hp]; rfl }
  else t

/-- Remove a stream, set its cancel flag, and return it. -/
def remove (t : StreamTable β) (F : Flags) (streamId : StreamId) :
    Option (ProxyStream β) × StreamTable β × Flags :=
  match t.get? streamId with
  | some stream => (some stream, t.takeEntry streamId, F.cancel stream.cancel)
  | none => (none, t, F)

/-! ## The table as a map -/

@[simp] theorem get?_new (maxStreams : Nat) (s : StreamId) :
    (new maxStreams : StreamTable β).get? s = none := by
  unfold get? new
  split
  · simp
  · exact AList.lookup_empty s

theorem insert_counts {t : StreamTable β} {s : StreamId} {x : ProxyStream β}
    (h : (t.insert s x).1 = true) :
    (t.insert s x).2.maxStreams = t.maxStreams ∧
      (t.insert s x).2.activeCount = t.activeCount + 1 := by
  unfold insert at h ⊢
  split at h
  · cases h
  · rename_i hf
    rw [dif_neg hf]
    split at h
    · rename_i hid
      rw [dif_pos hid]
      dsimp only at h ⊢
      split at h
      · cases h
      · rename_i hs; rw [dif_neg hs]; exact ⟨rfl, rfl⟩
    · rename_i hid
      rw [dif_neg hid]
      split at h
      · cases h
      · rename_i hs; rw [dif_neg hs]; exact ⟨rfl, rfl⟩

theorem getElem?_resize_join (l : List (Option (ProxyStream β))) (i j : Nat) :
    ((resize l i)[j]?).join = (l[j]?).join := by
  unfold resize
  rcases Nat.lt_or_ge j l.length with h | h
  · rw [List.getElem?_append_left h]
  · rw [List.getElem?_append_right h, List.getElem?_eq_none h, List.getElem?_replicate]
    split <;> rfl

/-- `insert` succeeds exactly if there is room and the id is free. -/
theorem insert_fst (t : StreamTable β) (s : StreamId) (x : ProxyStream β) :
    (t.insert s x).1 = (!t.full && !t.contains s) := by
  unfold insert contains get?
  by_cases hf : t.full
  · simp [hf]
  · rw [dif_neg hf]
    simp only [hf, Bool.not_false, Bool.true_and]
    by_cases hid : s.toNat < directIndexLimit
    · rw [dif_pos hid, if_pos hid]
      simp only [getElem?_resize_join]
      split <;> simp_all
    · rw [dif_neg hid, if_neg hid]
      split <;> simp_all

theorem get?_insert {t : StreamTable β} {s : StreamId} {x : ProxyStream β}
    (h : (t.insert s x).1 = true) (s' : StreamId) :
    (t.insert s x).2.get? s' = if s' = s then some x else t.get? s' := by
  unfold insert at h ⊢
  split at h
  · cases h
  · rename_i hf
    rw [dif_neg hf]
    split at h
    · rename_i hid
      rw [dif_pos hid]
      dsimp only at h ⊢
      split at h
      · cases h
      · rename_i hs
        rw [dif_neg hs]
        have hlt : s.toNat < (resize t.direct s.toNat).length := by rw [length_resize]; omega
        unfold get?
        by_cases he : s' = s
        · subst he; simp [hid, hlt]
        · have hne : s.toNat ≠ s'.toNat := fun e => he (UInt32.toNat_inj.mp e.symm)
          simp only [he, if_false, List.getElem?_set_ne hne, getElem?_resize_join]
    · rename_i hid
      rw [dif_neg hid]
      split at h
      · cases h
      · rename_i hs
        rw [dif_neg hs]
        unfold get?
        by_cases he : s' = s
        · subst he; simp [hid]
        · simp only [he, if_false, AList.lookup_insert_ne he]

theorem insert_counts_false {t : StreamTable β} {s : StreamId} {x : ProxyStream β}
    (h : (t.insert s x).1 = false) :
    (t.insert s x).2.maxStreams = t.maxStreams ∧
      (t.insert s x).2.activeCount = t.activeCount := by
  unfold insert at h ⊢
  split
  · exact ⟨rfl, rfl⟩
  · rename_i hf
    rw [dif_neg hf] at h
    split
    · rename_i hid
      rw [dif_pos hid] at h
      dsimp only at h ⊢
      split at h
      · rename_i hs; rw [dif_pos hs]; exact ⟨rfl, rfl⟩
      · cases h
    · rename_i hid
      rw [dif_neg hid] at h
      split at h
      · rename_i hs; rw [dif_pos hs]; exact ⟨rfl, rfl⟩
      · cases h

/-- A refused `insert` keeps every entry. -/
theorem get?_insert_false {t : StreamTable β} {s : StreamId} {x : ProxyStream β}
    (h : (t.insert s x).1 = false) (s' : StreamId) : (t.insert s x).2.get? s' = t.get? s' := by
  unfold insert at h ⊢
  split
  · rfl
  · rename_i hf
    rw [dif_neg hf] at h
    split
    · rename_i hid
      rw [dif_pos hid] at h
      dsimp only at h ⊢
      split at h
      · rename_i hs
        rw [dif_pos hs]
        unfold get?
        simp only [getElem?_resize_join]
      · cases h
    · rename_i hid
      rw [dif_neg hid] at h
      split at h
      · rename_i hs; rw [dif_pos hs]
      · cases h

theorem get?_takeEntry (t : StreamTable β) (s s' : StreamId) :
    (t.takeEntry s).get? s' = if s' = s then none else t.get? s' := by
  unfold takeEntry
  by_cases hid : s.toNat < directIndexLimit
  · rw [dif_pos hid]
    split
    · rename_i hs
      have hlt := lt_length_of_join_isSome hs
      unfold get?
      by_cases he : s' = s
      · subst he; simp [hid, hlt]
      · have hne : s.toNat ≠ s'.toNat := fun e => he (UInt32.toNat_inj.mp e.symm)
        simp only [he, if_false, List.getElem?_set_ne hne]
    · rename_i hs
      by_cases he : s' = s
      · subst he; simp only [get?, hid, if_true]; simpa using hs
      · simp [he]
  · rw [dif_neg hid]
    split
    · unfold get?
      by_cases he : s' = s
      · subst he; simp [hid]
      · simp only [he, if_false, AList.lookup_erase_ne he]
    · rename_i hs
      by_cases he : s' = s
      · subst he; simp only [get?, hid, if_false, if_true]; exact AList.lookup_eq_none.mpr hs
      · simp [he]

theorem get?_remove (t : StreamTable β) (F : Flags) (s s' : StreamId) :
    (t.remove F s).2.1.get? s' = if s' = s then none else t.get? s' := by
  unfold remove
  split
  · exact get?_takeEntry t s s'
  · rename_i h
    by_cases he : s' = s
    · subst he; simp [h]
    · simp [he]

theorem get?_set {t : StreamTable β} {s : StreamId} {x y : ProxyStream β}
    (h : t.get? s = some y) (s' : StreamId) :
    (t.set s x).get? s' = if s' = s then some x else t.get? s' := by
  unfold set
  by_cases hid : s.toNat < directIndexLimit
  · simp only [get?, hid, if_true] at h
    have hs : (t.direct[s.toNat]?).join.isSome := by rw [h]; rfl
    have hlt := lt_length_of_join_isSome hs
    rw [dif_pos hid, dif_pos hs]
    unfold get?
    by_cases he : s' = s
    · subst he; simp [hid, hlt]
    · have hne : s.toNat ≠ s'.toNat := fun e => he (UInt32.toNat_inj.mp e.symm)
      simp only [he, if_false, List.getElem?_set_ne hne]
  · simp only [get?, hid, if_false] at h
    have hs : s ∈ t.sparse := by rw [← AList.lookup_isSome, h]; rfl
    rw [dif_neg hid, dif_pos hs]
    unfold get?
    by_cases he : s' = s
    · subst he; simp [hid]
    · simp only [he, if_false, AList.lookup_insert_ne he]

theorem takeEntry_counts {t : StreamTable β} {s : StreamId} {x : ProxyStream β}
    (h : t.get? s = some x) :
    (t.takeEntry s).maxStreams = t.maxStreams ∧
      (t.takeEntry s).activeCount + 1 = t.activeCount := by
  have hpos := t.count_eq
  unfold takeEntry
  by_cases hid : s.toNat < directIndexLimit
  · simp only [get?, hid, if_true] at h
    have hs : (t.direct[s.toNat]?).join.isSome := by rw [h]; rfl
    have hlt := lt_length_of_join_isSome hs
    rw [dif_pos hid, dif_pos hs]
    have hocc := occupied_set hlt none
    rw [List.getElem?_eq_getElem hlt] at hs
    have e : (t.direct[s.toNat]).isSome = true := by simpa using hs
    simp only [e, if_true, Option.isSome_none, Bool.false_eq_true, if_false] at hocc
    exact ⟨rfl, by show t.activeCount - 1 + 1 = _; omega⟩
  · simp only [get?, hid, if_false] at h
    have hs : s ∈ t.sparse := by rw [← AList.lookup_isSome, h]; rfl
    rw [dif_neg hid, dif_pos hs]
    have hlen := length_erase_add_one hs
    exact ⟨rfl, by show t.activeCount - 1 + 1 = _; omega⟩

theorem set_counts (t : StreamTable β) (s : StreamId) (x : ProxyStream β) :
    (t.set s x).maxStreams = t.maxStreams ∧ (t.set s x).activeCount = t.activeCount := by
  unfold set
  split
  · split <;> exact ⟨rfl, rfl⟩
  · split <;> exact ⟨rfl, rfl⟩

theorem full_takeEntry {t : StreamTable β} {s : StreamId} {x : ProxyStream β}
    (h : t.get? s = some x) : (t.takeEntry s).full = false := by
  obtain ⟨hm, hc⟩ := takeEntry_counts h
  have hle := t.count_le
  simp only [full, hm, Bool.and_eq_false_iff, decide_eq_false_iff_not]
  omega

/-! ## The limit -/

@[simp] theorem maxStreams_set (t : StreamTable β) (s : StreamId) (x : ProxyStream β) :
    (t.set s x).maxStreams = t.maxStreams := (set_counts t s x).1

@[simp] theorem maxStreams_insert (t : StreamTable β) (s : StreamId) (x : ProxyStream β) :
    (t.insert s x).2.maxStreams = t.maxStreams := by
  cases h : (t.insert s x).1 with
  | false => exact (insert_counts_false h).1
  | true => exact (insert_counts h).1

@[simp] theorem maxStreams_takeEntry (t : StreamTable β) (s : StreamId) :
    (t.takeEntry s).maxStreams = t.maxStreams := by
  unfold takeEntry
  split
  · split <;> rfl
  · split <;> rfl

/-- A table has no more entries than its counter says. -/
theorem length_le_len {t : StreamTable β} {ids : List StreamId} (hnd : ids.Nodup)
    (h : ∀ s ∈ ids, t.get? s ≠ none) : ids.length ≤ t.len := by
  induction ids generalizing t with
  | nil => exact Nat.zero_le _
  | cons s ids ih =>
    obtain ⟨hs, hnd⟩ := List.nodup_cons.mp hnd
    obtain ⟨x, hx⟩ := Option.ne_none_iff_exists'.mp (h s List.mem_cons_self)
    have hrest : ids.length ≤ (t.takeEntry s).len := by
      refine ih hnd fun s' hs' => ?_
      have hne : s' ≠ s := by
        rintro rfl
        exact hs hs'
      rw [get?_takeEntry, if_neg hne]
      exact h s' (List.mem_cons_of_mem _ hs')
    have hcount := (takeEntry_counts hx).2
    simp only [len, List.length_cons] at hrest ⊢
    omega

/-- An entry can be put back where one was taken out. -/
theorem insert_takeEntry {t : StreamTable β} {s : StreamId} {x : ProxyStream β}
    (h : t.get? s = some x) (y : ProxyStream β) : ((t.takeEntry s).insert s y).1 = true := by
  rw [insert_fst, full_takeEntry h, contains, get?_takeEntry]
  simp

end StreamTable

end ShrimpWisp
