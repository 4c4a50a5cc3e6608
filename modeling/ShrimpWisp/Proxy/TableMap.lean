import ShrimpWisp.Lib.BoundedMap
import ShrimpWisp.Lib.Sys
import ShrimpWisp.Proxy.Stream

/-!
# The stream table is a bounded map

The table and the cancel flags as an object (`tableObj`), against a plain map with a limit and the
set of the flags that are set (`mapObj`). `Represents` relates their states: the same entries, the
counter the size of the map, the same flags set. Every operation keeps it and returns the same
(`represents_exec`), so every sequence of operations does (`streamTable_refines_map`).
-/

namespace ShrimpWisp

variable {β : Type}

/-- An operation on the table. What the caller writes through the reference that `get_mut` returns
is an argument of `getMut`. -/
inductive TableOp (β : Type) where
  | insert (streamId : StreamId) (stream : ProxyStream β)
  | getMut (streamId : StreamId) (write : ProxyStream β → ProxyStream β)
  | remove (streamId : StreamId)
  | contains (streamId : StreamId)
  | len

/-- What an operation returns; for `get_mut` the stream behind the reference. -/
inductive TableResult (β : Type) where
  | flag (b : Bool)
  | stream (x : Option (ProxyStream β))
  | count (n : Nat)

/-- The table of the code, with the cancel flags. -/
def tableObj : Obj (StreamTable β × Flags) (TableOp β) (TableResult β) where
  exec
  | (t, F), .insert s x =>
    let (ok, t) := t.insert s x
    (.flag ok, t, F)
  | (t, F), .getMut s write =>
    match t.get? s with
    | some x => (.stream (some x), t.set s (write x), F)
    | none => (.stream none, t, F)
  | (t, F), .remove s =>
    let (x, t, F) := t.remove F s
    (.stream x, t, F)
  | (t, F), .contains s => (.flag (t.contains s), t, F)
  | (t, F), .len => (.count t.len, t, F)

/-- A plain map with a limit, and the flags that are set. -/
structure PlainMap (β : Type) where
  map : BoundedMap StreamId (ProxyStream β)
  cancelled : Set CancelFlag

def mapObj : Obj (PlainMap β) (TableOp β) (TableResult β) where
  exec
  | m, .insert s x =>
    let (ok, map) := m.map.insert s x
    (.flag ok, { m with map })
  | m, .getMut s write => (.stream (m.map.lookup s), { m with map := m.map.modify s write })
  | m, .remove s =>
    match m.map.lookup s with
    | some x => (.stream (some x), ⟨m.map.erase s, insert x.cancel m.cancelled⟩)
    | none => (.stream none, m)
  | m, .contains s => (.flag (m.map.lookup s).isSome, m)
  | m, .len => (.count m.map.size, m)

/-- The relation of the module doc, for tables with the limit `L`. -/
structure Represents (L : Nat) (t : StreamTable β × Flags) (m : PlainMap β) : Prop where
  get? : ∀ s, t.1.get? s = m.map.lookup s
  len : t.1.len = m.map.size
  maxStreams : t.1.maxStreams = L
  limit : m.map.limit = L
  cancelled : ∀ f, t.2.isCancelled f = true ↔ f ∈ m.cancelled

theorem represents_new (maxStreams : Nat) (F : Flags) :
    Represents (β := β) maxStreams (.new maxStreams, F)
      ⟨.empty maxStreams, {f | F.isCancelled f = true}⟩ where
  get? s := by
    rw [StreamTable.get?_new]
    rfl
  len := rfl
  maxStreams := rfl
  limit := rfl
  cancelled _ := Iff.rfl

section

variable {L : Nat} {t : StreamTable β} {F : Flags} {m : PlainMap β}

/-- The code's test for room and for a free id is the map's. -/
theorem Represents.insert_iff (h : Represents L (t, F) m) (s : StreamId) (x : ProxyStream β) :
    (t.insert s x).1 = true ↔ m.map.lookup s = none ∧ m.map.HasRoom := by
  have hget := h.get? s
  have hlen := h.len
  have hmax := h.maxStreams
  simp only [StreamTable.len] at hget hlen hmax
  rw [StreamTable.insert_fst, StreamTable.contains, StreamTable.full, hget, hlen, hmax,
    BoundedMap.HasRoom, h.limit]
  simp only [Bool.and_eq_true, Bool.not_eq_true', Bool.and_eq_false_iff, decide_eq_false_iff_not,
    Option.isSome_eq_false_iff, Option.isNone_iff_eq_none]
  constructor
  · rintro ⟨hroom, hn⟩
    exact ⟨hn, by omega⟩
  · rintro ⟨hn, hroom⟩
    exact ⟨by omega, hn⟩

theorem Represents.insert (h : Represents L (t, F) m) (s : StreamId) (x : ProxyStream β) :
    (t.insert s x).1 = (m.map.insert s x).1 ∧
      Represents L ((t.insert s x).2, F) { m with map := (m.map.insert s x).2 } := by
  have hiff := h.insert_iff s x
  by_cases hroom : m.map.lookup s = none ∧ m.map.HasRoom
  · have hok := hiff.mpr hroom
    obtain ⟨hmax, hcount⟩ := StreamTable.insert_counts hok
    have hlen := h.len
    have hsize := m.map.size_insert s (x := x) hroom
    have hmap : (m.map.insert s x).1 = true ∧ (m.map.insert s x).2.limit = m.map.limit := by
      rw [BoundedMap.insert, dif_pos hroom]
      exact ⟨rfl, rfl⟩
    refine ⟨by rw [hok, hmap.1], ?_, ?_, hmax.trans h.maxStreams, hmap.2.trans h.limit, h.cancelled⟩
    · intro s'
      rw [StreamTable.get?_insert hok, m.map.lookup_insert s hroom, h.get? s']
    · simp only [StreamTable.len] at hlen ⊢
      omega
  · have hno : (t.insert s x).1 = false := Bool.eq_false_iff.mpr fun e => hroom (hiff.mp e)
    obtain ⟨hmax, hcount⟩ := StreamTable.insert_counts_false hno
    have hmap : m.map.insert s x = (false, m.map) := by rw [BoundedMap.insert, dif_neg hroom]
    rw [hmap]
    refine ⟨hno, ?_, ?_, hmax.trans h.maxStreams, h.limit, h.cancelled⟩
    · intro s'
      rw [StreamTable.get?_insert_false hno]
      exact h.get? s'
    · rw [StreamTable.len, hcount]
      exact h.len

theorem Represents.set (h : Represents L (t, F) m) {s : StreamId} {x : ProxyStream β}
    (hx : t.get? s = some x) (write : ProxyStream β → ProxyStream β) :
    Represents L (t.set s (write x), F) { m with map := m.map.modify s write } := by
  have hm : m.map.lookup s = some x := (h.get? s).symm.trans hx
  obtain ⟨hmax, hcount⟩ := t.set_counts s (write x)
  refine ⟨?_, ?_, hmax.trans h.maxStreams, ?_, h.cancelled⟩
  · intro s'
    rw [StreamTable.get?_set hx, m.map.lookup_modify s hm, h.get? s']
  · rw [StreamTable.len, hcount, BoundedMap.size_modify]
    exact h.len
  · rw [BoundedMap.limit_modify]
    exact h.limit

theorem Represents.takeEntry (h : Represents L (t, F) m) {s : StreamId} {x : ProxyStream β}
    (hx : t.get? s = some x) :
    Represents L (t.takeEntry s, F.cancel x.cancel)
      ⟨m.map.erase s, Insert.insert x.cancel m.cancelled⟩ := by
  have hm : m.map.lookup s = some x := (h.get? s).symm.trans hx
  obtain ⟨hmax, hcount⟩ := StreamTable.takeEntry_counts hx
  have hsize := m.map.size_erase s hm
  have hlen := h.len
  refine ⟨?_, ?_, hmax.trans h.maxStreams, h.limit, ?_⟩
  · intro s'
    rw [StreamTable.get?_takeEntry, BoundedMap.lookup_erase, h.get? s']
  · simp only [StreamTable.len] at hlen ⊢
    omega
  · intro f
    rw [Flags.isCancelled_cancel, Bool.or_eq_true, beq_iff_eq, Set.mem_insert_iff, h.cancelled f]

end

/-- Every operation returns what it returns on the map, and keeps the relation. -/
theorem represents_exec (t : StreamTable β × Flags) (m : PlainMap β) (op : TableOp β)
    {L : Nat} (h : Represents L t m) :
    (tableObj.exec t op).1 = (mapObj.exec m op).1 ∧
      Represents L (tableObj.exec t op).2 (mapObj.exec m op).2 := by
  obtain ⟨t, F⟩ := t
  cases op with
  | insert s x =>
    obtain ⟨hok, hr⟩ := h.insert s x
    exact ⟨congrArg TableResult.flag hok, hr⟩
  | getMut s write =>
    have hget := h.get? s
    simp only [tableObj, mapObj] at hget ⊢
    rw [← hget]
    cases hx : t.get? s with
    | none =>
      rw [m.map.modify_absent s (hget ▸ hx)]
      exact ⟨rfl, h⟩
    | some x => exact ⟨rfl, h.set hx write⟩
  | remove s =>
    have hget := h.get? s
    simp only [tableObj, mapObj, StreamTable.remove] at hget ⊢
    rw [← hget]
    cases hx : t.get? s with
    | none => exact ⟨rfl, h⟩
    | some x => exact ⟨rfl, h.takeEntry hx⟩
  | contains s =>
    refine ⟨?_, h⟩
    simp only [tableObj, mapObj, StreamTable.contains, ← h.get? s]
  | len => exact ⟨congrArg TableResult.count h.len, h⟩

/-- **The table is a bounded map.** For every limit and every sequence of operations from a new
table, with any flags set at first: the results are those of the map, and the map's entries, size
and set flags are those of the table. So a removal never decrements a counter that is 0, and a limit
other than 0 is never exceeded. -/
theorem streamTable_refines_map (maxStreams : Nat) (F : Flags) (ops : List (TableOp β)) :
    let code := tableObj.run (.new maxStreams, F) ops
    let plain := mapObj.run ⟨.empty maxStreams, {f | F.isCancelled f = true}⟩ ops
    code.1 = plain.1 ∧ Represents maxStreams code.2 plain.2 ∧
      (∀ s x, code.2.1.get? s = some x → 0 < code.2.1.activeCount) ∧
      (maxStreams ≠ 0 → code.2.1.activeCount ≤ maxStreams) := by
  intro code plain
  obtain ⟨hres, hrep⟩ := Obj.sim_run (M := tableObj) (N := mapObj) (R := Represents maxStreams)
    (fun t m op h => represents_exec t m op h) (represents_new maxStreams F) ops
  refine ⟨hres, hrep, ?_, ?_⟩
  · intro s x hx
    have := (StreamTable.takeEntry_counts hx).2
    omega
  · intro h0
    have hmax : code.2.1.maxStreams = maxStreams := hrep.maxStreams
    rw [← hmax] at h0 ⊢
    exact code.2.1.count_le h0

end ShrimpWisp
