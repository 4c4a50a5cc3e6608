import Mathlib.Tactic.Common

/-!
# Sinks with short writes

A sink takes what is written to it in order, but a write may take only a part of what it is offered,
and it may fail. What the sink takes is given with it: `room` has a number for each of the next
writes. A write fails if that number is zero or none is left, and after a failed write every write
fails.

* `Sink.write`: one write, with the number of items that were taken; zero is a failed write.
* `Sink.writeAll`: writes until everything is taken.
* `Sink.Puts k bs r`: the specification of a writer of `bs`. Everything was taken if it reports
  success; otherwise a part from the front, and the sink is dead.
* `Puts.resume` continues after a short write, `Puts.seq` and `Puts.stop` put one writer after
  another.
-/

namespace ShrimpWisp

/-- A sink for `β` (module doc). -/
structure Sink (β : Type) where
  sent : List β
  room : List Nat
  deriving DecidableEq, Repr

namespace Sink

variable {β : Type}

/-- One write. -/
def write (k : Sink β) (bs : List β) : Nat × Sink β :=
  match k.room with
  | [] => (0, k)
  | n :: room =>
    if min n bs.length = 0 then (0, { k with room := [] })
    else (min n bs.length, ⟨k.sent ++ bs.take n, room⟩)

/-- Write the rest after what was `sent`, one write for each entry of the room. -/
def writeAllFrom : List Nat → List β → List β → Bool × Sink β
  | room, sent, [] => (true, ⟨sent, room⟩)
  | [], sent, _ :: _ => (false, ⟨sent, []⟩)
  | n :: room, sent, b :: bs =>
    if n = 0 then (false, ⟨sent, []⟩)
    else writeAllFrom room (sent ++ (b :: bs).take n) ((b :: bs).drop n)

/-- Write everything. -/
def writeAll (k : Sink β) (bs : List β) : Bool × Sink β := writeAllFrom k.room k.sent bs

/-- The result `r` of a writer of `bs` (module doc). -/
structure Puts (k : Sink β) (bs : List β) (r : Bool × Sink β) : Prop where
  all : r.1 = true → r.2.sent = k.sent ++ bs
  part : r.1 = false → r.2.room = [] ∧ ∃ p, p <+: bs ∧ r.2.sent = k.sent ++ p
  dead : k.room = [] → r.2.room = [] ∧ r.2.sent = k.sent

theorem write_cases {k k' : Sink β} {bs : List β} {n : Nat} (h : k.write bs = (n, k')) :
    (n = 0 ∧ k'.room = [] ∧ k'.sent = k.sent) ∨
      (0 < n ∧ n ≤ bs.length ∧ k.room ≠ [] ∧ k'.sent = k.sent ++ bs.take n) := by
  unfold write at h
  split at h
  · next hr =>
    cases h
    exact .inl ⟨rfl, hr, rfl⟩
  · next m room hr =>
    split at h
    · cases h
      exact .inl ⟨rfl, rfl, rfl⟩
    · next hm =>
      cases h
      exact .inr ⟨by omega, by omega, by simp [hr], by rw [← List.take_eq_take_min]⟩

namespace Puts

variable {k k₁ k₂ : Sink β} {xs ys : List β} {r : Bool × Sink β}

/-- Nothing to write. -/
theorem nil (k : Sink β) : Puts k [] (true, k) where
  all _ := by simp
  part h := by cases h
  dead h := ⟨h, rfl⟩

/-- A write that failed. -/
theorem zero (h : k.write xs = (0, k₁)) : Puts k xs (false, k₁) := by
  obtain ⟨-, hr, hs⟩ | ⟨h0, -⟩ := write_cases h
  · exact ⟨nofun, fun _ => ⟨hr, [], List.nil_prefix, by simp [hs]⟩, fun _ => ⟨hr, hs⟩⟩
  · exact absurd h0 (Nat.lt_irrefl 0)

/-- A short write, and then a writer of the rest. -/
theorem resume {n : Nat} (h : k.write xs = (n, k₁)) (hn : n ≠ 0) (hr : Puts k₁ (xs.drop n) r) :
    Puts k xs r := by
  obtain ⟨h0, -⟩ | ⟨-, -, hroom, hs⟩ := write_cases h
  · exact absurd h0 hn
  · refine ⟨fun hok => ?_, fun hf => ?_, fun hd => absurd hd hroom⟩
    · rw [hr.all hok, hs, List.append_assoc, List.take_append_drop]
    · obtain ⟨hd, p, hp, he⟩ := hr.part hf
      refine ⟨hd, xs.take n ++ p, ?_, by rw [he, hs, List.append_assoc]⟩
      conv => rhs; rw [← List.take_append_drop n xs]
      exact (List.prefix_append_right_inj _).mpr hp

/-- A write that took everything. -/
theorem whole {n : Nat} (h : k.write xs = (n, k₁)) (hn : n ≠ 0) (hl : n = xs.length) :
    Puts k xs (true, k₁) := by
  refine resume h hn ?_
  rw [hl, List.drop_length]
  exact .nil k₁

/-- One writer after another, whatever the first reports. -/
theorem seq {ok₁ ok₂ : Bool} (h₁ : Puts k xs (ok₁, k₁)) (h₂ : Puts k₁ ys (ok₂, k₂)) :
    Puts k (xs ++ ys) (ok₁ && ok₂, k₂) := by
  cases ok₁ with
  | true =>
    have hs := h₁.all rfl
    refine ⟨fun hok => ?_, fun hf => ?_, fun hd => ?_⟩
    · rw [h₂.all hok, hs, List.append_assoc]
    · obtain ⟨hd, p, hp, he⟩ := h₂.part hf
      refine ⟨hd, xs ++ p, (List.prefix_append_right_inj _).mpr hp, ?_⟩
      rw [he, hs, List.append_assoc]
    · obtain ⟨hd₁, hs₁⟩ := h₁.dead hd
      obtain ⟨hd₂, hs₂⟩ := h₂.dead hd₁
      exact ⟨hd₂, hs₂.trans hs₁⟩
  | false =>
    obtain ⟨hd₁, p, hp, he⟩ := h₁.part rfl
    obtain ⟨hd₂, hs₂⟩ := h₂.dead hd₁
    refine ⟨nofun, fun _ => ⟨hd₂, p, hp.trans (List.prefix_append _ _), hs₂.trans he⟩, fun hd => ?_⟩
    exact ⟨hd₂, hs₂.trans (h₁.dead hd).2⟩

/-- A writer that failed, and nothing after it. -/
theorem stop (h : Puts k xs (false, k₁)) (ys : List β) : Puts k (xs ++ ys) (false, k₁) := by
  obtain ⟨hd, p, hp, he⟩ := h.part rfl
  exact ⟨nofun, fun _ => ⟨hd, p, hp.trans (List.prefix_append _ _), he⟩, h.dead⟩

end Puts

theorem puts_writeAll (k : Sink β) (bs : List β) : k.Puts bs (k.writeAll bs) := by
  suffices h : ∀ room sent (bs : List β),
      Puts ⟨sent, room⟩ bs (writeAllFrom room sent bs) from h k.room k.sent bs
  intro room
  induction room with
  | nil =>
    intro sent bs
    cases bs with
    | nil => exact .nil _
    | cons b bs => exact ⟨nofun, fun _ => ⟨rfl, [], List.nil_prefix, by simp [writeAllFrom]⟩,
        fun _ => ⟨rfl, rfl⟩⟩
  | cons n room ih =>
    intro sent bs
    cases bs with
    | nil => exact .nil _
    | cons b bs =>
      rw [writeAllFrom]
      split
      · next hn =>
        refine .zero ?_
        simp [write, hn]
      · next hn =>
        have hm : min n (b :: bs).length ≠ 0 := by simp; omega
        have hw : write ⟨sent, n :: room⟩ (b :: bs) =
            (min n (b :: bs).length, ⟨sent ++ (b :: bs).take n, room⟩) := by
          simp only [write, hm, if_false]
        refine .resume hw hm ?_
        rw [← List.drop_eq_drop_min]
        exact ih _ _

/-- A write that fits in the room of the next write. -/
theorem write_room {bs : List β} (h : 0 < bs.length) (sent : List β) (room : List Nat) :
    write ⟨sent, bs.length :: room⟩ bs = (bs.length, ⟨sent ++ bs, room⟩) := by
  simp only [write, Nat.min_self, List.take_length]
  exact if_neg (Nat.pos_iff_ne_zero.mp h)

theorem writeAll_room {bs : List β} (h : bs ≠ []) (sent : List β) (room : List Nat) :
    writeAll ⟨sent, bs.length :: room⟩ bs = (true, ⟨sent ++ bs, room⟩) := by
  obtain ⟨b, bs, rfl⟩ := List.exists_cons_of_ne_nil h
  rw [writeAll, writeAllFrom, if_neg (by simp), List.take_length, List.drop_length]
  cases room <;> rfl

end Sink

end ShrimpWisp
