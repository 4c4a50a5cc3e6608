import Mathlib.Algebra.Ring.Periodic
import Mathlib.Tactic.Common

/-!
# A buffer rewritten in blocks

A loop that rewrites a buffer in place, one block at a time, against the map that rewrites each
element by its index.

* `splice`: the store of a block at an index.
* `loopBlocks`: `while i < end { buf[i..i + block] = f(buf[i..i + block]); i += block; }`.
* `loopBlocks_mapIdx`: if the map is periodic with the length of a block, and `f` is the map on each
  block, then the loop is the map on all of them.
-/

namespace ShrimpWisp

namespace Blocks

variable {α β : Type}

/-- `buf` with `xs` at `i`. -/
def splice (buf : List α) (i : Nat) (xs : List α) : List α :=
  buf.take i ++ xs ++ buf.drop (i + xs.length)

/-- The loop (module doc). A block has a byte at least, else it would not end. -/
def loopBlocks (block : Nat) (f : List α → List α) (stop i : Nat) (buf : List α) : List α :=
  if i < stop ∧ 0 < block then
    loopBlocks block f stop (i + block) (splice buf i (f ((buf.drop i).take block)))
  else buf
termination_by stop - i

/-! ## Maps with the index -/

section MapIdx

variable {f : Nat → α → β} {n : Nat}

/-- A part in front that is a whole number of periods long does not move the rest. -/
theorem mapIdx_append_of_dvd (hf : Function.Periodic f n) {xs : List α} (h : n ∣ xs.length)
    (ys : List α) : (xs ++ ys).mapIdx f = xs.mapIdx f ++ ys.mapIdx f := by
  obtain ⟨k, hk⟩ := h
  rw [List.mapIdx_append]
  congr 2
  funext i
  rw [hk, Nat.mul_comm]
  exact hf.nat_mul k i

variable {g : Nat → α → α} {block : Nat} {step : List α → List α}

theorem loopBlocks_mapIdx (hg : Function.Periodic g block) (hb : 0 < block)
    (hstep : ∀ xs : List α, xs.length = block → step xs = xs.mapIdx g) (k : Nat) (done rest : List α)
    (hd : block ∣ done.length) (hk : k * block ≤ rest.length) :
    loopBlocks block step (done.length + k * block) done.length (done.mapIdx g ++ rest) =
      (done ++ rest.take (k * block)).mapIdx g ++ rest.drop (k * block) := by
  -- `done` is what the loop has behind it, a whole number of blocks
  induction k generalizing done rest with
  | zero =>
    rw [loopBlocks, if_neg (by omega), Nat.zero_mul, List.take_zero, List.append_nil, List.drop_zero]
  | succ k ih =>
    have hlen : block ≤ rest.length := by
      rw [Nat.add_mul] at hk
      omega
    have hx : (rest.take block).length = block := List.length_take_of_le hlen
    have hdrop : (done.mapIdx g ++ rest).drop done.length = rest := by
      rw [List.drop_append_of_le_length (by simp), List.drop_eq_nil_of_le (by simp), List.nil_append]
    rw [loopBlocks, if_pos ⟨by rw [Nat.add_mul]; omega, hb⟩, hdrop, hstep _ hx]
    have hsplice : splice (done.mapIdx g ++ rest) done.length ((rest.take block).mapIdx g) =
        (done ++ rest.take block).mapIdx g ++ rest.drop block := by
      rw [mapIdx_append_of_dvd hg hd, splice, List.take_append_of_le_length (by simp),
        List.take_of_length_le (by simp), ← List.drop_drop, hdrop, List.length_mapIdx, hx]
    have hstop : done.length + (k + 1) * block = (done ++ rest.take block).length + k * block := by
      rw [List.length_append, hx, Nat.add_mul]
      omega
    have hi : done.length + block = (done ++ rest.take block).length := by
      rw [List.length_append, hx]
    rw [hsplice, hstop, hi, ih]
    · have htake : rest.take ((k + 1) * block) =
          rest.take block ++ (rest.drop block).take (k * block) := by
        rw [← List.take_add, Nat.add_mul, Nat.one_mul, Nat.add_comm]
      rw [htake, List.append_assoc, List.drop_drop, Nat.add_mul, Nat.one_mul,
        Nat.add_comm (k * block)]
    · rw [List.length_append, hx]
      exact Nat.dvd_add hd (Nat.dvd_refl block)
    · rw [List.length_drop]
      rw [Nat.add_mul] at hk
      omega

/-- The loop over all the whole blocks of a buffer. -/
theorem loopBlocks_eq (hg : Function.Periodic g block) (hb : 0 < block)
    (hstep : ∀ xs : List α, xs.length = block → step xs = xs.mapIdx g) (buf : List α) :
    loopBlocks block step (buf.length - buf.length % block) 0 buf =
      (buf.take (buf.length - buf.length % block)).mapIdx g ++
        buf.drop (buf.length - buf.length % block) := by
  have hd : buf.length - buf.length % block = buf.length / block * block := by
    have := Nat.div_add_mod buf.length block
    rw [Nat.mul_comm] at this
    omega
  have h := loopBlocks_mapIdx hg hb hstep (buf.length / block) [] buf (Nat.dvd_zero block)
    (Nat.div_mul_le_self _ _)
  simpa only [List.length_nil, Nat.zero_add, List.mapIdx_nil, List.nil_append, ← hd] using h

end MapIdx

end Blocks

end ShrimpWisp
