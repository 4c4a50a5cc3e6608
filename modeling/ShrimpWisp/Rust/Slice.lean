import Mathlib.Tactic.Common

/-!
# Slices with their bounds checks

Indexing and `copy_from_slice` on a slice, with `none` for the panic of an index out of range or of
two lengths that differ. A function written with them has all its indices in range where it returns
`some`.
-/

namespace ShrimpWisp

namespace Slice

variable {α : Type} {buf : List α}

/-- `buf[i] = v`. -/
def set (buf : List α) (i : Nat) (v : α) : Option (List α) :=
  if i < buf.length then some (buf.set i v) else none

/-- `&buf[lo..hi]`. -/
def range (buf : List α) (lo hi : Nat) : Option (List α) :=
  if lo ≤ hi ∧ hi ≤ buf.length then some ((buf.take hi).drop lo) else none

/-- `&buf[lo..]`. -/
def rangeFrom (buf : List α) (lo : Nat) : Option (List α) := range buf lo buf.length

/-- `buf[lo..hi].copy_from_slice(src)`. -/
def copyFromSlice (buf : List α) (lo hi : Nat) (src : List α) : Option (List α) :=
  if (lo ≤ hi ∧ hi ≤ buf.length) ∧ src.length = hi - lo then
    some (buf.take lo ++ src ++ buf.drop hi)
  else none

theorem set_eq {i : Nat} (h : i < buf.length) (v : α) :
    set buf i v = some (buf.take i ++ [v] ++ buf.drop (i + 1)) := by
  rw [set, if_pos h, List.set_eq_take_append_cons_drop, if_pos h, List.append_assoc,
    List.singleton_append]

theorem range_eq {lo hi : Nat} (h : lo ≤ hi) (hh : hi ≤ buf.length) :
    range buf lo hi = some ((buf.take hi).drop lo) := if_pos ⟨h, hh⟩

theorem rangeFrom_eq {lo : Nat} (h : lo ≤ buf.length) : rangeFrom buf lo = some (buf.drop lo) := by
  rw [rangeFrom, range_eq h (Nat.le_refl _), List.take_length]

theorem copyFromSlice_eq {lo hi : Nat} {src : List α} (h : hi ≤ buf.length)
    (hl : lo + src.length = hi) :
    copyFromSlice buf lo hi src = some (buf.take lo ++ src ++ buf.drop hi) :=
  if_pos ⟨⟨by omega, h⟩, by omega⟩

/-! ## A buffer that is filled from the front -/

/-- `buf` with `done` in its front. -/
def filled (done buf : List α) : List α := done ++ buf.drop done.length

section Filled

variable {done : List α} {i : Nat}

@[simp] theorem filled_nil (buf : List α) : filled [] buf = buf := rfl

@[simp] theorem length_filled (h : done.length ≤ buf.length) :
    (filled done buf).length = buf.length := by
  rw [filled, List.length_append, List.length_drop]
  omega

theorem copyFromSlice_filled (done src : List α) {hi : Nat} (hl : done.length + src.length = hi)
    (h : hi ≤ buf.length) :
    copyFromSlice (filled done buf) done.length hi src = some (filled (done ++ src) buf) := by
  rw [copyFromSlice_eq (by rw [length_filled (by omega)]; exact h) hl]
  unfold filled
  rw [List.take_left, ← hl, List.length_append, ← List.drop_drop, List.drop_left, List.drop_drop]

theorem set_filled (done : List α) (h : done.length < buf.length) (v : α) :
    set (filled done buf) done.length v = some (filled (done ++ [v]) buf) := by
  rw [set_eq (by rw [length_filled (by omega)]; exact h)]
  unfold filled
  rw [List.take_left, List.length_append, ← List.drop_drop, List.drop_left, List.drop_drop]
  rfl

/-- An index that was written before. -/
theorem set_filled_of_lt (h : i < done.length) (v : α) :
    set (filled done buf) i v = some (filled (done.set i v) buf) := by
  have hlt : i < (filled done buf).length := by
    rw [filled, List.length_append]
    omega
  rw [set, if_pos hlt, filled, filled, List.set_append_left _ _ h, List.length_set]

theorem getElem?_filled (h : i < done.length) : (filled done buf)[i]? = done[i]? :=
  List.getElem?_append_left h

theorem range_filled (h : i ≤ done.length) (buf : List α) :
    range (filled done buf) i done.length = some (done.drop i) := by
  rw [range_eq h (by rw [filled, List.length_append]; omega), filled, List.take_left]

end Filled

end Slice

end ShrimpWisp
