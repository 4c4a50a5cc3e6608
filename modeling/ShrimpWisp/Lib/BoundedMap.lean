import Mathlib.Data.Finmap

/-!
# Bounded finite maps

A finite map from keys to values with a limit on its size; the limit 0 stands for none. The bound
is part of the type.

* `BoundedMap.insert`: a new entry, if the key is absent and there is room; else nothing changes.
* `BoundedMap.modify`: another value for a key that is present.
* `BoundedMap.erase`: an entry is taken out.
* `lookup_*`, `size_*`: each of them on lookups and on the size.
-/

namespace ShrimpWisp

variable {κ α : Type} [DecidableEq κ]

/-- A map from `κ` to `α` with at most `limit` entries, if `limit` is not 0. -/
structure BoundedMap (κ α : Type) where
  limit : Nat
  entries : Finmap fun _ : κ => α
  bounded : limit ≠ 0 → entries.keys.card ≤ limit

namespace BoundedMap

/-- The empty map. -/
def empty (limit : Nat) : BoundedMap κ α := ⟨limit, ∅, fun _ => by simp⟩

def size (m : BoundedMap κ α) : Nat := m.entries.keys.card

def lookup (m : BoundedMap κ α) (k : κ) : Option α := m.entries.lookup k

/-- One more entry fits. -/
def HasRoom (m : BoundedMap κ α) : Prop := m.limit = 0 ∨ m.size < m.limit

instance (m : BoundedMap κ α) : Decidable m.HasRoom := inferInstanceAs (Decidable (_ ∨ _))

theorem keys_insert (m : Finmap fun _ : κ => α) (k : κ) (x : α) :
    (m.insert k x).keys = Insert.insert k m.keys := by
  ext k'
  simp [Finmap.mem_keys]

/-- A new entry, if the key is absent and there is room. -/
def insert (m : BoundedMap κ α) (k : κ) (x : α) : Bool × BoundedMap κ α :=
  if h : m.lookup k = none ∧ m.HasRoom then
    (true, ⟨m.limit, m.entries.insert k x, fun h0 => by
      have hk : k ∉ m.entries.keys := by rw [Finmap.mem_keys, ← Finmap.lookup_eq_none]; exact h.1
      rw [keys_insert, Finset.card_insert_of_notMem hk]
      exact h.2.resolve_left h0⟩)
  else (false, m)

/-- Another value for a key that is present. -/
def modify (m : BoundedMap κ α) (k : κ) (f : α → α) : BoundedMap κ α :=
  match h : m.lookup k with
  | some x => ⟨m.limit, m.entries.insert k (f x), fun h0 => by
      have hk : k ∈ m.entries.keys := Finmap.mem_keys.mpr (Finmap.mem_of_lookup_eq_some h)
      rw [keys_insert, Finset.insert_eq_self.mpr hk]
      exact m.bounded h0⟩
  | none => m

/-- The entry of `k` is taken out. -/
def erase (m : BoundedMap κ α) (k : κ) : BoundedMap κ α :=
  ⟨m.limit, m.entries.erase k, fun h0 => by
    rw [Finmap.keys_erase]
    exact (Finset.card_erase_le).trans (m.bounded h0)⟩

variable (m : BoundedMap κ α) (k : κ)

theorem lookup_insert {x : α} (h : m.lookup k = none ∧ m.HasRoom) (k' : κ) :
    (m.insert k x).2.lookup k' = if k' = k then some x else m.lookup k' := by
  rw [insert, dif_pos h]
  by_cases hk : k' = k
  · subst hk; simp [lookup]
  · simp [lookup, hk, Finmap.lookup_insert_of_ne]

theorem size_insert {x : α} (h : m.lookup k = none ∧ m.HasRoom) :
    (m.insert k x).2.size = m.size + 1 := by
  have hk : k ∉ m.entries.keys := by rw [Finmap.mem_keys, ← Finmap.lookup_eq_none]; exact h.1
  rw [insert, dif_pos h]
  exact (congrArg Finset.card (keys_insert _ _ _)).trans (Finset.card_insert_of_notMem hk)

theorem modify_absent {f : α → α} (h : m.lookup k = none) : m.modify k f = m := by
  unfold modify
  split
  · rename_i hx; rw [h] at hx; cases hx
  · rfl

theorem lookup_modify {f : α → α} {x : α} (h : m.lookup k = some x) (k' : κ) :
    (m.modify k f).lookup k' = if k' = k then some (f x) else m.lookup k' := by
  unfold modify
  split
  · rename_i y hy
    rw [h] at hy
    cases hy
    by_cases hk : k' = k
    · subst hk; simp [lookup]
    · simp [lookup, hk, Finmap.lookup_insert_of_ne]
  · rename_i hn; rw [h] at hn; cases hn

@[simp] theorem size_modify (f : α → α) : (m.modify k f).size = m.size := by
  unfold modify
  split
  · rename_i x hx
    have hk : k ∈ m.entries.keys := Finmap.mem_keys.mpr (Finmap.mem_of_lookup_eq_some hx)
    exact congrArg Finset.card ((keys_insert _ _ _).trans (Finset.insert_eq_self.mpr hk))
  · rfl

@[simp] theorem limit_modify (f : α → α) : (m.modify k f).limit = m.limit := by
  unfold modify
  split <;> rfl

theorem lookup_erase (k' : κ) :
    (m.erase k).lookup k' = if k' = k then none else m.lookup k' := by
  by_cases hk : k' = k
  · subst hk; simp [lookup, erase]
  · simp [lookup, erase, hk, Finmap.lookup_erase_ne]

theorem size_erase {x : α} (h : m.lookup k = some x) : (m.erase k).size + 1 = m.size := by
  have hk : k ∈ m.entries.keys := Finmap.mem_keys.mpr (Finmap.mem_of_lookup_eq_some h)
  rw [size, erase, Finmap.keys_erase]
  exact Finset.card_erase_add_one hk

end BoundedMap

end ShrimpWisp
