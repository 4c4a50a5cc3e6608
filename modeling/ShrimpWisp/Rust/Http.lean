import Mathlib.Data.List.DropRight
import ShrimpWisp.Rust.Str

/-!
# HTTP messages

What the server uses of the `http` crate, and of the standard library for header values.

* `HeaderMap`: the fields of a message, with names in lower case. The crate keeps the values of one
  name in their order, and does not say in which order the names come: the list is any such order.
* `HeaderText`: a value that `HeaderValue::to_str` accepts.
* `trim`: without the leading and the trailing bytes of a kind; `trim_eq_iff` is its specification.
-/

namespace ShrimpWisp

theorem asciiLower_idem (b : UInt8) : asciiLower (asciiLower b) = asciiLower b := by
  unfold asciiLower
  split
  · next h =>
    rw [if_neg]
    simp only [ch, Bool.and_eq_true, decide_eq_true_eq, UInt8.le_iff_toNat_le] at h ⊢
    have := UInt8.toNat_add b 0x20
    simp only [Char.reduceToNat, Nat.toUInt8, UInt8.toNat_ofNat'] at h this ⊢
    have h₂₀ : (0x20 : UInt8).toNat = 32 := rfl
    omega
  · rfl

theorem toAsciiLowercase_idem (s : Str) :
    toAsciiLowercase (toAsciiLowercase s) = toAsciiLowercase s := by
  simp only [toAsciiLowercase, List.map_map, Function.comp_def, asciiLower_idem]

/-- `[u8]::eq_ignore_ascii_case`. -/
def eqIgnoreAsciiCase (a b : List UInt8) : Bool := a.map asciiLower == b.map asciiLower

/-- `u8::is_ascii_whitespace`. -/
def isAsciiWhitespace (b : UInt8) : Bool :=
  b == 0x20 || b == 0x09 || b == 0x0A || b == 0x0C || b == 0x0D

/-- `char::is_whitespace` of an ASCII character. -/
def isWhitespace (b : UInt8) : Bool := isAsciiWhitespace b || b == 0x0B

/-! ## Trimming -/

section

variable {α : Type} (p : α → Bool)

/-- `s` without the leading and the trailing elements that satisfy `p`. -/
def trim (s : List α) : List α := (s.dropWhile p).rdropWhile p

/-- Neither the first nor the last element satisfies `p`. -/
def Tight (s : List α) : Prop := (∀ x ∈ s.head?, p x = false) ∧ ∀ x ∈ s.getLast?, p x = false

variable {p}

theorem dropWhile_append_tight {pre s : List α} (hpre : ∀ x ∈ pre, p x = true)
    (hs : ∀ x ∈ s.head?, p x = false) : (pre ++ s).dropWhile p = s := by
  induction pre with
  | nil =>
    cases s with
    | nil => rfl
    | cons x s =>
      have hx := hs x (by simp)
      rw [List.nil_append, List.dropWhile_cons_of_neg (by rw [hx]; exact Bool.false_ne_true)]
  | cons x pre ih =>
    rw [List.cons_append, List.dropWhile_cons_of_pos (hpre x (List.mem_cons_self ..))]
    exact ih fun y hy => hpre y (List.mem_cons_of_mem x hy)

theorem rdropWhile_append_tight {s post : List α} (hpost : ∀ x ∈ post, p x = true)
    (hs : ∀ x ∈ s.getLast?, p x = false) : (s ++ post).rdropWhile p = s := by
  rw [List.rdropWhile, List.reverse_append, dropWhile_append_tight, List.reverse_reverse]
  · intro x hx
    exact hpost x (List.mem_reverse.mp hx)
  · intro x hx
    rw [List.head?_reverse] at hx
    exact hs x hx

theorem head?_rdropWhile {s : List α} (h : ∀ x ∈ s.head?, p x = false) :
    ∀ x ∈ (s.rdropWhile p).head?, p x = false := by
  intro x hx
  obtain ⟨t, ht⟩ := List.rdropWhile_prefix p (l := s)
  refine h x ?_
  rw [← ht, List.head?_append, hx]
  rfl

/-- What is left between the elements that satisfy `p`. -/
theorem trim_eq_iff {s t : List α} :
    trim p s = t ↔
      Tight p t ∧ ∃ pre post, s = pre ++ t ++ post ∧ (∀ x ∈ pre, p x = true) ∧
        ∀ x ∈ post, p x = true := by
  constructor
  · rintro rfl
    have hhead : ∀ x ∈ (s.dropWhile p).head?, p x = false := by
      intro x hx
      have h := List.head?_dropWhile_not p s
      rw [hx] at h
      simpa using h
    refine ⟨⟨head?_rdropWhile hhead, ?_⟩, s.takeWhile p, (s.dropWhile p).rtakeWhile p, ?_, ?_, ?_⟩
    · intro x hx
      obtain ⟨hne, hl⟩ := List.mem_getLast?_eq_getLast hx
      rw [hl]
      exact Bool.eq_false_iff.mpr (List.rdropWhile_last_not p (s.dropWhile p) hne)
    · rw [List.append_assoc, trim, List.rdropWhile_append_rtakeWhile,
        List.takeWhile_append_dropWhile]
    · exact fun x hx => List.mem_takeWhile_imp hx
    · exact fun x hx => List.mem_rtakeWhile_imp hx
  · rintro ⟨⟨hhead, hlast⟩, pre, post, rfl, hpre, hpost⟩
    cases t with
    | nil =>
      rw [List.append_nil, trim, List.dropWhile_eq_nil_iff.mpr]
      · rfl
      · intro x hx
        exact (List.mem_append.mp hx).elim (hpre x) (hpost x)
    | cons y t =>
      have hd : (pre ++ (y :: t ++ post)).dropWhile p = y :: t ++ post :=
        dropWhile_append_tight hpre hhead
      rw [trim, List.append_assoc, hd, rdropWhile_append_tight hpost hlast]

end

/-! ## Headers -/

/-- `http::HeaderMap` (module doc). -/
structure HeaderMap where
  fields : List (Str × List UInt8)
  lower : ∀ f ∈ fields, toAsciiLowercase f.1 = f.1

namespace HeaderMap

/-- The values of a name. -/
def getAll (h : HeaderMap) (name : Str) : List (List UInt8) :=
  (h.fields.filter fun f => f.1 == toAsciiLowercase name).map (·.2)

/-- The first value of a name. -/
def get (h : HeaderMap) (name : Str) : Option (List UInt8) := (h.getAll name).head?

def empty : HeaderMap where
  fields := []
  lower := by simp

/-- A further value of a name. -/
def append (h : HeaderMap) (name : Str) (value : List UInt8) : HeaderMap where
  fields := h.fields ++ [(toAsciiLowercase name, value)]
  lower := by
    intro f hf
    rcases List.mem_append.mp hf with hf | hf
    · exact h.lower f hf
    · cases List.mem_singleton.mp hf
      exact toAsciiLowercase_idem name

def remove (h : HeaderMap) (name : Str) : HeaderMap where
  fields := h.fields.filter fun f => f.1 != toAsciiLowercase name
  lower := fun f hf => h.lower f (List.mem_filter.mp hf).1

/-- The value replaces all of its name. -/
def insert (h : HeaderMap) (name : Str) (value : List UInt8) : HeaderMap :=
  (h.remove name).append name value

@[simp] theorem getAll_empty (name : Str) : empty.getAll name = [] := rfl

theorem getAll_append (h : HeaderMap) (name : Str) (value : List UInt8) (n : Str) :
    (h.append name value).getAll n =
      h.getAll n ++ if toAsciiLowercase name = toAsciiLowercase n then [value] else [] := by
  simp only [getAll, append, List.filter_append, List.map_append]
  split
  · next heq => simp [heq]
  · next hne => simp [hne]

theorem getAll_remove (h : HeaderMap) (name n : Str) :
    (h.remove name).getAll n =
      if toAsciiLowercase name = toAsciiLowercase n then [] else h.getAll n := by
  simp only [getAll, remove, List.filter_filter]
  split
  · next heq =>
    rw [heq, List.map_eq_nil_iff, List.filter_eq_nil_iff]
    intro f _ hf
    simp only [Bool.and_eq_true, beq_iff_eq, bne_iff_ne] at hf
    exact hf.2 hf.1
  · next hne =>
    refine congrArg (List.map _) (List.filter_congr fun f _ => ?_)
    rw [Bool.and_eq_left_iff_imp]
    intro hf
    rw [beq_iff_eq] at hf
    rw [bne_iff_ne, hf]
    exact Ne.symm hne

theorem getAll_insert (h : HeaderMap) (name : Str) (value : List UInt8) (n : Str) :
    (h.insert name value).getAll n =
      if toAsciiLowercase name = toAsciiLowercase n then [value] else h.getAll n := by
  rw [insert, getAll_append, getAll_remove]
  split
  · rfl
  · exact List.append_nil _

end HeaderMap

/-- A visible ASCII character or a tab. -/
def isVisibleAscii (b : UInt8) : Bool := 0x20 ≤ b && b < 0x7F || b == 0x09

/-- The text of a header value. -/
def HeaderText : Type := { s : Str // s.all isVisibleAscii = true }

/-- `HeaderValue::to_str`. -/
def toStr (value : List UInt8) : Option HeaderText :=
  if h : value.all isVisibleAscii = true then some ⟨value, h⟩ else none

/-- A request, without its body. -/
structure Request where
  method : Str
  path : Str
  headers : HeaderMap

/-- A response with an empty body. -/
structure Response where
  status : Nat
  headers : HeaderMap

end ShrimpWisp
