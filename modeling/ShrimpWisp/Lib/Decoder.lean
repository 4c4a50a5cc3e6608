import Mathlib.Data.List.ReduceOption
import ShrimpWisp.Lib.Sys

/-!
# Decoders over a stream that arrives in pieces

A decoder takes the first item off a buffer, or says that it needs more. A loop reads the items of a
stream with it, in one of two ways: from what is already in the buffer, or with reads of the stream
until an item is complete. Such a wait may be given up after some reads. The loop goes on until an
item ends it.

The stream is the list of what its reads return; an empty piece is the end of the stream.

* `Decoder`: the decoder (`decode`) is stable, that is, more input does not change an item, and the
  two ways of the loop make of an item what `inner` and `outer` say.
* `Decoder.await`: decode with reads, `Decoder.decoded`: the items of a whole input, up to the one
  that ends the loop or the end of the stream.
* `Decoder.Reach.handled`: if the two ways agree on the items of the input, then in every run of the
  loop the items that it has handled are the first ones of the input, whatever the pieces and
  whichever way each item was taken.
-/

namespace ShrimpWisp

/-- An incremental decoder of items `ρ`, and what a loop makes of an item (module doc). No item is
the end of the stream. -/
structure Decoder (β ρ τ : Type) where
  decode : List β → Option (ρ × List β)
  inner : Option ρ → τ
  outer : Option ρ → τ
  ends : τ → Bool
  stable : ∀ {x r rest} (y : List β), decode x = some (r, rest) →
    decode (x ++ y) = some (r, rest ++ y)
  shrinks : ∀ {x r rest}, decode x = some (r, rest) → ends (inner (some r)) = false →
    rest.length < x.length
  eof_ends : ends (inner none) = true

/-- What a decode with reads comes to: the wait was given up, the stream ended, or an item; with the
buffer and the rest of the stream. -/
inductive Awaited (β ρ : Type) where
  | pending (buffer : List β)
  | eof (buffer : List β) (stream : List (List β))
  | item (r : ρ) (buffer : List β) (stream : List (List β))

/-- The bytes of a stream, and whether it ends. -/
def arriving {β : Type} : List (List β) → List β × Bool
  | [] => ([], false)
  | chunk :: stream =>
    if chunk.isEmpty then ([], true) else (chunk ++ (arriving stream).1, (arriving stream).2)

theorem arriving_append {β : Type} {xs : List (List β)} (h : ∀ chunk ∈ xs, chunk ≠ [])
    (ys : List (List β)) :
    arriving (xs ++ ys) = (xs.flatten ++ (arriving ys).1, (arriving ys).2) := by
  induction xs with
  | nil => rfl
  | cons chunk xs ih =>
    have hc : ¬ chunk.isEmpty = true := by simpa using h chunk (.head _)
    rw [List.cons_append, arriving, if_neg hc, ih fun c hc => h c (.tail _ hc)]
    simp

namespace Decoder

variable {β ρ τ : Type} (D : Decoder β ρ τ)

/-- Decode, with reads as long as the decoder needs more. -/
def await : List (List β) → List β → Awaited β ρ
  | [], buffer =>
    match D.decode buffer with
    | some (r, rest) => .item r rest []
    | none => .pending buffer
  | chunk :: stream, buffer =>
    match D.decode buffer with
    | some (r, rest) => .item r rest (chunk :: stream)
    | none => if chunk.isEmpty then .eof buffer stream else await stream (buffer ++ chunk)

/-- The items of an input, `eof` if the stream ends after it. -/
def decoded (bs : List β) (eof : Bool) : List (Option ρ) :=
  match _h : D.decode bs with
  | none => if eof then [none] else []
  | some (r, rest) => some r :: if _he : D.ends (D.inner (some r)) then [] else decoded rest eof
termination_by bs.length
decreasing_by exact D.shrinks _h (by simpa using _he)

theorem decoded_none {bs : List β} (h : D.decode bs = none) (eof : Bool) :
    D.decoded bs eof = if eof then [none] else [] := by
  rw [decoded]
  split <;> simp_all

theorem decoded_some {bs rest : List β} {r : ρ} (h : D.decode bs = some (r, rest)) (eof : Bool) :
    D.decoded bs eof =
      some r :: if D.ends (D.inner (some r)) then [] else D.decoded rest eof := by
  rw [decoded]
  split
  · simp_all
  · next r' rest' h' =>
    rw [h] at h'
    cases h'
    split <;> simp_all

/-- The items of a part of an input, as long as the stream has not ended, are the first ones. -/
theorem decoded_prefix_append (xs ys : List β) (eof : Bool) :
    D.decoded xs false <+: D.decoded (xs ++ ys) eof := by
  -- on the length of the part, which an item makes shorter
  induction hn : xs.length using Nat.strongRecOn generalizing xs with
  | ind n ih =>
    cases hd : D.decode xs with
    | none =>
      rw [D.decoded_none hd]
      exact List.nil_prefix
    | some p =>
      obtain ⟨r, rest⟩ := p
      rw [D.decoded_some hd, D.decoded_some (D.stable ys hd), List.cons_prefix_cons]
      refine ⟨rfl, ?_⟩
      by_cases he : D.ends (D.inner (some r)) = true
      · rw [if_pos he]
        exact List.nil_prefix
      · rw [if_neg he, if_neg he]
        have hlt := D.shrinks hd (by simpa using he)
        exact ih rest.length (hn ▸ hlt) rest rfl

/-- Items one after another are decoded in turn, and then what follows. -/
theorem decoded_flatMap {α : Type} {enc : α → List β} {item : α → ρ} {l : List α}
    (hdec : ∀ a ∈ l, ∀ rest, D.decode (enc a ++ rest) = some (item a, rest))
    (hgo : ∀ a ∈ l, D.ends (D.inner (some (item a))) = false) (rest : List β) (eof : Bool) :
    D.decoded (l.flatMap enc ++ rest) eof =
      l.map (fun a => some (item a)) ++ D.decoded rest eof := by
  induction l with
  | nil => rfl
  | cons a l ih =>
    have hgo' := hgo a (List.mem_cons_self ..)
    rw [List.flatMap_cons, List.append_assoc, D.decoded_some (hdec a (List.mem_cons_self ..) _),
      if_neg (by rw [hgo']; exact Bool.false_ne_true),
      ih (fun b hb => hdec b (List.mem_cons_of_mem a hb))
        fun b hb => hgo b (List.mem_cons_of_mem a hb)]
    rfl

/-- The items do not depend on whether the stream has ended. -/
theorem reduceOption_decoded (bs : List β) (eof : Bool) :
    (D.decoded bs eof).reduceOption = (D.decoded bs false).reduceOption := by
  -- on the length of the input
  induction hn : bs.length using Nat.strongRecOn generalizing bs with
  | ind n ih =>
    cases hd : D.decode bs with
    | none =>
      rw [D.decoded_none hd, D.decoded_none hd]
      cases eof <;> rfl
    | some p =>
      obtain ⟨r, rest⟩ := p
      rw [D.decoded_some hd, D.decoded_some hd, List.reduceOption_cons_of_some,
        List.reduceOption_cons_of_some]
      by_cases he : D.ends (D.inner (some r)) = true
      · rw [if_pos he, if_pos he]
      · have hlt := D.shrinks hd (by simpa using he)
        rw [if_neg he, if_neg he, ih rest.length (hn ▸ hlt) rest rfl]

variable {D} {xs ys rest : List (List β)} {buffer b : List β} {r : ρ}

theorem await_pending (h : D.await xs buffer = .pending b) (ys : List (List β)) :
    b ++ (arriving ys).1 = buffer ++ (arriving (xs ++ ys)).1 ∧
      (arriving ys).2 = (arriving (xs ++ ys)).2 := by
  induction xs generalizing buffer with
  | nil =>
    rw [await] at h
    split at h <;> cases h
    exact ⟨rfl, rfl⟩
  | cons chunk xs ih =>
    rw [await] at h
    split at h
    · cases h
    · split at h
      · cases h
      · next hc =>
        obtain ⟨hb, he⟩ := ih h
        simp only [List.cons_append, arriving, hc]
        exact ⟨by rw [hb]; simp, he⟩

theorem decode_of_await_pending (h : D.await xs buffer = .pending b) : D.decode b = none := by
  induction xs generalizing buffer with
  | nil =>
    rw [await] at h
    split at h
    · cases h
    · next hd =>
      cases h
      exact hd
  | cons chunk xs ih =>
    rw [await] at h
    split at h
    · cases h
    · split at h
      · cases h
      · exact ih h

theorem await_eof (h : D.await xs buffer = .eof b rest) (ys : List (List β)) :
    D.decode (buffer ++ (arriving (xs ++ ys)).1) = none ∧ (arriving (xs ++ ys)).2 = true := by
  induction xs generalizing buffer with
  | nil =>
    rw [await] at h
    split at h <;> cases h
  | cons chunk xs ih =>
    rw [await] at h
    split at h
    · cases h
    · next hd =>
      split at h
      · next hc =>
        simp only [List.cons_append, arriving, hc]
        exact ⟨by simpa using hd, rfl⟩
      · next hc =>
        obtain ⟨hn, he⟩ := ih h
        simp only [List.cons_append, arriving, hc]
        exact ⟨by simpa using hn, he⟩

theorem await_item {stream : List (List β)} (h : D.await xs buffer = .item r b stream)
    (ys : List (List β)) :
    D.decode (buffer ++ (arriving (xs ++ ys)).1) = some (r, b ++ (arriving (stream ++ ys)).1) ∧
      (arriving (stream ++ ys)).2 = (arriving (xs ++ ys)).2 := by
  induction xs generalizing buffer with
  | nil =>
    rw [await] at h
    split at h
    · next hd =>
      cases h
      exact ⟨D.stable _ hd, rfl⟩
    · cases h
  | cons chunk xs ih =>
    rw [await] at h
    split at h
    · next hd =>
      cases h
      exact ⟨D.stable _ hd, rfl⟩
    · split at h
      · cases h
      · next hc =>
        obtain ⟨hn, he⟩ := ih h
        simp only [List.cons_append, arriving, hc]
        exact ⟨by simpa using hn, he⟩

theorem await_suffix {stream : List (List β)} (h : D.await xs buffer = .item r b stream) :
    stream <:+ xs := by
  induction xs generalizing buffer with
  | nil =>
    rw [await] at h
    split at h <;> cases h
    exact List.suffix_rfl
  | cons chunk xs ih =>
    rw [await] at h
    split at h
    · cases h
      exact List.suffix_rfl
    · split at h
      · cases h
      · exact (ih h).trans (List.suffix_cons chunk xs)

end Decoder

/-! ## The loop -/

/-- The state of a loop: the buffer, what the further reads return, and what was handled. -/
structure Reading (β τ : Type) where
  buffer : List β
  stream : List (List β)
  handled : List τ := []
  ended : Bool := false
  deriving DecidableEq, Repr

/-- A move of the loop: an item from the buffer, or a wait that is given up after some reads. -/
inductive Move where
  | inner
  | outer (reads : Nat)
  deriving DecidableEq, Repr

namespace Reading

variable {β τ : Type}

/-- The loop has handled `x`. -/
def handle (st : Reading β τ) (ends : τ → Bool) (x : τ) : Reading β τ :=
  { st with handled := st.handled ++ [x], ended := ends x }

end Reading

namespace Decoder

variable {β ρ τ : Type} (D : Decoder β ρ τ)

def step (st : Reading β τ) (m : Move) : Option (Reading β τ) :=
  if st.ended then none
  else
    match m with
    | .inner =>
      match D.decode st.buffer with
      | none => none
      | some (r, rest) => some ({ st with buffer := rest }.handle D.ends (D.inner (some r)))
    | .outer reads =>
      match D.await (st.stream.take reads) st.buffer with
      | .pending buffer => some { st with buffer, stream := st.stream.drop reads }
      | .eof buffer stream =>
        some ({ st with buffer, stream := stream ++ st.stream.drop reads }.handle D.ends
          (D.outer none))
      | .item r buffer stream =>
        some ({ st with buffer, stream := stream ++ st.stream.drop reads }.handle D.ends
          (D.outer (some r)))

/-- The loop on a buffer and a stream. -/
def sys (buffer : List β) (stream : List (List β)) : Sys (Reading β τ) Move where
  init st := st = { buffer, stream }
  step := D.step

/-- The items that are still to come. -/
def rest (st : Reading β τ) : List (Option ρ) :=
  if st.ended then []
  else D.decoded (st.buffer ++ (arriving st.stream).1) (arriving st.stream).2

/-- The loop has nothing to do: it ended, or all was read and no item is complete. -/
def Quiet (st : Reading β τ) : Prop :=
  st.ended = true ∨ st.stream = [] ∧ D.decode st.buffer = none

variable {D} {st st' : Reading β τ} {m : Move}

/-- After an item that a state has handled, the rest is that of the state if it goes on. -/
theorem rest_handle (st : Reading β τ) (x : τ) :
    D.rest (st.handle D.ends x) =
      if D.ends x then []
      else D.decoded (st.buffer ++ (arriving st.stream).1) (arriving st.stream).2 :=
  rfl

/-- A step handles the next item, or none. The two ways are asked to agree only on what is still to
come. -/
theorem step_rest (hag : ∀ r ∈ D.rest st, D.inner r = D.outer r) (hs : D.step st m = some st') :
    (st'.handled = st.handled ∧ D.rest st' = D.rest st) ∨
      ∃ r, D.rest st = r :: D.rest st' ∧ st'.handled = st.handled ++ [D.inner r] := by
  unfold step at hs
  split at hs
  · cases hs
  next hend =>
  have hrest : D.rest st = D.decoded (st.buffer ++ (arriving st.stream).1) (arriving st.stream).2 :=
    if_neg hend
  cases m with
  | inner =>
    simp only at hs
    split at hs
    · cases hs
    · next r rest hd =>
      cases hs
      rw [D.decoded_some (D.stable _ hd)] at hrest
      exact .inr ⟨some r, by rw [hrest, rest_handle], rfl⟩
  | outer reads =>
    simp only at hs
    split at hs
    · next buffer ha =>
      cases hs
      obtain ⟨hb, he⟩ := await_pending ha (st.stream.drop reads)
      rw [List.take_append_drop] at hb he
      exact .inl ⟨rfl, by rw [hrest, ← hb, ← he]; exact if_neg hend⟩
    · next buffer stream ha =>
      cases hs
      obtain ⟨hd, he⟩ := await_eof ha (st.stream.drop reads)
      rw [List.take_append_drop] at hd he
      rw [D.decoded_none hd, he, if_pos rfl] at hrest
      have hx : D.inner none = D.outer none := hag none (by rw [hrest]; exact .head _)
      refine .inr ⟨none, ?_, by rw [hx]; rfl⟩
      rw [hrest, rest_handle, ← hx, if_pos D.eof_ends]
    · next r buffer stream ha =>
      cases hs
      obtain ⟨hd, he⟩ := await_item ha (st.stream.drop reads)
      rw [List.take_append_drop] at hd he
      rw [D.decoded_some hd, ← he] at hrest
      have hx : D.inner (some r) = D.outer (some r) := hag _ (by rw [hrest]; exact .head _)
      refine .inr ⟨some r, ?_, by rw [hx]; rfl⟩
      rw [hrest, rest_handle, ← hx]

/-- The invariant of the loop on the input `items`: what was handled and what is still to come are
these items, and the two ways agree on the latter. -/
structure Follows (D : Decoder β ρ τ) (items : List (Option ρ)) (st : Reading β τ) : Prop where
  all : st.handled ++ (D.rest st).map D.inner = items.map D.inner
  agree : ∀ r ∈ D.rest st, D.inner r = D.outer r

theorem Follows.step {items : List (Option ρ)} (h : D.Follows items st)
    (hs : D.step st m = some st') : D.Follows items st' := by
  obtain ⟨hh, hr⟩ | ⟨r, hr, hh⟩ := step_rest h.agree hs
  · exact ⟨by rw [hh, hr, h.all], by rw [hr]; exact h.agree⟩
  · refine ⟨?_, fun q hq => h.agree q (by rw [hr]; exact .tail _ hq)⟩
    rw [hh, ← h.all, hr]
    simp

variable {stream : List (List β)}

theorem Reach.follows
    (hag : ∀ r ∈ D.decoded (buffer ++ (arriving stream).1) (arriving stream).2,
      D.inner r = D.outer r)
    (h : (D.sys buffer stream).Reach Sys.Any st) :
    D.Follows (D.decoded (buffer ++ (arriving stream).1) (arriving stream).2) st := by
  refine h.invariant ?_ fun _ _ _ _ ih hs _ => ih.step hs
  rintro _ rfl
  exact ⟨rfl, hag⟩

theorem rest_of_quiet (h : D.Quiet st) : D.rest st = [] := by
  obtain h | ⟨hs, hd⟩ := h
  · exact if_pos h
  · unfold rest
    split
    · rfl
    · simp [hs, arriving, D.decoded_none hd]

/-- Whatever the pieces of the stream and whichever way each item was taken, the loop has handled
the first items of the input; and all of them, once it has nothing to do. -/
theorem Reach.handled
    (hag : ∀ r ∈ D.decoded (buffer ++ (arriving stream).1) (arriving stream).2,
      D.inner r = D.outer r)
    (h : (D.sys buffer stream).Reach Sys.Any st) :
    st.handled <+:
        (D.decoded (buffer ++ (arriving stream).1) (arriving stream).2).map D.inner ∧
      (D.Quiet st → st.handled =
        (D.decoded (buffer ++ (arriving stream).1) (arriving stream).2).map D.inner) := by
  have hall := (Reach.follows hag h).all
  refine ⟨⟨_, hall⟩, fun hq => ?_⟩
  rw [rest_of_quiet hq] at hall
  simpa using hall

/-- A loop that has something to do handles an item or reads, if it waits for one read. -/
theorem exists_step (h : ¬ D.Quiet st) :
    ∃ st', D.step st (.outer 1) = some st' ∧
      (st.handled.length < st'.handled.length ∨ st'.stream.length < st.stream.length) := by
  obtain ⟨hend, hmore⟩ := not_or.mp h
  rw [step, if_neg hend]
  split
  · next buffer ha =>
    refine ⟨_, rfl, .inr ?_⟩
    cases hs : st.stream with
    | nil =>
      rw [hs, List.take_nil, await] at ha
      split at ha
      · cases ha
      · next hd => exact absurd ⟨hs, hd⟩ hmore
    | cons chunk stream => simp
  · exact ⟨_, rfl, .inl (by simp [Reading.handle])⟩
  · exact ⟨_, rfl, .inl (by simp [Reading.handle])⟩

end Decoder

end ShrimpWisp
