import ShrimpWisp.Lib.Blocks
import ShrimpWisp.Ws.Parser

/-!
# Unmasking (`vendor/fastwebsockets/src/mask.rs`)

A payload is xored with the four bytes of the mask, repeated. `unmask` does it in one of four ways,
by the length of the payload and by what the machine has:

* `unmaskEasy`, byte by byte;
* `unmaskFallback`, in words of the machine's byte order between the aligned addresses of the
  buffer, with the mask turned by what stands in front of them;
* `unmaskSse2`, `unmaskAvx2`, in vectors of 16 and 32 bytes, the rest by the next slower one.

`unmask_eq`: all are `unmaskEasy`, wherever the payload lies.
-/

namespace ShrimpWisp

open Blocks

/-- What the code is compiled for. `avx2` is the gate, at compile time or on the running machine;
x86 is little endian. -/
inductive Target where
  | x86 (avx2 : Bool)
  | other (bigEndian : Bool)
  deriving DecidableEq, Repr

/-- `[u8; 4]`. -/
abbrev Mask := Vector UInt8 4

namespace Mask

/-- `u32::from_ne_bytes`, of which `i32::from_ne_bytes` has the same bits. -/
def fromNeBytes (bigEndian : Bool) (b : Mask) : BitVec 32 :=
  if bigEndian then b[0].toBitVec ++ b[1].toBitVec ++ b[2].toBitVec ++ b[3].toBitVec
  else b[3].toBitVec ++ b[2].toBitVec ++ b[1].toBitVec ++ b[0].toBitVec

/-- `u32::to_ne_bytes`. -/
def toNeBytes (bigEndian : Bool) (w : BitVec 32) : Mask :=
  let byte (i : Nat) : UInt8 := ⟨w.extractLsb' (8 * i) 8⟩
  if bigEndian then #v[byte 3, byte 2, byte 1, byte 0] else #v[byte 0, byte 1, byte 2, byte 3]

/-- Four bytes of memory read as words, as far as they go. -/
def words (bigEndian : Bool) : List UInt8 → List (BitVec 32)
  | b0 :: b1 :: b2 :: b3 :: rest => fromNeBytes bigEndian #v[b0, b1, b2, b3] :: words bigEndian rest
  | _ => []

/-- The bytes of words in memory. -/
def bytes (bigEndian : Bool) (ws : List (BitVec 32)) : List UInt8 :=
  ws.flatMap fun w => (toNeBytes bigEndian w).toList

end Mask

/-- `unmask_easy`. -/
def unmaskEasy (payload : List UInt8) (mask : Mask) : List UInt8 :=
  payload.mapIdx fun i v => v ^^^ mask[i % 4]

/-- The sizes of the first two slices that `align_to_mut::<u32>` makes of `len` bytes at `addr`: up
to the first aligned address, and all the whole words from there. Without one of these, all the
bytes are in the first. -/
def alignTo (addr len : Nat) : Nat × Nat :=
  let offset := (4 - addr % 4) % 4
  if len < offset then (len, 0) else (offset, 4 * ((len - offset) / 4))

/-- `unmask_fallback` on a buffer at `addr`. -/
def unmaskFallback (bigEndian : Bool) (addr : Nat) (buf : List UInt8) (mask : Mask) : List UInt8 :=
  let maskU32 := mask.fromNeBytes bigEndian
  let (p, w) := alignTo addr buf.length
  let head := p % 4
  let maskU32 :=
    if 0 < head then
      if bigEndian then maskU32.rotateLeft (8 * head) else maskU32.rotateRight (8 * head)
    else maskU32
  unmaskEasy (buf.take p) mask ++
    Mask.bytes bigEndian ((Mask.words bigEndian ((buf.drop p).take w)).map (· ^^^ maskU32)) ++
    unmaskEasy (buf.drop (p + w)) (Mask.toNeBytes bigEndian maskU32)

/-- The body of a vector loop: a block is loaded, xored with the mask in each lane of 32 bits, and
stored. -/
def xorVector (lanes : Nat) (mask : Mask) (block : List UInt8) : List UInt8 :=
  let maskV := List.replicate lanes (mask.fromNeBytes false)
  Mask.bytes false (List.zipWith (· ^^^ ·) (Mask.words false block) maskV)

/-- `unmask_sse2` on a buffer at `addr`. -/
def unmaskSse2 (addr : Nat) (payload : List UInt8) (mask : Mask) : List UInt8 :=
  let len := payload.length
  if len < 16 then unmaskFallback false addr payload mask
  else
    let alignedEnd := len - len % 16
    let payload := loopBlocks 16 (xorVector 4 mask) alignedEnd 0 payload
    if alignedEnd < len then
      payload.take alignedEnd ++
        unmaskFallback false (addr + alignedEnd) (payload.drop alignedEnd) mask
    else payload

/-- `unmask_avx2` on a buffer at `addr`. -/
def unmaskAvx2 (addr : Nat) (payload : List UInt8) (mask : Mask) : List UInt8 :=
  let len := payload.length
  let alignedEnd := len - len % 32
  let payload := loopBlocks 32 (xorVector 8 mask) alignedEnd 0 payload
  if alignedEnd < len then
    payload.take alignedEnd ++ unmaskSse2 (addr + alignedEnd) (payload.drop alignedEnd) mask
  else payload

/-- `unmask` of a payload at `addr`. -/
def unmask (target : Target) (addr : Nat) (payload : List UInt8) (mask : Mask) : List UInt8 :=
  match target with
  | .x86 avx2 =>
    if 32 ≤ payload.length ∧ avx2 then unmaskAvx2 addr payload mask
    else if 16 ≤ payload.length then unmaskSse2 addr payload mask
    else unmaskFallback false addr payload mask
  | .other bigEndian => unmaskFallback bigEndian addr payload mask

/-! ## Words and bytes -/

namespace Mask

variable {bigEndian : Bool}

/-- The mask from its byte `k` on. -/
def turn (m : Mask) (k : Nat) : Mask := Vector.ofFn fun i => m[(i.val + k) % 4]

@[simp] theorem getElem_turn (m : Mask) (k i : Nat) (hi : i < 4) :
    (m.turn k)[i] = m[(i + k) % 4] := by
  simp [turn]

theorem turn_mod (m : Mask) (k : Nat) : m.turn (k % 4) = m.turn k := by
  apply Vector.ext
  intro i hi
  rw [getElem_turn, getElem_turn]
  congr 1
  omega

theorem turn_of_dvd {m : Mask} {k : Nat} (h : 4 ∣ k) : m.turn k = m := by
  apply Vector.ext
  intro i hi
  rw [getElem_turn]
  congr 1
  omega

theorem length_words (bigEndian : Bool) (xs : List UInt8) :
    (words bigEndian xs).length = xs.length / 4 := by
  induction xs using words.induct with
  | case1 b0 b1 b2 b3 rest ih =>
    rw [words, List.length_cons, ih]
    simp only [List.length_cons]
    omega
  | case2 xs hxs =>
    rcases xs with _ | ⟨b0, _ | ⟨b1, _ | ⟨b2, _ | ⟨b3, rest⟩⟩⟩⟩
    · simp [words]
    · simp [words]
    · simp [words]
    · simp [words]
    · exact absurd rfl (hxs b0 b1 b2 b3 rest)

/-- Two masks with the same bits. -/
theorem ext_bits {a b : Mask}
    (h : ∀ (i : Nat) (_ : i < 4), ∀ j < 8, a[i].toBitVec.getLsbD j = b[i].toBitVec.getLsbD j) :
    a = b := by
  apply Vector.ext
  intro i hi
  apply UInt8.toBitVec_inj.mp
  exact BitVec.eq_of_getLsbD_eq fun j hj => h i hi j hj

/-- The place in a word of the byte `i` of memory, from the low end. -/
def place (bigEndian : Bool) (i : Nat) : Nat := if bigEndian then 3 - i else i

theorem getLsbD_toNeBytes (w : BitVec 32) {i j : Nat} (hi : i < 4) (hj : j < 8) :
    (toNeBytes bigEndian w)[i].toBitVec.getLsbD j = w.getLsbD (8 * place bigEndian i + j) := by
  have h : (toNeBytes bigEndian w)[i].toBitVec = w.extractLsb' (8 * place bigEndian i) 8 := by
    unfold toNeBytes place
    rcases bigEndian with _ | _ <;> rcases i with _ | _ | _ | _ | i <;> first | rfl | omega
  rw [h, BitVec.getLsbD_extractLsb', decide_eq_true hj, Bool.true_and]

theorem getLsbD_fromNeBytes (m : Mask) {i j : Nat} (hi : i < 4) (hj : j < 8) :
    (m.fromNeBytes bigEndian).getLsbD (8 * place bigEndian i + j) = m[i].toBitVec.getLsbD j := by
  unfold fromNeBytes place
  rcases bigEndian with _ | _ <;> rcases i with _ | _ | _ | _ | i
  all_goals grind

theorem toNeBytes_fromNeBytes (m : Mask) : toNeBytes bigEndian (m.fromNeBytes bigEndian) = m := by
  apply ext_bits
  intro i hi j hj
  rw [getLsbD_toNeBytes _ hi hj, getLsbD_fromNeBytes _ hi hj]

/-- The word rotated by `k` bytes, in the direction that takes them off the front in memory. -/
def rotate (bigEndian : Bool) (w : BitVec 32) (k : Nat) : BitVec 32 :=
  if bigEndian then w.rotateLeft (8 * k) else w.rotateRight (8 * k)

theorem getLsbD_rotate (w : BitVec 32) {i j k : Nat} (hi : i < 4) (hj : j < 8) (hk : k < 4) :
    (rotate bigEndian w k).getLsbD (8 * place bigEndian i + j) =
      w.getLsbD (8 * place bigEndian ((i + k) % 4) + j) := by
  have hr : 8 * k % 32 = 8 * k := Nat.mod_eq_of_lt (by omega)
  have hm : (i + k) % 4 = if i + k < 4 then i + k else i + k - 4 := by
    split <;> omega
  unfold rotate place
  rw [hm]
  cases bigEndian with
  | false =>
    simp only [Bool.false_eq_true, if_false]
    rw [BitVec.getLsbD_rotateRight, hr]
    by_cases hc : i + k < 4
    · rw [if_pos hc, decide_eq_true (by omega), cond_true]
      congr 1
      omega
    · rw [if_neg hc, decide_eq_false (by omega), cond_false, decide_eq_true (by omega),
        Bool.true_and]
      congr 1
      omega
  | true =>
    simp only [if_true]
    rw [BitVec.getLsbD_rotateLeft, hr]
    by_cases hc : i + k < 4
    · rw [if_pos hc, decide_eq_false (by omega), cond_false, decide_eq_true (by omega),
        Bool.true_and]
      congr 1
      omega
    · rw [if_neg hc, decide_eq_true (by omega), cond_true]
      congr 1
      omega

theorem toNeBytes_rotate (m : Mask) {k : Nat} (hk : k < 4) :
    toNeBytes bigEndian (rotate bigEndian (m.fromNeBytes bigEndian) k) = m.turn k := by
  apply ext_bits
  intro i hi j hj
  rw [getLsbD_toNeBytes _ hi hj, getLsbD_rotate _ hi hj hk,
    getLsbD_fromNeBytes _ (Nat.mod_lt _ (by omega)) hj, getElem_turn]

theorem getElem_toNeBytes_xor (x y : BitVec 32) (i : Nat) (hi : i < 4) :
    (toNeBytes bigEndian (x ^^^ y))[i] =
      (toNeBytes bigEndian x)[i] ^^^ (toNeBytes bigEndian y)[i] := by
  apply UInt8.toBitVec_inj.mp
  apply BitVec.eq_of_getLsbD_eq
  intro j hj
  rw [UInt8.toBitVec_xor, BitVec.getLsbD_xor]
  simp only [getLsbD_toNeBytes _ hi hj, BitVec.getLsbD_xor]

end Mask

/-! ## The four ways -/

section Ways

variable {bigEndian : Bool} {mask : Mask}

theorem unmaskEasy_append (xs ys : List UInt8) (mask : Mask) :
    unmaskEasy (xs ++ ys) mask = unmaskEasy xs mask ++ unmaskEasy ys (mask.turn xs.length) := by
  unfold unmaskEasy
  rw [List.mapIdx_append]
  congr 2
  funext i v
  rw [Mask.getElem_turn]
  congr 2
  omega

@[simp] theorem length_unmaskEasy (xs : List UInt8) (mask : Mask) :
    (unmaskEasy xs mask).length = xs.length := List.length_mapIdx

theorem unmaskEasy_append_of_dvd (xs ys : List UInt8) (h : 4 ∣ xs.length) (mask : Mask) :
    unmaskEasy (xs ++ ys) mask = unmaskEasy xs mask ++ unmaskEasy ys mask := by
  rw [unmaskEasy_append, Mask.turn_of_dvd h]

/-- One word. -/
theorem toNeBytes_xor (w : BitVec 32) (b0 b1 b2 b3 : UInt8) :
    (Mask.toNeBytes bigEndian (Mask.fromNeBytes bigEndian #v[b0, b1, b2, b3] ^^^ w)).toList =
      unmaskEasy [b0, b1, b2, b3] (Mask.toNeBytes bigEndian w) := by
  apply List.ext_getElem
  · rw [Vector.length_toList, length_unmaskEasy, List.length_cons, List.length_cons,
      List.length_cons, List.length_singleton]
  intro i hi _
  rw [Vector.length_toList] at hi
  simp only [Vector.getElem_toList, unmaskEasy, List.getElem_mapIdx, Nat.mod_eq_of_lt hi]
  rw [Mask.getElem_toNeBytes_xor, Mask.toNeBytes_fromNeBytes]
  congr 1

/-- A word at a time is a byte at a time. -/
theorem bytes_words (w : BitVec 32) (xs : List UInt8) (h : 4 ∣ xs.length) :
    Mask.bytes bigEndian ((Mask.words bigEndian xs).map (· ^^^ w)) =
      unmaskEasy xs (Mask.toNeBytes bigEndian w) := by
  induction xs using Mask.words.induct with
  | case1 b0 b1 b2 b3 rest ih =>
    have hr : 4 ∣ rest.length := by
      simpa only [List.length_cons, Nat.dvd_add_self_right, Nat.add_assoc] using h
    have hsplit := unmaskEasy_append_of_dvd [b0, b1, b2, b3] rest (Nat.dvd_refl 4)
      (Mask.toNeBytes bigEndian w)
    rw [Mask.words, List.map_cons, Mask.bytes, List.flatMap_cons, toNeBytes_xor, ← Mask.bytes,
      ih hr, ← hsplit]
    rfl
  | case2 xs hxs =>
    -- less than four bytes, and a whole number of words
    have hnil : xs = [] := by
      rcases xs with _ | ⟨b0, _ | ⟨b1, _ | ⟨b2, _ | ⟨b3, rest⟩⟩⟩⟩
      · rfl
      · simp at h
      · simp at h
      · simp at h
      · exact absurd rfl (hxs b0 b1 b2 b3 rest)
    rw [hnil]
    rfl

theorem alignTo_spec (addr len : Nat) :
    (alignTo addr len).1 + (alignTo addr len).2 ≤ len ∧ 4 ∣ (alignTo addr len).2 := by
  unfold alignTo
  simp only
  split
  · exact ⟨Nat.le_refl _, Nat.dvd_zero 4⟩
  · exact ⟨by simp only; omega, Nat.dvd_mul_right 4 _⟩

theorem unmaskFallback_eq (bigEndian : Bool) (addr : Nat) (buf : List UInt8) (mask : Mask) :
    unmaskFallback bigEndian addr buf mask = unmaskEasy buf mask := by
  obtain ⟨hle, hd⟩ := alignTo_spec addr buf.length
  unfold unmaskFallback
  generalize alignTo addr buf.length = pw at hle hd
  obtain ⟨p, w⟩ := pw
  simp only at hle hd ⊢
  generalize hm : (if 0 < p % 4 then
      if bigEndian = true then (mask.fromNeBytes bigEndian).rotateLeft (8 * (p % 4))
      else (mask.fromNeBytes bigEndian).rotateRight (8 * (p % 4))
      else mask.fromNeBytes bigEndian) = maskU32
  have hturn : Mask.toNeBytes bigEndian maskU32 = mask.turn p := by
    rw [← hm]
    by_cases h0 : 0 < p % 4
    · rw [if_pos h0, ← Mask.turn_mod]
      exact Mask.toNeBytes_rotate mask (Nat.mod_lt _ (by omega))
    · rw [if_neg h0, Mask.toNeBytes_fromNeBytes, Mask.turn_of_dvd (by omega)]
  have hp : (buf.take p).length = p := List.length_take_of_le (by omega)
  have hw : 4 ∣ ((buf.drop p).take w).length := by
    rw [List.length_take_of_le (by rw [List.length_drop]; omega)]
    exact hd
  calc
    _ = unmaskEasy (buf.take p) mask ++ unmaskEasy ((buf.drop p).take w) (mask.turn p) ++
          unmaskEasy ((buf.drop p).drop w) (mask.turn p) := by
      rw [bytes_words _ _ hw, hturn, List.drop_drop]
    _ = unmaskEasy (buf.take p) mask ++ unmaskEasy (buf.drop p) (mask.turn (buf.take p).length) := by
      rw [List.append_assoc, ← unmaskEasy_append_of_dvd _ _ hw, List.take_append_drop, hp]
    _ = unmaskEasy buf mask := by rw [← unmaskEasy_append, List.take_append_drop]

/-- A vector at a time is a byte at a time. -/
theorem xorVector_eq (lanes : Nat) (mask : Mask) (block : List UInt8)
    (h : block.length = 4 * lanes) : xorVector lanes mask block = unmaskEasy block mask := by
  have hw : (Mask.words false block).length = lanes := by
    rw [Mask.length_words, h, Nat.mul_div_cancel_left _ (by omega)]
  have hmap : List.zipWith (· ^^^ ·) (Mask.words false block)
      (List.replicate lanes (mask.fromNeBytes false)) =
      (Mask.words false block).map (· ^^^ mask.fromNeBytes false) := by
    apply List.ext_getElem
    · simp [hw]
    · intro i _ _
      simp
  unfold xorVector
  simp only
  rw [hmap, bytes_words _ _ (by rw [h]; exact Nat.dvd_mul_right 4 _), Mask.toNeBytes_fromNeBytes]

theorem periodic_xor (mask : Mask) (k : Nat) :
    Function.Periodic (fun (i : Nat) (v : UInt8) => v ^^^ mask[i % 4]) (4 * k) := by
  intro i
  funext v
  simp only [Nat.add_mul_mod_self_left]

/-- The loop of vectors, and what is left to do: the rest of the payload, at its own address. -/
theorem vectors_eq (lanes : Nat) (hl : 0 < lanes) (payload : List UInt8) (mask : Mask)
    (tail : List UInt8 → List UInt8) (ht : ∀ xs, tail xs = unmaskEasy xs mask) (n : Nat)
    (hn : n = payload.length - payload.length % (4 * lanes)) :
    (if n < payload.length then
        (loopBlocks (4 * lanes) (xorVector lanes mask) n 0 payload).take n ++
          tail ((loopBlocks (4 * lanes) (xorVector lanes mask) n 0 payload).drop n)
      else loopBlocks (4 * lanes) (xorVector lanes mask) n 0 payload) = unmaskEasy payload mask := by
  have hle : n ≤ payload.length := by omega
  have hd : 4 ∣ n := by
    rw [hn]
    have := Nat.dvd_sub_mod (n := 4 * lanes) payload.length
    exact Nat.dvd_trans (Nat.dvd_mul_right 4 lanes) this
  have hloop : loopBlocks (4 * lanes) (xorVector lanes mask) n 0 payload =
      unmaskEasy (payload.take n) mask ++ payload.drop n := by
    rw [hn]
    exact loopBlocks_eq (periodic_xor mask lanes) (by omega) (xorVector_eq lanes mask) payload
  have htake : (unmaskEasy (payload.take n) mask).length = n := by
    rw [length_unmaskEasy, List.length_take_of_le hle]
  have hall : unmaskEasy (payload.take n) mask ++ unmaskEasy (payload.drop n) mask =
      unmaskEasy payload mask := by
    rw [← unmaskEasy_append_of_dvd _ _ (by rw [List.length_take_of_le hle]; exact hd),
      List.take_append_drop]
  rw [hloop]
  split
  · rw [List.take_left' htake, List.drop_left' htake, ht, hall]
  · next hge =>
    rw [← hall, List.drop_eq_nil_of_le (by omega)]
    rfl

theorem unmaskSse2_eq (addr : Nat) (payload : List UInt8) (mask : Mask) :
    unmaskSse2 addr payload mask = unmaskEasy payload mask := by
  unfold unmaskSse2
  simp only
  split
  · exact unmaskFallback_eq false addr payload mask
  · exact vectors_eq 4 (by omega) payload mask _ (unmaskFallback_eq false _ · mask) _ rfl

theorem unmaskAvx2_eq (addr : Nat) (payload : List UInt8) (mask : Mask) :
    unmaskAvx2 addr payload mask = unmaskEasy payload mask := by
  unfold unmaskAvx2
  exact vectors_eq 8 (by omega) payload mask _ (unmaskSse2_eq _ · mask) _ rfl

theorem unmask_eq (target : Target) (addr : Nat) (payload : List UInt8) (mask : Mask) :
    unmask target addr payload mask = unmaskEasy payload mask := by
  unfold unmask
  cases target with
  | other bigEndian => exact unmaskFallback_eq bigEndian addr payload mask
  | x86 avx2 =>
    simp only
    split
    · exact unmaskAvx2_eq addr payload mask
    split
    · exact unmaskSse2_eq addr payload mask
    · exact unmaskFallback_eq false addr payload mask

end Ways

end ShrimpWisp
