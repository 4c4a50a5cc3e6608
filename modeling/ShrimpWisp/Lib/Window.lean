import Mathlib.Data.Finset.Card
import Mathlib.Data.List.Chain
import Mathlib.Data.List.Induction
import Mathlib.Logic.Function.Basic

/-!
# Fixed windows

Attempts are counted in windows of a fixed width. A window opens with an attempt; the attempts that
follow belong to it as long as they come less than the width after its first one, and the next
attempt opens a new window.

* `Windows w ts ws`: the times `ts`, the oldest first, fall into the windows `ws`.
* `window w ts`: the last of them, computed. There is such a division (`exists_windows`), and
  `window` is the last part of any (`Windows.getLastD`).
* `AmongFirst n w ts`: the last attempt is among the first `n` of its window.

A limiter keeps for each key only a count and the start of a window.

* `RateMap.hit`: an attempt of a key is counted. `RateMap.retain`: entries of windows that are over
  are dropped.
* `Knows`: the map knows the current window of every key, except that an entry may be missing when
  its window is over. Both operations keep it (`Knows.hit`, `Knows.retain`), and with it the count
  is that of the attempts in the window (`Knows.hit_count`), so dropping entries changes no later
  count.
* `RateMap.OpenAt`: which entries there are after entries were dropped, besides those of the keys
  with a first attempt since.
-/

namespace ShrimpWisp

/-! ## Windows -/

/-- The times fall into windows (module doc). -/
structure Windows (w : Nat) (ts : List Nat) (ws : List (List Nat)) : Prop where
  whole : ws.flatten = ts
  inside : ∀ win ∈ ws, ∃ start rest, win = start :: rest ∧ ∀ t ∈ rest, t < start + w
  apart : ws.IsChain fun a b => ∀ s ∈ a.head?, ∀ t ∈ b.head?, s + w ≤ t

/-- One more attempt after those of the current window. -/
def windowAdd (w : Nat) (cur : List Nat) (t : Nat) : List Nat :=
  match cur with
  | [] => [t]
  | start :: rest => if start + w ≤ t then [t] else start :: (rest ++ [t])

/-- The attempts of the current window. -/
def window (w : Nat) (ts : List Nat) : List Nat := ts.foldl (windowAdd w) []

variable {w : Nat}

@[simp] theorem window_nil : window w [] = [] := rfl

theorem window_concat (ts : List Nat) (t : Nat) :
    window w (ts ++ [t]) = windowAdd w (window w ts) t := by
  rw [window, List.foldl_append]
  rfl

theorem mem_of_mem_window {ts : List Nat} {t : Nat} (h : t ∈ window w ts) : t ∈ ts := by
  induction ts using List.reverseRecOn with
  | nil => cases h
  | append_singleton ts u ih =>
    rw [window_concat] at h
    rw [List.mem_append]
    unfold windowAdd at h
    split at h
    next => exact .inr h
    next start rest hw =>
      rw [hw] at ih
      split at h
      · exact .inr h
      · rw [← List.cons_append, List.mem_append] at h
        exact h.imp_left ih

/-- The attempts of one window, after a window that is over. -/
theorem foldl_windowAdd {cur : List Nat} {start : Nat} {rest : List Nat}
    (hcur : ∀ s ∈ cur.head?, s + w ≤ start) (hin : ∀ t ∈ rest, t < start + w) :
    (start :: rest).foldl (windowAdd w) cur = start :: rest := by
  have hopen : windowAdd w cur start = [start] := by
    cases cur with
    | nil => rfl
    | cons s cur => exact if_pos (hcur s rfl)
  have hjoin : ∀ more done, (∀ t ∈ more, t < start + w) →
      more.foldl (windowAdd w) (start :: done) = start :: (done ++ more) := by
    intro more
    induction more with
    | nil =>
      intro done _
      simp
    | cons t more ih =>
      intro done h
      have ht : windowAdd w (start :: done) t = start :: (done ++ [t]) :=
        if_neg (Nat.not_le.mpr (h t List.mem_cons_self))
      rw [List.foldl_cons, ht, ih _ fun t' ht' => h t' (List.mem_cons_of_mem t ht')]
      simp
  rw [List.foldl_cons, hopen, hjoin rest [] hin, List.nil_append]

/-- The last window of any division is `window`. -/
theorem Windows.getLastD {ts : List Nat} {ws : List (List Nat)} (h : Windows w ts ws) :
    ws.getLastD [] = window w ts := by
  have hfold : ∀ (ws : List (List Nat)) (cur : List Nat),
      (∀ win ∈ ws, ∃ start rest, win = start :: rest ∧ ∀ t ∈ rest, t < start + w) →
      (cur :: ws).IsChain (fun a b => ∀ s ∈ a.head?, ∀ t ∈ b.head?, s + w ≤ t) →
      ws.flatten.foldl (windowAdd w) cur = ws.getLastD cur := by
    intro ws
    induction ws with
    | nil => exact fun _ _ _ => rfl
    | cons win ws ih =>
      intro cur hin hchain
      obtain ⟨start, rest, rfl, hrest⟩ := hin win List.mem_cons_self
      obtain ⟨hcur, htail⟩ := List.isChain_cons_cons.mp hchain
      rw [List.flatten_cons, List.foldl_append,
        foldl_windowAdd (fun s hs => hcur s hs start rfl) hrest,
        ih _ (fun win hw => hin win (List.mem_cons_of_mem _ hw)) htail, List.getLastD_cons]
  rw [window, ← h.whole, hfold ws [] h.inside]
  exact h.apart.cons fun _ _ _ hs => absurd hs (by simp)

/-- An attempt after the last window is over opens a new one. -/
theorem Windows.opens {ts : List Nat} {ws : List (List Nat)} {t : Nat} (h : Windows w ts ws)
    (hlast : ∀ last ∈ ws.getLast?, ∀ s ∈ last.head?, s + w ≤ t) :
    Windows w (ts ++ [t]) (ws ++ [[t]]) where
  whole := by
    rw [List.flatten_append, h.whole]
    rfl
  inside win hw := by
    rcases List.mem_append.mp hw with hw | hw
    · exact h.inside win hw
    · rw [List.mem_singleton.mp hw]
      exact ⟨t, [], rfl, nofun⟩
  apart := by
    refine List.isChain_append.mpr ⟨h.apart, .singleton _, ?_⟩
    intro a ha b hb s hs u hu
    cases hb
    cases hu
    exact hlast a ha s hs

/-- An attempt within the last window joins it. -/
theorem Windows.joins {ts : List Nat} {init : List (List Nat)} {start : Nat} {rest : List Nat}
    {t : Nat} (h : Windows w ts (init ++ [start :: rest])) (ht : t < start + w) :
    Windows w (ts ++ [t]) (init ++ [start :: (rest ++ [t])]) where
  whole := by
    rw [← h.whole]
    simp
  inside win hw := by
    rcases List.mem_append.mp hw with hw | hw
    · exact h.inside win (List.mem_append_left _ hw)
    · rw [List.mem_singleton.mp hw]
      obtain ⟨_, _, heq, hrest⟩ := h.inside (start :: rest) (by simp)
      cases heq
      refine ⟨start, rest ++ [t], rfl, ?_⟩
      intro u hu
      rcases List.mem_append.mp hu with hu | hu
      · exact hrest u hu
      · rw [List.mem_singleton.mp hu]
        exact ht
  apart := by
    obtain ⟨hinit, -, hlink⟩ := List.isChain_append.mp h.apart
    refine List.isChain_append.mpr ⟨hinit, .singleton _, ?_⟩
    intro a ha b hb s hs u hu
    cases hb
    exact hlink a ha _ rfl s hs u hu

/-- The times of the attempts fall into windows. -/
theorem exists_windows (w : Nat) (ts : List Nat) : ∃ ws, Windows w ts ws := by
  induction ts using List.reverseRecOn with
  | nil => exact ⟨[], rfl, nofun, .nil⟩
  | append_singleton ts t ih =>
    obtain ⟨ws, h⟩ := ih
    rcases List.eq_nil_or_concat ws with rfl | ⟨init, last, rfl⟩
    · exact ⟨_, h.opens nofun⟩
    · rw [List.concat_eq_append] at h
      obtain ⟨start, rest, rfl, -⟩ := h.inside last (by simp)
      by_cases ht : start + w ≤ t
      · refine ⟨_, h.opens ?_⟩
        intro last hlast s hs
        rw [List.getLast?_concat] at hlast
        cases hlast
        cases hs
        exact ht
      · exact ⟨_, h.joins (Nat.lt_of_not_le ht)⟩

/-- The last of the attempts is among the first `n` of its window. -/
def AmongFirst (n w : Nat) (ts : List Nat) : Prop :=
  ∃ ws, Windows w ts ws ∧ (ws.getLastD []).length ≤ n

theorem amongFirst_iff {n : Nat} {ts : List Nat} :
    AmongFirst n w ts ↔ (window w ts).length ≤ n := by
  constructor
  · rintro ⟨ws, h, hn⟩
    rwa [← h.getLastD]
  · intro hn
    obtain ⟨ws, h⟩ := exists_windows w ts
    exact ⟨ws, h, by rwa [h.getLastD]⟩

instance (n w : Nat) (ts : List Nat) : Decidable (AmongFirst n w ts) :=
  decidable_of_iff _ amongFirst_iff.symm

/-! ## Counting -/

/-- What a limiter keeps: for each key, the number of attempts in a window and its start. -/
abbrev RateMap (α : Type) := α → Option (Nat × Nat)

namespace RateMap

variable {α : Type} [DecidableEq α]

/-- An attempt of `k` is counted; the number of attempts in its window is returned. -/
def hit (w : Nat) (m : RateMap α) (k : α) (now : Nat) : Nat × RateMap α :=
  let entry := (m k).getD (0, now)
  let entry := if w ≤ now - entry.2 then (0, now) else entry
  let entry := (entry.1 + 1, entry.2)
  (entry.1, Function.update m k (some entry))

/-- The entries of windows that are over are dropped. -/
def retain (w : Nat) (m : RateMap α) (now : Nat) : RateMap α := fun k =>
  (m k).filter fun entry => now - entry.2 < w

end RateMap

section Knows

variable {α : Type}

/-- At `now` the map knows the window of every key, or the window is over. -/
structure Knows (w : Nat) (m : RateMap α) (attempts : α → List Nat) (now : Nat) : Prop where
  entry : ∀ k n start, m k = some (n, start) →
    start ≤ now ∧ ∃ rest, window w (attempts k) = start :: rest ∧ n = rest.length + 1
  ended : ∀ k, m k = none → ∀ start ∈ (window w (attempts k)).head?, start + w ≤ now

variable {m : RateMap α} {attempts : α → List Nat} {now now' : Nat}

theorem Knows.empty (w now : Nat) : Knows w (fun _ : α => none) (fun _ => []) now where
  entry _ _ _ h := nomatch h
  ended _ _ _ h := nomatch h

theorem Knows.later (h : Knows w m attempts now) (hle : now ≤ now') :
    Knows w m attempts now' where
  entry k n start hk := ⟨(h.entry k n start hk).1.trans hle, (h.entry k n start hk).2⟩
  ended k hk start hs := (h.ended k hk start hs).trans hle

/-- Dropping the windows that are over loses nothing. -/
theorem Knows.retain (h : Knows w m attempts now) : Knows w (m.retain w now) attempts now where
  entry k n start hk := h.entry k n start (Option.filter_eq_some_iff.mp hk).1
  ended k hk start hs := by
    cases hm : m k with
    | none => exact h.ended k hm start hs
    | some entry =>
      obtain ⟨n, start'⟩ := entry
      obtain ⟨hle, rest, hw, -⟩ := h.entry k n start' hm
      have hdrop : ¬ now - start' < w := by simpa [RateMap.retain, hm] using hk
      rw [hw] at hs
      cases hs
      omega

variable [DecidableEq α]

/-- The entry of a key after an attempt is the window with that attempt. -/
theorem Knows.hit_eq (h : Knows w m attempts now) (k : α) :
    ∃ start rest, start ≤ now ∧ window w (attempts k ++ [now]) = start :: rest ∧
      m.hit w k now = (rest.length + 1, Function.update m k (some (rest.length + 1, start))) := by
  rw [window_concat]
  cases hm : m k with
  | none =>
    refine ⟨now, [], le_rfl, ?_, ?_⟩
    · cases hw : window w (attempts k) with
      | nil => rfl
      | cons start rest => exact if_pos (h.ended k hm start (by rw [hw]; rfl))
    · simp [RateMap.hit, hm]
  | some entry =>
    obtain ⟨n, start⟩ := entry
    obtain ⟨hle, rest, hw, rfl⟩ := h.entry k n start hm
    by_cases hover : start + w ≤ now
    · have hsub : w ≤ now - start := by omega
      exact ⟨now, [], le_rfl, by rw [hw]; exact if_pos hover, by simp [RateMap.hit, hm, hsub]⟩
    · have hsub : ¬ w ≤ now - start := by omega
      refine ⟨start, rest ++ [now], hle, by rw [hw]; exact if_neg hover, ?_⟩
      simp [RateMap.hit, hm, hsub]

/-- The number returned is that of the attempts in the current window. -/
theorem Knows.hit_count (h : Knows w m attempts now) (k : α) :
    (m.hit w k now).1 = (window w (attempts k ++ [now])).length := by
  obtain ⟨start, rest, -, hw, hhit⟩ := h.hit_eq k
  rw [hhit, hw, List.length_cons]

theorem Knows.hit (h : Knows w m attempts now) (k : α) :
    Knows w (m.hit w k now).2 (Function.update attempts k (attempts k ++ [now])) now := by
  obtain ⟨start, rest, hle, hw, hhit⟩ := h.hit_eq k
  have hmap : (m.hit w k now).2 = Function.update m k (some (rest.length + 1, start)) :=
    congrArg Prod.snd hhit
  rw [hmap]
  constructor
  · intro k' n start' hk'
    by_cases hk : k' = k
    · subst hk
      rw [Function.update_self] at hk'
      cases hk'
      exact ⟨hle, rest, by rw [Function.update_self, hw], rfl⟩
    · rw [Function.update_of_ne hk] at hk' ⊢
      exact h.entry k' n start' hk'
  · intro k' hk'
    by_cases hk : k' = k
    · subst hk
      rw [Function.update_self] at hk'
      cases hk'
    · rw [Function.update_of_ne hk] at hk' ⊢
      exact h.ended k' hk'

end Knows

/-! ## What is not over -/

namespace RateMap

variable {α : Type} [DecidableEq α] {m : RateMap α} {t now : Nat} {fresh : Finset α}

/-- An attempt changes the entry of its key alone. -/
theorem hit_of_ne {k k' : α} (hk : k' ≠ k) : (m.hit w k now).2 k' = m k' :=
  Function.update_of_ne hk ..

/-- The windows of all entries besides `fresh` were open at `t`. -/
def OpenAt (m : RateMap α) (w t : Nat) (fresh : Finset α) : Prop :=
  ∀ k n start, m k = some (n, start) → k ∈ fresh ∨ start ≤ t ∧ t < start + w

omit [DecidableEq α] in
/-- The windows that are not over are open. -/
theorem openAt_retain (h : ∀ k n start, m k = some (n, start) → start ≤ now) :
    (m.retain w now).OpenAt w now ∅ := by
  intro k n start hk
  obtain ⟨hm, hopen⟩ := Option.filter_eq_some_iff.mp hk
  have hle := h k n start hm
  have hlt : now - start < w := by simpa using hopen
  exact .inr ⟨hle, by omega⟩

theorem OpenAt.hit (h : m.OpenAt w t fresh) (k : α) :
    (m.hit w k now).2.OpenAt w t (insert k fresh) := by
  intro k' n start hk'
  by_cases hk : k' = k
  · exact .inl (hk ▸ Finset.mem_insert_self ..)
  · rw [hit_of_ne hk] at hk'
    exact (h k' n start hk').imp_left (Finset.mem_insert_of_mem ·)

/-- An attempt that is not the first of its window opens none. -/
theorem OpenAt.hit_again (h : m.OpenAt w t fresh) {k : α} (hcount : 1 < (m.hit w k now).1) :
    (m.hit w k now).2.OpenAt w t fresh := by
  intro k' n start hk'
  by_cases hk : k' = k
  · subst hk
    unfold RateMap.hit at hcount hk'
    dsimp only at hcount hk'
    rw [Function.update_self] at hk'
    cases hm : m k' with
    | none =>
      rw [hm] at hcount
      simp at hcount
    | some entry =>
      rw [hm, Option.getD_some] at hcount hk'
      split at hcount
      next => simp at hcount
      next hin =>
        rw [if_neg hin] at hk'
        cases hk'
        exact h k' entry.1 entry.2 hm
  · rw [hit_of_ne hk] at hk'
    exact h k' n start hk'

end RateMap

end ShrimpWisp
