import Mathlib.Algebra.GroupWithZero.Nat
import NoticeLedger.Proofs.KeyOrder

/-!
# Tallies

What raising a number and merging do to a tally, told by what the tally holds for a key. Merging
adds the numbers key by key (`Tally.count_merge`) and a merged tally holds the keys of both
(`Tally.mem_keys_merge`). A tally that counts the keys of a list (`Tally.Counts`) goes on to do so
when a key is added or another tally is merged in. A tally that adds up others (`Tally.Sums`) does
so in any order (`Tally.Sums.get?_eq_of_perm`).
-/

namespace NoticeLedger.Tally

/-- What a tally holds is told by its keys and its numbers. -/
theorem get?_eq (t : Tally) (k : Key) :
    t.get? k = if k ∈ t.keys then some (t.count k) else none := by
  split
  · rename_i h
    obtain ⟨n, hn⟩ := Option.isSome_iff_exists.1 (KeyMap.mem_keys_iff.1 h)
    simp [count, hn]
  · rename_i h
    simpa [KeyMap.mem_keys_iff] using h

theorem count_eq_zero {t : Tally} {k : Key} (h : k ∉ t.keys) : t.count k = 0 := by
  rw [count, get?_eq, if_neg h]
  rfl

@[simp] theorem count_empty (k : Key) : count {} k = 0 := rfl

/-! ### Raising a number -/

@[simp] theorem count_add_self (t : Tally) (k : Key) (n : Nat) :
    (t.add k n).count k = t.count k + n := by
  simp [count_add]

theorem mem_keys_add {t : Tally} {k k' : Key} {n : Nat} :
    k' ∈ (t.add k n).keys ↔ k' = k ∨ k' ∈ t.keys :=
  KeyMap.mem_keys_alter

/-! ### Merging -/

theorem count_foldl_add {es : List (Key × Nat)} (h : (es.map (·.1)).Nodup) (t : Tally) (k : Key) :
    (es.foldl (fun acc e => add acc e.1 e.2) t).count k
      = t.count k + (KeyMap.find? k es).getD 0 := by
  induction es generalizing t with
  | nil => simp [KeyMap.find?]
  | cons e es ih =>
    obtain ⟨hnotMem, hes⟩ := List.nodup_cons.1 h
    rw [List.foldl_cons, ih hes, count_add, KeyMap.find?]
    by_cases hk : e.1 = k
    · -- no later entry has the key of `e`
      have hnone : KeyMap.find? k es = none := by
        have hk' : k ∉ (KeyMap.mk es hes).keys := hk ▸ hnotMem
        rw [KeyMap.mem_keys_iff] at hk'
        simpa [KeyMap.get?] using hk'
      simp [hk, hnone]
    · simp [hk]

theorem mem_keys_foldl_add {es : List (Key × Nat)} {t : Tally} {k : Key} :
    k ∈ (es.foldl (fun acc e => add acc e.1 e.2) t).keys ↔ k ∈ t.keys ∨ k ∈ es.map (·.1) := by
  induction es generalizing t with
  | nil => simp
  | cons e es ih =>
    rw [List.foldl_cons, ih, mem_keys_add, List.map_cons, List.mem_cons, or_left_comm, or_assoc]

/-- Merging adds the numbers of every key. -/
@[simp] theorem count_merge (t u : Tally) (k : Key) :
    (t.merge u).count k = t.count k + u.count k :=
  count_foldl_add u.nodup t k

/-- A merged tally holds the keys of both. -/
theorem mem_keys_merge {t u : Tally} {k : Key} :
    k ∈ (t.merge u).keys ↔ k ∈ t.keys ∨ k ∈ u.keys :=
  mem_keys_foldl_add

/-! ### Counting keys -/

/-- The tally holds the keys of a list, each with the number of its occurrences. -/
structure Counts (t : Tally) (ks : List Key) : Prop where
  keys : ∀ k, k ∈ t.keys ↔ k ∈ ks
  count : ∀ k, t.count k = ks.count k

namespace Counts

variable {t u : Tally} {ks ls : List Key}

theorem empty : Counts {} [] where
  keys := by simp
  count := by simp

theorem pos (h : t.Counts ks) {k : Key} (hk : k ∈ t.keys) : 1 ≤ t.count k := by
  rw [h.count]
  exact List.count_pos_iff.2 ((h.keys k).1 hk)

theorem add (h : t.Counts ks) (k : Key) : (t.add k 1).Counts (ks ++ [k]) := by
  constructor
  · intro k'
    rw [mem_keys_add, h.keys, List.mem_append, List.mem_singleton, or_comm]
  · intro k'
    rw [count_add, h.count, h.count, List.count_append, List.count_singleton]
    by_cases hk : k = k'
    · simp [hk]
    · simp [hk]

theorem merge (h : t.Counts ks) (h' : u.Counts ls) : (t.merge u).Counts (ks ++ ls) := by
  constructor
  · intro k
    rw [mem_keys_merge, h.keys, h'.keys, List.mem_append]
  · intro k
    rw [count_merge, h.count, h'.count, List.count_append]

end Counts

/-! ### Sums -/

/-- The tally holds the keys of all tallies of a list, their numbers added up. -/
structure Sums (t : Tally) (ts : List Tally) : Prop where
  keys : ∀ k, k ∈ t.keys ↔ ∃ u ∈ ts, k ∈ u.keys
  count : ∀ k, t.count k = (ts.map (·.count k)).sum

namespace Sums

variable {t u : Tally} {ts us : List Tally}

theorem empty : Sums {} [] where
  keys := by simp
  count := by simp

theorem singleton (t : Tally) : t.Sums [t] where
  keys := by simp
  count := by simp

theorem merge (h : t.Sums ts) (h' : u.Sums us) : (t.merge u).Sums (ts ++ us) where
  keys k := by simp [mem_keys_merge, h.keys, h'.keys, or_and_right, exists_or]
  count k := by simp [h.count, h'.count]

/-- In a sum it does not matter in which order the tallies are added. -/
theorem get?_eq_of_perm (h : t.Sums ts) (h' : u.Sums us) (hperm : us.Perm ts) (k : Key) :
    u.get? k = t.get? k := by
  have hkeys : k ∈ u.keys ↔ k ∈ t.keys := by simp [h.keys, h'.keys, hperm.mem_iff]
  have hcount : u.count k = t.count k := by
    rw [h.count, h'.count]
    exact (hperm.map _).sum_nat
  simp [get?_eq, hkeys, hcount]

end Sums

end NoticeLedger.Tally
