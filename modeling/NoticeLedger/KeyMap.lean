import NoticeLedger.Key

/-!
# Maps from keys

A map from the keys of notices keeps its entries in the order in which the keys were first set.
`KeyMap.alter` is its one operation; a key that is altered keeps its place
(`KeyMap.get?_alter_self`, `KeyMap.get?_alter_ne`, `KeyMap.keys_alter`). A tally is a map to
numbers, zero for a key that it does not hold.
-/

namespace NoticeLedger

variable {α : Type}

/-! ### Lists of entries -/

namespace KeyMap

/-- The value of a key in a list of entries. -/
def find? (k : Key) : List (Key × α) → Option α
  | []      => none
  | e :: es => if e.1 = k then some e.2 else find? k es

/-- Set a key to what `f` makes of its value. -/
def alterEntries (k : Key) (f : Option α → α) : List (Key × α) → List (Key × α)
  | []      => [(k, f none)]
  | e :: es => if e.1 = k then (k, f (some e.2)) :: es else e :: alterEntries k f es

theorem keys_alterEntries (k : Key) (f : Option α → α) (es : List (Key × α)) :
    (alterEntries k f es).map (·.1) =
      if k ∈ es.map (·.1) then es.map (·.1) else es.map (·.1) ++ [k] := by
  induction es with
  | nil => simp [alterEntries]
  | cons e es ih =>
    by_cases h : e.1 = k
    · simp [alterEntries, h]
    · have h' : ¬k = e.1 := fun e => h e.symm
      simp only [alterEntries, h, if_false, List.map_cons, ih, List.mem_cons, h', false_or]
      split <;> simp

theorem nodup_alterEntries {k : Key} {f : Option α → α} {es : List (Key × α)}
    (h : (es.map (·.1)).Nodup) : ((alterEntries k f es).map (·.1)).Nodup := by
  rw [keys_alterEntries]
  split
  · exact h
  · rename_i hk
    rw [List.nodup_append]
    refine ⟨h, by simp, ?_⟩
    rintro a ha b hb rfl
    simp only [List.mem_singleton] at hb
    exact hk (hb ▸ ha)

theorem find?_alterEntries (k k' : Key) (f : Option α → α) (es : List (Key × α)) :
    find? k' (alterEntries k f es) = if k = k' then some (f (find? k es)) else find? k' es := by
  induction es with
  | nil => simp [alterEntries, find?]
  | cons e es ih =>
    by_cases h : e.1 = k
    · by_cases hk : k = k' <;> simp [alterEntries, find?, h, hk]
    · by_cases hk : k = k'
      · subst hk
        simpa [alterEntries, find?, h] using ih
      · by_cases h' : e.1 = k' <;> simp_all [alterEntries, find?]

end KeyMap

/-! ### Maps -/

/-- A map from keys. -/
structure KeyMap (α : Type) where
  entries : List (Key × α) := []
  nodup : (entries.map (·.1)).Nodup := by simp
  deriving Repr

namespace KeyMap

instance : Inhabited (KeyMap α) := ⟨{}⟩

/-- The keys in the order in which they were first set. -/
def keys (m : KeyMap α) : List Key :=
  m.entries.map (·.1)

/-- The value of a key. -/
def get? (m : KeyMap α) (k : Key) : Option α :=
  find? k m.entries

/-- Set a key to what `f` makes of its value. -/
def alter (m : KeyMap α) (k : Key) (f : Option α → α) : KeyMap α :=
  ⟨alterEntries k f m.entries, nodup_alterEntries m.nodup⟩

/-- The entries in the order of their keys. -/
def sorted (m : KeyMap α) : List (Key × α) :=
  m.entries.mergeSort fun a b => Key.le a.1 b.1

@[simp] theorem get?_empty (k : Key) : ({} : KeyMap α).get? k = none := rfl

@[simp] theorem keys_empty : ({} : KeyMap α).keys = [] := rfl

theorem keys_alter (m : KeyMap α) (k : Key) (f : Option α → α) :
    (m.alter k f).keys = if k ∈ m.keys then m.keys else m.keys ++ [k] :=
  keys_alterEntries k f m.entries

theorem get?_alter (m : KeyMap α) (k k' : Key) (f : Option α → α) :
    (m.alter k f).get? k' = if k = k' then some (f (m.get? k)) else m.get? k' :=
  find?_alterEntries k k' f m.entries

@[simp] theorem get?_alter_self (m : KeyMap α) (k : Key) (f : Option α → α) :
    (m.alter k f).get? k = some (f (m.get? k)) := by
  simp [get?_alter]

theorem get?_alter_ne (m : KeyMap α) {k k' : Key} (f : Option α → α) (h : k ≠ k') :
    (m.alter k f).get? k' = m.get? k' := by
  simp [get?_alter, h]

end KeyMap

/-! ### Tallies -/

/-- A map from keys to numbers. -/
abbrev Tally := KeyMap Nat

namespace Tally

/-- The number of a key. -/
def count (t : Tally) (k : Key) : Nat :=
  (t.get? k).getD 0

/-- Raise the number of a key. -/
def add (t : Tally) (k : Key) (n : Nat) : Tally :=
  t.alter k fun old => old.getD 0 + n

/-- Raise the numbers of all the keys of another tally. -/
def merge (t u : Tally) : Tally :=
  u.entries.foldl (fun acc e => add acc e.1 e.2) t

theorem count_add (t : Tally) (k k' : Key) (n : Nat) :
    (t.add k n).count k' = if k = k' then t.count k + n else t.count k' := by
  unfold add count
  rw [KeyMap.get?_alter]
  split <;> simp

end Tally

end NoticeLedger
