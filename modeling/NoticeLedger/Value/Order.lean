import NoticeLedger.Outcome
import NoticeLedger.Value

/-!
# Order of keys

Two keys are in an order if both are texts, numbers, bytes, or tuples that differ first in such
keys (`Value.keyLt?`). The entries of a map are brought into the order of their keys if no two keys
that have to be compared are without order (`Value.orderEntries?`).

What is not a number stands neither before nor behind any number, so with such a key the outcome
depends on the way of sorting. The way is an insertion by halving behind the longest run in front
(`insertionSort?`).
-/

namespace NoticeLedger

/-! ### Insertion -/

section Insertion

variable {α : Type} (lt? : α → α → Option Bool)

/-- The place of an item between two places of a list, found by halving. -/
def insertionPlace? (a : α) (xs : List α) (low high : Nat) : Option Nat :=
  if low < high then
    let middle := low + (high - low) / 2
    match xs[middle]? with
    | none   => some low
    | some x =>
      match lt? a x with
      | none       => none
      | some true  => insertionPlace? a xs low middle
      | some false => insertionPlace? a xs (middle + 1) high
  else some low
termination_by high - low

/-- Put an item into a list. -/
def insertByHalving? (xs : List α) (a : α) : Option (List α) :=
  (insertionPlace? lt? a xs 0 xs.length).map fun n => xs.take n ++ a :: xs.drop n

/-- The items behind `a` that fall, or do not, each compared with the one in front of it, and what
follows them. -/
def splitRun? (falling : Bool) : (a : α) → List α → Option (List α × List α)
  | _, []      => some ([], [])
  | a, b :: bs =>
    match lt? b a with
    | none   => none
    | some f =>
      if f = falling then (splitRun? falling b bs).map fun run => (b :: run.1, run.2)
      else some ([], b :: bs)

theorem perm_of_insertByHalving? {xs ys : List α} {a : α}
    (h : insertByHalving? lt? xs a = some ys) : ys.Perm (a :: xs) := by
  obtain ⟨n, _, rfl⟩ := Option.map_eq_some_iff.1 h
  exact List.perm_middle.trans (by rw [List.take_append_drop])

theorem append_of_splitRun? {falling : Bool} {a : α} {bs : List α} {run : List α × List α}
    (h : splitRun? lt? falling a bs = some run) : run.1 ++ run.2 = bs := by
  induction bs generalizing a run with
  | nil          => obtain rfl := Option.some.inj h; rfl
  | cons b bs ih =>
    rw [splitRun?] at h
    split at h
    · cases h
    · split at h
      · obtain ⟨tail, ht, rfl⟩ := Option.map_eq_some_iff.1 h
        rw [List.cons_append, ih ht]
      · obtain rfl := Option.some.inj h
        rfl

/-- Sort a list: the longest run in front is kept, or turned round if it falls, and every further
item is put into it. Two items without order that are compared decide a failure. -/
def insertionSort? : List α → Option (List α)
  | a :: b :: bs => do
    let falling ← lt? b a
    let (run, rest) ← splitRun? lt? falling a (b :: bs)
    rest.foldlM (insertByHalving? lt?) (if falling then (a :: run).reverse else a :: run)
  | as           => some as

theorem perm_of_foldlM_insertByHalving? {xs ys zs : List α}
    (h : ys.foldlM (insertByHalving? lt?) xs = some zs) : zs.Perm (xs ++ ys) := by
  induction ys generalizing xs with
  | nil          => obtain rfl := Option.some.inj h; rw [List.append_nil]
  | cons y ys ih =>
    rw [List.foldlM_cons] at h
    obtain ⟨xs', hx, hz⟩ := Option.bind_eq_some_iff.1 h
    exact (ih hz).trans
      (((perm_of_insertByHalving? lt? hx).append_right ys).trans List.perm_middle.symm)

/-- Sorting keeps the items. -/
theorem perm_of_insertionSort? {xs ys : List α} (h : insertionSort? lt? xs = some ys) :
    ys.Perm xs := by
  match xs with
  | []           => obtain rfl := Option.some.inj h; exact .refl _
  | [a]          => obtain rfl := Option.some.inj h; exact .refl _
  | a :: b :: bs =>
    obtain ⟨falling, _, h⟩ := Option.bind_eq_some_iff.1 h
    obtain ⟨run, hr, h⟩ := Option.bind_eq_some_iff.1 h
    refine (perm_of_foldlM_insertByHalving? lt? h).trans ?_
    rw [← append_of_splitRun? lt? hr]
    split
    · exact (List.reverse_perm _).append_right run.2
    · exact .refl _

end Insertion

namespace Value

/-! ### Keys -/

/-- The number that a value is, if it is one. -/
def number? : Value → Option (Float ⊕ Int)
  | bool b  => some (.inr b.toInt)
  | int n   => some (.inr n)
  | float x => some (.inl x)
  | _       => none

/-- A finite double as a fraction. -/
def fraction (x : Float) : Int × Nat :=
  let b := Binary.ofFloat x
  (if b.negative then -(b.numerator : Int) else b.numerator, b.denominator)

/-- Strictly before, as numbers. Nothing is before or behind what is not a number. -/
def numberLt : Float ⊕ Int → Float ⊕ Int → Bool
  | .inr m, .inr n => m < n
  | .inl x, .inl y => x < y
  | .inr m, .inl y =>
    if y.isFinite then m * (fraction y).2 < (fraction y).1 else (0 : Float) < y
  | .inl x, .inr n =>
    if x.isFinite then (fraction x).1 < n * (fraction x).2 else x < (0 : Float)

/-- Strictly before, by the first byte that differs. -/
def bytesLt : List UInt8 → List UInt8 → Bool
  | _, []            => false
  | [], _ :: _       => true
  | a :: as, b :: bs => a.toNat < b.toNat || (a == b && bytesLt as bs)

mutual

/-- Whether a key is strictly before another one, if they are in an order. -/
def keyLt? : Value → Value → Option Bool
  | text s, text t   => some (Text.lt s t)
  | bytes a, bytes b => some (bytesLt a b)
  | tuple a, tuple b => keysLt? a b
  | a, b             =>
    match a.number?, b.number? with
    | some x, some y => some (numberLt x y)
    | _, _           => none

/-- Whether keys are strictly before others, by the first that differs. -/
def keysLt? : List Value → List Value → Option Bool
  | [], []           => some false
  | [], _ :: _       => some true
  | _ :: _, []       => some false
  | a :: as, b :: bs => if sameKey a b then keysLt? as bs else keyLt? a b

end

/-! ### Entries -/

/-- Whether an entry whose key is a text is at or before another one. -/
def entryLe {α : Type} (a b : Value × α) : Bool :=
  Text.le (a.1.text?.getD []) (b.1.text?.getD [])

/-- Entries in the order of their keys, if the keys are in an order. -/
def orderEntries? {α : Type} (es : List (Value × α)) : Option (List (Value × α)) :=
  if es.all fun e => e.1.text?.isSome then some (es.mergeSort entryLe)
  else insertionSort? (fun a b => keyLt? a.1 b.1) es

mutual

/-- The entries of every map in the order of their keys, at every depth. Keys without order stay as
they are. -/
def sorted : Value → Value
  | list items  => list (sortedItems items)
  | tuple items => tuple (sortedItems items)
  | set items   => set (sortedItems items)
  | map es      => map ((orderEntries? (sortedEntries es)).getD (sortedEntries es))
  | v           => v

/-- The sorted forms of items. -/
def sortedItems : List Value → List Value
  | []      => []
  | v :: vs => sorted v :: sortedItems vs

/-- Entries with sorted values, in the given order. -/
def sortedEntries : List (Value × Value) → List (Value × Value)
  | []           => []
  | (k, v) :: es => (k, sorted v) :: sortedEntries es

end

@[simp] theorem sortedItems_eq_map (vs : List Value) : sortedItems vs = vs.map sorted := by
  induction vs with
  | nil          => simp [sortedItems]
  | cons v vs ih => simp [sortedItems, ih]

@[simp] theorem sortedEntries_eq_map (es : List (Value × Value)) :
    sortedEntries es = es.map fun e => (e.1, sorted e.2) := by
  induction es with
  | nil          => simp [sortedEntries]
  | cons e es ih => cases e; simp [sortedEntries, ih]

end Value

end NoticeLedger
