import NoticeLedger.Decimal
import NoticeLedger.Json

/-!
# Values

What a caller may hand in as a context, a document or an option: the values of JSON, and beside
them bytes, tuples, sets, maps with any keys, and foreign objects of no such kind, of which only a
text is known. Every JSON value is such a value (`Value.ofJson`). A mapping that is no map, such as
a read-only view of one, is a foreign object as a context. As the document of a report it has a form
of its own (`Document`), and as a summary in such a document it is not told apart from a map.

A map keeps its entries in the order in which their keys were first set. Keys that are equal as
numbers are the same key (`Value.sameKey`), whatever their kinds are.
-/

namespace NoticeLedger

/-- A value of any kind. -/
inductive Value where
  | null
  | bool (b : Bool)
  | int (n : Int)
  | float (x : Float)
  | text (t : Text)
  | bytes (bs : List UInt8)
  | list (items : List Value)
  | tuple (items : List Value)
  | set (items : List Value)
  | map (entries : List (Value × Value))
  | foreign (shown : Text)
  deriving Repr, Inhabited

/-! ### Integral doubles -/

/-- The integer that a double is equal to, if there is one. -/
def integer? (x : Float) : Option Int :=
  let b := Binary.ofFloat x
  if !x.isFinite then none
  else if b.numerator % b.denominator ≠ 0 then none
  else
    let n : Int := b.numerator / b.denominator
    some (if b.negative then -n else n)

namespace Value

/-! ### Keys -/

mutual

/-- Whether two values are the same key of a map. Truth values count as the integers zero and
one, and a number is the same key as any number equal to it. -/
def sameKey : Value → Value → Bool
  | null, null           => true
  | bool a, bool b       => a == b
  | bool a, int n        => n == a.toInt
  | int n, bool a        => n == a.toInt
  | bool a, float x      => integer? x == some a.toInt
  | float x, bool a      => integer? x == some a.toInt
  | int m, int n         => m == n
  | int n, float x       => integer? x == some n
  | float x, int n       => integer? x == some n
  | float x, float y     => x == y
  | text s, text t       => s == t
  | bytes a, bytes b     => a == b
  | tuple a, tuple b     => sameKeys a b
  | foreign a, foreign b => a == b
  | _, _                 => false

/-- Whether two tuples of keys are the same key. -/
def sameKeys : List Value → List Value → Bool
  | [], []           => true
  | a :: as, b :: bs => sameKey a b && sameKeys as bs
  | _, _             => false

end

/-- Set an entry: a key that is present keeps its place and its spelling and takes the new
value. -/
def insertEntry (key value : Value) : List (Value × Value) → List (Value × Value)
  | []      => [(key, value)]
  | e :: es => if sameKey e.1 key then (e.1, value) :: es else e :: insertEntry key value es

/-- The set of items, where of several that are the same the first is kept. -/
def ofItems (items : List Value) : Value :=
  .set (items.foldl (fun acc v => if acc.any (sameKey · v) then acc else acc ++ [v]) [])

/-- The map made by setting entries one after another. -/
def ofEntries (es : List (Value × Value)) : Value :=
  .map (es.foldl (fun acc e => insertEntry e.1 e.2 acc) [])

/-- The text that a value is, if it is one. -/
def text? : Value → Option Text
  | text t => some t
  | _      => none

/-- The value of the entry whose key is the given text. -/
def lookup? (name : Text) : List (Value × Value) → Option Value
  | []      => none
  | e :: es => if e.1.text? = some name then some e.2 else lookup? name es

/-! ### JSON values -/

mutual

/-- A JSON value as a value. -/
def ofJson : Json → Value
  | .null      => null
  | .bool b    => bool b
  | .int n     => int n
  | .float x   => float x
  | .str t     => text t
  | .arr items => list (ofJsons items)
  | .obj ms    => map (ofMembers ms)

/-- The items of an array as values. -/
def ofJsons : List Json → List Value
  | []      => []
  | j :: js => ofJson j :: ofJsons js

/-- The members of an object as entries. -/
def ofMembers : List (Text × Json) → List (Value × Value)
  | []           => []
  | (k, j) :: ms => (text k, ofJson j) :: ofMembers ms

end

@[simp] theorem ofJsons_eq_map (js : List Json) : ofJsons js = js.map ofJson := by
  induction js with
  | nil          => simp [ofJsons]
  | cons j js ih => simp [ofJsons, ih]

@[simp] theorem ofMembers_eq_map (ms : List (Text × Json)) :
    ofMembers ms = ms.map fun m => (text m.1, ofJson m.2) := by
  induction ms with
  | nil          => simp [ofMembers]
  | cons m ms ih => cases m; simp [ofMembers, ih]

end Value

end NoticeLedger
