import NoticeLedger.Outcome
import NoticeLedger.Value.Order
import NoticeLedger.Value.Shown

/-!
# Values as documents

A value is written as a document if it holds nothing but nulls, truth values, integers, finite
doubles, texts, lists, tuples, and maps whose keys can be ordered and named. Members are visited
in the order of their keys, and the first thing that cannot be written decides the failure
(`Value.toJson?`). The canonical text of a JSON value is that of its sorted form.
-/

namespace NoticeLedger

/-- Why a value cannot be written as a document. -/
inductive Unwritable where
  /-- A number is not finite. -/
  | notFinite
  /-- An integer has more digits than are converted. -/
  | integerTooLong
  /-- A value is not of a kind that a document holds, or the keys of a map cannot be ordered. -/
  | notJson
  deriving DecidableEq, Repr

namespace Value

/-! ### Keys -/

/-- The name that stands for a key. -/
def keyName? : Value → Except Unwritable Text
  | text t  => .ok t
  | null    => .ok (Text.ofString "null")
  | bool b  => .ok (Text.ofString (if b then "true" else "false"))
  | int n   => if isConvertible n then .ok ((intText n).map .char) else .error .integerTooLong
  | float x => if x.isFinite then .ok (Text.ofString (exactText x)) else .error .notFinite
  | _       => .error .notJson

/-! ### Documents -/

/-- The member of a key and what its value is written as. -/
def member (entry : Value × Except Unwritable Json) : Except Unwritable (Text × Json) :=
  match keyName? entry.1 with
  | .error e => .error e
  | .ok name => entry.2.map fun j => (name, j)

/-- The object of entries whose values have been written. -/
def objectOf (entries : List (Value × Except Unwritable Json)) : Except Unwritable Json :=
  match orderEntries? entries with
  | none    => .error .notJson
  | some es => (collect (es.map member)).map .obj

mutual

/-- A value as JSON, with members in the order of their keys at every depth. -/
def toJson? : Value → Except Unwritable Json
  | null        => .ok .null
  | bool b      => .ok (.bool b)
  | int n       => if isConvertible n then .ok (.int n) else .error .integerTooLong
  | float x     => if x.isFinite then .ok (.float x) else .error .notFinite
  | text t      => .ok (.str t)
  | list items  => (collect (itemsToJson? items)).map .arr
  | tuple items => (collect (itemsToJson? items)).map .arr
  | map es      => objectOf (entriesToJson? es)
  | bytes _     => .error .notJson
  | set _       => .error .notJson
  | foreign _   => .error .notJson

/-- What each item is written as. -/
def itemsToJson? : List Value → List (Except Unwritable Json)
  | []      => []
  | v :: vs => toJson? v :: itemsToJson? vs

/-- What the value of each entry is written as. -/
def entriesToJson? : List (Value × Value) → List (Value × Except Unwritable Json)
  | []           => []
  | (k, v) :: es => (k, toJson? v) :: entriesToJson? es

end

@[simp] theorem itemsToJson?_eq_map (vs : List Value) : itemsToJson? vs = vs.map toJson? := by
  induction vs with
  | nil          => simp [itemsToJson?]
  | cons v vs ih => simp [itemsToJson?, ih]

@[simp] theorem entriesToJson?_eq_map (es : List (Value × Value)) :
    entriesToJson? es = es.map fun e => (e.1, toJson? e.2) := by
  induction es with
  | nil          => simp [entriesToJson?]
  | cons e es ih => cases e; simp [entriesToJson?, ih]

/-- The text of a value as a document: no blanks, members in the order of their keys, and every
character written as it is that a document may hold so. -/
def canonicalText? (v : Value) : Except Unwritable Text :=
  (toJson? v).map (Json.write .unicode)

end Value

end NoticeLedger
