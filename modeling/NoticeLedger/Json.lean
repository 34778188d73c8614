import NoticeLedger.Text

/-!
# JSON values

A JSON value keeps integers apart from doubles and keeps the members of an object in a list.
Two values that differ only in the order of members have the same sorted form (`Json.sorted`);
`Json.insertMember` is what a repeated name does to an object.
-/

namespace NoticeLedger

/-- A JSON value. Its texts are sequences of code points, its numbers integers or doubles. -/
inductive Json where
  | null
  | bool (b : Bool)
  | int (n : Int)
  | float (x : Float)
  | str (t : Text)
  | arr (items : List Json)
  | obj (members : List (Text × Json))
  deriving Repr, Inhabited

namespace Json

/-! ### Members -/

/-- Set a member: a name that is present keeps its place and takes the new value. -/
def insertMember (name : Text) (value : Json) : List (Text × Json) → List (Text × Json)
  | []      => [(name, value)]
  | m :: ms => if m.1 = name then (name, value) :: ms else m :: insertMember name value ms

/-- The object made by setting members one after another. -/
def ofMembers (ms : List (Text × Json)) : Json :=
  .obj (ms.foldl (fun acc m => insertMember m.1 m.2 acc) [])

/-- The order of members by name. -/
def memberLe (a b : Text × Json) : Bool :=
  Text.le a.1 b.1

/-! ### Sorted form -/

mutual

/-- The members of every object in the order of their names, at every depth. -/
def sorted : Json → Json
  | null       => null
  | bool b     => bool b
  | int n      => int n
  | float x    => float x
  | str t      => str t
  | arr items  => arr (sortedItems items)
  | obj ms     => obj ((sortedMembers ms).mergeSort memberLe)

/-- The sorted forms of the items of an array. -/
def sortedItems : List Json → List Json
  | []      => []
  | j :: js => sorted j :: sortedItems js

/-- The members of an object with sorted values, in the given order. -/
def sortedMembers : List (Text × Json) → List (Text × Json)
  | []           => []
  | (k, j) :: ms => (k, sorted j) :: sortedMembers ms

end

@[simp] theorem sortedItems_eq_map (js : List Json) : sortedItems js = js.map sorted := by
  induction js with
  | nil => simp [sortedItems]
  | cons j js ih => simp [sortedItems, ih]

@[simp] theorem sortedMembers_eq_map (ms : List (Text × Json)) :
    sortedMembers ms = ms.map fun m => (m.1, sorted m.2) := by
  induction ms with
  | nil => simp [sortedMembers]
  | cons m ms ih => cases m; simp [sortedMembers, ih]

end Json

end NoticeLedger
