import NoticeLedger.Outcome
import NoticeLedger.Value

/-!
# Contexts of notices

A notice carries a context, a JSON value in normal form: the members of every object stand in the
order of their names and every number is finite. `normalize` brings a value into this form or
says what stands against it. Tuples become lists.

The names of a map are looked at before any of its values, and the values in the order of their
names; the first fault that is met decides.
-/

namespace NoticeLedger

/-- What stands against a value as a context. -/
inductive ContextFault where
  | notFinite
  | nameNotText
  | notJson
  deriving DecidableEq, Repr

/-- The words for a fault. -/
def ContextFault.message : ContextFault → String
  | notFinite   => "context numbers must be finite"
  | nameNotText => "context object keys must be strings"
  | notJson     => "context must be JSON-serializable"

namespace Context

/-- The members of a map whose values have normal forms, with the keys as names. -/
def namedMembers :
    List (Value × Except ContextFault Json) → Except ContextFault
      (List (Text × Except ContextFault Json))
  | []           => .ok []
  | (k, r) :: es =>
    match k.text? with
    | none      => .error .nameNotText
    | some name => (namedMembers es).map ((name, r) :: ·)

/-- The order of members by name. -/
def memberLe (a b : Text × Except ContextFault Json) : Bool :=
  Text.le a.1 b.1

/-- The object of a map whose values have normal forms. -/
def objectOf (entries : List (Value × Except ContextFault Json)) : Except ContextFault Json :=
  match namedMembers entries with
  | .error e => .error e
  | .ok ms   =>
    (collect ((ms.mergeSort memberLe).map fun m => m.2.map fun j => (m.1, j))).map .obj

mutual

/-- The normal form of a value. -/
def normalize : Value → Except ContextFault Json
  | .null        => .ok .null
  | .bool b      => .ok (.bool b)
  | .int n       => .ok (.int n)
  | .float x     => if x.isFinite then .ok (.float x) else .error .notFinite
  | .text t      => .ok (.str t)
  | .list items  => (collect (normalizeItems items)).map .arr
  | .tuple items => (collect (normalizeItems items)).map .arr
  | .map es      => objectOf (normalizeEntries es)
  | .bytes _     => .error .notJson
  | .set _       => .error .notJson
  | .foreign _   => .error .notJson

/-- The normal forms of items. -/
def normalizeItems : List Value → List (Except ContextFault Json)
  | []      => []
  | v :: vs => normalize v :: normalizeItems vs

/-- The normal forms of the values of entries. -/
def normalizeEntries : List (Value × Value) → List (Value × Except ContextFault Json)
  | []           => []
  | (k, v) :: es => (k, normalize v) :: normalizeEntries es

end

@[simp] theorem normalizeItems_eq_map (vs : List Value) :
    normalizeItems vs = vs.map normalize := by
  induction vs with
  | nil          => simp [normalizeItems]
  | cons v vs ih => simp [normalizeItems, ih]

@[simp] theorem normalizeEntries_eq_map (es : List (Value × Value)) :
    normalizeEntries es = es.map fun e => (e.1, normalize e.2) := by
  induction es with
  | nil          => simp [normalizeEntries]
  | cons e es ih => cases e; simp [normalizeEntries, ih]

end Context

end NoticeLedger
