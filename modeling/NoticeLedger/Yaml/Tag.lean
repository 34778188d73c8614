import NoticeLedger.Text

/-!
# Tags

A tag tells the kind of a node: a kind of scalar, or a kind of collection. Two kinds of scalars
have a meaning as keys only: one merges other mappings into its own, the other stands for the value
of its mapping as a whole.
-/

namespace NoticeLedger.Yaml

/-- The kind of a node. -/
inductive Tag where
  | null
  | bool
  | int
  | float
  | binary
  | timestamp
  | str
  | seq
  | map
  | set
  | omap
  | pairs
  | merge
  | value
  /-- A tag that names no kind. -/
  | unknown
  deriving DecidableEq, Repr

namespace Tag

/-- The front of the names of all kinds. -/
def namespaceOfKinds : String :=
  "tag:yaml.org,2002:"

/-- The kinds by the rest of their names. -/
def kinds : List (String × Tag) :=
  [("null", null), ("bool", bool), ("int", int), ("float", float), ("binary", binary),
    ("timestamp", timestamp), ("str", str), ("seq", seq), ("map", map), ("set", set),
    ("omap", omap), ("pairs", pairs), ("merge", merge), ("value", value)]

/-- The kind that a name tells. -/
def ofName (name : String) : Tag :=
  ((kinds.find? fun k => namespaceOfKinds ++ k.1 = name).map (·.2)).getD unknown

/-- What the handles of tags stand for if no directive tells. -/
def defaultHandles : List (String × String) :=
  [("!", "!"), ("!!", namespaceOfKinds)]

end Tag

end NoticeLedger.Yaml
