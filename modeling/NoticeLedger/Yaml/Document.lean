import NoticeLedger.Yaml.Graph.Merging

/-!
# YAML documents

The value of the document in a text (`Yaml.read`). Every node of the document is built once, a
collection after those in front of it, and the first node that cannot be built decides a failure.
A document may name a collection within itself, so values are told down to a depth only.
-/

namespace NoticeLedger.Yaml

/-- What a node has been built into; the parts of a collection are told by their numbers. -/
inductive Built where
  | scalar (v : Value)
  | list (items : List Nat)
  | pairs (entries : List (Nat × Nat))
  | map (entries : List (Nat × Nat))
  | set (entries : List (Nat × Nat))
  deriving Repr

/-- The nodes, what each of them has been built into if its turn has come, and the collections
whose parts wait, the last first. -/
structure Builder where
  nodes : Nodes
  built : Array (Option Built)
  waiting : List Nat := []

namespace Builder

/-- Nothing has been built yet. -/
def ofNodes (ns : Nodes) : Builder where
  nodes := ns
  built := .replicate ns.size none

/-- What a node has been built into. -/
def result? (b : Builder) (id : Nat) : Option Built :=
  b.built[id]?.join

/-- Say what a node has been built into. -/
def record (b : Builder) (id : Nat) (result : Built) : Builder :=
  { b with built := b.built.setIfInBounds id (some result) }

/-- Whether nodes of a kind are collections. -/
def isCollection : Tag → Bool
  | .seq | .map | .set | .omap | .pairs => true
  | _                                   => false

/-- Whether nodes of a kind are scalars. -/
def isScalar : Tag → Bool
  | .null | .bool | .int | .float | .timestamp | .binary | .str => true
  | _                                                           => false

/-- The text of a scalar. A mapping counts as the scalar that one of its keys tells to be its
value. -/
def scalarText (ns : Nodes) : (fuel : Nat) → (id : Nat) → Except Fault Text
  | 0, _         => .error .endless
  | fuel + 1, id =>
    match ns.content? id with
    | some (.scalar t)   => .ok t
    | some (.mapping es) =>
      match es.find? fun e => ns.tagOf e.1 = .value with
      | some e => scalarText ns fuel e.2
      | none   => .error .malformed
    | _                  => .error .malformed

/-- The value of a scalar. A mapping cannot count as a point in time. -/
def scalar (ns : Nodes) (id : Nat) : Except Fault Value := do
  unless isScalar (ns.tagOf id) do throw .malformed
  let t ← scalarText ns (ns.size + 1) id
  if ns.tagOf id = .timestamp ∧ (ns.entries? id).isSome then throw .mappedTimestamp
  scalarValue (ns.tagOf id) t

/-- Build a scalar, or an empty collection whose parts wait for their turn. Nothing is built
twice. -/
def start (b : Builder) (id : Nat) : Except Fault Builder :=
  if (b.result? id).isSome then .ok b
  else if isCollection (b.nodes.tagOf id) then
    .ok { b.record id (.list []) with waiting := id :: b.waiting }
  else (scalar b.nodes id).map fun v => b.record id (.scalar v)

/-- Start the key and the value of an entry. -/
def startEntry (b : Builder) (entry : Nat × Nat) : Except Fault Builder := do
  (← b.start entry.1).start entry.2

/-- Start an entry of a map, whose key is no collection. -/
def startMember (b : Builder) (entry : Nat × Nat) : Except Fault Builder :=
  if isCollection (b.nodes.tagOf entry.1) then .error .malformed else b.startEntry entry

/-- The only entry of a node. -/
def singleEntry (ns : Nodes) (id : Nat) : Except Fault (Nat × Nat) :=
  match ns.entries? id with
  | some [e] => .ok e
  | _        => .error .malformed

/-- Build a collection of its parts, which are started. -/
def expand (b : Builder) (id : Nat) : Except Fault Builder := do
  match b.nodes.tagOf id, b.nodes.content? id with
  | .seq, some (.sequence items)  => return (← items.foldlM start b).record id (.list items)
  | .map, some (.mapping _)       =>
    let ns ← b.nodes.mergeInto id
    let es := (ns.entries? id).getD []
    return (← es.foldlM startMember { b with nodes := ns }).record id (.map es)
  | .set, some (.mapping _)       =>
    let ns ← b.nodes.mergeInto id
    let es := (ns.entries? id).getD []
    return (← es.foldlM startMember { b with nodes := ns }).record id (.set es)
  | .omap, some (.sequence items) | .pairs, some (.sequence items) =>
    let (b, es) ← items.foldlM
      (fun (acc : Builder × List (Nat × Nat)) item => do
        let e ← singleEntry acc.1.nodes item
        return (← acc.1.startEntry e, acc.2 ++ [e])) (b, [])
    return b.record id (.pairs es)
  | _, _                          => .error .malformed

/-- Build what waits, and then what waits behind it. Every node waits at most once. -/
def finish : (fuel : Nat) → Builder → Except Fault Builder
  | 0, b        => .ok b
  | fuel + 1, b =>
    match b.waiting with
    | []        => .ok b
    | id :: ids => do finish fuel (← (id :: ids).reverse.foldlM expand { b with waiting := [] })

/-- The value of a node down to a depth. Collections below it are not told apart. -/
def value (b : Builder) : (depth : Nat) → (id : Nat) → Value
  | 0, id         =>
    match b.result? id with
    | some (.scalar v) => v
    | _                => .foreign (Text.ofString "...")
  | depth + 1, id =>
    match b.result? id with
    | some (.scalar v)   => v
    | some (.list items) => .list (items.map (b.value depth))
    | some (.pairs es)   => .list (es.map fun e => .tuple [b.value depth e.1, b.value depth e.2])
    | some (.map es)     => Value.ofEntries (es.map fun e => (b.value depth e.1, b.value depth e.2))
    | some (.set es)     => Value.ofItems (es.map fun e => b.value depth e.1)
    | none               => .null

end Builder

/-- The value of the document that a graph holds, down to a depth. -/
def Graph.value (g : Graph) (depth : Nat) : Except Fault Value :=
  match g.root? with
  | none      => .ok .null
  | some root => do
    let b ← (Builder.ofNodes g.nodes).start root
    let b ← b.finish (g.nodes.size + 1)
    return b.value depth root

/-- The value of the document in a text, down to a depth; null if there is no document. -/
def read (depth : Nat) (s : String) : Except Fault Value :=
  let cs := s.toList
  if cs.all isYamlPrintable then do
    let g ← Graph.ofTokens (Tokens.ofChars cs)
    g.value depth
  else .error .malformed

end NoticeLedger.Yaml
