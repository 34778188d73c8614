import NoticeLedger.Yaml.Graph

/-!
# Merging mappings

A mapping takes over the entries of those that its merge keys name, in front of its own, so that its
own entries win. Several mappings under one key are taken over from the last to the first. A key
that stands for the value of its mapping is an ordinary text from then on.
-/

namespace NoticeLedger.Yaml

/-- The nodes of a document, as they are while they are merged. -/
abbrev Nodes := Array Node

namespace Nodes

/-- The kind of a node. -/
def tagOf (ns : Nodes) (id : Nat) : Tag :=
  (ns[id]?.map (·.tag)).getD .unknown

/-- What a node holds. -/
def content? (ns : Nodes) (id : Nat) : Option Content :=
  ns[id]?.map (·.content)

/-- The entries of a node, if it is a mapping. -/
def entries? (ns : Nodes) (id : Nat) : Option (List (Nat × Nat)) :=
  match ns.content? id with
  | some (.mapping es) => some es
  | _                  => none

/-- Give a mapping other entries. -/
def setEntries (ns : Nodes) (id : Nat) (es : List (Nat × Nat)) : Nodes :=
  ns.modify id fun n => { n with content := .mapping es }

/-- Make a key that stands for a value an ordinary text. -/
def plainKey (ns : Nodes) (entry : Nat × Nat) : Nodes :=
  if ns.tagOf entry.1 = .value then ns.modify entry.1 fun n => { n with tag := .str } else ns

/-- Whether an entry merges other mappings. -/
def isMerge (ns : Nodes) (entry : Nat × Nat) : Bool :=
  ns.tagOf entry.1 = .merge

/-- The mappings that a merge key names. -/
def merged? (ns : Nodes) (value : Nat) : Option (List Nat) :=
  match ns.content? value with
  | some (.mapping _)      => some [value]
  | some (.sequence items) => if items.all fun i => (ns.entries? i).isSome then some items else none
  | _                      => none

/-- Take over into a mapping the entries that it merges, behind those in `taken`. The first merge
key of the mapping is taken away, then the mappings that it names take over what they merge; one of
them may be the mapping itself, and then has no merge keys afterwards. Each call follows a merge key
that was taken away, so their number bounds `fuel`. -/
def flatten : (fuel : Nat) → (id : Nat) → (taken : List (Nat × Nat)) → Nodes → Except Fault Nodes
  | 0, _, _, _             => .error .malformed
  | fuel + 1, id, taken, ns =>
    let es := (ns.entries? id).getD []
    match es.span fun e => !ns.isMerge e with
    | (own, [])            => .ok ((own.foldl plainKey ns).setEntries id (taken ++ own))
    | (front, key :: back) =>
      match ns.merged? key.2 with
      | none         => .error .malformed
      | some sources => do
        let (ns, groups) ← sources.foldlM
          (fun (acc : Nodes × List (List (Nat × Nat))) source => do
            let ns ← flatten fuel source [] acc.1
            return (ns, (ns.entries? source).getD [] :: acc.2))
          (ns.setEntries id (front ++ back), [])
        flatten fuel id (taken ++ groups.flatten) ns

/-- How many entries there are. -/
def entryCount (ns : Nodes) : Nat :=
  ns.foldl (fun n node =>
    match node.content with
    | .mapping es => n + es.length
    | _           => n) 0

/-- Take over into a mapping the entries that it merges, at any depth. -/
def mergeInto (ns : Nodes) (id : Nat) : Except Fault Nodes :=
  flatten (ns.entryCount + 1) id [] ns

end Nodes

end NoticeLedger.Yaml
