import NoticeLedger.Yaml.Scalar
import NoticeLedger.Yaml.Token.Lexer

/-!
# Graphs of nodes

A document is a graph: a collection names the nodes in it by their numbers, and an alias names a
node once more. `Graph.ofTokens` reads the one document of a text; a text may hold none.
-/

namespace NoticeLedger.Yaml

/-- What a node holds. -/
inductive Content where
  | scalar (text : Text)
  | sequence (items : List Nat)
  | mapping (entries : List (Nat × Nat))
  deriving Repr

/-- A node. -/
structure Node where
  tag : Tag
  content : Content
  deriving Repr

/-- The nodes of a document and the number of the outermost, if there is one. -/
structure Graph where
  nodes : Array Node
  root? : Option Nat
  deriving Repr

/-! ### Reading -/

/-- What is left of the tokens, the nodes so far, and the meanings of names. -/
structure GraphReader where
  tokens : List Token
  fault? : Option Fault
  nodes : Array Node := #[]
  anchors : List (String × Nat) := []
  handles : List (String × String) := Tag.defaultHandles

/-- A step that reads tokens. -/
abbrev Reading := StateT GraphReader (Except Fault)

namespace Reading

/-- The next token. Behind the last one is the fault of the text. -/
def peek : Reading Token := do
  let r ← get
  match r.tokens with
  | []     => throw (r.fault?.getD .malformed)
  | t :: _ => return t

/-- Pass over a token. -/
def skip : Reading Unit :=
  modify fun r => { r with tokens := r.tokens.tail }

/-- Add a node. -/
def add (node : Node) : Reading Nat :=
  modifyGet fun r => (r.nodes.size, { r with nodes := r.nodes.push node })

/-- The node of something left out. -/
def addEmpty : Reading Nat :=
  add ⟨.null, .scalar []⟩

/-- Give a node a name that no other node has. -/
def declare (anchor? : Option String) (id : Nat) : Reading Unit := do
  match anchor? with
  | none      => return
  | some name =>
    let r ← get
    if (r.anchors.lookup name).isSome then throw .malformed
    set { r with anchors := (name, id) :: r.anchors }

/-- The node that has a name. -/
def resolve (name : String) : Reading Nat := do
  match (← get).anchors.lookup name with
  | some id => return id
  | none    => throw .malformed

/-- Nothing if one of the given tokens follows, else a node. -/
def unlessAt (stops : List Token) (read : Reading Nat) : Reading Nat := do
  if stops.contains (← peek) then addEmpty else read

/-- The value behind a colon, nothing without the colon. -/
def valueUnlessAt (stops : List Token) (read : Reading Nat) : Reading Nat := do
  if (← peek) = .value then
    skip
    unlessAt stops read
  else addEmpty

/-! ### Properties -/

/-- The name of a tag. -/
def tagName (handle? : Option String) (suffix : String) : Reading String := do
  match handle? with
  | none        => return suffix
  | some handle =>
    match (← get).handles.lookup handle with
    | some front => return front ++ suffix
    | none       => throw .malformed

/-- An anchor, if one follows. -/
def readAnchor? : Reading (Option String) := do
  match ← peek with
  | .anchor name =>
    skip
    return some name
  | _            => return none

/-- The handle and suffix of a tag, if one follows. -/
def readTag? : Reading (Option (Option String × String)) := do
  match ← peek with
  | .tag handle? suffix =>
    skip
    return some (handle?, suffix)
  | _                   => return none

/-- The anchor and the name of the tag in front of a node, in either order. -/
def readProperties : Reading (Option String × Option String) := do
  let (anchor?, tag?) ←
    match ← readAnchor? with
    | some anchor => pure (some anchor, ← readTag?)
    | none        =>
      match ← readTag? with
      | some tag => pure (← readAnchor?, some tag)
      | none     => pure (none, none)
  match tag? with
  | none                   => return (anchor?, none)
  | some (handle?, suffix) => return (anchor?, some (← tagName handle? suffix))

/-- The kind of a scalar. A scalar whose tag is an exclamation mark alone is taken as a plain
one. -/
def scalarTag (name? : Option String) (plain : Bool) (text : Text) : Tag :=
  match name? with
  | none      => if plain then plainTag text else .str
  | some "!"  => plainTag text
  | some name => Tag.ofName name

/-- The kind of a collection. -/
def collectionTag (name? : Option String) (usual : Tag) : Tag :=
  match name? with
  | none      => usual
  | some "!"  => usual
  | some name => Tag.ofName name

/-! ### Nodes -/

/-- Add a scalar. -/
def addScalar (anchor? : Option String) (tag : Tag) (text : Text) : Reading Nat := do
  let id ← add ⟨tag, .scalar text⟩
  declare anchor? id
  return id

/-- Add a collection, which its own parts may name. -/
def addCollection (anchor? : Option String) (tag : Tag) (read : Reading Content) : Reading Nat := do
  let id ← add ⟨tag, .sequence []⟩
  declare anchor? id
  let content ← read
  modify fun r => { r with nodes := r.nodes.setIfInBounds id ⟨tag, content⟩ }
  return id

mutual

/-- A node. In block context it may be a block collection, and behind a key or colon also a
sequence that is not indented. -/
def readNode : (fuel : Nat) → (block unindented : Bool) → Reading Nat
  | 0, _, _                     => throw .malformed
  | fuel + 1, block, unindented => do
    if let .alias name ← peek then
      skip
      return ← resolve name
    let (anchor?, name?) ← readProperties
    let sequence := addCollection anchor? (collectionTag name? .seq)
    let mapping := addCollection anchor? (collectionTag name? .map)
    match ← peek, block, unindented with
    | .entry, _, true             => sequence (.sequence <$> readLooseItems fuel)
    | .scalar text plain, _, _    =>
      skip
      addScalar anchor? (scalarTag name? plain text) text
    | .flowSequenceStart, _, _    =>
      skip
      sequence (.sequence <$> readFlowItems fuel true)
    | .flowMappingStart, _, _     =>
      skip
      mapping (.mapping <$> readFlowEntries fuel true)
    | .sequenceStart, true, _     =>
      skip
      sequence (.sequence <$> readItems fuel)
    | .mappingStart, true, _      =>
      skip
      mapping (.mapping <$> readEntries fuel)
    | _, _, _                     =>
      if anchor?.isSome || name?.isSome then addScalar anchor? (scalarTag name? true []) []
      else throw .malformed

/-- The items of a block sequence. -/
def readItems : (fuel : Nat) → Reading (List Nat)
  | 0        => throw .malformed
  | fuel + 1 => do
    match ← peek with
    | .entry    =>
      skip
      let item ← unlessAt [.entry, .blockEnd] (readNode fuel true false)
      return item :: (← readItems fuel)
    | .blockEnd =>
      skip
      return []
    | _         => throw .malformed

/-- The items of a sequence that is not indented. -/
def readLooseItems : (fuel : Nat) → Reading (List Nat)
  | 0        => throw .malformed
  | fuel + 1 => do
    match ← peek with
    | .entry =>
      skip
      let item ← unlessAt [.entry, .key, .value, .blockEnd] (readNode fuel true false)
      return item :: (← readLooseItems fuel)
    | _      => return []

/-- The entries of a block mapping. -/
def readEntries : (fuel : Nat) → Reading (List (Nat × Nat))
  | 0        => throw .malformed
  | fuel + 1 => do
    match ← peek with
    | .key      =>
      skip
      let stops : List Token := [.key, .value, .blockEnd]
      let k ← unlessAt stops (readNode fuel true true)
      let v ← valueUnlessAt stops (readNode fuel true true)
      return (k, v) :: (← readEntries fuel)
    | .blockEnd =>
      skip
      return []
    | _         => throw .malformed

/-- The items of a sequence in brackets; a comma stands in front of all but the first. An item with
a colon is a mapping with one entry. -/
def readFlowItems : (fuel : Nat) → (first : Bool) → Reading (List Nat)
  | 0, _            => throw .malformed
  | fuel + 1, first => do
    if (← peek) ≠ .flowSequenceEnd ∧ !first then
      if (← peek) = .flowEntry then skip else throw .malformed
    match ← peek with
    | .flowSequenceEnd =>
      skip
      return []
    | .key             =>
      skip
      let pair : Reading Content := do
        let k ← unlessAt [.value, .flowEntry, .flowSequenceEnd] (readNode fuel false false)
        let v ← valueUnlessAt [.flowEntry, .flowSequenceEnd] (readNode fuel false false)
        return .mapping [(k, v)]
      let item ← addCollection none .map pair
      return item :: (← readFlowItems fuel false)
    | _                =>
      let item ← readNode fuel false false
      return item :: (← readFlowItems fuel false)

/-- The entries of a mapping in brackets; a comma stands in front of all but the first. -/
def readFlowEntries : (fuel : Nat) → (first : Bool) → Reading (List (Nat × Nat))
  | 0, _            => throw .malformed
  | fuel + 1, first => do
    if (← peek) ≠ .flowMappingEnd ∧ !first then
      if (← peek) = .flowEntry then skip else throw .malformed
    match ← peek with
    | .flowMappingEnd =>
      skip
      return []
    | .key            =>
      skip
      let k ← unlessAt [.value, .flowEntry, .flowMappingEnd] (readNode fuel false false)
      let v ← valueUnlessAt [.flowEntry, .flowMappingEnd] (readNode fuel false false)
      return (k, v) :: (← readFlowEntries fuel false)
    | _               =>
      let k ← readNode fuel false false
      let v ← addEmpty
      return (k, v) :: (← readFlowEntries fuel false)

end

/-! ### Documents -/

/-- The meanings of handles that directives give, and whether one of them told the version. -/
def readDirectives : (fuel : Nat) → (versioned : Bool) → (given : List (String × String)) →
    Reading (List (String × String))
  | 0, _, given                => return given
  | fuel + 1, versioned, given => do
    match ← peek with
    | .directive d =>
      skip
      match d with
      | .version major     =>
        if versioned || major ≠ 1 then throw .malformed
        readDirectives fuel true given
      | .tag handle target =>
        if (given.lookup handle).isSome then throw .malformed
        readDirectives fuel versioned ((handle, target) :: given)
      | .other             => readDirectives fuel versioned given
    | _            => return given

/-- The directives of a document and the line behind them. -/
def openDocument : Reading Unit := do
  let given ← readDirectives (← get).tokens.length false []
  modify fun r => { r with handles := given ++ Tag.defaultHandles }
  if (← peek) = .documentStart then skip else throw .malformed

/-- The lines that end documents. -/
def skipDocumentEnds : (fuel : Nat) → Reading Unit
  | 0        => return
  | fuel + 1 => do
    if (← peek) = .documentEnd then
      skip
      skipDocumentEnds fuel

/-- Nothing but the end of the text, lines that end documents apart. -/
def closeDocument : Reading Unit := do
  skipDocumentEnds (← get).tokens.length
  if (← peek) ≠ .streamEnd then
    openDocument
    throw .malformed

/-- Whether a token ends a document without a node, or begins one. -/
def isBetweenDocuments : Token → Bool
  | .directive _ | .documentStart | .documentEnd | .streamEnd => true
  | _                                                         => false

/-- The outermost node of the only document, if there is a document. -/
def readDocument : Reading (Option Nat) := do
  let fuel := 4 * ((← get).tokens.length + 1)
  match ← peek with
  | .streamEnd                    => return none
  | .directive _ | .documentStart =>
    openDocument
    let root ← if isBetweenDocuments (← peek) then addEmpty else readNode fuel true false
    closeDocument
    return some root
  | _                             =>
    let root ← readNode fuel true false
    closeDocument
    return some root

end Reading

/-- The graph of the document that tokens write. -/
def Graph.ofTokens (ts : Tokens) : Except Fault Graph :=
  (Reading.readDocument.run { tokens := ts.tokens, fault? := ts.fault? }).map fun (root?, r) =>
    ⟨r.nodes, root?⟩

end NoticeLedger.Yaml
