import NoticeLedger.Files.Path

/-!
# Trees of files

A tree of files tells what is at each place: a file with its bytes, a directory, or nothing. A path
is followed name by name, each but the last through a directory (`FileTree.locate`). What is at a
place that no operation names stays as it is (`FileTree.at?_put_of_ne`).
-/

namespace NoticeLedger

/-- What is at a place. -/
inductive FileEntry where
  | file (content : List UInt8)
  | directory
  deriving DecidableEq, Repr

/-- Why an operation on files fails. -/
inductive FileFault where
  | notFound
  | notDirectory
  | isDirectory
  | alreadyExists
  /-- No file can have a name in the path. -/
  | unnameable
  /-- A name, or the path as a whole, has too many bytes. -/
  | tooLong
  deriving DecidableEq, Repr

/-- A place: the names on the way from the root. -/
abbrev Place := List String

/-- Files and directories below a root, and the directory that paths are counted from. -/
structure FileTree where
  entries : List (Place × FileEntry) := [(["work"], .directory)]
  workingDirectory : Place := ["work"]
  deriving Repr

namespace FileTree

/-! ### Places -/

/-- What is at a place. -/
def at? (t : FileTree) : Place → Option FileEntry
  | []    => some .directory
  | place => t.entries.lookup place

/-- The tree with an entry at a place. -/
def put (t : FileTree) (place : Place) (e : FileEntry) : FileTree :=
  { t with entries := (place, e) :: t.entries.filter (·.1 ≠ place) }

/-- The tree without what is at a place. -/
def erase (t : FileTree) (place : Place) : FileTree :=
  { t with entries := t.entries.filter (·.1 ≠ place) }

@[simp] theorem at?_nil (t : FileTree) : t.at? [] = some .directory := rfl

theorem at?_put_self (t : FileTree) {place : Place} (e : FileEntry) (h : place ≠ []) :
    (t.put place e).at? place = some e := by
  cases place with
  | nil  => exact absurd rfl h
  | cons => simp [at?, put]

theorem lookup_filter_ne {place other : Place} (es : List (Place × FileEntry)) (h : other ≠ place) :
    (es.filter (·.1 ≠ place)).lookup other = es.lookup other := by
  induction es with
  | nil => rfl
  | cons e es ih =>
    obtain ⟨p, v⟩ := e
    by_cases hp : p = place
    · subst hp
      have hne : (other == p) = false := by simpa using h
      simpa [List.lookup_cons, hne] using ih
    · simp only [ne_eq, hp, not_false_eq_true, decide_true, List.filter_cons_of_pos, List.lookup_cons]
      cases other == p
      · simpa using ih
      · rfl

/-- Other places stay as they are. -/
theorem at?_put_of_ne (t : FileTree) {place other : Place} (e : FileEntry) (h : other ≠ place) :
    (t.put place e).at? other = t.at? other := by
  cases other with
  | nil            => rfl
  | cons name rest =>
    have hne : (name :: rest == place) = false := by simpa using h
    simp only [at?, put, List.lookup_cons, hne]
    exact lookup_filter_ne t.entries h

/-! ### Paths -/

/-- The largest number of bytes in a name. -/
def maxNameBytes : Nat := 255

/-- The largest number of bytes in the text of a path. -/
def maxPathBytes : Nat := 4095

/-- From a directory to a name in it, or to the directory around it. -/
def enter (t : FileTree) (place : Place) (part : String) : Except FileFault Place :=
  match t.at? place with
  | none            => .error .notFound
  | some (.file _)  => .error .notDirectory
  | some .directory =>
    if part.utf8ByteSize > maxNameBytes then .error .tooLong
    else .ok (if part = ".." then place.dropLast else place ++ [part])

/-- The place that a path leads to, whatever is there. -/
def locate (t : FileTree) (p : Path) : Except FileFault Place :=
  if !p.isNameable then .error .unnameable
  else if p.text.utf8ByteSize > maxPathBytes then .error .tooLong
  else p.parts.foldlM t.enter (p.origin t.workingDirectory)

/-- What a path leads to. -/
def entry? (t : FileTree) (p : Path) : Option FileEntry :=
  match t.locate p with
  | .ok place => t.at? place
  | .error _  => none

/-- Whether a path leads to a directory. -/
def isDirectory (t : FileTree) (p : Path) : Bool :=
  t.entry? p = some .directory

/-- Whether a path leads to a file. It is a fault to ask so of a path that is too long, whereas any
other path that cannot be followed leads to no file. -/
def isFile (t : FileTree) (p : Path) : Except FileFault Bool :=
  match t.locate p with
  | .error .tooLong => .error .tooLong
  | .error _        => .ok false
  | .ok place       =>
    match t.at? place with
    | some (.file _) => .ok true
    | _              => .ok false

/-- The names in the directory that a path leads to. -/
def namesIn (t : FileTree) (p : Path) : List String :=
  match t.locate p with
  | .ok place =>
    t.entries.filterMap fun e =>
      if e.1.dropLast = place then e.1.getLast? else none
  | .error _  => []

/-! ### Operations -/

/-- The bytes of a file. -/
def read (t : FileTree) (p : Path) : Except FileFault (List UInt8) :=
  match t.locate p with
  | .error fault => .error fault
  | .ok place    =>
    match t.at? place with
    | none                => .error .notFound
    | some .directory     => .error .isDirectory
    | some (.file content) => .ok content

/-- The tree with other bytes in a file, which may be new. -/
def write (t : FileTree) (p : Path) (content : List UInt8) : Except FileFault FileTree :=
  match t.locate p with
  | .error fault => .error fault
  | .ok place    =>
    match t.at? place with
    | some .directory => .error .isDirectory
    | _               => .ok (t.put place (.file content))

/-- The tree without a file. -/
def remove (t : FileTree) (p : Path) : Except FileFault FileTree :=
  match t.locate p with
  | .error fault => .error fault
  | .ok place    =>
    match t.at? place with
    | none            => .error .notFound
    | some .directory => .error .isDirectory
    | some (.file _)  => .ok (t.erase place)

/-- The tree with one more directory. -/
def makeDirectory (t : FileTree) (p : Path) : Except FileFault FileTree :=
  match t.locate p with
  | .error fault => .error fault
  | .ok place    =>
    if p.parts.getLast?.all (· = "..") || (t.at? place).isSome then .error .alreadyExists
    else .ok (t.put place .directory)

/-- It is no failure that a directory could not be made if it is there. -/
def acceptExisting (t : FileTree) (p : Path) (fault : FileFault) : Except FileFault Unit :=
  if t.isDirectory p then .ok () else .error fault

/-- The tree with a directory and all those around it. What has been made stays even if the last
step fails. -/
def makeDirectories (t : FileTree) (p : Path) : FileTree × Except FileFault Unit :=
  match t.makeDirectory p with
  | .ok t             => (t, .ok ())
  | .error .notFound  =>
    if h : p.parts = [] then (t, .error .notFound)
    else
      have : p.parent.parts.length < p.parts.length := by
        have := List.length_pos_iff.2 h
        simp only [Path.parent, List.length_dropLast]
        omega
      match t.makeDirectories p.parent with
      | (t, .error fault) => (t, .error fault)
      | (t, .ok ())       =>
        match t.makeDirectory p with
        | .ok t             => (t, .ok ())
        | .error .notFound  => (t, .error .notFound)
        | .error fault      => (t, t.acceptExisting p fault)
  | .error fault      => (t, t.acceptExisting p fault)
termination_by p.parts.length

end FileTree

end NoticeLedger
