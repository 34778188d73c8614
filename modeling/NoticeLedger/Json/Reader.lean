import NoticeLedger.Json.StringLiteral
import NoticeLedger.Json.NumberLiteral

/-!
# Reading JSON documents

A document is read from front to back by a machine that is always about to read one of three
things (`Json.Next`): a value, the name of a member, or what may follow a value that is complete.
The arrays and objects that are still open wait on a stack of frames. Every step uses up a symbol,
so the reader ends (`Json.run`).

Besides standard JSON the names `NaN`, `Infinity` and `-Infinity` are read as doubles. A repeated
member keeps its place and takes its last value.
-/

namespace NoticeLedger.Json

/-! ### Blanks and words -/

/-- The blanks of a document: space, tab, line feed and carriage return. -/
def isSpace (x : Symbol) : Bool :=
  x == .char ' ' || x == .char '\t' || x == .char '\n' || x == .char '\r'

/-- The text behind its leading blanks. -/
def skipSpace (s : Text) : Text :=
  s.dropWhile isSpace

theorem length_skipSpace (s : Text) : (skipSpace s).length ≤ s.length :=
  (List.dropWhile_sublist _).length_le

/-- The values with a name. -/
def words : List (String × Json) :=
  [("null", .null), ("true", .bool true), ("false", .bool false), ("NaN", .float (0 / 0)),
    ("Infinity", .float (1 / 0)), ("-Infinity", .float (-1 / 0))]

/-- The value whose name stands in front of a text, and what is behind the name. -/
def readWord (s : Text) : Option (Json × Text) :=
  words.findSome? fun (word, value) =>
    if (Text.ofString word).isPrefixOf s then some (value, s.drop word.length) else none

/-- A value that is neither text nor nested. -/
def readScalar (s : Text) : Except Stop (Json × Text) :=
  match readWord s with
  | some read => .ok read
  | none      =>
    match readNumber s with
    | some (value, rest) => value.map (·, rest)
    | none               => .error (.fault .valueExpected s.length)

theorem length_of_readWord {s : Text} {read : Json × Text} (h : readWord s = some read) :
    read.2.length < s.length := by
  obtain ⟨w, hw, h⟩ := List.exists_of_findSome?_eq_some h
  simp only at h
  split at h
  · rename_i hp
    obtain rfl := Option.some.inj h
    have hlen := (List.isPrefixOf_iff_prefix.1 hp).length_le
    have hpos : 0 < w.1.length ∧ (Text.ofString w.1).length = w.1.length := by
      simp only [words, List.mem_cons, List.not_mem_nil, or_false] at hw
      rcases hw with rfl | rfl | rfl | rfl | rfl | rfl <;> decide
    simp only [List.length_drop]
    omega
  · cases h

theorem length_of_readScalar {s : Text} {read : Json × Text} (h : readScalar s = .ok read) :
    read.2.length < s.length := by
  unfold readScalar at h
  split at h
  · rename_i hw
    obtain rfl := Except.ok.inj h
    exact length_of_readWord hw
  · split at h
    · rename_i value rest hn
      have := length_of_readNumber hn
      cases value with
      | error => cases h
      | ok j => obtain rfl := Except.ok.inj h; exact this
    · cases h

/-! ### The machine -/

/-- An array or object that is still open, with what it holds so far in reverse order. -/
inductive Frame where
  | array (before : List Json)
  | object (before : List (Text × Json)) (name : Text)

/-- What is read next. -/
inductive Next where
  /-- A value. -/
  | value
  /-- The name of a member, for an object that holds the given members in reverse order. -/
  | name (before : List (Text × Json))
  /-- What may follow a complete value. -/
  | after (j : Json)

/-- What a step leads to: the next thing to read with the frames and the text left for it, or the
end of the outermost value. -/
inductive Move where
  | on (next : Next) (frames : List Frame) (rest : Text)
  | done (j : Json) (rest : Text)

/-- Read a value, or open one. -/
def stepValue (frames : List Frame) (s : Text) : Except Stop Move :=
  match s with
  | .char '\x22' :: rest => (readString s rest).map fun (t, r) => .on (.after (.str t)) frames r
  | .char '\x7b' :: rest =>
    match skipSpace rest with
    | .char '\x7d' :: r => .ok (.on (.after (.obj [])) frames r)
    | r                 => .ok (.on (.name []) frames r)
  | .char '[' :: rest =>
    match skipSpace rest with
    | .char ']' :: r => .ok (.on (.after (.arr [])) frames r)
    | r              => .ok (.on .value (.array [] :: frames) r)
  | _ => (readScalar s).map fun (j, r) => .on (.after j) frames r

/-- Read the name of a member and the colon behind it. -/
def stepName (before : List (Text × Json)) (frames : List Frame) (s : Text) :
    Except Stop Move :=
  match s with
  | .char '\x22' :: rest =>
    match readString s rest with
    | .error stop => .error stop
    | .ok (t, r)  =>
      match skipSpace r with
      | .char ':' :: r' => .ok (.on .value (.object before t :: frames) (skipSpace r'))
      | r'              => .error (.fault .colonExpected r'.length)
  | _ => .error (.fault .nameExpected s.length)

/-- Go on behind a complete value: to the next item or member, or out of what is complete now. -/
def stepAfter (j : Json) (frames : List Frame) (s : Text) : Except Stop Move :=
  match frames with
  | []                     => .ok (.done j s)
  | .array before :: outer =>
    match skipSpace s with
    | .char ',' :: r => .ok (.on .value (.array (j :: before) :: outer) (skipSpace r))
    | .char ']' :: r => .ok (.on (.after (.arr (j :: before).reverse)) outer r)
    | r              => .error (.fault .commaExpected r.length)
  | .object before name :: outer =>
    match skipSpace s with
    | .char ',' :: r    => .ok (.on (.name ((name, j) :: before)) outer (skipSpace r))
    | .char '\x7d' :: r => .ok (.on (.after (.ofMembers ((name, j) :: before).reverse)) outer r)
    | r                 => .error (.fault .commaExpected r.length)

/-- One step of the machine. -/
def step (next : Next) (frames : List Frame) (s : Text) : Except Stop Move :=
  match next with
  | .value       => stepValue frames s
  | .name before => stepName before frames s
  | .after j     => stepAfter j frames s

theorem length_of_stepValue {frames fs : List Frame} {s r : Text} {next : Next}
    (h : stepValue frames s = .ok (.on next fs r)) : r.length < s.length := by
  unfold stepValue at h
  split at h
  · rename_i rest
    obtain ⟨read, hr, hm⟩ := exists_of_map_ok h
    have := length_of_readString hr
    cases hm
    simp only [List.length_cons]
    omega
  · rename_i rest
    have := length_skipSpace rest
    split at h <;> rename_i hs <;> cases h
    · simp only [hs, List.length_cons] at this ⊢; omega
    · simp only [List.length_cons]; omega
  · rename_i rest
    have := length_skipSpace rest
    split at h <;> rename_i hs <;> cases h
    · simp only [hs, List.length_cons] at this ⊢; omega
    · simp only [List.length_cons]; omega
  · obtain ⟨read, hr, hm⟩ := exists_of_map_ok h
    have := length_of_readScalar hr
    cases hm
    exact this

theorem length_of_stepName {before : List (Text × Json)} {frames fs : List Frame} {s r : Text}
    {next : Next} (h : stepName before frames s = .ok (.on next fs r)) : r.length < s.length := by
  unfold stepName at h
  split at h
  · rename_i rest
    split at h
    · cases h
    · rename_i t r' hr
      have hread := length_of_readString hr
      have hskip := length_skipSpace r'
      split at h
      · rename_i r'' hs
        cases h
        have := length_skipSpace r''
        simp only [hs, List.length_cons] at hread hskip ⊢
        omega
      · cases h
  · cases h

theorem length_of_stepAfter {j : Json} {frames fs : List Frame} {s r : Text} {next : Next}
    (h : stepAfter j frames s = .ok (.on next fs r)) : r.length < s.length := by
  have hskip := length_skipSpace s
  unfold stepAfter at h
  split at h
  · cases h
  all_goals
    split at h
    · rename_i r' hs
      cases h
      have := length_skipSpace r'
      simp only [hs, List.length_cons] at hskip
      omega
    · rename_i r' hs
      cases h
      simp only [hs, List.length_cons] at hskip
      omega
    · cases h

/-- Every step uses up a symbol. -/
theorem length_of_step {next next' : Next} {frames fs : List Frame} {s r : Text}
    (h : step next frames s = .ok (.on next' fs r)) : r.length < s.length := by
  cases next with
  | value       => exact length_of_stepValue h
  | name before => exact length_of_stepName h
  | after j     => exact length_of_stepAfter h

/-- Run the machine until the outermost value is complete; what is left comes with it. -/
def run (next : Next) (frames : List Frame) (s : Text) : Except Stop (Json × Text) :=
  match _h : step next frames s with
  | .error stop              => .error stop
  | .ok (.done j rest)       => .ok (j, rest)
  | .ok (.on next' fs rest)  => run next' fs rest
termination_by s.length
decreasing_by exact length_of_step _h

/-! ### Documents -/

/-- Read a document behind its leading blanks, which holds one value and blanks behind it. -/
def readDocument (s : Text) : Except Stop Json :=
  match run .value [] (skipSpace s) with
  | .error stop   => .error stop
  | .ok (j, rest) =>
    match skipSpace rest with
    | [] => .ok j
    | r  => .error (.fault .extraData r.length)

/-- Read a text as a document. A byte order mark in front is refused. -/
def read (document : Text) : Except ReadError Json :=
  if document.head? = some (.char '\uFEFF') then
    .error (.malformed .byteOrderMark ⟨1, 1, 0⟩)
  else (readDocument document).mapError (Stop.within document)

end NoticeLedger.Json
