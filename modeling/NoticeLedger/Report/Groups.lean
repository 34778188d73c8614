import NoticeLedger.Recorder
import NoticeLedger.Value.Document

/-!
# Groups of notices

Notices are grouped by key, in the order of the keys. An exported document has a group for each
key that was counted, with the count and the contexts of the first notices of that key. A notice
whose key was not counted cannot be exported (`exportNotices`).
-/

namespace NoticeLedger

/-! ### Groups -/

/-- Put a notice at the end of the group of its key. -/
def addToGroup (groups : KeyMap (List Notice)) (n : Notice) : KeyMap (List Notice) :=
  groups.alter n.key fun old => old.getD [] ++ [n]

/-- The notices of each key, in the order of the keys. -/
def groupNotices (ns : List Notice) : List (Key × List Notice) :=
  (ns.foldl addToGroup {}).sorted

/-! ### Documents -/

/-- What an exported document tells of one key. -/
structure Group where
  key : Key
  total : Int
  samples : List Json
  deriving Repr

/-- Why notices cannot be exported. -/
inductive ExportFault where
  | negativeMaximum
  /-- A notice of the key is there, but the key was not counted. -/
  | uncounted (key : Key)
  deriving DecidableEq, Repr

/-- The words for a fault. -/
def ExportFault.message : ExportFault → String
  | negativeMaximum => "max_export_per_notice_type must be >= 0"
  | uncounted key   =>
    "no recorded count for notice '" ++ key.code.text ++ "' with severity " ++ key.severity.name

namespace Export

/-- The map that holds every counted key without samples. -/
def noSamples (counts : KeyMap Int) : KeyMap (List Json) :=
  counts.keys.foldl (fun acc k => acc.alter k fun old => old.getD []) {}

/-- Put the context of a notice among the samples of its key while these are fewer than
`limit`. -/
def addSample (limit : Nat) (samples : KeyMap (List Json)) (n : Notice) : KeyMap (List Json) :=
  samples.alter n.key fun old =>
    let group := old.getD []
    if group.length < limit then group ++ [n.context] else group

/-- The group of a key with its samples. -/
def groupOf (counts : KeyMap Int) (entry : Key × List Json) : Except ExportFault Group :=
  match counts.get? entry.1 with
  | none       => .error (.uncounted entry.1)
  | some total => .ok ⟨entry.1, total, entry.2⟩

end Export

/-- The groups of an exported document, with at most `limit` samples each. The least key that
was not counted decides a failure. -/
def exportNotices (ns : List Notice) (counts : KeyMap Int) (limit : Int) :
    Except ExportFault (List Group) :=
  if limit < 0 then .error .negativeMaximum
  else
    let samples := ns.foldl (Export.addSample limit.toNat) (Export.noSamples counts)
    collect (samples.sorted.map (Export.groupOf counts))

/-- A tally as a map to integers. -/
def Tally.toCounts (t : Tally) : KeyMap Int where
  entries := t.entries.map fun e => (e.1, (e.2 : Int))
  nodup := by
    rw [List.map_map]
    exact t.nodup

namespace Recorder

/-- The document of the validation notices that are kept. -/
def exportValidation (r : Recorder) : Except ExportFault (List Group) :=
  exportNotices (r.retained.toList.map .validation) r.tally.toCounts r.limits.samples

/-- The document of the system errors. -/
def exportSystem (r : Recorder) : Except ExportFault (List Group) :=
  exportNotices (r.systemErrors.toList.map .system) r.systemTally.toCounts r.limits.samples

end Recorder

/-! ### Text -/

/-- A group as a member of a document. -/
def Group.toJson (g : Group) : Json :=
  .obj
    [(Text.ofString "code", .str (Text.ofString g.key.code.text)),
      (Text.ofString "severity", .str (Text.ofString g.key.severity.name)),
      (Text.ofString "totalNotices", .int g.total),
      (Text.ofString "notices", .arr g.samples)]

/-- The document of groups. -/
def documentOf (groups : List Group) : Json :=
  .obj [(Text.ofString "notices", .arr (groups.map Group.toJson))]

/-- The canonical text of the document of groups. -/
def documentText? (groups : List Group) : Except Unwritable Text :=
  (Value.ofJson (documentOf groups)).canonicalText?

end NoticeLedger
