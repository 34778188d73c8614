import NoticeLedger.Files.Tree
import NoticeLedger.Limits
import NoticeLedger.Text.Decoded
import NoticeLedger.Yaml.Document

/-!
# Limits in files

Limits are configured in a YAML file: the document is a map, and the limits are the options under
one of its keys. A file is read once: what it gave is kept under the place that its path leads to
when two points undo the name in front of them (`LimitsCache.load`). Failures are not kept.
-/

namespace NoticeLedger

/-- Why a file gives no limits. -/
inductive LimitsFault where
  /-- No file can have a name in the path. -/
  | unnameable
  /-- The file cannot be read. -/
  | unreadable
  /-- The bytes of the file are not UTF-8. -/
  | notUtf8
  | notYaml (fault : Yaml.Fault)
  | documentNotMap
  | sectionNotMap
  | option (fault : Limits.OptionFault)
  deriving DecidableEq, Repr

namespace LimitsFault

/-- The code of a fault of the file or of what is configured, if it has one. -/
def code? : LimitsFault → Option String
  | unnameable         => none
  | unreadable         => some "E_LIMITS_CONFIG_READ_FAILED"
  | notUtf8            => none
  | notYaml .malformed => some "E_LIMITS_CONFIG_PARSE_FAILED"
  | notYaml _          => none
  | documentNotMap     => some "E_LIMITS_CONFIG_INVALID"
  | sectionNotMap      => some "E_LIMITS_CONFIG_INVALID"
  | option .unshowable => none
  | option _           => some "E_LIMITS_CONFIG_INVALID"

/-- The words for a fault of what is configured. -/
def message? : LimitsFault → Option Text
  | documentNotMap => some (Text.ofString "notice limits file root must be a mapping")
  | sectionNotMap  => some (Text.ofString "missing or invalid mapping for key 'notice_limits'")
  | option fault   => some fault.message
  | unnameable     => none
  | unreadable     => none
  | notUtf8        => none
  | notYaml _      => none

end LimitsFault

namespace Limits

/-- The key of a document under which the limits are configured. -/
def sectionKey : Text :=
  Text.ofString "notice_limits"

/-- The limits that a section configures. -/
def ofSection : Option Value → Except LimitsFault Limits
  | none           => .ok {}
  | some .null     => .ok {}
  | some (.map es) => (ofOptions es).mapError .option
  | some _         => .error .sectionNotMap

/-- The limits that a document configures. -/
def ofDocument : Value → Except LimitsFault Limits
  | .null   => .ok {}
  | .map es => ofSection (Value.lookup? sectionKey es)
  | _       => .error .documentNotMap

/-- The limits that the bytes of a file configure. Options stand two levels deep in a document. -/
def ofBytes (bs : List UInt8) : Except LimitsFault Limits :=
  match fileText? bs with
  | none   => .error .notUtf8
  | some s =>
    match Yaml.read 2 s with
    | .error fault => .error (.notYaml fault)
    | .ok document => ofDocument document

/-- The limits that the file at a place configures. -/
def load (files : FileTree) (place : Place) : Except LimitsFault Limits :=
  match files.read ⟨.root, place⟩ with
  | .error _ => .error .unreadable
  | .ok bs   => ofBytes bs

end Limits

/-- The limits that have been read, by the places of their files. -/
structure LimitsCache where
  loaded : List (Place × Limits) := []
  deriving Repr

namespace LimitsCache

/-- The limits that a file configures, as they were when they were first read. -/
def load (cache : LimitsCache) (files : FileTree) (p : Path) :
    LimitsCache × Except LimitsFault Limits :=
  if p.isNameable then
    let place := p.resolved files.workingDirectory
    match cache.loaded.lookup place with
    | some l => (cache, .ok l)
    | none   =>
      match Limits.load files place with
      | .error fault => (cache, .error fault)
      | .ok l        => ({ loaded := (place, l) :: cache.loaded }, .ok l)
  else (cache, .error .unnameable)

end LimitsCache

end NoticeLedger
