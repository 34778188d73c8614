import NoticeLedger.Text

/-!
# Tokens of YAML texts

A YAML text is cut into tokens. Indentation shows as the starts and ends of block collections, and
a key is marked by a token in front of it, whether or not the text does so.
-/

namespace NoticeLedger.Yaml

/-- A line for the reader of a document. -/
inductive Directive where
  | version (major : Nat)
  | tag (handle target : String)
  | other
  deriving DecidableEq, Repr

/-- A token. -/
inductive Token where
  | directive (d : Directive)
  | documentStart
  | documentEnd
  | streamEnd
  | sequenceStart
  | mappingStart
  | blockEnd
  | flowSequenceStart
  | flowSequenceEnd
  | flowMappingStart
  | flowMappingEnd
  | entry
  | flowEntry
  | key
  | value
  | alias (name : String)
  | anchor (name : String)
  /-- A tag, its handle to be looked up if it has one. -/
  | tag (handle : Option String) (suffix : String)
  /-- A scalar; a plain one stands without quotes or block indicator. -/
  | scalar (text : Text) (plain : Bool)
  deriving DecidableEq, Repr

end NoticeLedger.Yaml
