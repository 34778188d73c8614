import NoticeLedger.Context
import NoticeLedger.Notice
import NoticeLedger.Value.Shown

/-!
# Notices from fields

A notice is built from named values. Each field is checked on its own and every fault is
reported, in the order code, context, kind, severity, and then the fields that a notice does not
have in the order given (`ValidationNotice.ofFields`, `SystemError.ofFields`).

A notice of either kind is built from a map that tells its kind (`Notice.ofValue`); the faults of
its fields are then located under that kind.
-/

namespace NoticeLedger

/-! ### Faults -/

/-- A step on the way to a field. -/
inductive Step where
  | name (t : Text)
  | index (n : Int)
  deriving DecidableEq, Repr

/-- What is wrong with a field. -/
inductive FieldFault where
  | missing
  | unknown
  | nameNotText
  | code (fault : CodeFault)
  | severity (fault : SeverityFault)
  | severityFixed
  | kindOther (expected : Kind)
  | context (fault : ContextFault)
  | notFields
  | kindMissing
  | kindUnknown (shown : Text)
  deriving DecidableEq, Repr

/-- A fault and where it lies. -/
structure FieldError where
  location : List Step
  fault : FieldFault
  deriving DecidableEq, Repr

/-- The words for a text that no string spells. -/
def notUnicodeMessage : String :=
  "Input should be a valid string, unable to parse raw data as a unicode string"

/-- The words for a fault of a code. -/
def CodeFault.message : CodeFault → String
  | notText    => "Input should be a valid string"
  | notUnicode => notUnicodeMessage
  | empty      => "String should have at least 1 character"

/-- The words for a fault of a severity. -/
def SeverityFault.message : SeverityFault → String
  | notUnicode => notUnicodeMessage
  | unknown    => "Input should be 'INFO', 'WARNING' or 'ERROR'"

namespace FieldFault

/-- The class of a fault. -/
def label : FieldFault → String
  | missing              => "missing"
  | unknown              => "extra_forbidden"
  | nameNotText          => "invalid_key"
  | code .notText        => "string_type"
  | code .notUnicode     => "string_unicode"
  | code .empty          => "string_too_short"
  | severity .notUnicode => "string_unicode"
  | severity .unknown    => "enum"
  | severityFixed        => "value_error"
  | kindOther _          => "literal_error"
  | context _            => "value_error"
  | notFields            => "model_attributes_type"
  | kindMissing          => "union_tag_not_found"
  | kindUnknown _        => "union_tag_invalid"

/-- The words for a fault. -/
def message : FieldFault → Text
  | missing            => Text.ofString "Field required"
  | unknown            => Text.ofString "Extra inputs are not permitted"
  | nameNotText        => Text.ofString "Keys should be strings"
  | code fault         => Text.ofString fault.message
  | severity fault     => Text.ofString fault.message
  | severityFixed      =>
    Text.ofString "Value error, system errors always have ERROR severity"
  | kindOther expected => Text.ofString ("Input should be '" ++ expected.name ++ "'")
  | context fault      => Text.ofString ("Value error, " ++ fault.message)
  | notFields          =>
    Text.ofString "Input should be a valid dictionary or object to extract fields from"
  | kindMissing        => Text.ofString "Unable to extract tag using discriminator 'kind'"
  | kindUnknown shown  =>
    Text.ofString "Input tag '" ++ shown ++
      Text.ofString ("' found using 'kind' does not match any of the expected tags: " ++
        "'validation', 'system_error'")

end FieldFault

/-! ### Single fields -/

namespace Fields

/-- The names of the fields of a notice. -/
def names : List Text :=
  ["code", "context", "kind", "severity"].map Text.ofString

/-- The value of a field. -/
def value? (name : String) (fields : List (Value × Value)) : Option Value :=
  Value.lookup? (Text.ofString name) fields

/-- The code, which has to be there. -/
def code (fields : List (Value × Value)) : Except FieldFault Code :=
  match value? "code" fields with
  | none   => .error .missing
  | some v => (Code.ofValue v).mapError .code

/-- The context in normal form, an empty object if none is given. -/
def context (fields : List (Value × Value)) : Except FieldFault Json :=
  match value? "context" fields with
  | none   => .ok (.obj [])
  | some v => (Context.normalize v).mapError .context

/-- Whether the kind, if it is given, is the expected one. -/
def kind (expected : Kind) (fields : List (Value × Value)) : Except FieldFault Unit :=
  match value? "kind" fields with
  | none   => .ok ()
  | some v =>
    if v.text? = some (Text.ofString expected.name) then .ok () else .error (.kindOther expected)

/-- The severity of a validation notice, which has to be there. -/
def severity (fields : List (Value × Value)) : Except FieldFault Severity :=
  match value? "severity" fields with
  | none   => .error .missing
  | some v => (Severity.ofValue v).mapError .severity

/-- Whether the severity, if it is given, is that of a system error. -/
def errorSeverity (fields : List (Value × Value)) : Except FieldFault Unit :=
  match value? "severity" fields with
  | none   => .ok ()
  | some v =>
    match Severity.ofValue v with
    | .error fault => .error (.severity fault)
    | .ok .error   => .ok ()
    | .ok _        => .error .severityFixed

/-- The step to a key that is no name: a truth value or an integer of 64 bits is an index, any
other key is shown. -/
def stepTo : Value → Step
  | .bool b => .index b.toInt
  | .int n  =>
    if -0x8000000000000000 ≤ n ∧ n < 0x8000000000000000 then .index n
    else .name (Value.int n).represented
  | k       => .name k.represented

/-- The error for a field that no notice has, or for a key that is no name. -/
def unknownError? (key : Value) : Option FieldError :=
  match key with
  | .text t => if names.contains t then none else some ⟨[.name t], .unknown⟩
  | k       => some ⟨[stepTo k], .nameNotText⟩

/-- The errors for fields that no notice has. -/
def unknown (fields : List (Value × Value)) : List FieldError :=
  fields.filterMap fun e => unknownError? e.1

/-- The error of a field that has been checked, if there is one. -/
def errorAt {α : Type} (name : String) : Except FieldFault α → List FieldError
  | .ok _        => []
  | .error fault => [⟨[.name (Text.ofString name)], fault⟩]

end Fields

/-! ### Notices -/

/-- The validation notice with the given fields. -/
def ValidationNotice.ofFields (fields : List (Value × Value)) :
    Except (List FieldError) ValidationNotice :=
  match Fields.code fields, Fields.context fields, Fields.kind .validation fields,
    Fields.severity fields, Fields.unknown fields with
  | .ok code, .ok context, .ok (), .ok severity, [] => .ok ⟨code, severity, context⟩
  | code, context, kind, severity, unknown          =>
    .error (Fields.errorAt "code" code ++ Fields.errorAt "context" context ++
      Fields.errorAt "kind" kind ++ Fields.errorAt "severity" severity ++ unknown)

/-- The system error with the given fields. -/
def SystemError.ofFields (fields : List (Value × Value)) :
    Except (List FieldError) SystemError :=
  match Fields.code fields, Fields.context fields, Fields.kind .systemError fields,
    Fields.errorSeverity fields, Fields.unknown fields with
  | .ok code, .ok context, .ok (), .ok (), [] => .ok ⟨code, context⟩
  | code, context, kind, severity, unknown    =>
    .error (Fields.errorAt "code" code ++ Fields.errorAt "context" context ++
      Fields.errorAt "kind" kind ++ Fields.errorAt "severity" severity ++ unknown)

namespace Notice

/-- The notice of a kind with the given fields. -/
def ofFields (kind : Kind) (fields : List (Value × Value)) : Except (List FieldError) Notice :=
  match kind with
  | .validation  => (ValidationNotice.ofFields fields).map .validation
  | .systemError => (SystemError.ofFields fields).map .system

/-- The kind with a name. -/
def kindOf? (v : Value) : Option Kind :=
  [Kind.validation, Kind.systemError].find? fun k => v.text? == some (Text.ofString k.name)

/-- An error located under a kind. -/
def under (kind : Kind) (e : FieldError) : FieldError :=
  { e with location := .name (Text.ofString kind.name) :: e.location }

/-- The notice that a map describes, its kind among the fields. -/
def ofValue : Value → Except (List FieldError) Notice
  | .map fields =>
    match Fields.value? "kind" fields with
    | none   => .error [⟨[], .kindMissing⟩]
    | some v =>
      match kindOf? v with
      | none      => .error [⟨[], .kindUnknown v.shown⟩]
      | some kind => (ofFields kind fields).mapError (·.map (under kind))
  | _           => .error [⟨[], .notFields⟩]

end Notice

end NoticeLedger
