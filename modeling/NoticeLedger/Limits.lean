import NoticeLedger.Value.Shown

/-!
# Limits

How many notices are kept: in all, of one key, and of one key in a report. Limits are natural
numbers. They are built from named values (`Limits.ofFields`), or from the options of a
configuration, which have two spellings each (`Limits.ofOptions`).
-/

namespace NoticeLedger

/-- A limit that can be set. -/
inductive LimitField where
  /-- The validation notices kept in all. -/
  | total
  /-- The validation notices kept of one key. -/
  | perKey
  /-- The samples of one key in a report. -/
  | samples
  deriving DecidableEq, Repr

namespace LimitField

/-- All limits, in the order in which they are checked. -/
def all : List LimitField := [total, perKey, samples]

/-- The name of a limit. -/
def name : LimitField → String
  | total   => "max_total_validation_notices"
  | perKey  => "max_per_notice_type_and_severity"
  | samples => "max_export_per_notice_type"

/-- The second spelling of the name in a configuration. -/
def camelName : LimitField → String
  | total   => "maxTotalValidationNotices"
  | perKey  => "maxPerNoticeTypeAndSeverity"
  | samples => "maxExportPerNoticeType"

/-- The limit that an option names in either spelling. -/
def ofOption? (option : Value) : Option LimitField :=
  all.find? fun f =>
    option.text? == some (Text.ofString f.name) || option.text? == some (Text.ofString f.camelName)

end LimitField

/-- The limits of a recorder. -/
structure Limits where
  /-- The validation notices kept in all. -/
  total : Nat := 10000000
  /-- The validation notices kept of one key. -/
  perKey : Nat := 100000
  /-- The samples of one key in a report. -/
  samples : Nat := 1000
  deriving DecidableEq, Repr, Inhabited

/-- What stands against a value as a limit. -/
inductive LimitFault where
  | notInteger
  | negative
  deriving DecidableEq, Repr

/-- The words for a fault. -/
def LimitFault.message : LimitFault → String
  | notInteger => "must be an integer"
  | negative   => "must be >= 0"

/-- The limit that a value is. Truth values are no integers here. -/
def limitOf : Value → Except LimitFault Nat
  | .int n => if n < 0 then .error .negative else .ok n.toNat
  | _      => .error .notInteger

namespace Limits

/-- The samples of one key that are both kept and reported. -/
def effectiveSamples (l : Limits) : Nat :=
  min l.perKey l.samples

/-- Set a limit. -/
def set (l : Limits) : LimitField → Nat → Limits
  | .total, n   => { l with total := n }
  | .perKey, n  => { l with perKey := n }
  | .samples, n => { l with samples := n }

/-! ### Fields -/

/-- Set the limits in `fs` for which a value is given. -/
def setFields (fields : List (Value × Value)) :
    List LimitField → Limits → Except (LimitField × LimitFault) Limits
  | [], l      => .ok l
  | f :: fs, l =>
    match Value.lookup? (Text.ofString f.name) fields with
    | none   => setFields fields fs l
    | some v =>
      match limitOf v with
      | .error fault => .error (f, fault)
      | .ok n        => setFields fields fs (l.set f n)

/-- The limits with the given fields, the others at their defaults. The first limit in the order
of `LimitField.all` that is no natural number decides a failure. -/
def ofFields (fields : List (Value × Value)) : Except (LimitField × LimitFault) Limits :=
  setFields fields LimitField.all {}

/-! ### Options -/

/-- What is wrong with an option of a configuration. -/
inductive OptionFault where
  | unsupported (shown : Text)
  /-- The option is no name, and no text shows it. -/
  | unshowable
  | repeated (field : LimitField)
  | invalid (shown : Text) (fault : LimitFault)
  deriving DecidableEq, Repr

/-- The words for a fault. -/
def OptionFault.message : OptionFault → Text
  | unsupported shown   =>
    Text.ofString "unsupported notice limit option '" ++ shown ++ Text.ofString "'"
  | unshowable          =>
    Text.ofString ("Exceeds the limit (4300 digits) for integer string conversion; " ++
      "use sys.set_int_max_str_digits() to increase the limit")
  | repeated field      =>
    Text.ofString ("notice limit '" ++ field.name ++ "' is set more than once")
  | invalid shown fault =>
    Text.ofString "notice limit '" ++ shown ++ Text.ofString ("' " ++ fault.message)

/-- Set the limits that options name, where the limits in `seen` have been set already. -/
def setOptions :
    List (Value × Value) → (seen : List LimitField) → Limits → Except OptionFault Limits
  | [], _, l                    => .ok l
  | (option, v) :: rest, seen, l =>
    match LimitField.ofOption? option with
    | none   => .error (if option.isShowable then .unsupported option.shown else .unshowable)
    | some f =>
      if seen.contains f then .error (.repeated f)
      else
        match limitOf v with
        | .error fault => .error (.invalid option.shown fault)
        | .ok n        => setOptions rest (f :: seen) (l.set f n)

/-- The limits with the given options, the others at their defaults. The first option that is
unknown, names a limit once more, or is no natural number decides a failure. -/
def ofOptions (options : List (Value × Value)) : Except OptionFault Limits :=
  setOptions options [] {}

end Limits

end NoticeLedger
