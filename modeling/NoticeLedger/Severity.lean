import NoticeLedger.Text.Utf8
import NoticeLedger.Value

/-!
# Severities

A notice informs, warns or reports an error.
-/

namespace NoticeLedger

/-- How grave a notice is. -/
inductive Severity where
  | info
  | warning
  | error
  deriving DecidableEq, Repr

namespace Severity

/-- All severities, the least grave first. -/
def all : List Severity := [info, warning, error]

/-- The name in reports. -/
def name : Severity → String
  | info    => "INFO"
  | warning => "WARNING"
  | error   => "ERROR"

/-- The place in the list of all severities. -/
def rank : Severity → Nat
  | info    => 0
  | warning => 1
  | error   => 2

/-- The severity with a name. -/
def ofName? (s : String) : Option Severity :=
  all.find? (·.name == s)

@[simp] theorem ofName?_name (s : Severity) : ofName? s.name = some s := by
  cases s <;> decide

theorem name_of_ofName? {s : String} {severity : Severity} (h : ofName? s = some severity) :
    severity.name = s := by
  simpa using List.find?_some h

end Severity

/-- Why a value names no severity. -/
inductive SeverityFault where
  /-- It is a text that no string spells. -/
  | notUnicode
  | unknown
  deriving DecidableEq, Repr

namespace Severity

/-- The severity with a name, which has to be one. -/
def ofName (s : String) : Except SeverityFault Severity :=
  match ofName? s with
  | none          => .error .unknown
  | some severity => .ok severity

/-- The severity that a value names, as a text or as the UTF-8 form of one. -/
def ofValue : Value → Except SeverityFault Severity
  | .text t   =>
    match t.toString? with
    | none   => .error .notUnicode
    | some s => ofName s
  | .bytes bs =>
    match decodeUtf8? bs with
    | none   => .error .unknown
    | some s => ofName s
  | _         => .error .unknown

end Severity

end NoticeLedger
