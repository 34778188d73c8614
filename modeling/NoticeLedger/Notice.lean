import NoticeLedger.Json
import NoticeLedger.Key

/-!
# Notices

A validation notice has a code, a severity and a context. A system error has a code and a context
and always the severity of an error.
-/

namespace NoticeLedger

/-- The two kinds of notices. -/
inductive Kind where
  | validation
  | systemError
  deriving DecidableEq, Repr

/-- The name of a kind. -/
def Kind.name : Kind → String
  | validation  => "validation"
  | systemError => "system_error"

/-- A finding about what is validated. -/
structure ValidationNotice where
  code : Code
  severity : Severity
  context : Json
  deriving Repr

/-- A failure of the validation itself. -/
structure SystemError where
  code : Code
  context : Json
  deriving Repr

/-- A notice of either kind. -/
inductive Notice where
  | validation (notice : ValidationNotice)
  | system (error : SystemError)
  deriving Repr

namespace ValidationNotice

/-- What the notice is counted by. -/
def key (n : ValidationNotice) : Key :=
  ⟨n.code, n.severity⟩

/-- Whether the notice reports an error. -/
def isError (n : ValidationNotice) : Bool :=
  n.severity == .error

end ValidationNotice

/-- What the error is counted by. -/
def SystemError.key (e : SystemError) : Key :=
  ⟨e.code, .error⟩

namespace Notice

/-- The kind of the notice. -/
def kind : Notice → Kind
  | validation _ => .validation
  | system _     => .systemError

/-- What the notice is counted by. -/
def key : Notice → Key
  | validation n => n.key
  | system e     => e.key

/-- What the notice tells beside its code. -/
def context : Notice → Json
  | validation n => n.context
  | system e     => e.context

/-- Whether the notice has the severity of an error. -/
def isError (n : Notice) : Bool :=
  n.key.severity == .error

@[simp] theorem key_validation (n : ValidationNotice) : (validation n).key = n.key := rfl

@[simp] theorem key_system (e : SystemError) : (system e).key = e.key := rfl

@[simp] theorem context_validation (n : ValidationNotice) :
    (validation n).context = n.context := rfl

@[simp] theorem context_system (e : SystemError) : (system e).context = e.context := rfl

end Notice

end NoticeLedger
