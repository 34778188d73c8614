import NoticeLedger.Decimal.Reading
import NoticeLedger.Files.Path

/-!
# Commands

What can be asked for on a command line: to compare two reports, to decide on the reports of two
directories, or to summarize one report (`Command.ofArguments?`). Options may stand anywhere behind
the name of the command. The value of an option follows it or an equals sign; of a repeated option
the last value counts. Two hyphens alone end the options.
-/

namespace NoticeLedger

/-! ### Arguments -/

/-- Arguments by what they are: words in order, and options with their values, the last first. -/
structure Arguments where
  words : List String := []
  options : List (String × String) := []
  deriving DecidableEq, Repr

namespace Arguments

/-- The value of an option. -/
def option? (a : Arguments) (name : String) : Option String :=
  a.options.lookup name

/-- Whether an argument is an option. A hyphen alone is a word. -/
def isOption (argument : String) : Bool :=
  argument.toList.head? = some '-' && argument ≠ "-"

/-- An option, and its value if the argument holds it. -/
def splitOption (argument : String) : String × Option String :=
  match argument.toList.span (· ≠ '=') with
  | (_, [])             => (argument, none)
  | (name, _ :: value) => (String.ofList name, some (String.ofList value))

/-- The arguments of a command that knows some options, behind those in `a`. An option has to be
known and to have a value. -/
def readFrom (known : List String) : List String → Arguments → Option Arguments
  | [], a               => some a
  | argument :: rest, a =>
    if argument = "--" then some { a with words := a.words ++ rest }
    else if isOption argument then
      let (name, value?) := splitOption argument
      if known.contains name then
        match value?, rest with
        | some value, rest          => readFrom known rest { a with options := (name, value) :: a.options }
        | none, value :: rest       => readFrom known rest { a with options := (name, value) :: a.options }
        | none, []                  => none
      else none
    else readFrom known rest { a with words := a.words ++ [argument] }

/-- The arguments of a command that knows some options. -/
def read? (known arguments : List String) : Option Arguments :=
  readFrom known arguments {}

end Arguments

/-! ### Commands -/

/-- The form of an answer. -/
inductive Format where
  | text
  | json
  deriving DecidableEq, Repr

/-- The form that an option asks for. -/
def Format.ofName? : String → Option Format
  | "text" => some .text
  | "json" => some .json
  | _      => none

/-- A command with its arguments. -/
inductive Command where
  | compare (baseline candidate : Path) (format : Format)
  | acceptance (baseline candidate : Path) (threshold : Float) (format : Format)
  | summary (report : Path)
  deriving Repr

namespace Command

/-- The form that arguments ask for. -/
def format? (a : Arguments) : Option Format :=
  match a.option? "--format" with
  | none      => some .text
  | some name => Format.ofName? name

/-- The threshold that arguments ask for. -/
def threshold? (a : Arguments) : Option Float :=
  match a.option? "--threshold" with
  | none   => some 1
  | some s => readGroupedDouble? s

/-- The command of a name with arguments. -/
def ofName? (name : String) (arguments : List String) : Option Command :=
  match name with
  | "compare"    => do
    let a ← Arguments.read? ["--format"] arguments
    let [baseline, candidate] := a.words | none
    return .compare (.ofString baseline) (.ofString candidate) (← format? a)
  | "acceptance" => do
    let a ← Arguments.read? ["--threshold", "--format"] arguments
    let [baseline, candidate] := a.words | none
    return .acceptance (.ofString baseline) (.ofString candidate) (← threshold? a) (← format? a)
  | "summary"    => do
    let a ← Arguments.read? [] arguments
    let [report] := a.words | none
    return .summary (.ofString report)
  | _            => none

/-- The command on a command line. -/
def ofArguments? : List String → Option Command
  | "--" :: name :: arguments => ofName? name arguments
  | name :: arguments         => ofName? name arguments
  | []                        => none

end Command

end NoticeLedger
