import DeviceConnector.CommandLine.ExitCode
import DeviceConnector.Text.Blank
import DeviceConnector.Text.Radix
/-!
# Durations

A duration is a positive number followed by `ms` for milliseconds, or by `s` or nothing for seconds.
-/

namespace DeviceConnector.Duration

open Text

inductive Error where
  | empty
  | invalid (text : String)
  | zero
  deriving DecidableEq, Repr

namespace Error

def message : Error → String
  | empty => "duration must not be empty"
  | invalid text => "invalid duration value: " ++ text
  | zero => "duration must be greater than zero"

def toCommandError (e : Error) : CommandError := ⟨ExitCode.usage, e.message⟩

end Error

/-- The number and the milliseconds in its unit. The text ends in the unit, if it has one. -/
def splitUnit (text : List Char) : List Char × Nat :=
  match text.reverse with
  | 's' :: 'm' :: number => (number.reverse, 1)
  | 's' :: number => (number.reverse, 1000)
  | _ => (text, 1000)

def ofTrimmed (text : List Char) : Except Error Nat :=
  if text.isEmpty then .error .empty
  else
    let (number, unit) := splitUnit text
    match readUnsigned? 10 (UInt64.size - 1) number with
    | none => .error (.invalid (String.ofList text))
    | some 0 => .error .zero
    | some n => .ok (n * unit)

def parse (text : String) : Except Error Nat := ofTrimmed (trim text.toList)

end DeviceConnector.Duration
