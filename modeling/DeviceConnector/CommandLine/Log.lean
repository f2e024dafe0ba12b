import DeviceConnector.CommandLine.Output
/-!
# The log

Entries have a level and a text. An entry is written when its level is at most the level that was
asked for, as a line of text or of JSON.
-/

namespace DeviceConnector.CommandLine

inductive LogFormat where
  | text
  | json
  deriving DecidableEq, Repr

def LogFormat.parse? : String → Option LogFormat
  | "text" => some text
  | "json" => some json
  | _ => none

inductive LogLevel where
  | error
  | warn
  | info
  | debug
  | trace
  deriving DecidableEq, Repr

namespace LogLevel

def parse? : String → Option LogLevel
  | "error" => some error
  | "warn" => some warn
  | "info" => some info
  | "debug" => some debug
  | "trace" => some trace
  | _ => none

def rank : LogLevel → Nat
  | error => 0
  | warn => 1
  | info => 2
  | debug => 3
  | trace => 4

def label : LogLevel → String
  | error => "ERROR"
  | warn => "WARN"
  | info => "INFO"
  | debug => "DEBUG"
  | trace => "TRACE"

end LogLevel

structure Logging where
  format : LogFormat
  level : LogLevel
  deriving DecidableEq, Repr

namespace Logging

def admits (logging : Logging) (level : LogLevel) : Bool := level.rank ≤ logging.level.rank

def line (logging : Logging) (time : String) (level : LogLevel) (text : String) : String :=
  match logging.format with
  | .text => time ++ " " ++ level.label ++ " " ++ text
  | .json => (Json.Value.ofFields [("timestamp", some (.ofText time)),
      ("level", some (.ofText level.label)),
      ("fields", some (.ofFields [("message", some (.ofText text))]))]).renderText

end Logging

end DeviceConnector.CommandLine
