import DeviceConnector.CommandLine.Duration
import DeviceConnector.CommandLine.Grammar
import DeviceConnector.CommandLine.Log
import DeviceConnector.CommandLine.Output
import DeviceConnector.Host.Basic
import DeviceConnector.Identifier.Minting
/-!
# The commands

The command line of the host: `serve`, `dsuid generate`, `dsuid parse` and `version`. What a command
does is decided here, up to what needs the outside: random bits, the clock and connections.
-/

namespace DeviceConnector.CommandLine

inductive Algorithm where
  | timeBased
  | md5
  | random
  | sha1
  deriving DecidableEq, Repr

def Algorithm.parse? : String → Option Algorithm
  | "v1" => some timeBased
  | "v3" => some md5
  | "v4" => some random
  | "v5" => some sha1
  | _ => none

structure ServeArguments where
  listen : SocketAddress
  dsuid : Option String
  name : String
  demoVdc : Bool
  maxMessageSize : Nat
  idleTimeout : String
  requestMaxAge : String
  deriving DecidableEq, Repr

structure GenerateArguments where
  algorithm : Algorithm
  ns : Option Namespace
  name : Option String
  count : Nat
  deriving DecidableEq, Repr

inductive Command where
  | serve (arguments : ServeArguments)
  | generate (arguments : GenerateArguments)
  | parse (text : String)
  | version (extended : Bool)
  deriving DecidableEq, Repr

structure Invocation where
  /-- None leaves the choice to where the output goes. -/
  format : Option OutputFormat
  logging : Logging
  command : Command
  deriving DecidableEq, Repr

def readSize? (text : String) : Option Nat := Text.readUnsigned? 10 (UInt64.size - 1) text.toList

def grammar : Grammar where
  name := "dsvdc"
  versioned := true
  flags := [
    { name := "format", shared := true, accepts := fun s => (OutputFormat.parse? s).isSome },
    { name := "log-format", shared := true, accepts := fun s => (LogFormat.parse? s).isSome,
      byDefault := some "text" },
    { name := "log-level", shared := true, accepts := fun s => (LogLevel.parse? s).isSome,
      environment := some "DSVDC_LOG_LEVEL", byDefault := some "info" }]
  commands := [
    { name := "serve"
      flags := [
        { name := "listen", accepts := fun s => (SocketAddress.parse? s).isSome,
          environment := some "DSVDC_LISTEN", byDefault := some "0.0.0.0:0" },
        { name := "dsuid", environment := some "DSVDC_DSUID" },
        { name := "name", environment := some "DSVDC_NAME",
          byDefault := some "default-vDC-Host" },
        { name := "demo-vdc", takesValue := false },
        { name := "max-message-size", accepts := fun s => (readSize? s).isSome,
          environment := some "DSVDC_MAX_MESSAGE_SIZE", byDefault := some "16384" },
        { name := "idle-timeout", environment := some "DSVDC_IDLE_TIMEOUT",
          byDefault := some "3600s" },
        { name := "request-max-age", environment := some "DSVDC_REQUEST_MAX_AGE",
          byDefault := some "30s" }] },
    { name := "dsuid"
      commands := [
        { name := "generate"
          flags := [
            { name := "algorithm", letter := some 'a',
              accepts := fun s => (Algorithm.parse? s).isSome, byDefault := some "v4" },
            { name := "namespace", accepts := fun s => (Namespace.parse? s).isSome,
              requires := ["name"] },
            { name := "name", requires := ["namespace"] },
            { name := "count", letter := some 'n', accepts := fun s => (readSize? s).isSome,
              byDefault := some "1" }] },
        { name := "parse", operands := 1 }] },
    { name := "version", flags := [{ name := "extended", takesValue := false }] }]

def Command.ofLevels? (levels : List Level) : Option Command := do
  let value (name : String) := value? levels name
  match levels.map (·.command) with
  | [_, "serve"] =>
    return .serve {
      listen := ← (← value "listen") |> SocketAddress.parse?
      dsuid := value "dsuid"
      name := ← value "name"
      demoVdc := (value "demo-vdc").isSome
      maxMessageSize := ← (← value "max-message-size") |> readSize?
      idleTimeout := ← value "idle-timeout"
      requestMaxAge := ← value "request-max-age" }
  | [_, "dsuid", "generate"] =>
    return .generate {
      algorithm := ← (← value "algorithm") |> Algorithm.parse?
      ns := (value "namespace").bind Namespace.parse?
      name := value "name"
      count := ← (← value "count") |> readSize? }
  | [_, "dsuid", "parse"] =>
    return .parse (← (levels.flatMap (·.operands)).head?)
  | [_, "version"] => return .version (value "extended").isSome
  | _ => none

def Invocation.ofArguments (arguments : List String) (environment : List (String × String)) :
    Except Stop Invocation := do
  let levels ← read grammar [] environment {} arguments
  let invocation? : Option Invocation := do
    return {
      format := (value? levels "format").bind OutputFormat.parse?
      logging := {
        format := ← (← value? levels "log-format") |> LogFormat.parse?
        level := ← (← value? levels "log-level") |> LogLevel.parse? }
      command := ← Command.ofLevels? levels }
  match invocation? with
  | some invocation => return invocation
  | none => throw .rejected

def programVersion : String := "0.1.0"

def versionLine : String := "dsvdc " ++ programVersion ++ "\n"

def versionDetails (targets : List String) : String :=
  Output.lines (["name: dsvdc", "version: " ++ programVersion] ++ targets ++
    ["api_version: " ++ toString Session.supportedApiVersion.toNat,
      "features: host=true, async=false, cli=true"])

/-- The configuration that `serve` asks for. The first fault counts, in the order identifier,
message size, idle timeout, age of requests. -/
def hostConfig (arguments : ServeArguments) : Except CommandError HostConfig := do
  let dsuid ← match arguments.dsuid with
    | none => pure none
    | some text =>
      match Dsuid.parse text with
      | .ok dsuid => pure (some dsuid)
      | .error e => throw (.ofDsuid "invalid --dsuid" e)
  if arguments.maxMessageSize = 0 ∨ Frame.maxBody < arguments.maxMessageSize then
    throw ⟨ExitCode.usage,
      "--max-message-size must be between 1 and " ++ toString Frame.maxBody⟩
  let idleTimeout ← (Duration.parse arguments.idleTimeout).mapError Duration.Error.toCommandError
  let requestMaxAge ←
    (Duration.parse arguments.requestMaxAge).mapError Duration.Error.toCommandError
  return {
    dsuid, idleTimeout
    name := arguments.name
    listen := arguments.listen
    maxMessageSize := arguments.maxMessageSize
    requestMaxAge := some requestMaxAge }

def demoVdc : Dsuid × String :=
  (Dsuid.ofUuid 0x9888DD3DB3454109B088777777777700#128, "myTestVDC")

inductive Action where
  | print (text : String)
  | mintTimeBased (count : Nat)
  | mintRandom (count : Nat)
  | printVersion
  | serve (config : HostConfig) (demo : Option (Dsuid × String))

def Command.action (format : OutputFormat) : Command → Except CommandError Action
  | .serve arguments => do
    let config ← hostConfig arguments
    return .serve config (if arguments.demoVdc then some demoVdc else none)
  | .generate arguments =>
    if arguments.count = 0 then .error ⟨ExitCode.usage, "count must be greater than zero"⟩
    else
      match arguments.algorithm with
      | .timeBased => .ok (.mintTimeBased arguments.count)
      | .random => .ok (.mintRandom arguments.count)
      | algorithm =>
        match arguments.ns, arguments.name with
        | some ns, some name =>
          let dsuid :=
            if algorithm = .md5 then Dsuid.ofNameMd5 ns name else Dsuid.ofNameSha1 ns name
          .ok (.print (Output.dsuids format [dsuid]))
        | _, _ => .error ⟨ExitCode.usage, "v3 and v5 need --namespace and --name"⟩
  | .parse text =>
    match Dsuid.parse text with
    | .ok dsuid => .ok (.print (Output.dsuids format [dsuid]))
    | .error e => .error (.ofDsuid "parse failed" e)
  | .version false => .ok (.print versionLine)
  | .version true => .ok .printVersion

end DeviceConnector.CommandLine
