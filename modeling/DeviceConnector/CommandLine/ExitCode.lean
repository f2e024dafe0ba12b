import DeviceConnector.Host.Error
/-!
# Exit codes

How the command line ends when something fails: an exit code and a text, which says what was being
done and what went wrong.
-/

namespace DeviceConnector

structure CommandError where
  code : Nat
  message : String
  deriving DecidableEq, Repr

namespace ExitCode

def success : Nat := 0
def failure : Nat := 1
def rejected : Nat := 2
def permissionDenied : Nat := 50
def dataInvalid : Nat := 60
def usage : Nat := 64
def timeout : Nat := 124
def internal : Nat := 125
def interrupted : Nat := 130

end ExitCode

namespace CommandError

def inContext (code : Nat) (context text : String) : CommandError := ⟨code, context ++ ": " ++ text⟩

def faultCode : FaultKind → Nat
  | .permissionDenied => ExitCode.permissionDenied
  | .timedOut | .wouldBlock => ExitCode.timeout
  | .addressInUse | .addressNotAvailable => ExitCode.failure
  | .other => ExitCode.internal

def ofFault (context : String) (fault : Fault) : CommandError :=
  inContext (faultCode fault.kind) context fault.text

def ofFrame (context : String) : FrameError → CommandError
  | .transport fault => ofFault context fault
  | error => inContext ExitCode.dataInvalid context error.message

def ofDsuid (context : String) (error : DsuidError) : CommandError :=
  inContext ExitCode.dataInvalid context error.message

def ofHost (context : String) : HostError → CommandError
  | .transport fault => ofFault context fault
  | .frame error => ofFrame context error
  | error =>
    let code := match error with
      | .body _ | .messageTooLarge .. | .incompleteMessage _ => ExitCode.dataInvalid
      | .cancelled => ExitCode.interrupted
      | .notConnected | .noActiveSession => ExitCode.failure
      | _ => ExitCode.internal
    inContext code context error.message

end CommandError

end DeviceConnector
