/-!
# Faults

Failures reported by the operating system: a kind, from which an exit code follows, and a text.
-/

namespace DeviceConnector

inductive FaultKind where
  | permissionDenied
  | timedOut
  | wouldBlock
  | addressInUse
  | addressNotAvailable
  | other
  deriving DecidableEq, Repr

structure Fault where
  kind : FaultKind
  text : String
  deriving DecidableEq, Repr

end DeviceConnector
