import DeviceConnector.Frame.Basic
import DeviceConnector.Message.Json
/-!
# Failures of host operations

Operations of a host fail for causes of their own, and for causes of the frames, bodies and
connections that they use.
-/

namespace DeviceConnector

inductive HostError where
  | noActiveSession
  | notConnected
  | incompleteMessage (type : String)
  | messageTooLarge (size max : Nat)
  | detached (vdc : Dsuid)
  | cancelled
  | frame (error : FrameError)
  | body (error : BodyError)
  | transport (fault : Fault)
  deriving DecidableEq, Repr

namespace HostError

def message : HostError → String
  | noActiveSession => "no active session"
  | notConnected => "host not connected to a controller"
  | incompleteMessage type => "incomplete " ++ type ++ " message"
  | messageTooLarge size max =>
    "message too large (" ++ toString size ++ " bytes, max " ++ toString max ++ ")"
  | detached vdc => "vDC " ++ vdc.text ++ " is not attached to a host"
  | cancelled => "operation cancelled"
  | frame error => "frame error: " ++ error.message
  | body error => "codec error: " ++ error.message
  | transport fault => "io error: " ++ fault.text

end HostError

end DeviceConnector
