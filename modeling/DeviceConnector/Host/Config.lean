import DeviceConnector.Identifier.Basic
import DeviceConnector.SocketAddress
/-!
# Configuration

What can be chosen about a host, with the values that hold where nothing is chosen.
-/

namespace DeviceConnector

structure HostConfig where
  /-- Identifier of the host; the well-known one if there is none. -/
  dsuid : Option Dsuid := none
  name : String := "default-vDC-Host"
  /-- Address to listen on. Port zero leaves the choice to the system. -/
  listen : SocketAddress := .v4 ⟨0, 0, 0, 0⟩ 0
  /-- Largest message body accepted or sent, in bytes. -/
  maxMessageSize : Nat := 16384
  /-- Milliseconds between two looks while waiting for a controller. -/
  connectPollInterval : Nat := 1000
  /-- Age in milliseconds at which pending requests are dropped; none keeps them. -/
  requestMaxAge : Option Nat := some 30000
  /-- Milliseconds without traffic after which a connection is closed. -/
  idleTimeout : Nat := 3600000
  /-- Send small packets at once. -/
  tcpNodelay : Bool := true
  deriving DecidableEq, Repr

namespace HostConfig

def hostDsuid (config : HostConfig) : Dsuid := config.dsuid.getD Dsuid.defaultHost

end HostConfig

end DeviceConnector
