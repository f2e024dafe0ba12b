import DeviceConnector.Host.Error
/-!
# Waiting for a controller

A wait looks at fixed intervals whether the host is connected, and it can be cancelled at any time.
A connection that comes and goes between two looks is not noticed.
-/

namespace DeviceConnector.Wait

inductive Signal where
  /-- From now on the host is, or is not, connected. -/
  | connected (now : Bool)
  | cancel
  deriving DecidableEq, Repr

def nextLook (interval time : Nat) : Nat :=
  if interval = 0 then time else (time + interval - 1) / interval * interval

/-- How long a wait lasts that has signals at given times, in order, from the time of the latest one
on. There is no answer if it never ends. -/
def duration? (interval : Nat) (connected : Bool) (time : Nat) :
    List (Nat × Signal) → Option (Except HostError Nat)
  | [] => if connected then some (.ok (nextLook interval time)) else none
  | (instant, signal) :: later =>
    let look := nextLook interval time
    if connected && look ≤ instant then some (.ok look)
    else
      match signal with
      | .cancel => some (.error .cancelled)
      | .connected now => duration? interval now instant later

end DeviceConnector.Wait
