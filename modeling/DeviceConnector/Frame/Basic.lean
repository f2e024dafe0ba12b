import DeviceConnector.Fault
/-!
# Frames

A message travels as a frame: its length in two bytes, most significant first, then its body. A
reader keeps the bytes received so far in a buffer and takes whole frames off its front; an
incomplete frame is left where it is, so reading can be repeated as bytes arrive.
-/

namespace DeviceConnector

abbrev Bytes := List UInt8

inductive FrameError where
  | bodyTooLarge (size max : Nat)
  | transport (fault : Fault)
  deriving DecidableEq, Repr

namespace FrameError

def message : FrameError → String
  | bodyTooLarge size max =>
    "frame body too large (" ++ toString size ++ " bytes, max " ++ toString max ++ ")"
  | transport fault => "frame I/O error: " ++ fault.text

end FrameError

namespace Frame

def headerSize : Nat := 2

/-- Largest body whose length fits into the header. -/
def maxBody : Nat := 65535

def wireSize (body : Bytes) : Nat := headerSize + body.length

def header (length : Nat) : Bytes := [UInt8.ofNat (length / 256), UInt8.ofNat length]

/-- Append the frame of a body to what is already written. An absent body counts as empty. -/
def encode (body : Option Bytes) (written : Bytes) : Except FrameError Bytes :=
  let body := body.getD []
  if body.length ≤ maxBody then .ok (written ++ (header body.length ++ body))
  else .error (.bodyTooLarge body.length maxBody)

def declaredLength? : Bytes → Option Nat
  | high :: low :: _ => some (high.toNat * 256 + low.toNat)
  | _ => none

/-- The body of the frame at the front of a buffer and the bytes after it, once it is complete. -/
def decode? : Bytes → Option (Bytes × Bytes)
  | high :: low :: rest =>
    let length := high.toNat * 256 + low.toNat
    let body := rest.take length
    if body.length = length then some (body, rest.drop length) else none
  | _ => none

theorem length_lt_of_decode? {buffer body rest : Bytes} (h : decode? buffer = some (body, rest)) :
    rest.length < buffer.length := by
  match buffer with
  | [] | [_] => simp [decode?] at h
  | high :: low :: bytes =>
    simp only [decode?] at h
    split at h
    · simp only [Option.some.injEq, Prod.mk.injEq] at h
      rw [← h.2, List.length_drop, List.length_cons, List.length_cons]
      omega
    · simp at h

theorem decode?_header (body rest : Bytes) (fits : body.length ≤ maxBody) :
    decode? (header body.length ++ (body ++ rest)) = some (body, rest) := by
  have high : (UInt8.ofNat (body.length / 256)).toNat = body.length / 256 := by
    rw [UInt8.toNat_ofNat']; unfold maxBody at fits; omega
  have low : (UInt8.ofNat body.length).toNat = body.length % 256 := by
    rw [UInt8.toNat_ofNat']
  have length : body.length / 256 * 256 + body.length % 256 = body.length := by omega
  simp [decode?, header, high, low, length]

/-- Take every whole frame off a buffer, behind the bodies taken before, which are newest first. -/
def decodeOnto (bodies : List Bytes) (buffer : Bytes) : List Bytes × Bytes :=
  match _h : decode? buffer with
  | none => (bodies.reverse, buffer)
  | some (body, rest) => decodeOnto (body :: bodies) rest
termination_by buffer.length
decreasing_by exact length_lt_of_decode? _h

def decodeAll (buffer : Bytes) : List Bytes × Bytes := decodeOnto [] buffer

def receive (buffer : Bytes) : List Bytes → List Bytes × Bytes
  | [] => ([], buffer)
  | chunk :: chunks =>
    let (bodies, left) := decodeAll (buffer ++ chunk)
    let (more, left) := receive left chunks
    (bodies ++ more, left)

end Frame

end DeviceConnector
