import DeviceConnector.Frame.Basic
/-!
# Frames with a size limit

A codec refuses bodies above its limit, on reading as soon as the header is there. The limit never
exceeds what a header can declare.
-/

namespace DeviceConnector

structure FrameCodec where
  maxBody : Nat
  maxBody_le : maxBody ≤ Frame.maxBody

namespace FrameCodec

/-- Codec with a limit, which is lowered to what a header can declare. -/
def ofLimit (limit : Nat) : FrameCodec := ⟨min limit Frame.maxBody, Nat.min_le_right ..⟩

def unlimited : FrameCodec := ofLimit Frame.maxBody

def encode (codec : FrameCodec) (body written : Bytes) : Except FrameError Bytes :=
  if body.length ≤ codec.maxBody then Frame.encode (some body) written
  else .error (.bodyTooLarge body.length codec.maxBody)

/-- The frame at the front of a buffer, if it is whole. A declared length above the limit is refused
before the body has arrived. -/
def decode (codec : FrameCodec) (buffer : Bytes) : Except FrameError (Option (Bytes × Bytes)) :=
  match Frame.declaredLength? buffer with
  | none => .ok none
  | some length =>
    if length ≤ codec.maxBody then .ok (Frame.decode? buffer)
    else .error (.bodyTooLarge length codec.maxBody)

/-- As `decode`, after the last byte of the stream: an unfinished frame is an error. -/
def decodeLast (codec : FrameCodec) (buffer : Bytes) :
    Except FrameError (Option (Bytes × Bytes)) :=
  match codec.decode buffer with
  | .ok none =>
    if buffer.isEmpty then .ok none
    else .error (.transport ⟨.other, "bytes remaining on stream"⟩)
  | result => result

def decodeAll (codec : FrameCodec) (buffer : Bytes) :
    List Bytes × Bytes × Option FrameError :=
  go [] buffer
where
  go (bodies : List Bytes) (buffer : Bytes) : List Bytes × Bytes × Option FrameError :=
    match h : codec.decode buffer with
    | .error e => (bodies.reverse, buffer, some e)
    | .ok none => (bodies.reverse, buffer, none)
    | .ok (some (body, rest)) =>
      have : rest.length < buffer.length := by
        have taken : Frame.decode? buffer = some (body, rest) := by
          unfold decode at h
          split at h
          · simp at h
          · split at h
            · simpa using h
            · simp at h
        exact Frame.length_lt_of_decode? taken
      go (body :: bodies) rest
  termination_by buffer.length

end FrameCodec

end DeviceConnector
