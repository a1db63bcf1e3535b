import PeerMessaging.Gather

/-!
# Frames on a stream

On a byte stream every packet stands behind its length in four bytes. A reader keeps what
has arrived and gives one packet as soon as all of it is there. A length beyond the limit is
refused as soon as it is known, and the stream stays where it was.
-/

namespace PeerMessaging

/-- The framing of packets up to a largest size. -/
structure Framing where
  maxSize : Nat

namespace Framing

/-- The framing with the usual limit of 16 MiB. -/
def standard : Framing := ⟨16 * 1024 * 1024⟩

/-- Asks for the first packet in a buffer: the answer, none while the packet is incomplete, and
the buffer as it is then. -/
def pull (f : Framing) (buffer : Bytes) : Except Failure (Option Bytes) × Bytes :=
  if buffer.length < 4 then (.ok none, buffer)
  else
    let size := Bytes.toNat (buffer.take 4)
    if f.maxSize < size then (.error (.oversizedPacket size), buffer)
    else if buffer.length < 4 + size then (.ok none, buffer)
    else
      let buffer := buffer.drop 4
      (.ok (some (buffer.take size)), buffer.drop size)

/-- The first packet in the bytes that arrived, with the bytes after it; none while it is
incomplete. -/
def decode (f : Framing) (arrived : Bytes) : Except Failure (Option (Bytes × Bytes)) :=
  match f.pull arrived with
  | (.error failure, _) => .error failure
  | (.ok none, _) => .ok none
  | (.ok (some packet), rest) => .ok (some (packet, rest))

/-- Puts a packet behind its length at the end of a stream: whether it could be done, and the
stream as it is then. -/
def push (f : Framing) (packet : Gather) (stream : Bytes) : Except Failure Unit × Bytes :=
  if f.maxSize < packet.size then (.error (.oversizedPacket packet.size), stream)
  else
    let stream := stream ++ Bytes.ofNat 4 packet.size
    (.ok (), packet.parts.foldl (fun stream part => stream ++ part) stream)

/-- A packet behind its length, after what is already on the stream. -/
def encode (f : Framing) (packet : Gather) (stream : Bytes) : Except Failure Bytes :=
  match f.push packet stream with
  | (.error failure, _) => .error failure
  | (.ok (), stream) => .ok stream

theorem pull_of_decode {f : Framing} {arrived packet rest : Bytes}
    (h : f.decode arrived = .ok (some (packet, rest))) :
    f.pull arrived = (.ok (some packet), rest) := by
  rw [decode] at h
  split at h
  · exact nomatch h
  · exact nomatch h
  · rename_i pulled
    cases h
    exact pulled

/-- A packet leaves fewer bytes than had arrived. -/
theorem length_rest_lt {f : Framing} {arrived packet rest : Bytes}
    (h : f.decode arrived = .ok (some (packet, rest))) : rest.length < arrived.length := by
  have pulled := pull_of_decode h
  rw [pull] at pulled
  split at pulled
  · exact nomatch pulled
  · dsimp only at pulled
    split at pulled
    · exact nomatch pulled
    · split at pulled
      · exact nomatch pulled
      · obtain ⟨-, rfl⟩ := Prod.mk.inj pulled
        rw [List.length_drop, List.length_drop]
        omega

/-- Every complete packet in the bytes that arrived, the bytes after them, and the failure
that stopped the stream, if one did. -/
def decodeAll (f : Framing) (arrived : Bytes) : List Bytes × Bytes × Option Failure :=
  match _h : f.decode arrived with
  | .error failure => ([], arrived, some failure)
  | .ok none => ([], arrived, none)
  | .ok (some (packet, rest)) =>
    let (packets, left, failure) := f.decodeAll rest
    (packet :: packets, left, failure)
termination_by arrived.length
decreasing_by exact length_rest_lt _h

end Framing

end PeerMessaging
