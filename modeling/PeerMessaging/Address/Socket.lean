import PeerMessaging.Address.IpText

/-!
# Socket addresses

An internet address with a port. A long address may be bound to one local link, given by a
scope number, which shows in the text only when it is not zero.
-/

namespace PeerMessaging

/-- An address with a port, and the scope of a link-local long address. -/
structure SocketAddress where
  ip : IpAddress
  port : UInt16
  scope : UInt32 := 0
  deriving DecidableEq

namespace SocketAddress

/-- The text of a socket address; a long address stands between brackets. -/
def text (a : SocketAddress) : String :=
  match a.ip with
  | .v4 _ => a.ip.text ++ ":" ++ toString a.port.toNat
  | .v6 _ =>
    let scope := if a.scope = 0 then "" else "%" ++ toString a.scope.toNat
    "[" ++ a.ip.text ++ scope ++ "]:" ++ toString a.port.toNat

/-- Reads a colon and a port, to the end of the text. -/
def readPort (s : List Char) : Option UInt16 := do
  let s ← Text.readChar ':' s
  let (port, rest) ← Text.readNumeral 10 none true (2 ^ 16) s
  if rest.isEmpty then return UInt16.ofNat port else none

/-- Reads the scope of a long address, zero if there is none. -/
def readScope (s : List Char) : Option (UInt32 × List Char) :=
  match Text.readChar '%' s with
  | none => some (0, s)
  | some s => (Text.readNumeral 10 none true (2 ^ 32) s).map fun (n, s) => (UInt32.ofNat n, s)

/-- The socket address that a text spells. -/
def parse? (s : String) : Option SocketAddress :=
  match IpAddress.readDotted s.toList with
  | some (bits, rest) => (readPort rest).map fun port => ⟨.v4 bits, port, 0⟩
  | none => do
    let s ← Text.readChar '[' s.toList
    let (ip, s) ← IpAddress.readColoned s
    let (scope, s) ← readScope s
    let s ← Text.readChar ']' s
    let port ← readPort s
    return ⟨ip, port, scope⟩

end SocketAddress

end PeerMessaging
