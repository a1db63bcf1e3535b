import PeerMessaging.Bytes

/-!
# Internet addresses

An address is 32 bits of the older family or 128 bits of the newer one. The bits are kept as
one word; the sixteen-bit groups of a long address are a view of it.
-/

namespace PeerMessaging

/-- An internet address of either family. -/
inductive IpAddress where
  | v4 (bits : BitVec 32)
  | v6 (bits : BitVec 128)
  deriving DecidableEq

namespace IpAddress

/-- The address that stands for every local interface of the older family. -/
def unspecified4 : IpAddress := .v4 0

/-- The eight sixteen-bit groups of a long address, most significant first. -/
def groups (bits : BitVec 128) : List Nat :=
  (List.range 8).map fun i => bits.toNat / 2 ^ (16 * (7 - i)) % 2 ^ 16

/-- The long address with the given groups, most significant first. -/
def ofGroups (gs : List Nat) : IpAddress :=
  .v6 (BitVec.ofNat 128 (gs.foldl (fun acc g => acc * 2 ^ 16 + g) 0))

end IpAddress

end PeerMessaging
