import PeerMessaging.Proofs.Wire.Reading
import PeerMessaging.Wire.Peer

/-!
# Peers survive their packets

Internet addresses, endpoints and identities have one spelling each: what is written is read
back, and whatever is read was written so. A peer address has more spellings, since five of its
eight flags mean nothing, and it loses two things on its way: its internet address, which the
reader is told, and the relays of a peer that is not relayed.
-/

namespace PeerMessaging

open Bytes Reader

theorem Bytes.ofNat_one (v : Nat) : Bytes.ofNat 1 v = [UInt8.ofNat v] := by
  simp [Bytes.ofNat]

/-! ## Exact spellings -/

namespace IpAddress

/-- An internet address is read back from its encoding. -/
theorem reads_encode (ip : IpAddress) : reader.Reads ip.encode ip := by
  cases ip with
  | v4 bits =>
      show reader.Reads (Bytes.ofNat 1 4 ++ Bytes.ofNat 4 bits.toNat) _
      refine Reads.bind (reads_word (by decide)) ?_
      rw [if_pos rfl]
      refine Reads.bind_pure (reads_word bits.isLt) ?_
      rw [BitVec.ofNat_toNat, BitVec.setWidth_eq]
  | v6 bits =>
      show reader.Reads (Bytes.ofNat 1 6 ++ Bytes.ofNat 16 bits.toNat) _
      refine Reads.bind (reads_word (by decide)) ?_
      rw [if_neg (by decide), if_pos rfl]
      refine Reads.bind_pure (reads_word bits.isLt) ?_
      rw [BitVec.ofNat_toNat, BitVec.setWidth_eq]

/-- An internet address is read from its encoding alone. -/
theorem eq_encode_of_run {b rest : Bytes} {ip : IpAddress} (h : reader.run b = .ok (ip, rest)) :
    b = ip.encode ++ rest := by
  obtain ⟨marker, mid, first, next⟩ := run_bind_eq_ok.mp h
  obtain ⟨-, rfl⟩ := run_word_eq_ok.mp first
  by_cases four : marker = 4
  · rw [if_pos four] at next
    obtain ⟨bits, second, rfl⟩ := run_bind_pure_eq_ok.mp next
    obtain ⟨small, rfl⟩ := run_word_eq_ok.mp second
    have bits_eq : (BitVec.ofNat 32 bits).toNat = bits := Nat.mod_eq_of_lt small
    rw [four, encode, bits_eq]
    rfl
  · rw [if_neg four] at next
    by_cases six : marker = 6
    · rw [if_pos six] at next
      obtain ⟨bits, second, rfl⟩ := run_bind_pure_eq_ok.mp next
      obtain ⟨small, rfl⟩ := run_word_eq_ok.mp second
      have bits_eq : (BitVec.ofNat 128 bits).toNat = bits := Nat.mod_eq_of_lt small
      rw [six, encode, bits_eq]
      rfl
    · rw [if_neg six] at next
      exact absurd next run_malformed_ne_ok

theorem length_encode_le (ip : IpAddress) : ip.encode.length ≤ 17 := by
  cases ip <;> simp [encode]

end IpAddress

@[simp] theorem length_portBytes (port : UInt16) : (portBytes port).length = 2 :=
  Bytes.length_ofNat 2 _

theorem portOf_portBytes (port : UInt16) : portOf (portBytes port) = port := by
  have small : port.toNat < 256 ^ 2 := port.toNat_lt
  rw [portOf, portBytes, Bytes.toNat_ofNat_of_lt small, UInt16.ofNat_toNat]

theorem portBytes_portOf {b : Bytes} (width : b.length = 2) : portBytes (portOf b) = b := by
  have small : b.toNat < 2 ^ 16 := by
    have := Bytes.toNat_lt b
    rwa [width] at this
  rw [portBytes, portOf, UInt16.toNat_ofNat_of_lt' small, ← width, Bytes.ofNat_toNat]

namespace Endpoint

theorem reads_encode (e : Endpoint) : reader.Reads e.encode e := by
  refine Reads.bind (IpAddress.reads_encode e.ip) ?_
  refine Reads.bind_pure (reads_take (by simp)) ?_
  rw [List.take_left' (length_portBytes _), List.drop_left' (length_portBytes _),
    portOf_portBytes, portOf_portBytes]

theorem eq_encode_of_run {b rest : Bytes} {e : Endpoint} (h : reader.run b = .ok (e, rest)) :
    b = e.encode ++ rest := by
  obtain ⟨ip, mid, first, next⟩ := run_bind_eq_ok.mp h
  obtain ⟨ports, second, rfl⟩ := run_bind_pure_eq_ok.mp next
  obtain ⟨width, rfl⟩ := run_take_eq_ok.mp second
  rw [IpAddress.eq_encode_of_run first, encode, portBytes_portOf (by simp [width]),
    portBytes_portOf (by simp [width]), List.take_append_drop, List.append_assoc]

theorem reads_all (list : List Endpoint) :
    (times list.length reader).Reads (list.flatMap encode) list := by
  have each := reads_times fun e (_ : e ∈ list) => reads_encode e
  rwa [List.map_id'] at each

theorem length_encode_le (e : Endpoint) : e.encode.length ≤ 21 := by
  have := e.ip.length_encode_le
  simp only [encode, List.length_append, length_portBytes]
  omega

end Endpoint

namespace PeerId

theorem reads_bytes (id : PeerId) : reader.Reads id.bytes id :=
  Reads.bind_pure (reads_take id.length_bytes) (by rw [ofBytes_bytes])

theorem eq_bytes_of_run {b rest : Bytes} {id : PeerId} (h : reader.run b = .ok (id, rest)) :
    b = id.bytes ++ rest := by
  obtain ⟨front, first, rfl⟩ := run_bind_pure_eq_ok.mp h
  obtain ⟨width, rfl⟩ := run_take_eq_ok.mp first
  rw [bytes_ofBytes width]

end PeerId

/-! ## Peer addresses -/

namespace PeerAddress

/-- What a packet carries of a peer beside its internet address: the relays count only for a
peer that is relayed. -/
def carried (p : PeerAddress) : PeerAddress :=
  { p with
    relays := if p.relayed then p.relays else []
    relays_le := by
      split
      · exact p.relays_le
      · exact Nat.zero_le _ }

/-- A packet carries all of a peer that has no relays unless it is relayed. -/
theorem carried_eq_self {p : PeerAddress} (h : p.relayed = false → p.relays = []) :
    p.carried = p := by
  obtain ⟨id, ip, tcp, udp, relayed, firewalledUdp, firewalledTcp, relays, few⟩ := p
  cases relayed with
  | true => rfl
  | false =>
      obtain rfl : relays = [] := h rfl
      rfl

/-- The bits of a peer in a packet that mean nothing: the five upper flags. -/
def spare (p : PeerAddress) : Bytes := solid 20 ++ 0xF8 :: solid (p.encode.length - 21)

theorem flags_lt (p : PeerAddress) : p.flags < 8 := by
  rw [flags]
  have := p.relayed.toNat_le
  have := p.firewalledUdp.toNat_le
  have := p.firewalledTcp.toNat_le
  omega

theorem testBit_flags (p : PeerAddress) :
    p.flags.testBit 0 = p.relayed ∧ p.flags.testBit 1 = p.firewalledUdp ∧
      p.flags.testBit 2 = p.firewalledTcp := by
  rw [flags]
  cases p.relayed <;> cases p.firewalledUdp <;> cases p.firewalledTcp <;> decide

/-- The three flags that are known are all that is left of a byte without its spare bits. -/
theorem flags_of_byte (x : UInt8) :
    x &&& ~~~0xF8 = UInt8.ofNat ((x.toNat.testBit 0).toNat + 2 * (x.toNat.testBit 1).toNat
      + 4 * (x.toNat.testBit 2).toNat) := by
  revert x
  exact Bytes.forall_byte (by decide +kernel)

/-- Relays are read back from their count and their encodings. -/
theorem reads_relays (relays : List Endpoint) (few : relays.length ≤ maxRelays) :
    relaysReader.Reads (UInt8.ofNat relays.length :: relays.flatMap Endpoint.encode)
      ⟨relays, few⟩ := by
  have five : maxRelays = 5 := rfl
  rw [← List.singleton_append, ← Bytes.ofNat_one]
  refine Reads.bind (reads_word (by omega)) ?_
  rw [if_neg (by omega)]
  exact Reads.bind_pure (Endpoint.reads_all relays) (dif_pos few)

/-- Relays are read from their count and their encodings alone. -/
theorem eq_relays_of_run {b rest : Bytes} {l : FewRelays}
    (h : relaysReader.run b = .ok (l, rest)) :
    b = UInt8.ofNat l.val.length :: l.val.flatMap Endpoint.encode ++ rest := by
  obtain ⟨count, mid, first, next⟩ := run_bind_eq_ok.mp h
  obtain ⟨-, rfl⟩ := run_word_eq_ok.mp first
  by_cases many : maxRelays < count
  · rw [if_pos many] at next
    exact absurd next run_malformed_ne_ok
  · rw [if_neg many] at next
    obtain ⟨relays, mid', second, last⟩ := run_bind_eq_ok.mp next
    obtain ⟨rfl, rfl⟩ := eq_of_run_times Endpoint.eq_encode_of_run second
    rw [dif_pos (Nat.le_of_not_lt many)] at last
    obtain ⟨rfl, rfl⟩ := run_pure_eq_ok.mp last
    rw [Bytes.ofNat_one]
    rfl

/-- The relays in a packet, which are there only for a peer that is relayed. -/
def relayBytes (relayed : Bool) (relays : List Endpoint) : Bytes :=
  if relayed then UInt8.ofNat relays.length :: relays.flatMap Endpoint.encode else []

/-- The parts of an encoded peer, in order. -/
theorem encode_eq (p : PeerAddress) :
    p.encode = p.id.bytes ++ (UInt8.ofNat p.flags :: (portBytes p.tcpPort ++ portBytes p.udpPort
      ++ relayBytes p.relayed p.relays)) := by
  rw [encode, relayBytes]
  simp only [List.append_assoc, List.cons_append]

/-- The relays that follow the flags and ports of an address, if the flags tell of any. -/
def relaysAfter (flags : Nat) : Reader FewRelays :=
  if flags.testBit 0 then relaysReader else pure ⟨[], length_nil_le⟩

/-- The address that the parts of its packet make. -/
def assembled (id : PeerId) (ip : IpAddress) (flags : Nat) (tcp udp : UInt16)
    (relays : FewRelays) : PeerAddress where
  id := id
  ip := ip
  tcpPort := tcp
  udpPort := udp
  relayed := flags.testBit 0
  firewalledUdp := flags.testBit 1
  firewalledTcp := flags.testBit 2
  relays := relays.val
  relays_le := relays.le

/-- Reading an address goes part by part. -/
theorem reader_eq (ip : IpAddress) :
    reader ip = PeerId.reader >>= fun id => take 5 >>= fun fixed =>
      relaysAfter (Bytes.toNat (fixed.take 1)) >>= fun relays =>
        pure (assembled id ip (Bytes.toNat (fixed.take 1)) (portOf ((fixed.drop 1).take 2))
          (portOf (fixed.drop 3)) relays) := by
  unfold reader relaysAfter
  congr 1
  funext id
  congr 1
  funext fixed
  dsimp only
  split <;> rfl

/-- The relays of a peer are read back if its flags tell of them. -/
theorem reads_relaysAfter (p : PeerAddress) :
    (relaysAfter p.flags).Reads (relayBytes p.relayed p.relays)
      ⟨p.carried.relays, p.carried.relays_le⟩ := by
  rw [relaysAfter]
  rw [(testBit_flags p).1]
  obtain ⟨id, ip, tcp, udp, relayed, firewalledUdp, firewalledTcp, relays, few⟩ := p
  cases relayed with
  | true => exact reads_relays relays few
  | false => exact reads_pure _

/-- Relays are read exactly if the flags tell of them, and from their own bytes. -/
theorem eq_of_run_relaysAfter {flags : Nat} {b rest : Bytes}
    {l : FewRelays} (h : (relaysAfter flags).run b = .ok (l, rest)) :
    (flags.testBit 0 = false → l.val = []) ∧
      b = relayBytes (flags.testBit 0) l.val ++ rest := by
  rw [relaysAfter] at h
  cases relayed : flags.testBit 0 with
  | true =>
      rw [relayed] at h
      exact ⟨nofun, eq_relays_of_run h⟩
  | false =>
      rw [relayed] at h
      obtain ⟨rfl, rfl⟩ := run_pure_eq_ok.mp h
      exact ⟨fun _ => rfl, rfl⟩

/-- A peer address is read back without what no packet carries. -/
theorem reads_encode (p : PeerAddress) (ip : IpAddress) :
    (reader ip).Reads p.encode { p.carried with ip := ip } := by
  have flags : Bytes.toNat [UInt8.ofNat p.flags] = p.flags := by
    rw [← Bytes.ofNat_one]
    exact Bytes.toNat_ofNat_of_lt (Nat.lt_trans p.flags_lt (by decide))
  rw [reader_eq]
  rw [encode]
  rw [List.append_assoc]
  refine Reads.bind (PeerId.reads_bytes p.id) ?_
  refine Reads.bind (reads_take (by simp)) ?_
  simp only [List.cons_append, List.take_succ_cons, List.take_zero, List.drop_succ_cons,
    List.drop_zero, List.take_left' (length_portBytes _), List.drop_left' (length_portBytes _),
    portOf_portBytes, flags]
  refine Reads.bind_pure (reads_relaysAfter p) ?_
  obtain ⟨relayed, udp, tcp⟩ := testBit_flags p
  rw [assembled, carried]
  rw [relayed, udp, tcp]

/-- The bytes of the parts spell the address that they make. -/
theorem spells_assembled (id : PeerId) (ip : IpAddress) (x : UInt8) {ports : Bytes}
    (four : ports.length = 4) (relays : FewRelays) :
    Spells (assembled id ip x.toNat (portOf (ports.take 2)) (portOf (ports.drop 2)) relays).spare
      (id.bytes ++ (x :: (ports ++ relayBytes (x.toNat.testBit 0) relays.val)))
      (assembled id ip x.toNat (portOf (ports.take 2)) (portOf (ports.drop 2)) relays).encode := by
  have flags : UInt8.ofNat (assembled id ip x.toNat (portOf (ports.take 2))
      (portOf (ports.drop 2)) relays).flags = x &&& ~~~0xF8 := (flags_of_byte x).symm
  rw [spare]
  rw [encode_eq, flags]
  rw [assembled]
  dsimp only
  rw [portBytes_portOf (by simp [four]), portBytes_portOf (by simp [four]), List.take_append_drop]
  refine (Spells.solid id.length_bytes).append (Spells.cons _ _ (Spells.solid ?_))
  simp only [List.length_append, List.length_cons, PeerId.length_bytes]
  omega

/-- Every address that is read is spelled by the bytes in front, and holds what a packet
carries. -/
theorem spelled_reader (ip : IpAddress) :
    (reader ip).Spelled (fun p => p.ip = ip ∧ p.carried = p) spare encode := by
  intro b p rest h
  rw [reader_eq] at h
  obtain ⟨id, mid, first, next⟩ := run_bind_eq_ok.mp h
  obtain ⟨fixed, mid', second, next'⟩ := run_bind_eq_ok.mp next
  obtain ⟨relays, mid'', third, last⟩ := run_bind_eq_ok.mp next'
  obtain ⟨width, rfl⟩ := run_take_eq_ok.mp second
  obtain ⟨made, rfl⟩ := run_pure_eq_ok.mp last
  obtain rfl := PeerId.eq_bytes_of_run first
  obtain ⟨none, rfl⟩ := eq_of_run_relaysAfter third
  clear h next next' last first second third
  -- the five fixed bytes are the flags and two ports
  obtain ⟨x, ports, rfl⟩ := List.exists_cons_of_length_eq_add_one width
  have flag : Bytes.toNat ((x :: ports).take 1) = x.toNat := by simp [Bytes.toNat]
  rw [flag] at made none ⊢
  subst made
  refine ⟨⟨rfl, carried_eq_self none⟩, _, ?_, spells_assembled id ip x (Nat.succ.inj width) relays⟩
  simp only [List.append_assoc, List.cons_append]

theorem length_encode_le (p : PeerAddress) : p.encode.length ≤ 131 := by
  have five : p.relays.length ≤ 5 := p.relays_le
  have each : (p.relays.flatMap Endpoint.encode).length ≤ p.relays.length * 21 :=
    length_flatMap_le fun e _ => e.length_encode_le
  rw [encode_eq]
  rw [relayBytes]
  simp only [List.length_append, List.length_cons, PeerId.length_bytes, length_portBytes]
  split
  · rw [List.length_cons]
    omega
  · rw [List.length_nil]
    omega

end PeerAddress

end PeerMessaging
