import PeerMessaging.Proofs.Config.Limits
import PeerMessaging.Proofs.Wire.Refusals
import Mathlib.Data.List.Forall2

/-!
# A valid configuration can be used

Validation and use read the same settings at different times. The validator complains about every
address that is none, and the addresses to bind are found by passing over such; so with no complaint
nothing is passed over, and each configured address is bound, in its place. The validator also
knows the largest version, and it is the one that the packets know. The addresses are complained
about whether they are used or not, so the pairs are those of the settings in any case; only for a
node that binds nothing may there be none.
-/

namespace PeerMessaging

/-- `complainIf` is silent exactly if its condition fails. -/
theorem complainIf_eq_nil_iff {condition : Bool} {complaint : Complaint} :
    complainIf condition complaint = [] ↔ condition = false := by
  cases condition with
  | true => exact ⟨nofun, nofun⟩
  | false => exact ⟨fun _ => rfl, fun _ => rfl⟩

namespace ServerSettings

variable {s : ServerSettings}

/-- What an absence of complaints says about the addresses. -/
theorem addresses_of_valid (valid : s.complaints = []) :
    (s.listenAny = false → s.disableBind = false → s.addresses ≠ []) ∧
      ∀ a ∈ s.addresses, ∃ ip, IpAddress.parse? a = some ip := by
  rw [complaints] at valid
  obtain ⟨⟨⟨nowhere, bad⟩, -⟩, -⟩ :
      ((complainIf _ _ = [] ∧ List.map _ _ = []) ∧ _ = []) ∧ _ = [] := by
    simpa only [List.append_eq_nil_iff] using valid
  constructor
  · intro chosen binds empty
    rw [complainIf_eq_nil_iff, chosen, binds, empty] at nowhere
    cases nowhere
  · intro a member
    have kept := List.filter_eq_nil_iff.mp (List.map_eq_nil_iff.mp bad) a member
    exact Option.ne_none_iff_exists'.mp fun none => kept (Option.isNone_iff_eq_none.mpr none)

/-- The pair of socket addresses at an interface. -/
def pairAt (s : ServerSettings) (ip : IpAddress) : SocketAddress × SocketAddress :=
  (⟨ip, s.tcpPort, 0⟩, ⟨ip, s.udpPort, 0⟩)

/-- Where every address can be read none is passed over. -/
theorem forall₂_filterMap_parse {addresses : List String}
    (readable : ∀ a ∈ addresses, ∃ ip, IpAddress.parse? a = some ip) :
    List.Forall₂ (fun a ip => IpAddress.parse? a = some ip) addresses
      (addresses.filterMap IpAddress.parse?) := by
  induction addresses with
  | nil => exact .nil
  | cons a addresses ih =>
      obtain ⟨ip, read⟩ := readable a (List.mem_cons_self ..)
      rw [List.filterMap_cons_some read]
      exact .cons read (ih fun b member => readable b (List.mem_cons_of_mem _ member))

/-- Each configured address has its pair, in order. -/
theorem forall₂_bindAddresses (valid : s.complaints = []) (chosen : s.listenAny = false) :
    List.Forall₂ (fun a pair => ∃ ip, IpAddress.parse? a = some ip ∧ pair = s.pairAt ip)
      s.addresses s.bindAddresses := by
  rw [bindAddresses, chosen, if_neg nofun, List.forall₂_map_right_iff]
  exact (forall₂_filterMap_parse (addresses_of_valid valid).2).imp fun a ip read => ⟨ip, read, rfl⟩

end ServerSettings

/-- The version of valid connection settings fits into a packet. -/
theorem ConnectionSettings.version_le_of_valid {s : ConnectionSettings}
    (valid : s.complaints = []) : s.version ≤ maxVersion :=
  (complaints_eq_nil_iff.mp valid).version

namespace Packet

variable {scheme : SignatureScheme} {m : Message}

/-- A version that fits is never the reason why there is no packet. -/
theorem ne_versionTooLarge_of_encode (keys : scheme.HasKeys) (fits : m.version ≤ maxVersion)
    {f : Failure} (refused : encode scheme m = .error f) (v : Nat) :
    f ≠ .encode (.versionTooLarge v) := by
  have other : FailsAs (fun f => ∀ v, f ≠ .encode (.versionTooLarge v))
      (encode scheme m) := by
    refine failsAs_encode ?_ (keys.failsAs_publicKey ?_) m ?_ ?_ (keys.failsAs_sign ?_)
    · exact fun fault other v same => other v (Failure.encode.inj same)
    · exact fun fault v => nofun
    · exact fun large => absurd large (UInt32.not_lt.mpr fits)
    · exact fun v => nofun
    · exact fun fault v => nofun
  exact other f refused v

/-- A message whose version fits is refused as one with another version that fits. -/
theorem encode_eq_error_of_version (keys : scheme.HasKeys) {version : UInt32}
    (fits : m.version ≤ maxVersion) (fits' : version ≤ maxVersion) {f : Failure}
    (refused : encode scheme m = .error f) :
    encode scheme { m with version := version } = .error f := by
  have passes := UInt32.not_lt.mpr fits
  have passes' : ¬ maxVersion < { m with version := version }.version := UInt32.not_lt.mpr fits'
  simp only [encode, encodeUnsigned, if_neg passes, if_neg passes'] at refused ⊢
  cases written : m.content.chunks scheme with
  | error f' => rw [written] at refused; exact refused
  | ok chunks =>
      rw [written] at refused
      dsimp only at refused ⊢
      cases signed : isSigned m.content with
      | false =>
          rw [signed] at refused
          cases refused
      | true =>
          rw [signed, if_pos rfl] at refused
          rw [if_pos rfl]
          cases attached : m.signingKey with
          | none => rw [attached] at refused; exact refused
          | some key =>
              -- the key is good or not, whatever is signed
              rw [attached] at refused
              dsimp only at refused ⊢
              split at refused
              · next failed =>
                rw [keys.sign_eq_error failed]
                exact refused
              · cases refused

end Packet

namespace Configuration

/-- What a configuration can be used for. -/
structure Usable (c : Configuration) : Prop where
  binds : c.server.disableBind = false → c.server.bindAddresses ≠ []
  everywhere : c.server.listenAny = true →
    c.server.bindAddresses = [c.server.pairAt .unspecified4]
  each : c.server.listenAny = false →
    List.Forall₂ (fun a pair => ∃ ip, IpAddress.parse? a = some ip ∧ pair = c.server.pairAt ip)
      c.server.addresses c.server.bindAddresses
  stamped : ∀ scheme : SignatureScheme, scheme.HasKeys → ∀ (m : Message) (f : Failure),
    m.version = c.connection.version → Packet.encode scheme m = .error f →
    (∀ v, f ≠ .encode (.versionTooLarge v)) ∧
      Packet.encode scheme { m with version := 0 } = .error f

/-- A configuration without complaints is usable. -/
theorem usable_of_valid {fs : FileSystem} {c : Configuration} (valid : c.complaints fs = []) :
    c.Usable := by
  obtain ⟨⟨server, connection⟩, -⟩ := by
    simpa only [complaints, List.append_eq_nil_iff] using valid
  have pairs := ServerSettings.forall₂_bindAddresses server
  refine ⟨fun open_ none => ?_, fun any => ?_, pairs, fun scheme keys m f stamp refused => ?_⟩
  · cases any : c.server.listenAny with
    | true =>
        rw [ServerSettings.bindAddresses, any] at none
        exact nomatch none
    | false =>
        have empty := (pairs any).length_eq
        rw [none, List.length_nil, List.length_eq_zero_iff] at empty
        exact (ServerSettings.addresses_of_valid server).1 any open_ empty
  · rw [ServerSettings.bindAddresses, any]
    rfl
  · have fits : m.version ≤ maxVersion :=
      stamp ▸ ConnectionSettings.version_le_of_valid connection
    exact ⟨Packet.ne_versionTooLarge_of_encode keys fits refused,
      Packet.encode_eq_error_of_version keys fits (by decide) refused⟩

/-- A configuration is refused for the complaints about it, all of them. -/
theorem check_eq (fs : FileSystem) (c : Configuration) :
    c.check fs = if c.complaints fs = [] then .ok ()
      else .error (.config (.invalid ((c.complaints fs).map Complaint.text))) := by
  rw [check]
  split
  · rename_i none
    rw [if_pos none]
  · rename_i some
    rw [if_neg some]

/-- **A configuration that passes validation can be used**: it binds every address that it names,
and no message is refused for its version. -/
theorem valid_usable (fs : FileSystem) (c : Configuration) :
    (c.complaints fs = [] → c.Usable) ∧ (c.check fs = .ok () ↔ c.complaints fs = []) := by
  refine ⟨usable_of_valid, ?_⟩
  rw [check_eq]
  split
  · exact iff_of_true rfl ‹_›
  · exact iff_of_false nofun ‹_›

/-- A node at two addresses of either family, with the largest version there is. -/
def atTwoAddresses : Configuration where
  server := { listenAny := false, addresses := ["192.168.1.10", "::1"] }
  connection := { version := maxVersion }

/-- A configuration with two addresses is valid, and both are bound. -/
theorem valid_usable_atTwoAddresses :
    atTwoAddresses.complaints .bare = [] ∧ atTwoAddresses.Usable ∧
      atTwoAddresses.server.bindAddresses.length = 2 := by
  have valid : atTwoAddresses.complaints .bare = [] := by decide +kernel
  exact ⟨valid, (valid_usable .bare atTwoAddresses).1 valid, by decide +kernel⟩

end Configuration

end PeerMessaging
