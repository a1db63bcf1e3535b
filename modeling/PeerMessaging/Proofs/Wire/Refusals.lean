import PeerMessaging.Signature.Ed25519
import PeerMessaging.Wire.Packet

/-!
# A message without a packet is refused on this side

Nothing has reached the peer when a message turns out to have no packet. So whatever the reason is,
a version that is too large, a slot without a value, a set with too many members or a key that is of
no use, it is the writer who complains or the signature scheme, and the failure is one that arose on
this side. It is so for every part of a packet, and the parts are put together.
-/

namespace PeerMessaging

/-- Whatever fails here fails in a certain way. -/
def FailsAs {α : Type} (p : Failure → Prop) (e : Except Failure α) : Prop :=
  ∀ f, e = .error f → p f

/-- Whatever fails here arose on this side. -/
def OnlyLocal {α : Type} (e : Except Failure α) : Prop := ∀ f, e = .error f → f.isLocal = true

/-- A scheme whose complaints about keys arise on this side. -/
structure SignatureScheme.FailsLocally (scheme : SignatureScheme) : Prop where
  publicKey : ∀ key, OnlyLocal (scheme.checkPublicKey key)
  sign : ∀ key data, OnlyLocal (scheme.sign key data)

/-- The failure for a public key that is of no use. -/
inductive Failure.OfKey : Failure → Prop
  | length (length : Nat) : OfKey (.signature (.publicKeyLength length))
  | invalid : OfKey (.signature .publicKeyInvalid)

/-- A scheme whose signing keys are those of 32 bytes, and each of them signs all data. It fails for
the length of a signing key and for a public key, and for nothing else as long as signatures have
the size that it says. -/
structure SignatureScheme.HasKeys (scheme : SignatureScheme) : Prop where
  sign_iff : ∀ key data, (∃ signature, scheme.sign key data = .ok signature) ↔ key.length = 32
  sign : ∀ key data, FailsAs (· = .signature .signingKeyLength) (scheme.sign key data)
  publicKey : ∀ key, FailsAs Failure.OfKey (scheme.checkPublicKey key)
  verify : ∀ key data signature, signature.length = scheme.signatureSize →
    FailsAs Failure.OfKey (scheme.verify key data signature)

variable {p : Failure → Prop}

namespace FailsAs

variable {α β : Type}

theorem ok (a : α) : FailsAs p (.ok a) := nofun

theorem error {f : Failure} (so : p f) : FailsAs p (.error f : Except Failure α) := by
  intro f' same
  cases same
  exact so

theorem imp {q : Failure → Prop} {e : Except Failure α} (each : ∀ f, p f → q f)
    (fails : FailsAs p e) : FailsAs q e :=
  fun f failed => each f (fails f failed)

/-- Steps that fail in a certain way, one after the other, fail in this way. -/
theorem bind {e : Except Failure α} {g : α → Except Failure β} (first : FailsAs p e)
    (next : ∀ a, FailsAs p (g a)) : FailsAs p (e >>= g) := by
  cases e with
  | error f => exact error (first f rfl)
  | ok a => exact next a

/-- A walk over a list fails as its steps do. -/
theorem mapM {g : α → Except Failure β} (each : ∀ a, FailsAs p (g a)) (l : List α) :
    FailsAs p (l.mapM g) := by
  induction l with
  | nil => exact ok []
  | cons a l ih =>
      rw [List.mapM_cons]
      exact (each a).bind fun b => ih.bind fun bs => ok (b :: bs)

end FailsAs

/-- The failure for a key is one of the scheme. -/
theorem Failure.OfKey.of_signature (signature : ∀ fault, p (.signature fault)) {f : Failure}
    (ofKey : f.OfKey) : p f := by
  cases ofKey with
  | length n => exact signature _
  | invalid => exact signature _

namespace SignatureScheme.HasKeys

variable {scheme : SignatureScheme} (keys : scheme.HasKeys)

include keys

/-- A scheme with keys complains of a public key by a signature fault. -/
theorem failsAs_publicKey (signature : ∀ fault, p (.signature fault)) (key : Bytes) :
    FailsAs p (scheme.checkPublicKey key) :=
  (keys.publicKey key).imp fun _ ofKey => ofKey.of_signature signature

/-- A scheme with keys complains of a signing key by a signature fault. -/
theorem failsAs_sign (signature : ∀ fault, p (.signature fault)) (key data : Bytes) :
    FailsAs p (scheme.sign key data) :=
  (keys.sign key data).imp fun f (same : f = _) => same ▸ signature _

/-- The complaints of a scheme with keys arise on this side. -/
theorem failsLocally : scheme.FailsLocally where
  publicKey := keys.failsAs_publicKey fun _ => rfl
  sign := keys.failsAs_sign fun _ => rfl

/-- Whether a key signs does not depend on what is signed. -/
theorem sign_eq_error {key data : Bytes} {f : Failure} (refused : scheme.sign key data = .error f)
    (data' : Bytes) : scheme.sign key data' = .error f := by
  cases signs : scheme.sign key data' with
  | ok signature =>
      obtain ⟨signature', signs'⟩ :=
        (keys.sign_iff key data).mpr ((keys.sign_iff key data').mp ⟨signature, signs⟩)
      exact nomatch refused.symm.trans signs'
  | error f' => rw [keys.sign key data f refused, keys.sign key data' f' signs]

end SignatureScheme.HasKeys

namespace Ed25519

/-- A public key is of no use because of its length or because there is no such point. -/
theorem ofKey_publicPoint (key : Bytes) : FailsAs Failure.OfKey (publicPoint key) := by
  rw [publicPoint]
  split
  · exact .error (.length _)
  · split
    · exact .ok _
    · exact .error .invalid

theorem sign_eq {key : Bytes} (short : key.length ≠ 32) (data : Bytes) :
    sign key data = .error (.signature .signingKeyLength) := by
  rw [sign, if_pos short]

/-- A signing key of 32 bytes signs all data. -/
theorem exists_sign {key : Bytes} (length : key.length = 32) (data : Bytes) :
    ∃ signature, sign key data = .ok signature := by
  rw [sign, if_neg (not_not_intro length)]
  exact ⟨_, rfl⟩

/-- Ed25519 asks for nothing but the length of a signing key, and fails for keys. -/
theorem hasKeys : scheme.HasKeys where
  sign_iff := by
    intro key data
    refine ⟨fun ⟨signature, signs⟩ => ?_, fun length => exists_sign length data⟩
    by_cases length : key.length = 32
    · exact length
    · exact nomatch (sign_eq length data).symm.trans signs
  sign := by
    intro key data
    by_cases length : key.length = 32
    · obtain ⟨signature, signs⟩ := exists_sign length data
      intro f failed
      exact nomatch signs.symm.trans failed
    · intro f failed
      exact (Except.error.inj ((sign_eq length data).symm.trans failed)).symm
  publicKey := fun key => (ofKey_publicPoint key).bind fun _ => .ok ()
  verify := by
    intro key data signature size
    show FailsAs Failure.OfKey (verify key data signature)
    rw [verify]
    split
    · next failed => exact .error (ofKey_publicPoint key _ failed)
    · rw [if_neg fun other => other size]
      dsimp only
      split
      · exact .ok _
      · exact .ok _

end Ed25519

section Writing

variable {scheme : SignatureScheme}
  (encode : ∀ fault, (∀ v, fault ≠ .versionTooLarge v) → p (.encode fault))

include encode

/-- A slot without a value is a fault of the writer. -/
theorem failsAs_valueAt {α : Type} (values : List α) (r : Reference) :
    FailsAs p (valueAt values r) := by
  rw [valueAt]
  split
  · exact .ok _
  · exact .error (encode _ nofun)

/-- Members that are too many for their count are a fault of the writer. -/
theorem failsAs_counted {α : Type} {n : Nat} {fault : EncodeFault}
    (many : ∀ v, fault ≠ .versionTooLarge v) (a : α) :
    FailsAs p (if 255 < n then .error (.encode fault) else .ok a) := by
  split
  · exact .error (encode _ many)
  · exact .ok a

variable (publicKey : ∀ key, FailsAs p (scheme.checkPublicKey key))

include publicKey

/-- A slot that cannot be written is a fault of the writer or of a public key. -/
theorem Content.failsAs_chunk (c : Content) (r : Reference) : FailsAs p (c.chunk scheme r) := by
  rw [chunk]
  cases r.kind with
  | undefined => exact .ok _
  | empty => exact .ok _
  | key => exact (failsAs_valueAt encode _ r).bind fun _ => .ok _
  | integer => exact (failsAs_valueAt encode _ r).bind fun _ => .ok _
  | long => exact (failsAs_valueAt encode _ r).bind fun _ => .ok _
  | buffer => exact (failsAs_valueAt encode _ r).bind fun _ => .ok _
  | neighbors =>
      refine (failsAs_valueAt encode _ r).bind fun _ => failsAs_counted encode ?_ _
      exact fun _ => nofun
  | endpoints =>
      refine (failsAs_valueAt encode _ r).bind fun _ => failsAs_counted encode ?_ _
      exact fun _ => nofun
  | publicKey =>
      exact (failsAs_valueAt encode _ r).bind fun v => (publicKey v).bind fun _ => .ok _
  | signedPublicKey =>
      exact (failsAs_valueAt encode _ r).bind fun v => (publicKey v).bind fun _ => .ok _
  | foreign kind => exact (failsAs_valueAt encode _ r).bind fun _ => .ok _

/-- The version is a fault only if it is too large. -/
theorem Packet.failsAs_encodeUnsigned (m : Message)
    (version : maxVersion < m.version → p (.encode (.versionTooLarge m.version.toNat))) :
    FailsAs p (encodeUnsigned scheme m) := by
  rw [encodeUnsigned]
  split
  · exact .error (version ‹_›)
  · have written : FailsAs p (m.content.chunks scheme) :=
      .mapM (Content.failsAs_chunk encode publicKey m.content) _
    split
    · exact .error (written _ ‹_›)
    · exact .ok _

/-- A message without a packet fails as its writer does, or as the scheme does. -/
theorem Packet.failsAs_encode (m : Message)
    (version : maxVersion < m.version → p (.encode (.versionTooLarge m.version.toNat)))
    (keyless : p (.signature .noSigningKey))
    (sign : ∀ key data, FailsAs p (scheme.sign key data)) :
    FailsAs p (Packet.encode scheme m) := by
  rw [Packet.encode]
  split
  · exact .error (failsAs_encodeUnsigned encode publicKey m version _ ‹_›)
  · split
    · split
      · exact .error keyless
      · split
        · exact .error (sign _ _ _ ‹_›)
        · exact .ok _
    · exact .ok _

end Writing

/-- Whatever keeps a message from having a packet arose on this side. -/
theorem Packet.onlyLocal_encode {scheme : SignatureScheme} (local_ : scheme.FailsLocally)
    (m : Message) : OnlyLocal (encode scheme m) :=
  failsAs_encode (fun _ _ => rfl) local_.publicKey m (fun _ => rfl) rfl local_.sign

end PeerMessaging
