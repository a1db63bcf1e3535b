import PeerMessaging.Signature.Edwards
import PeerMessaging.Signature.Scheme
import PeerMessaging.Signature.Sha512

/-!
# Ed25519

The scheme with public keys and signing keys of 32 bytes and signatures of 64. A signature
is a point and a number below the group order; it matches when the point computed from the
number, the key and the digest has exactly the bytes of the point in the signature. A public
key is usable when it is the encoding of some point, also of one of small order.
-/

namespace PeerMessaging.Ed25519

open Edwards

/-- The number with the given bytes, least significant first. -/
def littleEndian (b : Bytes) : Nat := Bytes.toNat b.reverse

/-- The digest of a byte string as a number modulo the group order. -/
def challenge (b : Bytes) : Nat := littleEndian (Sha512.digest b) % order

/-- The secret number of a signing key: bits 3 to 254 of the first half of the digest, with
bit 254 set. -/
def secretNumber (half : Bytes) : Nat :=
  let n := littleEndian half % 2 ^ 254
  n - n % 8 + 2 ^ 254

/-- The point of a public key, or what is wrong with the key. -/
def publicPoint (key : Bytes) : Except Failure Point :=
  if key.length ≠ 32 then .error (.signature (.publicKeyLength key.length))
  else match Point.decompress? key with
    | some p => .ok p
    | none => .error (.signature .publicKeyInvalid)

/-- Signs data with a signing key of 32 bytes. -/
def sign (signingKey data : Bytes) : Except Failure Bytes :=
  if signingKey.length ≠ 32 then .error (.signature .signingKeyLength)
  else
    let expanded := Sha512.digest signingKey
    let a := secretNumber (expanded.take 32)
    let publicKey := (Point.times a .base).compress
    let r := challenge (expanded.drop 32 ++ data)
    let point := (Point.times r .base).compress
    let k := challenge (point ++ publicKey ++ data)
    .ok (point ++ (Bytes.ofNat 32 ((r + k * a) % order)).reverse)

/-- Whether a signature of 64 bytes matches; another length is a failure. -/
def verify (publicKey data signature : Bytes) : Except Failure Bool :=
  match publicPoint publicKey with
  | .error f => .error f
  | .ok a =>
    if signature.length ≠ 64 then .error (.signature .signatureLength)
    else
      let point := signature.take 32
      let s := littleEndian (signature.drop 32)
      if order ≤ s then .ok false
      else
        let k := challenge (point ++ publicKey ++ data)
        let expected := Point.add (Point.times s .base) (Point.times k a.neg)
        .ok (expected.compress == point)

/-- The scheme. -/
def scheme : SignatureScheme where
  signatureSize := 64
  checkPublicKey key := (publicPoint key).map fun _ => ()
  sign := sign
  verify := verify

end PeerMessaging.Ed25519
