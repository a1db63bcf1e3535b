import PeerMessaging.Bytes
import PeerMessaging.Failure

/-!
# Signature schemes

How messages are signed is a parameter: a scheme says how long its signatures are, which
public keys it can use, how to sign and how to check.
-/

namespace PeerMessaging

/-- A way to sign byte strings. A signature that does not match is an answer; a failure
means that the key or the signature is of no use at all. -/
structure SignatureScheme where
  signatureSize : Nat
  checkPublicKey : Bytes → Except Failure Unit
  sign : (signingKey data : Bytes) → Except Failure Bytes
  verify : (publicKey data signature : Bytes) → Except Failure Bool

end PeerMessaging
