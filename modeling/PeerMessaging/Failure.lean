import PeerMessaging.Address.Socket
import PeerMessaging.Message.Kind
import PeerMessaging.Text.Record

/-!
# Failures

Everything that can go wrong is a value that names its cause; one function gives the words.
A failure that ends a request is an abort: a cause class with a text. Failures that arise on
this side before anything reached the peer become aborts by the user, since they are no
failures of the peer.
-/

namespace PeerMessaging

/-- Who or what ended a request. -/
inductive AbortCause where
  | peerAbort
  | peerError
  | timeout
  | userAbort
  deriving DecidableEq

namespace AbortCause

/-- The words for the cause. -/
def text : AbortCause → String
  | peerAbort => "peer abort"
  | peerError => "peer error"
  | timeout => "timeout"
  | userAbort => "user abort"

/-- The name of the cause. -/
def name : AbortCause → String
  | peerAbort => "PeerAbort"
  | peerError => "PeerError"
  | timeout => "Timeout"
  | userAbort => "UserAbort"

end AbortCause

/-- A request that failed, with the cause and what is known about it. -/
structure Abort where
  cause : AbortCause
  message : String
  deriving DecidableEq

namespace Abort

/-- The abort in words. -/
def text (a : Abort) : String := a.cause.text ++ ": " ++ a.message

/-- Whether this side gave the request up. -/
def isUserAbort (a : Abort) : Bool := a.cause == .userAbort

/-- The abort of a request that this side gave up. -/
def user (message : String) : Abort := ⟨.userAbort, message⟩

/-- The abort of a request that the peer refused or broke. -/
def peer (message : String) : Abort := ⟨.peerAbort, message⟩

end Abort

/-- Why a packet is not a message. The last case is a fault that a handler reports. -/
inductive DecodeFault where
  | truncated (need left : Nat)
  | unknownMessageKind (code : Nat)
  | unknownContentKind (code : Nat)
  | contentAfterGap
  | unknownAddressFamily (marker : Nat)
  | tooManyRelays (count : Nat)
  | trailing (count : Nat)
  | reported (text : String)
  deriving DecidableEq

namespace DecodeFault

/-- The words for the fault. -/
def text : DecodeFault → String
  | truncated need left =>
    "Packet ended before all announced sections were read: need " ++ toString need
      ++ " bytes, " ++ toString left ++ " left"
  | unknownMessageKind code => "Unknown message type code: " ++ toString code
  | unknownContentKind code => "Unknown content type code: " ++ toString code
  | contentAfterGap => "content type after an undefined slot"
  | unknownAddressFamily marker => "Unknown address family marker " ++ toString marker
  | tooManyRelays count => "Too many relays: " ++ toString count
  | trailing count => toString count ++ " trailing bytes after message"
  | reported text => text

end DecodeFault

/-- Why a message has no packet. -/
inductive EncodeFault where
  | versionTooLarge (version : Nat)
  | missingValue (kind : ContentKind) (index : Nat)
  | tooManyNeighbors (count : Nat)
  | tooManyEndpoints (count : Nat)
  | reported (text : String)
  deriving DecidableEq

namespace EncodeFault

/-- The words for the fault. -/
def text : EncodeFault → String
  | versionTooLarge version => "version " ++ toString version ++ " does not fit 24 bits"
  | missingValue kind index => "no value for " ++ kind.name ++ " #" ++ toString index
  | tooManyNeighbors count => "neighbor set too large: " ++ toString count
  | tooManyEndpoints count => "socket address set too large: " ++ toString count
  | reported text => text

end EncodeFault

/-- What was asked for at a moment when it is not allowed. -/
inductive StateFault where
  | undefinedContent
  | signatureNotFirst
  | contentFull
  | notForeign (kind : ContentKind)
  | duplicateHandler (name : String)
  | handlerNotFound (name : String)
  | notEncoded
  | reported (text : String)
  deriving DecidableEq

namespace StateFault

/-- The words for the fault. -/
def text : StateFault → String
  | undefinedContent => "Undefined is not a settable content type"
  | signatureNotFirst => "The public key signature needs to be the first content type"
  | contentFull => "Already set 8 content types"
  | notForeign kind => kind.name ++ " is not an opaque content type"
  | duplicateHandler name => "Duplicate handler name: " ++ name
  | handlerNotFound name =>
    "The requested base handler does not exist in this pipeline: " ++ name
  | notEncoded => "Outbound chain did not produce an encoded buffer"
  | reported text => text

end StateFault

/-- Why a key or a signature is of no use. -/
inductive SignatureFault where
  | publicKeyLength (length : Nat)
  | publicKeyInvalid
  | signingKeyLength
  | noSigningKey
  | signatureLength
  | mismatch (messageId : Nat)
  | reported (text : String)
  deriving DecidableEq

namespace SignatureFault

/-- The words for the fault. -/
def text : SignatureFault → String
  | publicKeyLength length => "bad public key length " ++ toString length
  | publicKeyInvalid => "signature error: Cannot decompress Edwards point"
  | signingKeyLength => "bad signing key length"
  | noSigningKey => "no signing key attached"
  | signatureLength => "signature error"
  | mismatch messageId => "signature mismatch for message " ++ toString messageId
  | reported text => text

end SignatureFault

/-- What is wrong with a configuration or its source. -/
inductive ConfigFault where
  | unreadable (path reason : String)
  | syntaxError
  | invalidVariable (name value : String)
  | unserializable (reason : String)
  | unwritable (reason : String)
  | invalid (faults : List String)
  | logFile (path reason : String)
  | noLogOutput
  | subnetTooLong (family bits limit : Nat)
  | reported (text : String)
  deriving DecidableEq

namespace ConfigFault

/-- The words for the fault. -/
def text : ConfigFault → String
  | unreadable path reason => "Failed to read config file " ++ path ++ ": " ++ reason
  | syntaxError => "Failed to parse TOML"
  | invalidVariable name value => "Invalid value for " ++ name ++ ": '" ++ value ++ "'"
  | unserializable reason => "Failed to serialize config: " ++ reason
  | unwritable reason => "Failed to write config file: " ++ reason
  | invalid faults => "Configuration validation failed:\n  - " ++ "\n  - ".intercalate faults
  | logFile path reason => "Failed to open log file " ++ path ++ ": " ++ reason
  | noLogOutput => "No log output configured"
  | subnetTooLong family bits limit =>
    "IPv" ++ toString family ++ " prefix length " ++ toString bits ++ " exceeds "
      ++ toString limit
  | reported text => text

end ConfigFault

/-- Everything that can go wrong while messages move between peers. -/
inductive Failure where
  | system (text : String)
  | bind (address : SocketAddress) (reason : String)
  | decode (fault : DecodeFault)
  | encode (fault : EncodeFault)
  | state (fault : StateFault)
  | indexOutOfBounds (index capacity : Nat)
  | oversizedPacket (size : Nat)
  | signature (fault : SignatureFault)
  | aborted (abort : Abort)
  | timeout
  | connectionClosed
  | config (fault : ConfigFault)
  deriving DecidableEq

namespace Failure

/-- The failure in words. -/
def text : Failure → String
  | system text => "I/O error: " ++ text
  | bind address reason => "Cannot bind " ++ address.text ++ ": " ++ reason
  | decode fault => "Decode error: " ++ fault.text
  | encode fault => "Encode error: " ++ fault.text
  | state fault => "Illegal state: " ++ fault.text
  | indexOutOfBounds index capacity =>
    "Index " ++ toString index ++ " out of bounds (capacity " ++ toString capacity ++ ")"
  | oversizedPacket size => "Packet too large: " ++ toString size ++ " bytes"
  | signature fault => "Signature error: " ++ fault.text
  | aborted abort => abort.text
  | timeout => "Timeout occurred"
  | connectionClosed => "Connection closed"
  | config fault => "Configuration error: " ++ fault.text

/-- The name of the kind of failure. -/
def name : Failure → String
  | system _ => "Io"
  | bind .. => "BindFailure"
  | decode _ => "Decode"
  | encode _ => "Encode"
  | state _ => "State"
  | indexOutOfBounds .. => "IndexOutOfBounds"
  | oversizedPacket _ => "OversizedPacket"
  | signature _ => "Signature"
  | aborted _ => "Peer"
  | timeout => "Timeout"
  | connectionClosed => "ConnectionClosed"
  | config _ => "ConfigError"

/-- The cause of the abort, if the failure is one. -/
def abortCause? : Failure → Option AbortCause
  | aborted abort => some abort.cause
  | _ => none

/-- Whether the failure arose on this side before anything reached the peer. -/
def isLocal : Failure → Bool
  | bind .. | encode _ | state _ | indexOutOfBounds .. | oversizedPacket _ | signature _
  | config _ => true
  | _ => false

/-- The abort of a request that met this failure. Failures on this side are never put down
to the peer. -/
def toAbort (f : Failure) : Abort :=
  match f with
  | aborted abort => abort
  | timeout => ⟨.timeout, "Operation timed out"⟩
  | other => if other.isLocal then .user other.text else ⟨.peerError, other.text⟩

end Failure

end PeerMessaging
