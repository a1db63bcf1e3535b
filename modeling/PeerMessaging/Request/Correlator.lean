import PeerMessaging.Request.Completion
import PeerMessaging.Traffic

/-!
# Correlation of replies with a request

Every message that arrives for a request passes a fixed sequence of checks before it may end
the request:

1. no message, for a request that nobody answers: it ends with nothing,
2. the peer does not know the command, or the other side failed: abort by the peer,
3. a request: not for us,
4. another correlation key: abort by the peer,
5. another relay flag than the request's recipient has, unless the reply belongs to a
   reverse connection setup: abort by the peer,
6. otherwise a good answer shows that its sender lives. One part of a stream leaves the
   request pending; the last part, or a whole reply, ends it.

Listeners hear of every peer that answered and of every abort that is not the user's own.
-/

namespace PeerMessaging

/-- What a listener hears. -/
inductive Notice where
  | found (listener : Nat) (peer : PeerAddress)
  | failed (listener : Nat) (peer : PeerAddress) (abort : Abort)
  deriving DecidableEq

/-- What an arrived message did to the request. -/
inductive Disposition where
  | completed
  | awaitMore
  | notForThisRequest
  deriving DecidableEq

namespace Disposition

/-- The name of the disposition. -/
def name : Disposition → String
  | completed => "Completed"
  | awaitMore => "AwaitMore"
  | notForThisRequest => "NotForThisRequest"

end Disposition

/-- A request with the listeners that hear of it, what they heard, and the counters. -/
structure Correlator where
  completion : Completion
  listeners : List Nat := []
  notices : List Notice := []
  traffic : Traffic := {}
  deriving DecidableEq

namespace Correlator

/-- The correlator of a fresh request. -/
def ofRequest (request : Message) (listeners : List Nat) : Correlator :=
  { completion := { request := request }, listeners := listeners }

/-- The request. -/
def request (c : Correlator) : Message := c.completion.request

/-- Registers a listener behind all others; it may be registered more than once. -/
def addListener (c : Correlator) (listener : Nat) : Correlator :=
  { c with listeners := c.listeners ++ [listener] }

/-- Removes every registration of a listener; says whether there was any. -/
def removeListener (c : Correlator) (listener : Nat) : Bool × Correlator :=
  let kept := c.listeners.filter fun l => l ≠ listener
  (kept.length ≠ c.listeners.length, { c with listeners := kept })

/-- Ends the request with an abort unless it has ended. Nobody hears of an abort by the
user. -/
def abort (c : Correlator) (a : Abort) : Correlator :=
  if c.completion.isCompleted then c
  else
    { c with
      completion := (c.completion.fail a).2
      notices := if a.isUserAbort then c.notices
        else c.notices ++ c.listeners.map fun l => .failed l c.request.recipient a
      traffic := c.traffic.requestFailed a.cause }

/-- Ends the request with a reply, or with nothing, unless it has ended. -/
def succeed (c : Correlator) (reply : Option Message) : Correlator :=
  if c.completion.isCompleted then c
  else
    { c with
      completion := (c.completion.complete reply).2
      traffic := c.traffic.requestCompleted }

/-- Why a reply, one that is no request, is not accepted. -/
def refusal (request response : Message) : Option String :=
  if response.correlationKey ≠ request.correlationKey then
    some ("Response message is not the one we expect: got [" ++ response.text ++ "], sent ["
      ++ request.text ++ "]")
  else if response.command ≠ rconCommand
      ∧ request.recipient.relayed ≠ response.sender.relayed then
    some ("Response message has a different relay flag than the request: got [" ++ response.text
      ++ "], sent [" ++ request.text ++ "], recipient relayed "
      ++ Text.boolText request.recipient.relayed ++ ", sender relayed "
      ++ Text.boolText response.sender.relayed)
  else none

/-- A good answer, one way or the other. -/
def isAnswer (response : Message) : Bool := response.kind.isOk || response.kind.isNotOk

/-- A relayed sender that tells its relays in a good answer is known by these from now on. -/
def refreshed (response : Message) : Message :=
  if isAnswer response && response.sender.relayed && !response.firstEndpoints.isEmpty then
    { response with sender := response.sender.withRelays response.firstEndpoints }
  else response

/-- Tells every listener that the sender of a good answer was found. -/
def reportFound (c : Correlator) (response : Message) : Correlator :=
  if isAnswer response then
    { c with notices := c.notices ++ c.listeners.map fun l => .found l response.sender }
  else c

/-- Takes in what arrived for the request. -/
def receive (c : Correlator) : Option Message → Disposition × Correlator
  | none => (.completed, c.succeed none)
  | some response =>
    if response.kind = .unknownId then
      (.completed, c.abort (.peer ("Message was not delivered successfully. Unknown ID (peer may "
        ++ "be offline or unknown RPC handler): " ++ c.request.text)))
    else if response.kind = .exception then
      (.completed, c.abort (.peer ("Message caused an exception on the other side. "
        ++ "Handle as peer abort: " ++ c.request.text)))
    else if response.isRequest then (.notForThisRequest, c)
    else match refusal c.request response with
      | some reason => (.completed, c.abort (.peer reason))
      | none =>
        let response := refreshed response
        let c := c.reportFound response
        if response.isDone then (.completed, c.succeed (some response)) else (.awaitMore, c)

/-- The channel of the request closed. -/
def channelClosed (c : Correlator) : Correlator :=
  c.abort ⟨.peerError, "Connection closed"⟩

/-- The channel of the request was idle for too long. -/
def channelIdle (c : Correlator) : Correlator :=
  c.abort ⟨.timeout, "channel idle, no reply in time"⟩

/-- A failure reached the channel of the request. -/
def channelFailed (c : Correlator) (f : Failure) : Correlator :=
  c.abort f.toAbort

/-- The correlator for inspection. -/
def record (c : Correlator) : String :=
  Text.recordText "RequestHandler" [("message_id", c.request.correlationKey.record),
    ("completed", Text.boolText c.completion.isCompleted)]

end Correlator

/-- The local peer with the number of those that listen, for inspection. -/
def localRecord (peer : PeerAddress) (listeners : Nat) : String :=
  Text.recordText "PeerBean" [("local", peer.record), ("listeners", toString listeners)]

end PeerMessaging
