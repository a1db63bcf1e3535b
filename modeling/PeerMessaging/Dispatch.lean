import PeerMessaging.Message.Edit

/-!
# Dispatch of requests

A dispatcher answers in the name of one peer. It knows at most one handler for each command.
A handler gets the request with a prepared reply and gives the reply to send or fails; it may
also change a state that the dispatcher does not look into.

A request of another version and a failing handler are answered with an exception, a command
without a handler with an unknown id. A request that nobody answers gets no reply, whatever
its handler did.
-/

namespace PeerMessaging

variable {U : Type}

/-- Answers a request, given a prepared reply. -/
abbrev CommandHandler (U : Type) := Message → Message → U → Except Failure Message × U

/-- The handlers of a peer by command, with the version of the requests that they serve. -/
structure Dispatcher (U : Type) where
  responder : PeerAddress
  version : UInt32
  handlers : List (UInt8 × CommandHandler U) := []

namespace Dispatcher

/-- The handler of a command. -/
def handler? (d : Dispatcher U) (command : UInt8) : Option (CommandHandler U) :=
  d.handlers.lookup command

/-- Removes the handler of a command and says whether there was one. -/
def unregister (d : Dispatcher U) (command : UInt8) : Bool × Dispatcher U :=
  ((d.handler? command).isSome,
    { d with handlers := d.handlers.filter fun entry => entry.1 ≠ command })

/-- Makes a handler the one of a command. -/
def register (d : Dispatcher U) (command : UInt8) (h : CommandHandler U) : Dispatcher U :=
  { d with handlers := (d.unregister command).2.handlers ++ [(command, h)] }

/-- Runs the handler of a request's command, if there is one. -/
def dispatch (d : Dispatcher U) (request : Message) (u : U) :
    Except Failure (Option Message) × U :=
  match d.handler? request.command with
  | none => (.ok none, u)
  | some h =>
    match h request (request.replyTo d.responder .ok) u with
    | (.ok reply, u) => (.ok (some reply), u)
    | (.error f, u) => (.error f, u)

/-- A reply, unless nobody waits for one. -/
def reply (request reply : Message) : Option Message :=
  if request.isFireAndForget then none else some reply

/-- Answers a request. -/
def respond (d : Dispatcher U) (request : Message) (u : U) : Option Message × U :=
  if request.version ≠ d.version then
    (reply request (request.replyTo d.responder .exception), u)
  else match d.dispatch request u with
    | (.ok (some answer), u) => (reply request answer, u)
    | (.ok none, u) => (reply request (request.replyTo d.responder .unknownId), u)
    | (.error _, u) => (reply request (request.replyTo d.responder .exception), u)

/-- The dispatcher for inspection. -/
def record (d : Dispatcher U) : String :=
  Text.recordText "Dispatcher" [("local", d.responder.record),
    ("version", toString d.version.toNat),
    ("commands", Text.listText (d.handlers.map fun entry => toString entry.1.toNat))]

end Dispatcher

/-- A handler described by data: it fails, or it edits the prepared reply or a blank message
and may copy the buffers and the integers of the request. -/
structure CannedReply where
  failure : Option String := none
  blank : Bool := false
  edits : List Edit := []
  echo : Bool := false

namespace CannedReply

/-- The edits that copy the buffers and then the integers of a message. -/
def copies (request : Message) : List Edit :=
  request.content.buffers.map (fun b => .add (.plain (.buffer b)))
    ++ request.content.integers.map fun n => .add (.plain (.integer n))

/-- The reply to a request. -/
def answer (c : CannedReply) (request prepared : Message) : Except Failure Message :=
  match c.failure with
  | some text => .error (.state (.reported text))
  | none =>
    (if c.blank then {} else prepared : Message).made
      (c.edits ++ if c.echo then copies request else [])

/-- The handler that leaves the state alone. -/
def handler (c : CannedReply) : CommandHandler U := fun request prepared u =>
  (c.answer request prepared, u)

end CannedReply

end PeerMessaging
