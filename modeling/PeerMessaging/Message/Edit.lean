import PeerMessaging.Message.Basic

/-!
# Edits of a message

A message is built step by step: a header field is set, or a section is added. Each step gives the
message as it is then, beside the failure if it was refused. A sequence of edits stops at the first
one that is refused.
-/

namespace PeerMessaging

/-- A section to add, as its maker describes it. -/
inductive Addition where
  | plain (s : Section)
  | signed (publicKey signingKey : Bytes)
  | foreign (kind : ContentKind) (data : Bytes)
  | announced (kind : ContentKind)
  deriving DecidableEq

/-- One step in the making of a message. -/
inductive Edit where
  | id (value : UInt32)
  | version (value : UInt32)
  | kind (value : MessageKind)
  | command (value : UInt8)
  | sender (value : PeerAddress)
  | recipient (value : PeerAddress)
  | relay (value : PeerAddress)
  | keepAlive (value : Bool)
  | streaming (value : Bool)
  | add (addition : Addition)
  deriving DecidableEq

namespace Message

/-- Adds a section as described. -/
def attach (m : Message) : Addition → Except Failure Unit × Message
  | .plain s => m.add s
  | .signed publicKey signingKey => m.addSigned publicKey signingKey
  | .foreign kind data => m.addForeign kind data
  | .announced kind => m.add (.announce kind)

/-- Takes one step. -/
def edit (m : Message) : Edit → Except Failure Unit × Message
  | .id value => (.ok (), { m with id := value })
  | .version value => (.ok (), { m with version := value })
  | .kind value => (.ok (), { m with kind := value })
  | .command value => (.ok (), { m with command := value })
  | .sender value => (.ok (), { m with sender := value })
  | .recipient value => (.ok (), { m with recipient := value })
  | .relay value => (.ok (), { m with relay := some value })
  | .keepAlive value => (.ok (), { m with keepAlive := value })
  | .streaming value => (.ok (), { m with streaming := value })
  | .add addition => m.attach addition

/-- Takes steps in order, up to the first that is refused. -/
def editAll (m : Message) : List Edit → Except Failure Unit × Message
  | [] => (.ok (), m)
  | e :: rest =>
    match m.edit e with
    | (.ok (), m) => m.editAll rest
    | (.error f, m) => (.error f, m)

/-- The message that all steps have made, if none was refused. -/
def made (m : Message) (edits : List Edit) : Except Failure Message :=
  match m.editAll edits with
  | (.ok (), m) => .ok m
  | (.error f, _) => .error f

end Message

end PeerMessaging
