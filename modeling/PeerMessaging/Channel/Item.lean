import PeerMessaging.Gather
import PeerMessaging.Message.Basic
import PeerMessaging.Text.Quoted

/-!
# What moves in a channel

An item goes through a channel as bytes from the wire, as a message, or as bytes that are
ready for the wire. Beside the items there are events, by which one part of a channel tells
others that something happened.
-/

namespace PeerMessaging

/-- What travels through a channel. -/
inductive Item where
  | packet (bytes : Bytes) (sender recipient : SocketAddress) (udp : Bool)
  | message (m : Message)
  | encoded (buffer : Gather)
  deriving DecidableEq

namespace Item

/-- Where the item is to be sent: only a message knows. -/
def destination : Item → Option SocketAddress
  | message m => m.recipientSocket
  | _ => none

end Item

/-- What one part of a channel tells those behind it. -/
inductive ChannelEvent where
  | allIdle
  | user (text : String)
  deriving DecidableEq

/-- The event for inspection. -/
def ChannelEvent.record : ChannelEvent → String
  | allIdle => "AllIdle"
  | user text => Text.taggedText "User" (Text.quote text)

/-- The two ends of a channel and how it stands. -/
structure ChannelInfo where
  here : SocketAddress
  remote : Option SocketAddress := none
  udp : Bool := false
  active : Bool := false
  deriving DecidableEq

/-- The channel for inspection. -/
def ChannelInfo.record (c : ChannelInfo) : String :=
  Text.recordText "ChannelInfo" [("local", c.here.text),
    ("remote", Text.optionText (c.remote.map SocketAddress.text)), ("udp", Text.boolText c.udp),
    ("active", Text.boolText c.active)]

end PeerMessaging
