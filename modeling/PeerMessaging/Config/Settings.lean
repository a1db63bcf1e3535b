import PeerMessaging.Address.Socket
import PeerMessaging.Duration
import PeerMessaging.Text.Numeral
import PeerMessaging.Text.Record

/-!
# Settings

The configuration of a node has three sections: where and how it serves, how it connects to
others, and what it logs. Every setting has a default.
-/

namespace PeerMessaging

/-- How important an event must be to be logged. -/
inductive LogLevel where
  | error
  | warn
  | info
  | debug
  | trace
  deriving DecidableEq

namespace LogLevel

/-- Every level, the most important first. -/
def all : List LogLevel := [error, warn, info, debug, trace]

/-- The name of the level. -/
def name : LogLevel → String
  | error => "ERROR"
  | warn => "WARN"
  | info => "INFO"
  | debug => "DEBUG"
  | trace => "TRACE"

/-- The name in small letters, as configurations have it. -/
def word : LogLevel → String
  | error => "error"
  | warn => "warn"
  | info => "info"
  | debug => "debug"
  | trace => "trace"

/-- The level that a text names, in letters of either case or by its number from one. -/
def ofText? (s : String) : Option LogLevel :=
  match Text.natural? (2 ^ 64) s with
  | some 0 => none
  | some (n + 1) => all[n]?
  | none => all.find? fun l => l.word.toList == s.toList.map Char.toLower

end LogLevel

/-- How a logged event is written. -/
inductive LogFormat where
  | plain
  | json
  deriving DecidableEq

namespace LogFormat

/-- The name of the format. -/
def name : LogFormat → String
  | plain => "Plain"
  | json => "Json"

/-- The name in small letters, as configurations have it. -/
def word : LogFormat → String
  | plain => "plain"
  | json => "json"

/-- The format that a text names. -/
def ofText? (s : String) : Option LogFormat := [plain, json].find? fun f => f.word == s

end LogFormat

/-- Where and how a node serves. Port zero lets the system choose. -/
structure ServerSettings where
  listenAny : Bool := true
  addresses : List String := []
  tcpPort : UInt16 := 7700
  udpPort : UInt16 := 7700
  maxTcpClients : UInt64 := 4
  disableBind : Bool := false
  maxFrameSize : UInt64 := 16777216
  deriving DecidableEq

/-- How a node connects to others. A window of zero turns idle detection off. -/
structure ConnectionSettings where
  idleTcp : Duration := .ofMillis 5000
  idleUdp : Duration := .ofMillis 5000
  connectTimeout : Duration := .ofMillis 3000
  version : UInt32 := 1
  deriving DecidableEq

/-- What a node logs. -/
structure LoggingSettings where
  level : LogLevel := .info
  format : LogFormat := .plain
  stdout : Bool := true
  file : Option String := none
  deriving DecidableEq

/-- The configuration of a node. -/
structure Configuration where
  server : ServerSettings := {}
  connection : ConnectionSettings := {}
  logging : LoggingSettings := {}
  deriving DecidableEq

/-- The socket addresses to bind, for each interface one for streams and one for datagrams.
Addresses that are none are passed over. -/
def ServerSettings.bindAddresses (s : ServerSettings) : List (SocketAddress × SocketAddress) :=
  let ips :=
    if s.listenAny then [IpAddress.unspecified4] else s.addresses.filterMap IpAddress.parse?
  ips.map fun ip => (⟨ip, s.tcpPort, 0⟩, ⟨ip, s.udpPort, 0⟩)

/-- The settings for inspection. -/
def ConnectionSettings.record (c : ConnectionSettings) : String :=
  Text.recordText "ConnectionConfig" [("idle_tcp", c.idleTcp.text), ("idle_udp", c.idleUdp.text),
    ("connection_timeout_tcp", c.connectTimeout.text), ("version", toString c.version.toNat)]

end PeerMessaging
