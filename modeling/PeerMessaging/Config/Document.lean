import PeerMessaging.Config.Files
import PeerMessaging.Config.Settings
import PeerMessaging.Failure
import PeerMessaging.Toml.Library

/-!
# Configuration documents

A configuration is written as a document with one table for each section. A section that is
missing has its defaults; within a section only a few settings may be missing. What a
document says beside the settings does not count. A section may also be an array of its
settings in their order.

Windows and timeouts are whole milliseconds; one that does not fit 64 bits is cut off. Printing
and parsing is left to a library, whose reasons not to print a document are passed on.
-/

namespace PeerMessaging

open Toml (Datum Table)

/-- The settings of a section, by name or by place. -/
inductive Fields where
  | named (entries : Table)
  | listed (items : List Datum)

namespace Fields

/-- The settings of what stands for a section. -/
def ofDatum? : Datum → Option Fields
  | .table entries => some (.named entries)
  | .array items => some (.listed items)
  | _ => none

/-- The value of the setting with a name and a place. -/
def get? (f : Fields) (name : String) (place : Nat) : Option Datum :=
  match f with
  | .named entries => entries.lookup name
  | .listed items => items[place]?

/-- A setting that must be there. -/
def required {α : Type} (read : Datum → Option α) (f : Fields) (name : String) (place : Nat) :
    Option α :=
  (f.get? name place).bind read

/-- A setting that may be missing. -/
def optional {α : Type} (standard : α) (read : Datum → Option α) (f : Fields) (name : String)
    (place : Nat) : Option α :=
  match f.get? name place with
  | none => some standard
  | some d => read d

end Fields

namespace Configuration

/-! ## Reading -/

/-- A truth value. -/
def boolean? : Datum → Option Bool
  | .boolean b => some b
  | _ => none

/-- A text. -/
def text? : Datum → Option String
  | .string s => some s
  | _ => none

/-- A number below a bound. -/
def number? (bound : Nat) : Datum → Option Nat
  | .integer n => if 0 ≤ n ∧ n < bound then some n.toNat else none
  | _ => none

/-- A port. -/
def port? (d : Datum) : Option UInt16 := (number? (2 ^ 16) d).map UInt16.ofNat

/-- A size or a count. -/
def size? (d : Datum) : Option UInt64 := (number? (2 ^ 64) d).map UInt64.ofNat

/-- A span of time in milliseconds. -/
def span? (d : Datum) : Option Duration := (number? (2 ^ 64) d).map Duration.ofMillis

/-- A list of texts. -/
def texts? : Datum → Option (List String)
  | .array items => items.mapM text?
  | _ => none

/-- A level of importance. -/
def level? (d : Datum) : Option LogLevel := (text? d).bind LogLevel.ofText?

/-- A format: its name, or a table that holds nothing but an empty value under its name. -/
def format? : Datum → Option LogFormat
  | .string s => LogFormat.ofText? s
  | .table [(name, .table [])] => LogFormat.ofText? name
  | .table [(name, .array [])] => LogFormat.ofText? name
  | _ => none

/-- The settings for serving. -/
def server? (f : Fields) : Option ServerSettings := do
  return {
    listenAny := ← f.required boolean? "listen_any" 0
    addresses := ← f.optional [] texts? "addresses" 1
    tcpPort := ← f.required port? "tcp_port" 2
    udpPort := ← f.required port? "udp_port" 3
    maxTcpClients := ← f.required size? "max_tcp_clients" 4
    disableBind := ← f.optional false boolean? "disable_bind" 5
    maxFrameSize := ← f.required size? "max_frame_size" 6 }

/-- The settings for connecting. -/
def connection? (f : Fields) : Option ConnectionSettings := do
  return {
    idleTcp := ← f.required span? "idle_tcp" 0
    idleUdp := ← f.required span? "idle_udp" 1
    connectTimeout := ← f.required span? "connection_timeout_tcp" 2
    version := ← (f.required (number? (2 ^ 32)) "version" 3).map UInt32.ofNat }

/-- The settings for logging. -/
def logging? (f : Fields) : Option LoggingSettings := do
  return {
    level := ← f.required level? "level" 0
    format := ← f.required format? "format" 1
    stdout := ← f.required boolean? "stdout" 2
    file := ← f.optional none (fun d => (text? d).map some) "file" 3 }

/-- The settings of a section, the defaults if it is missing. -/
def section? {α : Type} (standard : α) (read : Fields → Option α) (document : Table)
    (name : String) : Option α :=
  match document.lookup name with
  | none => some standard
  | some d => (Fields.ofDatum? d).bind read

/-- The configuration of a document. -/
def ofTable? (document : Table) : Option Configuration := do
  return {
    server := ← section? {} server? document "server"
    connection := ← section? {} connection? document "connection"
    logging := ← section? {} logging? document "logging" }

/-- The configuration that a text spells. -/
def ofText (toml : Toml.Library) (text : String) : Except Failure Configuration :=
  match (toml.parse text).bind ofTable? with
  | some c => .ok c
  | none => .error (.config .syntaxError)

/-! ## Writing -/

/-- The number of milliseconds of a span, as far as it fits 64 bits. -/
def spanDatum (d : Duration) : Datum := .integer (min d.millis (2 ^ 64 - 1) : Nat)

/-- The table of the settings for serving. -/
def serverTable (s : ServerSettings) : Table :=
  [("listen_any", .boolean s.listenAny), ("addresses", .array (s.addresses.map .string)),
    ("tcp_port", .integer s.tcpPort.toNat), ("udp_port", .integer s.udpPort.toNat),
    ("max_tcp_clients", .integer s.maxTcpClients.toNat), ("disable_bind", .boolean s.disableBind),
    ("max_frame_size", .integer s.maxFrameSize.toNat)]

/-- The table of the settings for connecting. -/
def connectionTable (c : ConnectionSettings) : Table :=
  [("idle_tcp", spanDatum c.idleTcp), ("idle_udp", spanDatum c.idleUdp),
    ("connection_timeout_tcp", spanDatum c.connectTimeout),
    ("version", .integer c.version.toNat)]

/-- The table of the settings for logging. A file that is missing has no entry. -/
def loggingTable (l : LoggingSettings) : Table :=
  [("level", .string l.level.word), ("format", .string l.format.word),
    ("stdout", .boolean l.stdout)]
    ++ (match l.file with
        | some path => [("file", .string path)]
        | none => [])

/-- The sections of a configuration. -/
def document (c : Configuration) : List (String × Table) :=
  [("server", serverTable c.server), ("connection", connectionTable c.connection),
    ("logging", loggingTable c.logging)]

/-- The text of a configuration. -/
def toText (toml : Toml.Library) (c : Configuration) : Except Failure String :=
  match toml.print c.document with
  | .ok text => .ok text
  | .error reason => .error (.config (.unserializable reason))

/-- The text of the defaults, as an example. -/
def exampleText (toml : Toml.Library) : String :=
  match toText toml {} with
  | .ok text => text
  | .error _ => "# Failed to generate example config"

/-! ## Files -/

/-- The configuration in a file. -/
def load (toml : Toml.Library) (fs : FileSystem) (path : String) : Except Failure Configuration :=
  match fs.read path with
  | .error fault => .error (.config (.unreadable path fault.text))
  | .ok content =>
    match Bytes.toText? content with
    | none => .error (.config (.unreadable path "stream did not contain valid UTF-8"))
    | some text => ofText toml text

/-- Writes a configuration to a file. -/
def save (toml : Toml.Library) (fs : FileSystem) (path : String) (c : Configuration) :
    Except Failure FileSystem :=
  match c.toText toml with
  | .error f => .error f
  | .ok text =>
    match fs.write path (Bytes.ofText text) with
    | .error fault => .error (.config (.unwritable fault.text))
    | .ok fs => .ok fs

end Configuration

end PeerMessaging
