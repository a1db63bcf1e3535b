import PeerMessaging.Config.Settings
import PeerMessaging.Failure
import PeerMessaging.Text.Blank

/-!
# Settings from the environment

Variables of the environment override the defaults. A number may have blanks around it and a
plus sign in front. The list of addresses is separated by commas, and what is blank in it
does not count; an empty list means every address.
-/

namespace PeerMessaging

/-- The number below a bound that a variable holds, the given default if it is not set. -/
def variableNumber (vars : String → Option String) (name : String) (bound standard : Nat) :
    Except Failure Nat :=
  match vars name with
  | none => .ok standard
  | some text =>
    match Text.natural? bound (Text.trim text) with
    | some n => .ok n
    | none => .error (.config (.invalidVariable name text))

/-- The addresses in a list with commas. -/
def addressList (text : String) : List String :=
  ((text.toList.splitOn ',').map fun item => String.ofList (Text.trimChars item)).filter
    (!·.isEmpty)

namespace Configuration

/-- The configuration that the environment asks for. -/
def ofEnvironment (vars : String → Option String) : Except Failure Configuration := do
  let server : ServerSettings := {}
  let connection : ConnectionSettings := {}
  let tcpPort ← variableNumber vars "PEERWIRE_TCP_PORT" (2 ^ 16) server.tcpPort.toNat
  let udpPort ← variableNumber vars "PEERWIRE_UDP_PORT" (2 ^ 16) server.udpPort.toNat
  let addresses := (vars "PEERWIRE_LISTEN_ADDRESSES").map addressList
  let idleTcp ← variableNumber vars "PEERWIRE_IDLE_TCP_MS" (2 ^ 64) connection.idleTcp.millis
  let idleUdp ← variableNumber vars "PEERWIRE_IDLE_UDP_MS" (2 ^ 64) connection.idleUdp.millis
  let connectTimeout ← variableNumber vars "PEERWIRE_CONNECTION_TIMEOUT_TCP_MS" (2 ^ 64)
    connection.connectTimeout.millis
  return {
    server := { server with
      tcpPort := UInt16.ofNat tcpPort
      udpPort := UInt16.ofNat udpPort
      addresses := addresses.getD server.addresses
      listenAny := (addresses.map List.isEmpty).getD server.listenAny }
    connection := { connection with
      idleTcp := .ofMillis idleTcp
      idleUdp := .ofMillis idleUdp
      connectTimeout := .ofMillis connectTimeout } }

end Configuration

end PeerMessaging
