import PeerMessaging.Config.Files
import PeerMessaging.Config.Settings
import PeerMessaging.Failure
import PeerMessaging.Message.Basic

/-!
# Validation of settings

A configuration is checked for settings that cannot work or are not meant. Each complaint
names its reason; the configuration is valid if there is none.
-/

namespace PeerMessaging

/-- What is wrong with a setting. -/
inductive Complaint where
  | nowhereToListen
  | badAddress (text : String)
  | noClients
  | manyClients (count : Nat)
  | smallFrames
  | largeFrames (size : Nat)
  | versionTooLarge (version : Nat)
  | longIdleTcp
  | longIdleUdp
  | shortTimeout
  | longTimeout
  | noLogOutput
  | noLogDirectory (path : String)
  deriving DecidableEq

/-- The words for a complaint. -/
def Complaint.text : Complaint → String
  | nowhereToListen => "No listen addresses configured and listen_any is false"
  | badAddress text =>
    "Invalid listen address: '" ++ text ++ "' (expected an IP such as '192.168.1.10')"
  | noClients => "Max TCP clients must be greater than 0"
  | manyClients count =>
    "Max TCP clients very high: " ++ toString count
      ++ " (ensure system resources can support this)"
  | smallFrames => "Max frame size too small (minimum: 1 KB)"
  | largeFrames size =>
    "Max frame size too large: " ++ toString size ++ " bytes (maximum recommended: 100 MB)"
  | versionTooLarge version =>
    "Version " ++ toString version ++ " does not fit 24 bits (maximum: "
      ++ toString maxVersion.toNat ++ ")"
  | longIdleTcp => "TCP idle window too long (maximum: 1 hour)"
  | longIdleUdp => "UDP idle window too long (maximum: 1 hour)"
  | shortTimeout => "TCP connection timeout too short (minimum: 10ms)"
  | longTimeout => "TCP connection timeout too long (maximum: 300s)"
  | noLogOutput => "No log output: stdout is off and no log file is set"
  | noLogDirectory path => "Log file directory does not exist: " ++ path

/-- A complaint if a condition holds. -/
def complainIf (condition : Bool) (complaint : Complaint) : List Complaint :=
  if condition then [complaint] else []

/-- Complaints about serving. -/
def ServerSettings.complaints (s : ServerSettings) : List Complaint :=
  complainIf (!s.listenAny && !s.disableBind && s.addresses.isEmpty) .nowhereToListen
    ++ (s.addresses.filter fun a => (IpAddress.parse? a).isNone).map .badAddress
    ++ (if s.maxTcpClients = 0 then [.noClients]
        else complainIf (10000 < s.maxTcpClients) (.manyClients s.maxTcpClients.toNat))
    ++ (if s.maxFrameSize < 1024 then [.smallFrames]
        else complainIf (104857600 < s.maxFrameSize) (.largeFrames s.maxFrameSize.toNat))

/-- Complaints about connecting. Only whole seconds of a window and a timeout count against
the longest ones. -/
def ConnectionSettings.complaints (c : ConnectionSettings) : List Complaint :=
  complainIf (maxVersion < c.version) (.versionTooLarge c.version.toNat)
    ++ complainIf (3600 < c.idleTcp.seconds) .longIdleTcp
    ++ complainIf (3600 < c.idleUdp.seconds) .longIdleUdp
    ++ (if !c.connectTimeout.isZero && c.connectTimeout.millis < 10 then [.shortTimeout]
        else complainIf (300 < c.connectTimeout.seconds) .longTimeout)

/-- Complaints about logging. -/
def LoggingSettings.complaints (fs : FileSystem) (l : LoggingSettings) : List Complaint :=
  match l.file with
  | none => complainIf (!l.stdout) .noLogOutput
  | some path =>
    match directoryOf? path with
    | some directory => complainIf (!fs.isDirectory directory) (.noLogDirectory directory)
    | none => []

namespace Configuration

/-- Every complaint, section by section. -/
def complaints (fs : FileSystem) (c : Configuration) : List Complaint :=
  c.server.complaints ++ c.connection.complaints ++ c.logging.complaints fs

/-- Refuses a configuration about which there are complaints. -/
def check (fs : FileSystem) (c : Configuration) : Except Failure Unit :=
  match c.complaints fs with
  | [] => .ok ()
  | complaints => .error (.config (.invalid (complaints.map Complaint.text)))

end Configuration

/-- Where events are logged. -/
inductive LogOutput where
  | stdout
  | file (path : String)
  deriving DecidableEq

/-- Opens the outputs that the settings ask for, of which there must be one. -/
def LoggingSettings.outputs (fs : FileSystem) (l : LoggingSettings) :
    Except Failure (List LogOutput) :=
  let console := if l.stdout then [LogOutput.stdout] else []
  match l.file with
  | none => if console.isEmpty then .error (.config .noLogOutput) else .ok console
  | some path =>
    match fs.writeFault? path with
    | some fault => .error (.config (.logFile path fault.text))
    | none => .ok (console ++ [.file path])

end PeerMessaging
