import DhcpRelay.Config.Format
import DhcpRelay.Json.Reader
import DhcpRelay.Text.Utf8

/-!
# The configuration file

The settings are one JSON value in a file. A file that does not exist means the default settings;
one that cannot be read, that is no text or that does not hold the settings is an error.
-/

namespace DhcpRelay

/-- Where the file is when nothing names another place. -/
def defaultConfigPath : String := "/etc/dhcrelayd/relay.json"

/-- The path of the file, given the value of the environment variable that names it, if it is
set. -/
def configPathOrDefault (fromEnvironment : Option String) : String :=
  fromEnvironment.getD defaultConfigPath

/-- What reading a file gives. -/
inductive FileContent where
  | missing
  | unreadable (reason : String)
  | octets (bytes : Bytes)

/-- Why the settings could not be loaded. -/
inductive LoadError where
  | read (reason : String)
  | parse
  deriving DecidableEq, Repr

/-- The wording of a failure to load the file at `path`. -/
def LoadError.message (path : String) : LoadError → String
  | .read reason => "failed to read " ++ path ++ ": " ++ reason
  | .parse => "failed to parse " ++ path ++ ": no relay configuration"

/-- The settings that a text holds. -/
def DaemonConfig.parse? (text : String) : Option DaemonConfig :=
  Json.parse? text >>= DaemonConfig.ofJson?

/-- The settings that a file holds. -/
def DaemonConfig.load : FileContent → Except LoadError DaemonConfig
  | .missing => .ok {}
  | .unreadable reason => .error (.read reason)
  | .octets bytes =>
    match Utf8.decode? bytes with
    | none => .error (.read "stream did not contain valid UTF-8")
    | some text =>
      match DaemonConfig.parse? text with
      | some config => .ok config
      | none => .error .parse

end DhcpRelay
