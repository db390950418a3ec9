import HolePunch.Address.Parser
import HolePunch.Address.Printer
import HolePunch.Kind
import HolePunch.Text.Blank
import HolePunch.Text.Duration

/-!
# Settings

What the commands can be told: how much to log and in which shape, how many bytes a receive may
take, where to listen, and how long to wait. `Settings.check` accepts settings that leave room for
the longest message and name a log level.
-/

namespace HolePunch

structure Settings where
  level : String
  json : Bool
  recvBufferSize : UInt64
  bindAddress : SocketAddr
  readTimeoutMs : Option UInt64
  deriving DecidableEq, Repr

inductive SettingsError where
  /-- The text is no TOML, or a value has the wrong type. -/
  | notToml
  /-- A source of settings cannot be read. -/
  | notBuilt
  /-- The values of the sources do not fit the settings. -/
  | notDeserialized
  /-- A number is too large to be written. -/
  | notSerialized
  /-- A receive would cut off the longest message. -/
  | smallBuffer (size : UInt64)
  /-- There is no log level. -/
  | emptyLevel
  deriving DecidableEq, Repr

def SettingsError.message : SettingsError → String
  | .notToml => "Failed to parse TOML configuration"
  | .notBuilt => "Failed to build configuration"
  | .notDeserialized => "Failed to deserialize configuration"
  | .notSerialized => "Failed to serialize configuration"
  | .smallBuffer size =>
    s!"codec.recv_buffer_size {size.toNat} is below the largest message ({maxPacketSize} bytes)"
  | .emptyLevel => "logging.level must not be empty"

namespace Settings

/-- The address to listen at unless another is given, `[::]:11113`. -/
def defaultBindAddress : SocketAddr := .v6 .unspecified 11113 0

def standard : Settings := ⟨"info", false, 2048, defaultBindAddress, none⟩

def check (s : Settings) : Except SettingsError Unit :=
  if s.recvBufferSize.toNat < maxPacketSize then .error (.smallBuffer s.recvBufferSize)
  else if (Text.trim s.level.toList).isEmpty then .error .emptyLevel
  else .ok ()

/-- The settings themselves, if they are accepted. -/
def checked (s : Settings) : Except SettingsError Settings := s.check.map fun _ => s

def readTimeoutText (s : Settings) : Option String :=
  s.readTimeoutMs.map fun ms => Text.duration ms.toNat

end Settings

end HolePunch
