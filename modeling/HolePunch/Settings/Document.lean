import HolePunch.Settings.Basic
import HolePunch.Toml.Parser
import HolePunch.Toml.Printer

/-!
# Settings as a TOML document

Three sections hold the settings: `logging`, `codec` and `listen`. `Settings.ofToml` reads a
document: types are strict, unknown keys are ignored, what is missing has its standard value, and an
array stands for a section with its values in order. `Settings.toToml` writes one.
-/

namespace HolePunch.Settings

/-! ### Reading -/

/-- True of what can stand for a section. A date can, as a section without fields. -/
def isSection : Toml.Value → Bool
  | .table .. | .array _ | .tables _ | .datetime _ => true
  | _ => false

/-- A field of a section by its name, or by its place if the section is an array. -/
def fieldOf (name : String) (place : Nat) : Toml.Value → Option Toml.Value
  | .table _ entries => entries.lookup name
  | .array items | .tables items => items[place]?
  | _ => none

/-- A value that may be missing, by a reader that may refuse it. -/
def fieldOr {α β : Type} (standard : α) (read : β → Option α) : Option β → Option α
  | none => some standard
  | some v => read v

def stringOf : Toml.Value → Option String
  | .string s => some s
  | _ => none

def booleanOf : Toml.Value → Option Bool
  | .boolean b => some b
  | _ => none

def unsignedOf : Toml.Value → Option UInt64
  | .integer i => if 0 ≤ i then some (UInt64.ofNat i.toNat) else none
  | _ => none

def addressOf : Toml.Value → Option SocketAddr
  | .string s => SocketAddr.ofText? s.toList
  | _ => none

def ofDocument (document : Toml.Entries) : Option Settings := do
  let logging := document.lookup "logging"
  let codec := document.lookup "codec"
  let listen := document.lookup "listen"
  if logging.all isSection && codec.all isSection && listen.all isSection then do
    return {
      level := ← fieldOr standard.level stringOf (logging.bind (fieldOf "level" 0))
      json := ← fieldOr standard.json booleanOf (logging.bind (fieldOf "json" 1))
      recvBufferSize :=
        ← fieldOr standard.recvBufferSize unsignedOf (codec.bind (fieldOf "recv_buffer_size" 0))
      bindAddress :=
        ← fieldOr standard.bindAddress addressOf (listen.bind (fieldOf "bind_address" 0))
      readTimeoutMs :=
        ← fieldOr standard.readTimeoutMs (fun v => (unsignedOf v).map some)
          (listen.bind (fieldOf "read_timeout_ms" 1)) }
  else none

/-- The settings of a TOML document, if they are accepted. -/
def ofToml (text : List Char) : Except SettingsError Settings :=
  match (Toml.parse text).bind ofDocument with
  | some s => s.checked
  | none => .error .notToml

/-! ### Writing -/

def unsignedText? (n : UInt64) : Option (List Char) :=
  if n.toNat < Text.signedLimit then some (Text.decimal n.toNat) else none

/-- The line of the time to wait, or none while there is no limit. -/
def timeoutLine? : Option UInt64 → Option (List Char)
  | none => some []
  | some ms => (unsignedText? ms).map (Toml.keyLine "read_timeout_ms")

def toToml (s : Settings) : Except SettingsError (List Char) :=
  match unsignedText? s.recvBufferSize, timeoutLine? s.readTimeoutMs with
  | some size, some timeout =>
    .ok <|
      Toml.headerLine "logging" ++ Toml.keyLine "level" (Toml.stringText s.level.toList) ++
        Toml.keyLine "json" (Toml.booleanText s.json) ++ '\n' ::
      Toml.headerLine "codec" ++ Toml.keyLine "recv_buffer_size" size ++ '\n' ::
      Toml.headerLine "listen" ++
        Toml.keyLine "bind_address" (Toml.stringText s.bindAddress.text) ++ timeout
  | _, _ => .error .notSerialized

end HolePunch.Settings
