import HolePunch.Settings.Document
import HolePunch.Settings.Layer

/-!
# Loading settings

Settings come from a file, if there is one, and from environment variables over it. A variable named
`PUNCHER__SECTION__KEY` sets a key of a section; its value is a truth value, an integer, a float or
else a text, whichever it reads as first. Values are converted to the type of the setting: texts
from any scalar, truth values from numbers and words, numbers from floats by rounding.
-/

namespace HolePunch.Settings

/-! ### Conversions -/

namespace Node

/-- Words for a truth value, without digits. -/
def ofSwitch? (s : String) : Option Bool :=
  let word := s.toLower
  if word ∈ ["true", "on", "yes"] then some true
  else if word ∈ ["false", "off", "no"] then some false
  else none

def toText? : Node → Option String
  | .text s => some s
  | .boolean b => some (if b then "true" else "false")
  | .integer i => some (String.ofList (Text.decimalInt i))
  | .float x => some (String.ofList x.text)
  | _ => none

/-- The truth value of a scalar: numbers other than zero are true. -/
def toBoolean? : Node → Option Bool
  | .boolean b => some b
  | .integer i => some (i != 0)
  | .float x => some (!x.isZero)
  | .text s => if s = "1" then some true else if s = "0" then some false else ofSwitch? s
  | _ => none

/-- The number of a scalar, which must not be an integer below zero. -/
def toUnsigned? : Node → Option UInt64
  | .boolean b => some (if b then 1 else 0)
  | .integer i => if 0 ≤ i then some (UInt64.ofNat i.toNat) else none
  | .float x => some x.toUInt64
  | .text s =>
    match ofSwitch? s with
    | some b => some (if b then 1 else 0)
    | none => (Text.unsigned? (UInt64.size - 1) s.toList).map UInt64.ofNat
  | _ => none

/-- The number of a scalar, or no number for an empty value. -/
def toOptionalUnsigned? : Node → Option (Option UInt64)
  | .nothing => some none
  | value => value.toUnsigned?.map some

def toAddress? (value : Node) : Option SocketAddr :=
  value.toText?.bind fun s => SocketAddr.ofText? s.toList

def isSection : Node → Bool
  | .table _ | .list _ => true
  | _ => false

/-- A field of a section by its name, or by its place if the section is a list. -/
def fieldOf (name : String) (place : Nat) : Node → Option Node
  | .table entries => entries.lookup name
  | .list items => items[place]?
  | _ => none

end Node

def ofNode (tree : Node) : Option Settings := do
  let logging := tree.entries.lookup "logging"
  let codec := tree.entries.lookup "codec"
  let listen := tree.entries.lookup "listen"
  if logging.all Node.isSection && codec.all Node.isSection && listen.all Node.isSection then do
    return {
      level := ← fieldOr standard.level Node.toText? (logging.bind (Node.fieldOf "level" 0))
      json := ← fieldOr standard.json Node.toBoolean? (logging.bind (Node.fieldOf "json" 1))
      recvBufferSize :=
        ← fieldOr standard.recvBufferSize Node.toUnsigned?
          (codec.bind (Node.fieldOf "recv_buffer_size" 0))
      bindAddress :=
        ← fieldOr standard.bindAddress Node.toAddress?
          (listen.bind (Node.fieldOf "bind_address" 0))
      readTimeoutMs :=
        ← fieldOr standard.readTimeoutMs Node.toOptionalUnsigned?
          (listen.bind (Node.fieldOf "read_timeout_ms" 1)) }
  else none

/-! ### Environment variables -/

/-- The variables of a process, by name. -/
abbrev Environment := List (String × String)

/-- What the variables that hold settings start with, in any case. -/
def variableMark : List Char := "puncher__".toList

def ofVariable (s : String) : Node :=
  let word := s.toLower
  if word = "true" then .boolean true
  else if word = "false" then .boolean false
  else
    match Text.signed64? s.toList with
    | some i => .integer i
    | none =>
      match Binary64.ofText? s.toList with
      | some x => .float x
      | none => .text s

/-- A name with a dot for every two underscores. -/
def dotted : List Char → List Char
  | '_' :: '_' :: rest => '.' :: dotted rest
  | c :: rest => c :: dotted rest
  | [] => []

/-- The key that a variable sets, if it holds a setting. -/
def keyOf? (name : String) : Option String :=
  let key := name.toLower.toList
  if variableMark.isPrefixOf key then some (String.ofList (dotted (key.drop variableMark.length)))
  else none

/-- The settings that the variables hold, key by key. -/
def ofEnvironment (env : Environment) : List (String × Node) :=
  env.filterMap fun (name, value) => (keyOf? name).map fun key => (key, ofVariable value)

/-! ### Files -/

/-- The name of a file without the folders in front. -/
def fileName (path : List Char) : List Char := (path.reverse.takeWhile (· != '/')).reverse

/-- What follows the last dot of the name, if something comes before that dot. -/
def extension? (path : List Char) : Option (List Char) :=
  match (fileName path).reverse.span (· != '.') with
  | (ext, '.' :: _ :: _) => some ext.reverse
  | _ => none

structure File where
  path : String
  text : List Char

/-- The settings of a file, key by key; its extension must be `toml`. -/
def File.entries? (file : File) : Option (List (String × Node)) :=
  if extension? file.path.toList = some "toml".toList then
    (Toml.parse file.text).map Node.ofEntries
  else none

inductive FileChoice where
  /-- None was asked for. -/
  | absent
  /-- One was asked for and is not there. -/
  | missing
  | found (file : File)

/-- The keys that a file sets, if it is there to be read. -/
def FileChoice.entries? : FileChoice → Option (List (String × Node))
  | .absent => some []
  | .missing => none
  | .found file => file.entries?

/-- The tree of a source with variables over it. -/
def layers (entries : List (String × Node)) (env : Environment) : Node :=
  ((Node.table []).overlay entries).overlay (ofEnvironment env)

/-- The settings of a source and of the variables over it, if they are accepted. -/
def ofLayers (entries : List (String × Node)) (env : Environment) :
    Except SettingsError Settings :=
  match ofNode (layers entries env) with
  | none => .error .notDeserialized
  | some s => s.checked

/-- The settings of a file and of the variables over it, when the entries of the file come in this
order. -/
def loadIn (order : EntryOrder) (file : FileChoice) (env : Environment) :
    Except SettingsError Settings :=
  match file.entries? with
  | none => .error .notBuilt
  | some entries => ofLayers (order.source entries) env

def load (file : FileChoice) (env : Environment) : Except SettingsError Settings :=
  loadIn .asWritten file env

end HolePunch.Settings
