import HolePunch.Kind
import HolePunch.Wire.Cursor
import HolePunch.Text.Digits

/-!
# Protocol errors

Every way in which a message can fail to be read or written, as a cause, and the text of each.
-/

namespace HolePunch

/-- What is wrong with the bytes of a message whose header was readable. -/
inductive Malformation where
  /-- A field runs past the end. -/
  | truncated (shortage : Wire.Shortage)
  /-- The bytes are those of another kind than the one asked for. -/
  | wrongTag (expected : Kind) (found : UInt8)
  /-- Anything else, in words. -/
  | other (text : String)
  deriving DecidableEq, Repr

inductive ProtocolError where
  /-- The first byte is no kind's tag. -/
  | unknownType (tag : UInt8)
  /-- The version byte is not one that is spoken here. -/
  | unsupportedVersion (version : UInt8)
  /-- The payload is malformed. -/
  | malformed (cause : Malformation)
  /-- There were too few bytes for a header. -/
  | notReadEnough (read : Nat)
  /-- An endpoint has no address to write. -/
  | unsetAddress (kind : Kind) (field : String)
  deriving DecidableEq, Repr

def Malformation.message : Malformation → String
  | .truncated s =>
    s!"truncated {s.field}: need {s.need} bytes at offset {s.offset}, {s.available} available"
  | .wrongTag expected found =>
    s!"expected {expected.name} tag {Text.tagText expected.tag}, found {Text.tagText found}"
  | .other text => text

namespace ProtocolError

def message : ProtocolError → String
  | .unknownType tag => s!"netpuncher: unknown message type {Text.tagText tag}"
  | .unsupportedVersion version => s!"netpuncher: unsupported protocol version {version.toNat}"
  | .malformed cause => s!"netpuncher: {cause.message}"
  | .notReadEnough read => s!"netpuncher: message not long enough, read {read} byte"
  | .unsetAddress kind field => s!"netpuncher: cannot encode {kind.name}: {field} address not set"

/-- True of the error that writing a message can raise; all others come from reading. -/
def isEncodeError : ProtocolError → Bool
  | .unsetAddress .. => true
  | _ => false

end ProtocolError

inductive ReadError where
  /-- The bytes were read and are no message. -/
  | protocol (error : ProtocolError)
  /-- The read itself failed. -/
  | failed (text : String)
  deriving DecidableEq, Repr

def ReadError.message : ReadError → String
  | .protocol error => error.message
  | .failed text => s!"netpuncher: read failed: {text}"

/-- The words of the read that failed, as the cause behind the error. -/
def ReadError.source? : ReadError → Option String
  | .protocol _ => none
  | .failed text => some text

namespace Kind

def lookup (tag : UInt8) : Except ProtocolError Kind :=
  match ofTag? tag with
  | some kind => .ok kind
  | none => .error (.unknownType tag)

end Kind

end HolePunch
