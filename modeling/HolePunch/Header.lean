import HolePunch.Error

/-!
# Headers

Every message starts with a tag byte and a version byte. There is no negotiation: a version other
than the one that is spoken here is refused, and it is refused before the tag is looked at.
-/

namespace HolePunch

structure Version where
  byte : UInt8
  deriving DecidableEq, Repr, Hashable

namespace Version

/-- The only version that is spoken. -/
def newest : Version := ⟨1⟩

instance : Inhabited Version := ⟨newest⟩

/-- True of the version that is spoken. -/
def isSupported (v : Version) : Bool := v == newest

/-- The version as it is printed, `v` and a number. -/
def text (v : Version) : List Char := 'v' :: Text.decimal v.byte.toNat

end Version

/-- The two bytes in front of every message; the tag may be no kind's. -/
structure Header where
  tag : UInt8
  version : Version
  deriving DecidableEq, Repr

/-- Reading that moves along a buffer and may fail. -/
abbrev Reader := StateT Wire.Cursor (Except ProtocolError)

namespace Reader

/-- A read of the cursor, with a shortage as a malformed message. -/
def lift {α : Type} (read : Wire.Cursor → Except Wire.Shortage (α × Wire.Cursor)) : Reader α :=
  fun c => (read c).mapError fun s => .malformed (.truncated s)

/-- Reads the start of a buffer and forgets the rest. -/
def run {α : Type} (reader : Reader α) (bytes : Bytes) : Except ProtocolError α :=
  (·.1) <$> StateT.run reader (.start bytes)

end Reader

/-- Writing at the end of a buffer, which may stop; what was written before stays there. -/
abbrev Writer := EStateM ProtocolError Bytes

/-- Puts bytes behind what the buffer holds. -/
def Writer.put (bytes : Bytes) : Writer Unit := modify fun buffer => buffer ++ bytes

namespace Header

def bytes (h : Header) : Bytes := [h.tag, h.version.byte]

/-- Writes the tag and then the version. -/
def write (h : Header) : Writer Unit := do
  Writer.put [h.tag]
  Writer.put [h.version.byte]

def kind (h : Header) : Except ProtocolError Kind := Kind.lookup h.tag

/-- Reads a header of the version that is spoken. -/
def read : Reader Header := do
  let tag ← Reader.lift (Wire.Cursor.u8 "header type")
  let version := Version.mk (← Reader.lift (Wire.Cursor.u8 "header version"))
  if version.isSupported then
    return ⟨tag, version⟩
  else
    throw (.unsupportedVersion version.byte)

/-- Reads a header that must have the tag of a kind; a wrong version wins over a wrong tag. -/
def readOf (kind : Kind) : Reader Header := do
  let header ← read
  if header.tag == kind.tag then
    return header
  else
    throw (.malformed (.wrongTag kind header.tag))

def decode (bytes : Bytes) : Except ProtocolError Header := read.run bytes

end Header

end HolePunch
