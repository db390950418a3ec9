import HolePunch.Frame.Transport
import HolePunch.Inspect.Failure

/-!
# Offline commands

Encoding a message that was asked for, decoding hexadecimal text, listing the registry, and dumping
a capture line by line.
-/

namespace HolePunch

/-- A message as it is asked for: endpoints are socket addresses, so they are always set. -/
inductive Request where
  | idReq
  | assId (cid : UInt32)
  | sReq (cid : UInt32)
  | sReqTcp (cid : UInt32)
  | cReq (addr : SocketAddr)
  | cReqTcp (source destination : SocketAddr)
  deriving DecidableEq, Repr

namespace Request

def body : Request → Body
  | .idReq => .idReq
  | .assId cid => .assId ⟨cid⟩
  | .sReq cid => .sReq ⟨cid⟩
  | .sReqTcp cid => .sReqTcp ⟨cid⟩
  | .cReq addr => .cReq (.ofSocketAddr addr)
  | .cReqTcp source destination => .cReqTcp (.ofSocketAddr source) (.ofSocketAddr destination)

/-- The message that is asked for, under a version. -/
def message (request : Request) (version : Version) : Message := ⟨version, request.body⟩

end Request

namespace Inspect

def encodeHex (request : Request) (version : Version) : Except Failure (List Char) :=
  match (request.message version).encode with
  | .ok bytes => .ok (HexText.encode bytes)
  | .error e => .error (.unencodable request.body.kind e)

def decodeHex (text : List Char) : Except Failure Message :=
  match HexText.decode (HexText.clean text) with
  | .error e => .error (.notHex e)
  | .ok bytes => (Message.decode bytes).mapError .undecodable

/-- A row of the table of kinds: tag, name, size and direction. -/
def tableRow (tag name size direction : String) : List Char :=
  Text.padRight 6 tag.toList ++ ' ' :: Text.padRight 8 name.toList ++
    ' ' :: Text.padLeft 4 size.toList ++ ' ' :: ' ' :: direction.toList ++ ['\n']

def kindRow (kind : Kind) : List Char :=
  tableRow (Text.tagText kind.tag) kind.name (toString kind.size) kind.direction.text

def table : List Char :=
  tableRow "TAG" "NAME" "SIZE" "DIRECTION" ++ Kind.all.flatMap kindRow

/-- The line for a message of a capture: its number in a column of four, and the message. -/
def dumpLine (number : Nat) (m : Message) : List Char :=
  Text.padLeft 4 (Text.decimal number) ++ ' ' :: ' ' :: m.text ++ ['\n']

/-- What a dump prints, and how it ends: with a count, or with a failure. -/
structure Dump where
  output : List Char
  result : Except Failure Nat

/-- Prints items from a number on, up to the first that is an error. -/
def dumpItems (number : Nat) : List (Except ReadError Message) → Dump
  | [] => ⟨[], .ok (number - 1)⟩
  | .error e :: _ => ⟨[], .error (.undecodableAt number e)⟩
  | .ok m :: later =>
    let rest := dumpItems (number + 1) later
    ⟨dumpLine number m ++ rest.output, rest.result⟩

/-- Prints every message of a capture; a capture is a stream, whatever it was taken from. -/
def dump (source : Source) : Dump := dumpItems 1 (Frame.readAll .stream [] source).items

end Inspect

end HolePunch
