import HolePunch.Message.Basic

/-!
# The wire form of a message

A header, then a session identifier, one endpoint, two endpoints or nothing, in a fixed size for
each kind. `Message.write` puts the parts into a buffer one behind the other. `Message.decode` asks
the registry for the kind of the first byte and leaves the rest to the decoder of that kind,
`Message.decodeAs`; bytes after the message are ignored.
-/

namespace HolePunch

namespace Body

def readSessionId (kind : Kind) : Reader SessionId := do
  return ⟨← Reader.lift (Wire.Cursor.u32 (kind.name ++ " session id"))⟩

def read : Kind → Reader Body
  | .idReq => return .idReq
  | .assId => return .assId (← readSessionId .assId)
  | .sReq => return .sReq (← readSessionId .sReq)
  | .sReqTcp => return .sReqTcp (← readSessionId .sReqTcp)
  | .cReq => return .cReq (← Endpoint.read "CReq")
  | .cReqTcp => do
    let source ← Endpoint.read "CReqTCP source"
    let destination ← Endpoint.read "CReqTCP destination"
    return .cReqTcp source destination

end Body

namespace Message

/-- Writes the message part by part. The addresses are asked for before anything is written. -/
def write (m : Message) : Writer Unit :=
  match m.body with
  | .idReq => m.header.write
  | .assId cid | .sReq cid | .sReqTcp cid => do
    m.header.write
    Writer.put (Wire.wordBytes32 cid.number)
  | .cReq addr => do
    let octets ← addr.requireOctets .cReq "punch"
    m.header.write
    Endpoint.write addr.port octets
  | .cReqTcp source destination => do
    let first ← source.requireOctets .cReqTcp "source"
    let second ← destination.requireOctets .cReqTcp "destination"
    m.header.write
    Endpoint.write source.port first
    Endpoint.write destination.port second

/-- Encodes at the end of a buffer: the buffer afterwards, also of a failure. -/
def encodeTo (m : Message) (buffer : Bytes) : Except ProtocolError Unit × Bytes :=
  match m.write buffer with
  | .ok () now => (.ok (), now)
  | .error e now => (.error e, now)

/-- The message as it travels, encoded in a buffer of its own. -/
def encode (m : Message) : Except ProtocolError Bytes :=
  match m.encodeTo [] with
  | (.ok (), written) => .ok written
  | (.error e, _) => .error e

def read (kind : Kind) : Reader Message := do
  let header ← Header.readOf kind
  let body ← Body.read kind
  return ⟨header.version, body⟩

def decodeAs (kind : Kind) (bytes : Bytes) : Except ProtocolError Message :=
  (read kind).run bytes

def decode (bytes : Bytes) : Except ProtocolError Message :=
  match bytes with
  | tag :: _ :: _ => do
    let kind ← Kind.lookup tag
    decodeAs kind bytes
  | _ => .error (.notReadEnough bytes.length)

end Message

end HolePunch
