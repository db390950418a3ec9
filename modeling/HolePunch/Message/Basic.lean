import HolePunch.Endpoint

/-!
# Messages

A message is a version and a body, and the body decides the kind. Messages are equal (`==`) when
kind, version, session and the wire forms of their endpoints are.
-/

namespace HolePunch

structure SessionId where
  number : UInt32
  deriving DecidableEq, Repr, Hashable

inductive Body where
  | idReq
  | assId (cid : SessionId)
  | sReq (cid : SessionId)
  | sReqTcp (cid : SessionId)
  | cReq (addr : Endpoint)
  | cReqTcp (source destination : Endpoint)
  deriving BEq, Hashable, Repr

/-- A message: the version that its header shows, and what it says. -/
structure Message where
  version : Version
  body : Body
  deriving BEq, Hashable, Repr

namespace Body

def kind : Body → Kind
  | .idReq => .idReq
  | .assId _ => .assId
  | .sReq _ => .sReq
  | .sReqTcp _ => .sReqTcp
  | .cReq _ => .cReq
  | .cReqTcp _ _ => .cReqTcp

def sessionId? : Body → Option SessionId
  | .assId cid | .sReq cid | .sReqTcp cid => some cid
  | _ => none

/-- The endpoints of the body with the words for them, in the order in which they travel. -/
def endpoints : Body → List (String × Endpoint)
  | .cReq addr => [("punch", addr)]
  | .cReqTcp source destination => [("source", source), ("destination", destination)]
  | _ => []

/-- A pair of endpoints as the other peer sees it; other bodies stay. -/
def swapped : Body → Body
  | .cReqTcp source destination => .cReqTcp destination source
  | body => body

end Body

namespace Message

/-- A message of the version that is spoken. -/
def new (body : Body) : Message := ⟨.newest, body⟩

def kind (m : Message) : Kind := m.body.kind

def sessionId? (m : Message) : Option SessionId := m.body.sessionId?

def withVersion (m : Message) (version : Version) : Message := { m with version }

def swapped (m : Message) : Message := { m with body := m.body.swapped }

/-- A change to a message that leaves its kind. -/
inductive Edit where
  | setVersion (version : Version)
  | swap
  deriving DecidableEq, Repr

/-- The message after a change. -/
def edit (m : Message) : Edit → Message
  | .setVersion version => m.withVersion version
  | .swap => m.swapped

def size (m : Message) : Nat := m.kind.size

def header (m : Message) : Header := ⟨m.kind.tag, m.version⟩

/-- The body as it is printed, with a blank in front of each part. -/
def bodyText : Body → List Char
  | .idReq => []
  | .assId cid | .sReq cid | .sReqTcp cid => " cid=".toList ++ Text.decimal cid.number.toNat
  | .cReq addr => " addr=".toList ++ addr.text
  | .cReqTcp source destination =>
    " source=".toList ++ source.text ++ " destination=".toList ++ destination.text

/-- The message as it is printed: kind, version, and what it says. -/
def text (m : Message) : List Char :=
  m.kind.name.toList ++ ' ' :: m.version.text ++ bodyText m.body

end Message

end HolePunch
