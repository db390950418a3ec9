/-!
# Message kinds

The registry of the protocol: six kinds of message, each with its tag byte, its name, its fixed
size and the way it travels. `ofTag?_eq_some_iff` says that the registry finds a kind exactly by
its tag.
-/

namespace HolePunch

def headerSize : Nat := 2

def sessionIdSize : Nat := 4

/-- Bytes of an address, which is always in the IPv6 form. -/
def addressSize : Nat := 16

def endpointSize : Nat := 2 + addressSize

/-- Bytes of the longest message. -/
def maxPacketSize : Nat := headerSize + 2 * endpointSize

/-- The registered kinds of message, in the order of their tags. -/
inductive Kind where
  /-- The puncher tells a host its session identifier. -/
  | assId
  /-- A client asks for UDP punching towards the host of a session. -/
  | sReq
  /-- The puncher asks a peer to punch towards an address. -/
  | cReq
  /-- A host asks for a session identifier. -/
  | idReq
  /-- A client asks for TCP punching towards the host of a session. -/
  | sReqTcp
  /-- The puncher asks a peer to open a TCP connection between a pair of ports. -/
  | cReqTcp
  deriving DecidableEq, Repr

inductive Direction where
  | toPuncher
  | fromPuncher
  deriving DecidableEq, Repr

def Direction.text : Direction → String
  | .toPuncher => "to puncher"
  | .fromPuncher => "from puncher"

namespace Kind

/-- Every kind, ordered by tag. -/
def all : List Kind := [.assId, .sReq, .cReq, .idReq, .sReqTcp, .cReqTcp]

def tag : Kind → UInt8
  | .assId => 0x51
  | .sReq => 0x52
  | .cReq => 0x53
  | .idReq => 0x54
  | .sReqTcp => 0x62
  | .cReqTcp => 0x63

def name : Kind → String
  | .assId => "AssID"
  | .sReq => "SReq"
  | .cReq => "CReq"
  | .idReq => "IDReq"
  | .sReqTcp => "SReqTCP"
  | .cReqTcp => "CReqTCP"

def ofTag? (tag : UInt8) : Option Kind := all.find? (·.tag == tag)

def ofName? (name : String) : Option Kind := all.find? (·.name == name)

/-- True of a kind whose payload is a session identifier. -/
def carriesSessionId : Kind → Bool
  | .assId | .sReq | .sReqTcp => true
  | _ => false

def isTcp : Kind → Bool
  | .sReqTcp | .cReqTcp => true
  | _ => false

def direction : Kind → Direction
  | .idReq | .sReq | .sReqTcp => .toPuncher
  | .assId | .cReq | .cReqTcp => .fromPuncher

/-- Bytes of a message of the kind, header included. -/
def size : Kind → Nat
  | .idReq => headerSize
  | .assId | .sReq | .sReqTcp => headerSize + sessionIdSize
  | .cReq => headerSize + endpointSize
  | .cReqTcp => headerSize + 2 * endpointSize

theorem tag_injective {j k : Kind} (h : j.tag = k.tag) : j = k := by
  revert h; cases j <;> cases k <;> decide

@[simp] theorem ofTag?_tag (k : Kind) : ofTag? k.tag = some k := by cases k <;> decide

theorem ofTag?_eq_some_iff {t : UInt8} {k : Kind} : ofTag? t = some k ↔ t = k.tag := by
  constructor
  · intro h
    have := List.find?_some h
    exact (beq_iff_eq.1 this).symm
  · rintro rfl; exact ofTag?_tag k

theorem headerSize_le_size (k : Kind) : headerSize ≤ k.size := by cases k <;> decide

end Kind

end HolePunch
