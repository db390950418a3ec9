import HolePunch.Address.Parser
import HolePunch.Address.Printer
import HolePunch.Header

/-!
# Endpoints

A port and perhaps an address: where a peer should try to connect. On the wire every address is in
the IPv6 form, and two endpoints are equal (`==`) when their wire forms are, so that an IPv4
endpoint equals what comes back after sending it.
-/

namespace HolePunch

/-- A port with an address, or without one while the address is not set. -/
structure Endpoint where
  port : UInt16
  ip : Option Ip
  deriving Repr

namespace Endpoint

/-- A port without an address. -/
def unset (port : UInt16) : Endpoint := ⟨port, none⟩

/-- The endpoint of a socket address; a scope is dropped. -/
def ofSocketAddr (addr : SocketAddr) : Endpoint := ⟨addr.port, some addr.ip⟩

def ofText? (s : List Char) : Option Endpoint := (SocketAddr.ofText? s).map ofSocketAddr

def octets (e : Endpoint) : Option Bytes := e.ip.map Ip.octets

def isSet (e : Endpoint) : Bool := e.ip.isSome

def isIpv4 (e : Endpoint) : Bool :=
  match e.ip with
  | some (.v4 _) => true
  | some (.v6 ip) => ip.narrow?.isSome
  | none => false

/-- Where to connect to: the IPv6 form of an IPv4 address is narrowed to it. -/
def socketAddr? (e : Endpoint) : Option SocketAddr :=
  e.ip.map fun ip => SocketAddr.of ip.narrow e.port

/-- The parts of an endpoint that equality looks at. -/
def identity (e : Endpoint) : UInt16 × Option Bytes := (e.port, e.octets)

instance : BEq Endpoint where
  beq a b := a.identity == b.identity

/-- What a hasher is fed: the port, a word for whether there is an address, and the address behind
its length. -/
def hashInput (e : Endpoint) : Bytes :=
  Wire.wordBytes16 e.port ++
    match e.octets with
    | none => Wire.leBytes 8 0
    | some octets => Wire.leBytes 8 1 ++ Wire.leBytes 8 octets.length ++ octets

instance : Hashable Endpoint where
  hash e := hash e.hashInput

theorem beq_iff {a b : Endpoint} : (a == b) = true ↔ a.port = b.port ∧ a.octets = b.octets := by
  show (a.identity == b.identity) = true ↔ _
  simp [identity]

def text (e : Endpoint) : List Char :=
  match e.socketAddr? with
  | some addr => addr.text
  | none => "<unset>:".toList ++ Text.decimal e.port.toNat

/-- The address as it travels; one that is not set is named in the error. -/
def requireOctets (e : Endpoint) (kind : Kind) (field : String) : Writer Bytes :=
  match e.octets with
  | some octets => return octets
  | none => throw (.unsetAddress kind field)

/-- Writes a port and then an address. -/
def write (port : UInt16) (octets : Bytes) : Writer Unit := do
  Writer.put (Wire.wordBytes16 port)
  Writer.put octets

/-- Reads a port and an address; errors name the fields after their owner. -/
def read (owner : String) : Reader Endpoint := do
  let port ← Reader.lift (Wire.Cursor.u16 (owner ++ " port"))
  let octets ← Reader.lift (Wire.Cursor.take 16 (owner ++ " address"))
  return ⟨port, some (.v6 ⟨octets.val, octets.property⟩)⟩

end Endpoint

end HolePunch
