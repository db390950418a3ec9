import HolePunch.Message.Codec
import HolePunch.Proofs.Wire.Reading

/-!
# The layout of messages

`Kind.layout` lists the fields behind the header with their places in the message.
`Message.Spelled` says which bytes at those places spell a message, and `Message.Spelled.unique`
that they spell no other. `Body.reads` ties the reader of a body to the layout.
-/

namespace HolePunch

open Wire

namespace Kind

/-- The fields behind the header, in the order in which they travel. -/
def layout : Kind → List Field
  | .idReq => []
  | .assId => [⟨"AssID session id", 2, 4⟩]
  | .sReq => [⟨"SReq session id", 2, 4⟩]
  | .sReqTcp => [⟨"SReqTCP session id", 2, 4⟩]
  | .cReq => [⟨"CReq port", 2, 2⟩, ⟨"CReq address", 4, 16⟩]
  | .cReqTcp =>
    [⟨"CReqTCP source port", 2, 2⟩, ⟨"CReqTCP source address", 4, 16⟩,
      ⟨"CReqTCP destination port", 20, 2⟩, ⟨"CReqTCP destination address", 22, 16⟩]

theorem firstOver_layout_eq_none_iff {b : Bytes} {kind : Kind} (header : headerSize ≤ b.length) :
    Field.firstOver b kind.layout = none ↔ kind.size ≤ b.length := by
  cases kind <;>
    simp [Field.firstOver, Field.runsOver, layout, size, headerSize, sessionIdSize, endpointSize,
      addressSize] at header ⊢ <;> omega

theorem lookup_eq_error {tag : UInt8} (unregistered : ∀ kind : Kind, kind.tag ≠ tag) :
    lookup tag = .error (.unknownType tag) := by
  have absent : ofTag? tag = none := by
    rw [Option.eq_none_iff_forall_ne_some]
    intro kind found
    exact unregistered kind (ofTag?_eq_some_iff.mp found).symm
  simp [lookup, absent]

@[simp] theorem lookup_tag (kind : Kind) : lookup kind.tag = .ok kind := by simp [lookup]

end Kind

/-! ### What the bytes of a body spell -/

namespace Endpoint

/-- The bytes from an offset on are the port, low byte first, and the address of an endpoint,
which is in the IPv6 form. -/
def Spelled (b : Bytes) (offset : Nat) (e : Endpoint) : Prop :=
  e.port.toNat = leNat (span b offset 2) ∧
    ∃ ip : Ipv6, e.ip = some (.v6 ip) ∧ ip.octets = span b (offset + 2) 16

theorem Spelled.unique {b : Bytes} {offset : Nat} {e f : Endpoint} (left : e.Spelled b offset)
    (right : f.Spelled b offset) : e = f := by
  obtain ⟨port, ip, isIp, octets⟩ := left
  obtain ⟨port', ip', isIp', octets'⟩ := right
  have samePort : e.port = f.port := UInt16.toNat_inj.mp (port.trans port'.symm)
  have sameIp : ip = ip' := Ipv6.ext (octets.trans octets'.symm)
  obtain ⟨_, _⟩ := e
  obtain ⟨_, _⟩ := f
  simp_all only

theorem reads (owner : String) (b : Bytes) (offset : Nat) :
    Reads (read owner) b offset
      [⟨owner ++ " port", offset, 2⟩, ⟨owner ++ " address", offset + 2, 16⟩]
      (Spelled b offset) := by
  refine (Reads.u16 (owner ++ " port")).bind fun port spelled => ?_
  refine (Reads.bytes (owner ++ " address") (by decide)).map fun octets same => ?_
  exact ⟨spelled, ⟨octets.val, octets.property⟩, rfl, same⟩

end Endpoint

namespace Body

def Spelled (b : Bytes) : Body → Prop
  | .idReq => True
  | .assId cid | .sReq cid | .sReqTcp cid => cid.number.toNat = leNat (span b 2 4)
  | .cReq addr => addr.Spelled b 2
  | .cReqTcp source destination => source.Spelled b 2 ∧ destination.Spelled b 20

theorem session_unique {b : Bytes} {x y : SessionId} (left : x.number.toNat = leNat (span b 2 4))
    (right : y.number.toNat = leNat (span b 2 4)) : x = y := by
  obtain ⟨x⟩ := x
  obtain ⟨y⟩ := y
  exact congrArg SessionId.mk (UInt32.toNat_inj.mp (left.trans right.symm))

theorem Spelled.unique {b : Bytes} {x y : Body} (same : x.kind = y.kind) (left : x.Spelled b)
    (right : y.Spelled b) : x = y := by
  cases x <;> cases y <;> try contradiction
  case idReq => rfl
  case assId => exact congrArg assId (session_unique left right)
  case sReq => exact congrArg sReq (session_unique left right)
  case sReqTcp => exact congrArg sReqTcp (session_unique left right)
  case cReq => exact congrArg cReq (Endpoint.Spelled.unique left right)
  case cReqTcp => exact congr (congrArg cReqTcp (left.1.unique right.1)) (left.2.unique right.2)

theorem reads_session (kind : Kind) (b : Bytes) (offset : Nat) :
    Reads (readSessionId kind) b offset [⟨kind.name ++ " session id", offset, 4⟩]
      fun cid => cid.number.toNat = leNat (span b offset 4) :=
  (Reads.u32 (kind.name ++ " session id")).map fun _ spelled => spelled

theorem reads (kind : Kind) (b : Bytes) :
    Reads (read kind) b headerSize kind.layout fun body => body.kind = kind ∧ body.Spelled b := by
  cases kind with
  | idReq => exact Reads.pure ⟨rfl, trivial⟩
  | assId => exact (reads_session .assId b 2).map fun _ spelled => ⟨rfl, spelled⟩
  | sReq => exact (reads_session .sReq b 2).map fun _ spelled => ⟨rfl, spelled⟩
  | sReqTcp => exact (reads_session .sReqTcp b 2).map fun _ spelled => ⟨rfl, spelled⟩
  | cReq => exact (Endpoint.reads "CReq" b 2).map fun _ spelled => ⟨rfl, spelled⟩
  | cReqTcp =>
    refine (Endpoint.reads "CReqTCP source" b 2).bind fun source first => ?_
    refine (Endpoint.reads "CReqTCP destination" b 20).map fun destination second => ?_
    exact ⟨rfl, first, second⟩

end Body

namespace Message

/-- The message starts the buffer, its version is the one that is spoken, and every field is where
the layout has it. -/
structure Spelled (b : Bytes) (m : Message) : Prop where
  version : m.version = .newest
  head : b.take headerSize = [m.kind.tag, 1]
  whole : m.size ≤ b.length
  body : m.body.Spelled b

theorem Spelled.unique {b : Bytes} {m n : Message} (left : m.Spelled b) (right : n.Spelled b) :
    m = n := by
  have tags := left.head.symm.trans right.head
  have kinds : m.kind = n.kind := Kind.tag_injective (List.cons.inj tags).1
  have bodies : m.body = n.body := left.body.unique kinds right.body
  have versions : m.version = n.version := left.version.trans right.version.symm
  obtain ⟨_, _⟩ := m
  obtain ⟨_, _⟩ := n
  simp_all only

end Message

end HolePunch
