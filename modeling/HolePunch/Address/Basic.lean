import HolePunch.Wire.Word

/-!
# Internet addresses

IPv4 and IPv6 addresses, and socket addresses made of an address and a port. An IPv4 address has an
IPv6 form, `::ffff:a.b.c.d`: `widen` goes there and `narrow?` comes back.
`narrow?_eq_some_iff` says that it comes back from nowhere else.
-/

namespace HolePunch

structure Ipv4 where
  a : UInt8
  b : UInt8
  c : UInt8
  d : UInt8
  deriving DecidableEq, Repr, Hashable

structure Ipv6 where
  octets : Bytes
  size_octets : octets.length = 16
  deriving DecidableEq, Repr

namespace Ipv4

def octets (ip : Ipv4) : Bytes := [ip.a, ip.b, ip.c, ip.d]

def wideHead : Bytes := [0, 0, 0, 0, 0, 0, 0, 0, 0, 0, 0xff, 0xff]

/-- The IPv6 form, `::ffff:a.b.c.d`. -/
def widen (ip : Ipv4) : Ipv6 := ⟨wideHead ++ ip.octets, rfl⟩

end Ipv4

namespace Ipv6

@[ext] theorem ext {x y : Ipv6} (h : x.octets = y.octets) : x = y := by
  cases x; cases y; cases h; rfl

/-- The address `::`, which stands for any. -/
def unspecified : Ipv6 := ⟨List.replicate 16 0, rfl⟩

/-- The sixteen bytes in pairs, the high byte first. -/
def pairs : Bytes → List UInt16
  | high :: low :: rest => UInt16.ofNat (256 * high.toNat + low.toNat) :: pairs rest
  | _ => []

def groups (ip : Ipv6) : List UInt16 := pairs ip.octets

/-- The two bytes of a group, the high byte first. -/
def groupBytes (g : UInt16) : Bytes := [UInt8.ofNat (g.toNat / 256), UInt8.ofNat g.toNat]

def ofGroups? (groups : List UInt16) : Option Ipv6 :=
  if h : (groups.flatMap groupBytes).length = 16 then some ⟨groups.flatMap groupBytes, h⟩ else none

def narrow? (ip : Ipv6) : Option Ipv4 :=
  if ip.octets.take 12 = Ipv4.wideHead then
    match ip.octets.drop 12 with
    | [a, b, c, d] => some ⟨a, b, c, d⟩
    | _ => none
  else
    none

theorem narrow?_widen (ip : Ipv4) : ip.widen.narrow? = some ip := by
  simp [narrow?, Ipv4.widen, Ipv4.wideHead, Ipv4.octets]

theorem narrow?_eq_some_iff {ip : Ipv6} {v4 : Ipv4} : ip.narrow? = some v4 ↔ ip = v4.widen := by
  constructor
  · intro h
    unfold narrow? at h
    split at h
    · rename_i head
      split at h
      · rename_i a b c d tail
        cases h
        ext1
        rw [← List.take_append_drop 12 ip.octets, head, tail]
        rfl
      · cases h
    · cases h
  · rintro rfl
    exact narrow?_widen v4

end Ipv6

inductive Ip where
  | v4 (ip : Ipv4)
  | v6 (ip : Ipv6)
  deriving DecidableEq, Repr

namespace Ip

def octets : Ip → Bytes
  | .v4 ip => ip.widen.octets
  | .v6 ip => ip.octets

def narrow : Ip → Ip
  | .v4 ip => .v4 ip
  | .v6 ip => (ip.narrow?.map Ip.v4).getD (.v6 ip)

@[simp] theorem length_octets (ip : Ip) : ip.octets.length = 16 := by
  cases ip with
  | v4 ip => exact ip.widen.size_octets
  | v6 ip => exact ip.size_octets

end Ip

/-- An address with a port; an IPv6 address may have a scope, where zero is none. It has no flow label,
which the text of an address does not show. -/
inductive SocketAddr where
  | v4 (ip : Ipv4) (port : UInt16)
  | v6 (ip : Ipv6) (port : UInt16) (scope : UInt32)
  deriving DecidableEq, Repr

namespace SocketAddr

def ip : SocketAddr → Ip
  | .v4 ip _ => .v4 ip
  | .v6 ip _ _ => .v6 ip

def port : SocketAddr → UInt16
  | .v4 _ port => port
  | .v6 _ port _ => port

/-- An address and a port, without a scope. -/
def of : Ip → UInt16 → SocketAddr
  | .v4 ip, port => .v4 ip port
  | .v6 ip, port => .v6 ip port 0

end SocketAddr

end HolePunch
