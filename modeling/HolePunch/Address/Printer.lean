import HolePunch.Address.Basic
import HolePunch.Text.Digits

/-!
# Addresses as text

An IPv4 address is four decimal numbers. An IPv6 address is its groups in hexadecimal, where the
longest run of at least two zero groups, the first of equals, is left out between two colons; only
the IPv6 form of an IPv4 address ends in dots. In a socket address the former stands bare and the
latter in brackets.
-/

namespace HolePunch

namespace Ipv4

def text (ip : Ipv4) : List Char :=
  Text.decimal ip.a.toNat ++ '.' :: Text.decimal ip.b.toNat ++
    '.' :: Text.decimal ip.c.toNat ++ '.' :: Text.decimal ip.d.toNat

end Ipv4

namespace Ipv6

/-- How many of the groups from an index on are zero before the first that is not. -/
def zeroRun (groups : List UInt16) (i : Nat) : Nat :=
  ((groups.drop i).takeWhile (· == 0)).length

/-- The start and the length of the longest run of zero groups, the first of equals. -/
def longestZeroRun (groups : List UInt16) : Nat × Nat :=
  (List.range groups.length).foldl
    (fun best i => if best.2 < zeroRun groups i then (i, zeroRun groups i) else best) (0, 0)

def groupsText (groups : List UInt16) : List Char :=
  [':'].intercalate (groups.map fun g => Text.hexNat g.toNat)

def plainText (groups : List UInt16) : List Char :=
  let (start, length) := longestZeroRun groups
  if 1 < length then
    groupsText (groups.take start) ++ ':' :: ':' :: groupsText (groups.drop (start + length))
  else
    groupsText groups

def text (ip : Ipv6) : List Char :=
  match ip.narrow? with
  | some v4 => "::ffff:".toList ++ v4.text
  | none => plainText ip.groups

end Ipv6

def Ip.text : Ip → List Char
  | .v4 ip => ip.text
  | .v6 ip => ip.text

/-- The text of the address and the port, with a scope that is not zero after a percent sign. -/
def SocketAddr.text : SocketAddr → List Char
  | .v4 ip port => ip.text ++ ':' :: Text.decimal port.toNat
  | .v6 ip port scope =>
    let scopeText := if scope = 0 then [] else '%' :: Text.decimal scope.toNat
    '[' :: ip.text ++ scopeText ++ ']' :: ':' :: Text.decimal port.toNat

end HolePunch
