import HolePunch.Address.Basic
import HolePunch.Text.Digits
import HolePunch.Text.Parse

/-!
# Addresses from text

A reader takes what it can from the front of a text and gives back the rest. Octets have at most
three digits and no leading zero, groups at most four digits; ports and scopes may have any number
of leading zeros. `::` stands for at least one zero group, and the last two groups may be written
as an IPv4 address.
-/

namespace HolePunch.Address

open Text (Parse)
open Text.Parse (char whole)

/-- How a number is written: its base, the most digits, and whether it may start with a zero. -/
structure NumberForm where
  base : Nat
  maxDigits : Option Nat
  leadingZeros : Bool

def octetForm : NumberForm := ⟨10, some 3, false⟩

def groupForm : NumberForm := ⟨16, some 4, true⟩

def countForm : NumberForm := ⟨10, none, true⟩

def number (form : NumberForm) (bound : Nat) : Parse Nat := fun s =>
  let digits := s.takeWhile (Text.isDigitOf form.base)
  let value := Text.valueOf form.base digits
  if digits = [] then none
  else if form.maxDigits.any (· < digits.length) then none
  else if !form.leadingZeros && digits.head? == some '0' && 1 < digits.length then none
  else if value < bound then some (value, s.dropWhile (Text.isDigitOf form.base))
  else none

/-- A part of a list: a separator in front unless it is the first, then the part. -/
def separated {α : Type} (separator : Char) (first : Bool) (part : Parse α) : Parse α := fun s =>
  if first then part s else (char separator s).bind fun (_, rest) => part rest

def octet : Parse UInt8 := fun s =>
  (number octetForm 256 s).map fun (n, rest) => (UInt8.ofNat n, rest)

def ipv4 : Parse Ipv4 := fun s => do
  let (a, s) ← octet s
  let (b, s) ← separated '.' false octet s
  let (c, s) ← separated '.' false octet s
  let (d, s) ← separated '.' false octet s
  return (⟨a, b, c, d⟩, s)

def group : Parse UInt16 := fun s =>
  (number groupForm 65536 s).map fun (n, rest) => (UInt16.ofNat n, rest)

def groupsOfIpv4 (ip : Ipv4) : List UInt16 := Ipv6.pairs ip.octets

/-- A run of groups, as it was read. -/
structure Run where
  groups : List UInt16
  endsInIpv4 : Bool

/-- Up to `limit` groups; where two are still free, an IPv4 address ends the run. -/
def groups : (limit : Nat) → (first : Bool) → List Char → Run × List Char
  | 0, _, s => (⟨[], false⟩, s)
  | limit + 1, first, s =>
    let dotted := if limit = 0 then none else separated ':' first ipv4 s
    match dotted with
    | some (ip, rest) => (⟨groupsOfIpv4 ip, true⟩, rest)
    | none =>
      match separated ':' first group s with
      | some (g, rest) =>
        let (run, rest) := groups limit false rest
        (⟨g :: run.groups, run.endsInIpv4⟩, rest)
      | none => (⟨[], false⟩, s)

def ipv6 : Parse Ipv6 := fun s =>
  let (front, rest) := groups 8 true s
  if front.groups.length = 8 then
    (Ipv6.ofGroups? front.groups).map fun ip => (ip, rest)
  else if front.endsInIpv4 then
    none
  else do
    let ((), rest) ← char ':' rest
    let ((), rest) ← char ':' rest
    let (back, rest) := groups (7 - front.groups.length) true rest
    let zeros := List.replicate (8 - front.groups.length - back.groups.length) 0
    let ip ← Ipv6.ofGroups? (front.groups ++ zeros ++ back.groups)
    return (ip, rest)

def port : Parse UInt16 := fun s => do
  let ((), s) ← char ':' s
  let (n, s) ← number countForm 65536 s
  return (UInt16.ofNat n, s)

def scope : Parse UInt32 := fun s => do
  let ((), s) ← char '%' s
  let (n, s) ← number countForm UInt32.size s
  return (UInt32.ofNat n, s)

def socketV4 : Parse SocketAddr := fun s => do
  let (ip, s) ← ipv4 s
  let (p, s) ← port s
  return (.v4 ip p, s)

/-- A bracketed IPv6 address with a port, and perhaps a scope. -/
def socketV6 : Parse SocketAddr := fun s => do
  let ((), s) ← char '[' s
  let (ip, s) ← ipv6 s
  let (zone, s) := (scope s).getD (0, s)
  let ((), s) ← char ']' s
  let (p, s) ← port s
  return (.v6 ip p zone, s)

end HolePunch.Address

namespace HolePunch

def SocketAddr.ofText? (s : List Char) : Option SocketAddr :=
  match Address.socketV4 s with
  | some (addr, rest) => if rest = [] then some addr else none
  | none => Text.Parse.whole Address.socketV6 s

def Ip.ofText? (s : List Char) : Option Ip :=
  match Address.ipv4 s with
  | some (ip, rest) => if rest = [] then some (.v4 ip) else none
  | none => (Text.Parse.whole Address.ipv6 s).map .v6

end HolePunch
