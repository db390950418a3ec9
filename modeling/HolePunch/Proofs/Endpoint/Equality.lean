import HolePunch.Proofs.Message.RoundTrip

/-!
# Equality of endpoints

Endpoints are equal when their wide forms are the same. Narrowing an address keeps its wide form
(`Ip.narrow_eq_iff_wide`), and what a hasher is fed spells it (`Endpoint.hashInput_eq_iff_beq`), so
equality, hashing, and the socket address to connect to are one notion (`Endpoint.beq_coherent`).
-/

namespace HolePunch

open Wire

namespace Ip

theorem wide_narrow (ip : Ip) : ip.narrow.wide = ip.wide := by
  cases ip with
  | v4 ip => rfl
  | v6 ip =>
    rw [narrow]
    cases narrowed : ip.narrow? with
    | none => rfl
    | some v4 => exact (Ipv6.narrow?_eq_some_iff.mp narrowed).symm

theorem narrow_eq_iff_wide {x y : Ip} : x.narrow = y.narrow ↔ x.wide = y.wide := by
  constructor
  · intro same
    rw [← x.wide_narrow, ← y.wide_narrow, same]
  · intro same
    rw [← x.narrow_wide, ← y.narrow_wide, same]

theorem narrow_eq_v4_iff {ip : Ip} {v4 : Ipv4} : ip.narrow = .v4 v4 ↔ ip.wide = v4.widen :=
  narrow_eq_iff_wide (y := .v4 v4)

theorem exists_narrow_eq_v4_iff {ip : Ip} :
    (∃ v4, ip.narrow = .v4 v4) ↔ Ipv4.wideHead <+: ip.octets := by
  simp only [narrow_eq_v4_iff, ← ip.octets_wide]
  constructor
  · rintro ⟨v4, widened⟩
    rw [widened]
    exact ⟨v4.octets, rfl⟩
  · rintro ⟨tail, split⟩
    have four : (Ipv4.wideHead ++ tail).length = 16 := split ▸ ip.wide.size_octets
    match tail with
    | [a, b, c, d] => exact ⟨⟨a, b, c, d⟩, Ipv6.ext split.symm⟩
    | [] | [_] | [_, _] | [_, _, _] => cases four
    | _ :: _ :: _ :: _ :: _ :: tail =>
      rw [List.length_append] at four
      simp only [Ipv4.wideHead, List.length_cons, List.length_nil] at four
      omega

end Ip

namespace SocketAddr

theorem of_inj {x y : Ip} {p q : UInt16} : of x p = of y q ↔ x = y ∧ p = q := by
  cases x <;> cases y <;> simp [of]

theorem of_eq_v4_iff {ip : Ip} {p q : UInt16} {v4 : Ipv4} :
    of ip p = .v4 v4 q ↔ ip = .v4 v4 ∧ p = q :=
  of_inj (y := .v4 v4)

theorem ofSocketAddr_of (ip : Ip) (port : UInt16) :
    Endpoint.ofSocketAddr (of ip port) = ⟨port, some ip⟩ := by
  cases ip <;> rfl

end SocketAddr

namespace Endpoint

variable {a b e : Endpoint}

theorem beq_iff_socketAddr :
    (a == b) = true ↔ a.port = b.port ∧ a.socketAddr? = b.socketAddr? := by
  rw [beq_iff_wide]
  constructor
  · intro same
    refine ⟨(mk.inj same).1, ?_⟩
    rw [← a.socketAddr?_wide, ← b.socketAddr?_wide, same]
  · obtain ⟨port, x⟩ := a
    obtain ⟨port', y⟩ := b
    rintro ⟨ports, addresses⟩
    cases ports
    cases x with
    | none =>
      cases y with
      | none => rfl
      | some y => cases addresses
    | some x =>
      cases y with
      | none => cases addresses
      | some y =>
        have narrowed := (SocketAddr.of_inj.mp (Option.some.inj addresses)).1
        have widened := Ip.narrow_eq_iff_wide.mp narrowed
        exact congrArg (fun ip => mk port (some (.v6 ip))) widened

theorem hashInput_eq_iff_beq : a.hashInput = b.hashInput ↔ (a == b) = true := by
  rw [beq_iff]
  constructor
  · intro same
    have two : ∀ w : UInt16, (wordBytes16 w).length = 2 := length_wordBytes16
    obtain ⟨ports, addresses⟩ := List.append_inj same ((two _).trans (two _).symm)
    have port := (wordBytes16_eq_iff (two b.port)).mp ports
    have port' := (wordBytes16_eq_iff (two b.port)).mp rfl
    refine ⟨UInt16.toNat_inj.mp (port.trans port'.symm), ?_⟩
    -- The first byte of the word tells an address that is set from one that is not.
    cases left : a.octets with
    | none =>
      cases right : b.octets with
      | none => rfl
      | some y =>
        simp only [left, right] at addresses
        exact absurd (List.cons.inj addresses).1 (by decide)
    | some x =>
      cases right : b.octets with
      | none =>
        simp only [left, right] at addresses
        exact absurd (List.cons.inj addresses).1 (by decide)
      | some y =>
        simp only [left, right] at addresses
        have heads : (leBytes 8 1 ++ leBytes 8 x.length).length =
            (leBytes 8 1 ++ leBytes 8 y.length).length := by
          simp only [List.length_append, length_leBytes]
        exact congrArg some (List.append_inj addresses heads).2
  · rintro ⟨ports, octets⟩
    rw [hashInput, hashInput, ports, octets]

instance : EquivBEq Endpoint where
  rfl := beq_iff_wide.mpr rfl
  symm equal := beq_iff_wide.mpr (beq_iff_wide.mp equal).symm
  trans left right := beq_iff_wide.mpr ((beq_iff_wide.mp left).trans (beq_iff_wide.mp right))

instance : LawfulHashable Endpoint where
  hash_eq _ _ equal := congrArg (hash (α := Bytes)) (hashInput_eq_iff_beq.mpr equal)

theorem isIpv4_iff_narrow : e.isIpv4 = true ↔ ∃ ip v4, e.ip = some ip ∧ ip.narrow = .v4 v4 := by
  obtain ⟨port, ip⟩ := e
  match ip with
  | none => exact ⟨nofun, fun ⟨_, _, same, _⟩ => nomatch same⟩
  | some (.v4 v4) => exact ⟨fun _ => ⟨_, v4, rfl, rfl⟩, fun _ => rfl⟩
  | some (.v6 ip) =>
    simp only [isIpv4, Option.some.injEq, exists_and_left, exists_eq_left', Ip.narrow_eq_v4_iff,
      Option.isSome_iff_exists, Ipv6.narrow?_eq_some_iff, Ip.wide]

theorem isIpv4_iff_octets :
    e.isIpv4 = true ↔ ∃ octets, e.octets = some octets ∧ Ipv4.wideHead <+: octets := by
  simp only [isIpv4_iff_narrow, exists_and_left, Ip.exists_narrow_eq_v4_iff, octets,
    Option.map_eq_some_iff]
  constructor
  · rintro ⟨ip, isIp, head⟩
    exact ⟨_, ⟨ip, isIp, rfl⟩, head⟩
  · rintro ⟨_, ⟨ip, isIp, rfl⟩, head⟩
    exact ⟨ip, isIp, head⟩

theorem isIpv4_iff_socketAddr :
    e.isIpv4 = true ↔ ∃ v4 port, e.socketAddr? = some (.v4 v4 port) := by
  simp only [isIpv4_iff_narrow, socketAddr?, Option.map_eq_some_iff, SocketAddr.of_eq_v4_iff]
  constructor
  · rintro ⟨ip, v4, isIp, narrowed⟩
    exact ⟨v4, e.port, ip, isIp, narrowed, rfl⟩
  · rintro ⟨v4, _, ip, isIp, narrowed, -⟩
    exact ⟨ip, v4, isIp, narrowed⟩

theorem isIpv4_eq_of_beq (equal : (a == b) = true) : a.isIpv4 = b.isIpv4 := by
  rw [Bool.eq_iff_iff, isIpv4_iff_socketAddr, isIpv4_iff_socketAddr,
    (beq_iff_socketAddr.mp equal).2]

theorem isSet_eq_isSome_octets (e : Endpoint) : e.isSet = e.octets.isSome :=
  Option.isSome_map.symm

theorem ofSocketAddr_socketAddr? (set : e.isSet = true) :
    ∃ addr, e.socketAddr? = some addr ∧ (ofSocketAddr addr == e) = true := by
  obtain ⟨ip, isIp⟩ := Option.isSome_iff_exists.mp set
  refine ⟨.of ip.narrow e.port, by rw [socketAddr?, isIp]; rfl, ?_⟩
  rw [beq_iff_wide, SocketAddr.ofSocketAddr_of, wide, wide, isIp, Option.map_some, Option.map_some,
    ip.wide_narrow]

/-- Equality is the same port and the same socket address, and the same input to a hasher; it is an
equivalence, and equal endpoints look alike. IPv4 endpoints are those whose address is the IPv6 form
of an IPv4 address, and those that are connected to over IPv4, and the socket address of an endpoint
leads back to it. -/
theorem beq_coherent (a b : Endpoint) :
    ((a == b) = true ↔ a.port = b.port ∧ a.socketAddr? = b.socketAddr?) ∧
    ((a == b) = true ↔ a.hashInput = b.hashInput) ∧
    Equivalence (fun x y : Endpoint => (x == y) = true) ∧
    ((a == b) = true →
      a.octets = b.octets ∧ a.isSet = b.isSet ∧ a.isIpv4 = b.isIpv4 ∧ a.text = b.text ∧
        hash a = hash b) ∧
    (a.isIpv4 = true ↔
      ∃ octets, a.octets = some octets ∧ List.replicate 10 0 ++ [0xff, 0xff] <+: octets) ∧
    (a.isIpv4 = true ↔ ∃ ip port, a.socketAddr? = some (.v4 ip port)) ∧
    (a.isSet = true → ∃ addr, a.socketAddr? = some addr ∧ (ofSocketAddr addr == a) = true) := by
  refine ⟨beq_iff_socketAddr, hashInput_eq_iff_beq.symm,
    ⟨fun _ => BEq.rfl, BEq.symm, BEq.trans⟩, ?_, isIpv4_iff_octets, isIpv4_iff_socketAddr,
    ofSocketAddr_socketAddr?⟩
  intro equal
  have octets : a.octets = b.octets := (beq_iff.mp equal).2
  have wides : a.wide = b.wide := beq_iff_wide.mp equal
  refine ⟨octets, ?_, isIpv4_eq_of_beq equal, ?_, hash_eq equal⟩
  · rw [isSet_eq_isSome_octets, isSet_eq_isSome_octets, octets]
  · rw [← a.text_wide, ← b.text_wide, wides]

/-- An IPv4 address behind twelve zero bytes stays an IPv6 address. -/
example : isIpv4 ⟨80, some (.v6 ⟨List.replicate 12 0 ++ [192, 0, 2, 7], rfl⟩)⟩ = false := rfl

end Endpoint

end HolePunch
