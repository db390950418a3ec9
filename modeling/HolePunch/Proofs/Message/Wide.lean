import HolePunch.Proofs.Message.Writing

/-!
# The wide form

The wide form of a message has every address in its IPv6 form. `Message.beq_iff_wide` shows that
messages are equal when their wide forms are the same; a message and its wide form are written and
printed alike.
-/

namespace HolePunch

namespace Ip

def wide : Ip → Ipv6
  | .v4 ip => ip.widen
  | .v6 ip => ip

theorem octets_wide (ip : Ip) : ip.wide.octets = ip.octets := by cases ip <;> rfl

theorem narrow_wide (ip : Ip) : narrow (.v6 ip.wide) = ip.narrow := by
  cases ip with
  | v4 ip => simp only [narrow, wide, Ipv6.narrow?_widen, Option.map_some, Option.getD_some]
  | v6 ip => rfl

end Ip

namespace Endpoint

def wide (e : Endpoint) : Endpoint := ⟨e.port, e.ip.map fun ip => .v6 ip.wide⟩

@[simp] theorem octets_wide (e : Endpoint) : e.wide.octets = e.octets := by
  simp only [wide, octets, Option.map_map]
  congr 1
  funext ip
  exact ip.octets_wide

@[simp] theorem wide_wide (e : Endpoint) : e.wide.wide = e.wide := by
  simp only [wide, Option.map_map]
  rfl

theorem bytes_wide (e : Endpoint) (kind : Kind) (field : String) :
    e.wide.bytes kind field = e.bytes kind field := by
  simp only [bytes, octets_wide]
  rfl

theorem socketAddr?_wide (e : Endpoint) : e.wide.socketAddr? = e.socketAddr? := by
  simp only [wide, socketAddr?, Option.map_map]
  congr 1
  funext ip
  exact congrArg (SocketAddr.of · e.port) ip.narrow_wide

theorem text_wide (e : Endpoint) : e.wide.text = e.text := by
  simp only [text, socketAddr?_wide]
  rfl

theorem beq_iff_wide {a b : Endpoint} : (a == b) = true ↔ a.wide = b.wide := by
  rw [beq_iff]
  constructor
  · rintro ⟨ports, octets⟩
    have forms : ∀ e : Endpoint, (e.ip.map Ip.wide).map Ipv6.octets = e.octets := by
      intro e
      rw [Option.map_map]
      exact congrArg (e.ip.map ·) (funext Ip.octets_wide)
    rw [← forms a, ← forms b] at octets
    have ips := congrArg (Option.map Ip.v6)
      (Option.map_injective (fun _ _ => Ipv6.ext) octets)
    rw [Option.map_map, Option.map_map] at ips
    exact Endpoint.mk.injEq .. ▸ ⟨ports, ips⟩
  · intro same
    have octets := congrArg Endpoint.octets same
    rw [octets_wide, octets_wide] at octets
    exact ⟨(Endpoint.mk.inj same).1, octets⟩

end Endpoint

namespace Body

def wide : Body → Body
  | .cReq addr => .cReq addr.wide
  | .cReqTcp source destination => .cReqTcp source.wide destination.wide
  | body => body

@[simp] theorem kind_wide (body : Body) : body.wide.kind = body.kind := by cases body <;> rfl

@[simp] theorem wide_wide (body : Body) : body.wide.wide = body.wide := by
  cases body <;> simp [wide]

theorem endpoints_wide (body : Body) :
    body.wide.endpoints = body.endpoints.map fun named => (named.1, named.2.wide) := by
  cases body <;> rfl

theorem bytes_wide (body : Body) : body.wide.bytes = body.bytes := by
  cases body <;> simp only [wide, bytes, Endpoint.bytes_wide]

theorem text_wide (body : Body) : Message.bodyText body.wide = Message.bodyText body := by
  cases body with
  | cReq addr => exact congrArg (" addr=".toList ++ ·) addr.text_wide
  | cReqTcp source destination =>
    change " source=".toList ++ source.wide.text ++ " destination=".toList ++
      destination.wide.text = _
    rw [source.text_wide, destination.text_wide]
    rfl
  | _ => rfl

theorem beq_iff_wide {a b : Body} : (a == b) = true ↔ a.wide = b.wide := by
  have unfolded : (a == b) = instBEqBody.beq a b := rfl
  rw [unfolded]
  cases a <;> cases b <;> simp [instBEqBody.beq, wide, Endpoint.beq_iff_wide]

end Body

namespace Message

/-- The message with every address in the IPv6 form. -/
def wide (m : Message) : Message := { m with body := m.body.wide }

/-- Every endpoint that the message carries has an address. -/
def IsSet (m : Message) : Prop := ∀ named ∈ m.body.endpoints, named.2.isSet = true

instance (m : Message) : Decidable m.IsSet :=
  inferInstanceAs (Decidable (∀ named ∈ m.body.endpoints, named.2.isSet = true))

@[simp] theorem kind_wide (m : Message) : m.wide.kind = m.kind := m.body.kind_wide

@[simp] theorem size_wide (m : Message) : m.wide.size = m.size := congrArg Kind.size m.kind_wide

@[simp] theorem wide_wide (m : Message) : m.wide.wide = m.wide := by simp [wide]

theorem encode_wide (m : Message) : m.wide.encode = m.encode := by
  simp only [encode_eq_bytes, header, kind_wide]
  simp only [wide, Body.bytes_wide]

theorem text_wide (m : Message) : m.wide.text = m.text := by
  simp only [text, kind_wide]
  simp only [wide, Body.text_wide]

theorem beq_iff_wide {m n : Message} : (m == n) = true ↔ m.wide = n.wide := by
  obtain ⟨v, body⟩ := m
  obtain ⟨v', body'⟩ := n
  show (v == v' && body == body') = true ↔ _
  simp [wide, Body.beq_iff_wide]

end Message

end HolePunch
