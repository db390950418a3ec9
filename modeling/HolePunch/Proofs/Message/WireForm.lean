import HolePunch.Proofs.Message.RoundTrip

/-!
# Wire forms, byte by byte

`Message.wireForm` lists the bytes of a message in the order in which they travel. A message is
encoded as these bytes, or not at all: then the first endpoint without an address is named, and the
buffer stays as it was (`Message.encodeTo_eq`).
-/

namespace HolePunch

namespace Wire

/-- So many bytes of a number, eight bits at a time, the lowest first. -/
def littleEndian (width n : Nat) : Bytes :=
  (List.range width).map fun place => UInt8.ofNat (n >>> (8 * place))

theorem leBytes_eq_littleEndian (width n : Nat) : leBytes width n = littleEndian width n := by
  induction width generalizing n with
  | zero => rfl
  | succ width ih =>
    have next : ∀ place, (n / 256) >>> (8 * place) = n >>> (8 * (place + 1)) := by
      intro place
      have byte : n / 256 = n >>> 8 := (Nat.shiftRight_eq_div_pow n 8).symm
      rw [byte, ← Nat.shiftRight_add, Nat.mul_succ, Nat.add_comm]
    rw [leBytes, ih, littleEndian, littleEndian, List.range_succ_eq_map, List.map_cons,
      List.map_map]
    simp only [next, Function.comp_def, Nat.succ_eq_add_one, Nat.mul_zero, Nat.shiftRight_zero]

end Wire

/-- The sixteen bytes of an address; those of an IPv4 address stand at the end of `::ffff:0:0`. -/
def Ip.wireForm : Ip → Bytes
  | .v4 ip => [0, 0, 0, 0, 0, 0, 0, 0, 0, 0, 0xff, 0xff, ip.a, ip.b, ip.c, ip.d]
  | .v6 ip => ip.octets

theorem Ip.octets_eq_wireForm (ip : Ip) : ip.octets = ip.wireForm := by cases ip <;> rfl

namespace Endpoint

def wireForm (e : Endpoint) : Bytes :=
  Wire.littleEndian 2 e.port.toNat ++ (e.ip.map Ip.wireForm).getD []

theorem bytes_eq (e : Endpoint) (kind : Kind) (field : String) :
    e.bytes kind field =
      if e.isSet then .ok e.wireForm else .error (.unsetAddress kind field) := by
  obtain ⟨port, ip⟩ := e
  cases ip with
  | none => rfl
  | some ip =>
    have written : bytes ⟨port, some ip⟩ kind field = .ok (Wire.wordBytes16 port ++ ip.octets) := rfl
    rw [written, Wire.wordBytes16, Wire.leBytes_eq_littleEndian, ip.octets_eq_wireForm]
    rfl

end Endpoint

namespace Body

def wireForm (body : Body) : Bytes :=
  (body.sessionId?.map fun cid => Wire.littleEndian 4 cid.number.toNat).getD [] ++
    body.endpoints.flatMap fun named => named.2.wireForm

/-- The first endpoint without an address, behind the word for it. -/
def unset? (body : Body) : Option (String × Endpoint) :=
  body.endpoints.find? fun named => !named.2.isSet

theorem unset?_eq_none_iff {body : Body} :
    body.unset? = none ↔ ∀ named ∈ body.endpoints, named.2.isSet = true := by
  simp only [unset?, List.find?_eq_none, Bool.not_eq_true', Bool.not_eq_false]

theorem bytes_eq (body : Body) :
    body.bytes =
      match body.unset? with
      | none => .ok body.wireForm
      | some (field, _) => .error (.unsetAddress body.kind field) := by
  cases body with
  | idReq => rfl
  | assId cid | sReq cid | sReqTcp cid =>
    have written : Wire.wordBytes32 cid.number = Wire.littleEndian 4 cid.number.toNat :=
      Wire.leBytes_eq_littleEndian 4 _
    exact congrArg Except.ok (written.trans (List.append_nil _).symm)
  | cReq addr =>
    rw [bytes, addr.bytes_eq, unset?, endpoints, List.find?_singleton]
    cases addr.isSet with
    | false => rfl
    | true => exact congrArg Except.ok (List.append_nil _).symm
  | cReqTcp source destination =>
    rw [bytes, source.bytes_eq, destination.bytes_eq, unset?, endpoints, List.find?_cons,
      List.find?_singleton]
    cases source.isSet with
    | false => rfl
    | true =>
      cases destination.isSet with
      | false => rfl
      | true =>
        have both : (cReqTcp source destination).wireForm =
            source.wireForm ++ (destination.wireForm ++ []) := rfl
        rw [List.append_nil] at both
        exact congrArg Except.ok both.symm

end Body

namespace Message

/-- Tag and version, then the session identifier, or each endpoint with its port and its address. -/
def wireForm (m : Message) : Bytes := m.kind.tag :: m.version.byte :: m.body.wireForm

theorem unset?_eq_none_iff {m : Message} : m.body.unset? = none ↔ m.IsSet :=
  Body.unset?_eq_none_iff

theorem exists_unset {m : Message} (unset : ¬m.IsSet) : ∃ named, m.body.unset? = some named := by
  rw [← unset?_eq_none_iff] at unset
  exact Option.ne_none_iff_exists'.mp unset

theorem encode_eq (m : Message) :
    m.encode =
      match m.body.unset? with
      | none => .ok m.wireForm
      | some (field, _) => .error (.unsetAddress m.kind field) := by
  rw [encode_eq_bytes, m.body.bytes_eq]
  cases m.body.unset? <;> rfl

theorem encode_of_set {m : Message} (set : m.IsSet) : m.encode = .ok m.wireForm := by
  rw [m.encode_eq, unset?_eq_none_iff.mpr set]

theorem length_wireForm {m : Message} (set : m.IsSet) : m.wireForm.length = m.size :=
  length_encode (encode_of_set set)

theorem encodeTo_eq (m : Message) (buffer : Bytes) :
    m.encodeTo buffer =
      match m.body.unset? with
      | none => (.ok (), buffer ++ m.wireForm)
      | some (field, _) => (.error (.unsetAddress m.kind field), buffer) := by
  rw [encodeTo_eq_encode, m.encode_eq]
  cases m.body.unset? <;> rfl

end Message

end HolePunch
