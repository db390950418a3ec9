import HolePunch.Proofs.Message.Outcome
import HolePunch.Proofs.Message.Wide
import Mathlib.Data.List.Forall2

/-!
# Writing and reading

`Message.spelled_iff` says that a message is spelled by a buffer when it is in the wide form and is
written as the start of the buffer. From it follow both directions: reading what was written gives
the wide form of the message, and writing what was read gives the bytes that were read.
-/

namespace HolePunch

open Wire

theorem bind_eq_ok_iff {ε α β : Type} {x : Except ε α} {f : α → Except ε β} {b : β} :
    (x >>= f) = .ok b ↔ ∃ a, x = .ok a ∧ f a = .ok b := by
  cases x with
  | error e => exact ⟨nofun, nofun⟩
  | ok a =>
    constructor
    · intro given
      exact ⟨a, rfl, given⟩
    · rintro ⟨c, same, given⟩
      cases same
      exact given

namespace Wire

theorem leBytes_eq_iff {n : Nat} {bs : Bytes} (small : n < capacity bs.length) :
    leBytes bs.length n = bs ↔ n = leNat bs := by
  constructor
  · intro written
    have back := leNat_leBytes bs.length n
    rw [written, Nat.mod_eq_of_lt small] at back
    exact back.symm
  · rintro rfl
    exact leBytes_leNat bs

theorem wordBytes16_eq_iff {w : UInt16} {bs : Bytes} (two : bs.length = 2) :
    wordBytes16 w = bs ↔ w.toNat = leNat bs := by
  have small : w.toNat < capacity bs.length := by
    rw [two]
    exact w.toNat_lt
  rw [← leBytes_eq_iff small, two]
  rfl

theorem wordBytes32_eq_iff {w : UInt32} {bs : Bytes} (four : bs.length = 4) :
    wordBytes32 w = bs ↔ w.toNat = leNat bs := by
  have small : w.toNat < capacity bs.length := by
    rw [four]
    exact w.toNat_lt
  rw [← leBytes_eq_iff small, four]
  rfl

end Wire

namespace Endpoint

theorem bytes_eq_ok_iff {e : Endpoint} {kind : Kind} {field : String} {written : Bytes} :
    e.bytes kind field = .ok written ↔
      ∃ octets, e.octets = some octets ∧ written = wordBytes16 e.port ++ octets := by
  unfold bytes
  cases e.octets with
  | none => exact ⟨nofun, nofun⟩
  | some octets => simp [eq_comm]

theorem length_of_octets {e : Endpoint} {octets : Bytes} (given : e.octets = some octets) :
    octets.length = addressSize := by
  obtain ⟨ip, -, rfl⟩ := Option.map_eq_some_iff.mp given
  exact ip.length_octets

theorem length_bytes {e : Endpoint} {kind : Kind} {field : String} {written : Bytes}
    (given : e.bytes kind field = .ok written) : written.length = endpointSize := by
  obtain ⟨octets, isOctets, rfl⟩ := bytes_eq_ok_iff.mp given
  rw [List.length_append, length_wordBytes16, length_of_octets isOctets]
  rfl

theorem isSet_iff (e : Endpoint) (kind : Kind) (field : String) :
    e.isSet = true ↔ ∃ written, e.bytes kind field = .ok written := by
  constructor
  · intro set
    obtain ⟨ip, isIp⟩ := Option.isSome_iff_exists.mp set
    exact ⟨_, bytes_eq_ok_iff.mpr ⟨ip.octets, by rw [octets, isIp]; rfl, rfl⟩⟩
  · rintro ⟨written, given⟩
    obtain ⟨octets, isOctets, -⟩ := bytes_eq_ok_iff.mp given
    obtain ⟨ip, isIp, -⟩ := Option.map_eq_some_iff.mp isOctets
    rw [isSet, isIp]
    rfl

theorem spelled_iff {b : Bytes} {offset : Nat} {e : Endpoint} (kind : Kind) (field : String)
    (fits : offset + endpointSize ≤ b.length) :
    e.Spelled b offset ↔
      e.wide = e ∧ e.bytes kind field = .ok (span b offset endpointSize) := by
  have fits : offset + 18 ≤ b.length := fits
  have parts : span b offset endpointSize = span b offset 2 ++ span b (offset + 2) 16 :=
    span_add b offset 2 16
  have two : (span b offset 2).length = 2 := length_span (by omega)
  rw [parts]
  constructor
  · rintro ⟨port, ip, isIp, octets⟩
    have isOctets : e.octets = some (span b (offset + 2) 16) := by
      rw [Endpoint.octets, isIp, ← octets]
      rfl
    refine ⟨?_, bytes_eq_ok_iff.mpr ⟨_, isOctets, ?_⟩⟩
    · obtain ⟨_, _⟩ := e
      obtain rfl := isIp
      rfl
    · rw [(wordBytes16_eq_iff two).mpr port]
  · rintro ⟨wide, given⟩
    obtain ⟨octets, isOctets, same⟩ := bytes_eq_ok_iff.mp given
    obtain ⟨port, address⟩ := List.append_inj same (two.trans (length_wordBytes16 _).symm)
    refine ⟨(wordBytes16_eq_iff two).mp port.symm, ?_⟩
    rw [← wide] at isOctets ⊢
    obtain ⟨ip, isIp, rfl⟩ := Option.map_eq_some_iff.mp isOctets
    obtain ⟨inner, -, rfl⟩ := Option.map_eq_some_iff.mp isIp
    exact ⟨inner.wide, isIp, address.symm⟩

end Endpoint

namespace Body

theorem bytes_pair_eq_ok_iff {source destination : Endpoint} {written : Bytes} :
    (cReqTcp source destination).bytes = .ok written ↔
      ∃ first, source.bytes .cReqTcp "source" = .ok first ∧
        ∃ second, destination.bytes .cReqTcp "destination" = .ok second ∧
          first ++ second = written := by
  simp only [bytes, bind_eq_ok_iff]
  simp only [pure, Except.pure, Except.ok.injEq]

theorem length_bytes {body : Body} {written : Bytes} (given : body.bytes = .ok written) :
    headerSize + written.length = body.kind.size := by
  cases body with
  | idReq =>
    cases given
    rfl
  | assId | sReq | sReqTcp =>
    cases given
    rw [length_wordBytes32]
    rfl
  | cReq =>
    rw [Endpoint.length_bytes given]
    rfl
  | cReqTcp =>
    obtain ⟨first, isFirst, second, isSecond, rfl⟩ := bytes_pair_eq_ok_iff.mp given
    rw [List.length_append, Endpoint.length_bytes isFirst, Endpoint.length_bytes isSecond]
    rfl

theorem isSet_iff {body : Body} :
    (∀ named ∈ body.endpoints, named.2.isSet = true) ↔ ∃ written, body.bytes = .ok written := by
  cases body with
  | idReq | assId | sReq | sReqTcp => exact ⟨fun _ => ⟨_, rfl⟩, fun _ _ none => nomatch none⟩
  | cReq addr =>
    rw [endpoints, List.forall_mem_singleton]
    exact addr.isSet_iff .cReq "punch"
  | cReqTcp source destination =>
    rw [endpoints, List.forall_mem_cons, List.forall_mem_singleton,
      source.isSet_iff .cReqTcp "source", destination.isSet_iff .cReqTcp "destination"]
    constructor
    · rintro ⟨⟨first, isFirst⟩, second, isSecond⟩
      exact ⟨_, bytes_pair_eq_ok_iff.mpr ⟨first, isFirst, second, isSecond, rfl⟩⟩
    · rintro ⟨written, given⟩
      obtain ⟨first, isFirst, second, isSecond, -⟩ := bytes_pair_eq_ok_iff.mp given
      exact ⟨⟨first, isFirst⟩, second, isSecond⟩

theorem spelled_iff {b : Bytes} {body : Body} (whole : body.kind.size ≤ b.length) :
    body.Spelled b ↔
      body.wide = body ∧ body.bytes = .ok (span b headerSize (body.kind.size - headerSize)) := by
  cases body with
  | idReq => exact ⟨fun _ => ⟨rfl, rfl⟩, fun _ => trivial⟩
  | assId cid | sReq cid | sReqTcp cid =>
    have four : (span b 2 4).length = 4 := length_span whole
    refine (wordBytes32_eq_iff four).symm.trans ?_
    exact ⟨fun same => ⟨rfl, congrArg Except.ok same⟩, fun same => Except.ok.inj same.2⟩
  | cReq addr =>
    refine (Endpoint.spelled_iff .cReq "punch" whole).trans (and_congr_left' ?_)
    exact (cReq.injEq ..).symm ▸ Iff.rfl
  | cReqTcp source destination =>
    have last : 20 + endpointSize ≤ b.length := whole
    have fits : 2 + endpointSize ≤ b.length := by omega
    have parts : span b headerSize 36 = span b 2 endpointSize ++ span b 20 endpointSize :=
      span_add b 2 18 18
    have one : (span b 2 endpointSize).length = endpointSize := length_span fits
    change source.Spelled b 2 ∧ destination.Spelled b 20 ↔ _ ∧ _ = Except.ok (span b headerSize 36)
    rw [parts, bytes_pair_eq_ok_iff, Endpoint.spelled_iff .cReqTcp "source" fits,
      Endpoint.spelled_iff .cReqTcp "destination" last]
    constructor
    · rintro ⟨⟨sourceWide, first⟩, destinationWide, second⟩
      exact ⟨congr (congrArg cReqTcp sourceWide) destinationWide, _, first, _, second, rfl⟩
    · rintro ⟨wide, first, isFirst, second, isSecond, same⟩
      obtain ⟨sourceWide, destinationWide⟩ := cReqTcp.inj wide
      obtain ⟨rfl, rfl⟩ := List.append_inj same ((Endpoint.length_bytes isFirst).trans one.symm)
      exact ⟨⟨sourceWide, isFirst⟩, destinationWide, isSecond⟩

end Body

namespace Message

theorem encode_eq_ok_iff {m : Message} {written : Bytes} :
    m.encode = .ok written ↔
      ∃ body, m.body.bytes = .ok body ∧ [m.kind.tag, m.version.byte] ++ body = written := by
  rw [encode_eq_bytes, bind_eq_ok_iff]
  simp only [pure, Except.pure, Except.ok.injEq]
  rfl

theorem length_encode {m : Message} {written : Bytes} (given : m.encode = .ok written) :
    written.length = m.size := by
  obtain ⟨body, isBody, rfl⟩ := encode_eq_ok_iff.mp given
  rw [List.length_append]
  exact Body.length_bytes isBody

theorem isSet_iff {m : Message} : m.IsSet ↔ ∃ written, m.encode = .ok written := by
  rw [IsSet, Body.isSet_iff]
  constructor
  · rintro ⟨body, isBody⟩
    exact ⟨_, encode_eq_ok_iff.mpr ⟨body, isBody, rfl⟩⟩
  · rintro ⟨written, given⟩
    obtain ⟨body, isBody, -⟩ := encode_eq_ok_iff.mp given
    exact ⟨body, isBody⟩

/-- A buffer spells a message exactly when the message, in the wide form and of the version that is
spoken, is written as the start of the buffer. -/
theorem spelled_iff {b : Bytes} {m : Message} :
    m.Spelled b ↔
      m.version = .newest ∧ m.wide = m ∧ m.size ≤ b.length ∧ m.encode = .ok (b.take m.size) := by
  have parts : b.take m.size = b.take headerSize ++ span b headerSize (m.size - headerSize) := by
    rw [span, ← List.take_add]
    exact congrArg (b.take ·) (Nat.add_sub_of_le m.kind.headerSize_le_size).symm
  rw [parts, encode_eq_ok_iff]
  constructor
  · rintro ⟨version, head, whole, body⟩
    obtain ⟨wide, isBody⟩ := (Body.spelled_iff whole).mp body
    refine ⟨version, congrArg (Message.mk m.version) wide, whole, _, isBody, ?_⟩
    rw [version, head]
    rfl
  · rintro ⟨version, wide, whole, body, isBody, same⟩
    have two : (b.take headerSize).length = headerSize :=
      List.length_take_of_le (Nat.le_trans m.kind.headerSize_le_size whole)
    obtain ⟨head, rfl⟩ := List.append_inj same two.symm
    refine ⟨version, ?_, whole, (Body.spelled_iff whole).mpr ⟨congrArg Message.body wide, isBody⟩⟩
    rw [← head, version]
    rfl

theorem spelled_take_iff {b : Bytes} {m : Message} {length : Nat} (whole : m.size ≤ length) :
    m.Spelled (b.take length) ↔ m.Spelled b := by
  rw [spelled_iff, spelled_iff, List.length_take, List.take_take, Nat.min_eq_left whole,
    Nat.le_min, and_iff_right whole]

theorem Spelled.append {b : Bytes} {m : Message} (spelled : m.Spelled b) (rest : Bytes) :
    m.Spelled (b ++ rest) := by
  have front : m.Spelled ((b ++ rest).take b.length) := by rwa [List.take_left]
  exact (spelled_take_iff spelled.whole).mp front

theorem decodeAs_eq_decode {b : Bytes} {m : Message} (spelled : m.Spelled b) :
    decodeAs m.kind b = decode b :=
  decodeAs_of_head spelled.head

theorem spelled_encode {m : Message} {written : Bytes} (spoken : m.version = .newest)
    (given : m.encode = .ok written) (rest : Bytes) : m.wide.Spelled (written ++ rest) := by
  have length := length_encode given
  rw [spelled_iff, wide_wide, size_wide, encode_wide]
  refine ⟨spoken, rfl, ?_, ?_⟩
  · rw [List.length_append, length]
    exact Nat.le_add_right _ _
  · rw [given, List.take_left' length]

/-- An endpoint that was read stands for one that was written: the same part of the message, the
same port, and the sixteen bytes of the address as an IPv6 address. -/
def Restored (written read : String × Endpoint) : Prop :=
  read.1 = written.1 ∧ read.2.port = written.2.port ∧
    ∃ ip : Ipv6, read.2.ip = some (.v6 ip) ∧ written.2.octets = some ip.octets

theorem restored_wide {m : Message} (set : m.IsSet) :
    List.Forall₂ Restored m.body.endpoints m.wide.body.endpoints := by
  rw [wide, Body.endpoints_wide, List.forall₂_map_right_iff, List.forall₂_same]
  intro named member
  obtain ⟨ip, isIp⟩ := Option.isSome_iff_exists.mp (set named member)
  refine ⟨rfl, rfl, ip.wide, ?_, ?_⟩
  · rw [Endpoint.wide, isIp]
    rfl
  · rw [Endpoint.octets, isIp, Ip.octets_wide]
    rfl

/-- Reading what was written gives an equal message with the same text, whatever follows it; its
addresses are the sixteen bytes that were written. -/
theorem decode_encode (m : Message) (spoken : m.version = .newest) (set : m.IsSet) (rest : Bytes) :
    ∃ written read, m.encode = .ok written ∧ written.length = m.size ∧
      decode (written ++ rest) = .ok read ∧ decodeAs m.kind (written ++ rest) = .ok read ∧
      (read == m) = true ∧ read.text = m.text ∧
      List.Forall₂ Restored m.body.endpoints read.body.endpoints := by
  obtain ⟨written, given⟩ := isSet_iff.mp set
  have spelled := spelled_encode spoken given rest
  have decoded : decode (written ++ rest) = .ok m.wide := decode_eq_ok_iff.mpr spelled
  have decodedAs : decodeAs m.kind (written ++ rest) = .ok m.wide := by
    rw [← kind_wide, decodeAs_eq_decode spelled, decoded]
  exact ⟨written, m.wide, given, length_encode given, decoded, decodedAs,
    beq_iff_wide.mpr m.wide_wide, m.text_wide, restored_wide set⟩

theorem decode_encode_pair :
    let m : Message := ⟨.newest, .cReqTcp ⟨60002, some (.v4 ⟨192, 0, 2, 7⟩)⟩
      ⟨0xff01, some (.v6 ⟨[0x20, 1, 0xd, 0xb8, 0, 0, 0, 0, 0, 0, 0, 0, 0, 0, 0, 2], rfl⟩)⟩⟩
    m.version = .newest ∧ m.IsSet ∧
      ∃ written read, m.encode = .ok written ∧ written.length = m.size ∧
        decode (written ++ [0x54, 1]) = .ok read ∧
        decodeAs m.kind (written ++ [0x54, 1]) = .ok read ∧
        (read == m) = true ∧ read.text = m.text ∧
        List.Forall₂ Restored m.body.endpoints read.body.endpoints := by
  exact ⟨rfl, by decide, decode_encode _ rfl (by decide) [0x54, 1]⟩

/-- Writing what was read gives back the bytes that were read, so the accepted buffers are those
that start with what some message is written as. -/
theorem encode_decode (b : Bytes) :
    (∀ m : Message, decode b = .ok m →
      m.size ≤ b.length ∧ m.version.byte = 1 ∧ m.IsSet ∧ m.encode = .ok (b.take m.size)) ∧
    ((∃ m : Message, decode b = .ok m) ↔
      ∃ (m : Message) (written rest : Bytes), m.version.byte = 1 ∧ m.IsSet ∧
        m.encode = .ok written ∧ b = written ++ rest) := by
  have front : ∀ m : Message, decode b = .ok m →
      m.size ≤ b.length ∧ m.version.byte = 1 ∧ m.IsSet ∧ m.encode = .ok (b.take m.size) := by
    intro m decoded
    obtain ⟨version, -, whole, given⟩ := spelled_iff.mp (decode_eq_ok_iff.mp decoded)
    exact ⟨whole, congrArg Version.byte version, isSet_iff.mpr ⟨_, given⟩, given⟩
  refine ⟨front, ?_, ?_⟩
  · rintro ⟨m, decoded⟩
    obtain ⟨-, version, set, given⟩ := front m decoded
    exact ⟨m, b.take m.size, b.drop m.size, version, set, given, (List.take_append_drop _ b).symm⟩
  · rintro ⟨m, written, rest, version, -, given, rfl⟩
    have spoken : m.version = .newest := congrArg Version.mk version
    exact ⟨m.wide, decode_eq_ok_iff.mpr (spelled_encode spoken given rest)⟩

end Message

end HolePunch
