import HolePunch.Message.Codec

/-!
# Writing in parts

A message is written part by part, and what was written before a failure would stay. But every
address is asked for before the first part is written. So a message is written as a whole behind
what the buffer holds, or the buffer stays as it was (`Message.write_eq`).
-/

namespace HolePunch

namespace Writer

/-- Writes these bytes behind any buffer, and never stops. -/
def Appends (writer : Writer Unit) (written : Bytes) : Prop :=
  ∀ buffer, writer buffer = .ok () (buffer ++ written)

theorem appends_put (written : Bytes) : Appends (put written) written := fun _ => rfl

theorem Appends.andThen {first second : Writer Unit} {front back : Bytes}
    (writes : first.Appends front) (goesOn : second.Appends back) :
    Appends (do first; second) (front ++ back) := by
  intro buffer
  show EStateM.bind first (fun _ => second) buffer = _
  rw [EStateM.bind, writes buffer]
  exact (goesOn _).trans (by rw [List.append_assoc])

end Writer

theorem Header.appends_write (h : Header) : h.write.Appends h.bytes :=
  (Writer.appends_put [h.tag]).andThen (Writer.appends_put [h.version.byte])

namespace Endpoint

/-- The port and the address as they travel; an address that is not set is named in the error. -/
def bytes (e : Endpoint) (kind : Kind) (field : String) : Except ProtocolError Bytes :=
  match e.octets with
  | some octets => .ok (Wire.wordBytes16 e.port ++ octets)
  | none => .error (.unsetAddress kind field)

theorem appends_write (port : UInt16) (octets : Bytes) :
    (write port octets).Appends (Wire.wordBytes16 port ++ octets) :=
  (Writer.appends_put _).andThen (Writer.appends_put octets)

/-- An address is asked for without a change to the buffer, and it is there when the endpoint can be
written. -/
theorem requireOctets_cases (e : Endpoint) (kind : Kind) (field : String) :
    (∃ octets, e.bytes kind field = .ok (Wire.wordBytes16 e.port ++ octets) ∧
      ∀ buffer, e.requireOctets kind field buffer = .ok octets buffer) ∨
    (e.bytes kind field = .error (.unsetAddress kind field) ∧
      ∀ buffer, e.requireOctets kind field buffer = .error (.unsetAddress kind field) buffer) := by
  unfold bytes requireOctets
  cases e.octets with
  | none => exact .inr ⟨rfl, fun _ => rfl⟩
  | some octets => exact .inl ⟨octets, rfl, fun _ => rfl⟩

end Endpoint

/-- What a message says as it travels, behind the header. -/
def Body.bytes : Body → Except ProtocolError Bytes
  | .idReq => .ok []
  | .assId cid | .sReq cid | .sReqTcp cid => .ok (Wire.wordBytes32 cid.number)
  | .cReq addr => addr.bytes .cReq "punch"
  | .cReqTcp source destination => do
    let first ← source.bytes .cReqTcp "source"
    let second ← destination.bytes .cReqTcp "destination"
    return first ++ second

namespace Message

/-- A message is written as a whole, or nothing of it is. -/
theorem write_eq (m : Message) (buffer : Bytes) :
    m.write buffer =
      match m.body.bytes with
      | .ok body => .ok () (buffer ++ (m.header.bytes ++ body))
      | .error e => .error e buffer := by
  obtain ⟨version, body⟩ := m
  cases body with
  | idReq => exact Header.appends_write _ buffer
  | assId cid | sReq cid | sReqTcp cid =>
    exact (Header.appends_write _).andThen (Writer.appends_put (Wire.wordBytes32 cid.number)) buffer
  | cReq addr =>
    show EStateM.bind (addr.requireOctets .cReq "punch") _ buffer = _
    rcases addr.requireOctets_cases .cReq "punch" with ⟨octets, given, asked⟩ | ⟨given, asked⟩
    · rw [Body.bytes, given, EStateM.bind, asked]
      exact (Header.appends_write _).andThen (Endpoint.appends_write addr.port octets) buffer
    · rw [Body.bytes, given, EStateM.bind, asked]
  | cReqTcp source destination =>
    show EStateM.bind (source.requireOctets .cReqTcp "source") _ buffer = _
    rcases source.requireOctets_cases .cReqTcp "source" with ⟨first, given, asked⟩ | ⟨given, asked⟩
    · -- The second address may still be missing, and nothing is written yet.
      rw [Body.bytes, given, EStateM.bind, asked]
      show EStateM.bind (destination.requireOctets .cReqTcp "destination") _ buffer = _
      rcases destination.requireOctets_cases .cReqTcp "destination" with
        ⟨second, found, there⟩ | ⟨found, there⟩
      · rw [found, EStateM.bind, there]
        exact (Header.appends_write _).andThen ((Endpoint.appends_write source.port first).andThen
          (Endpoint.appends_write destination.port second)) buffer
      · rw [found, EStateM.bind, there]
        rfl
    · rw [Body.bytes, given, EStateM.bind, asked]
      rfl

theorem encodeTo_eq_bytes (m : Message) (buffer : Bytes) :
    m.encodeTo buffer =
      match m.body.bytes with
      | .ok body => (.ok (), buffer ++ (m.header.bytes ++ body))
      | .error e => (.error e, buffer) := by
  rw [encodeTo, m.write_eq]
  cases m.body.bytes <;> rfl

theorem encode_eq_bytes (m : Message) :
    m.encode = do
      let body ← m.body.bytes
      return m.header.bytes ++ body := by
  rw [encode, m.encodeTo_eq_bytes]
  cases m.body.bytes <;> rfl

theorem encodeTo_eq_encode (m : Message) (buffer : Bytes) :
    m.encodeTo buffer =
      match m.encode with
      | .ok written => (.ok (), buffer ++ written)
      | .error e => (.error e, buffer) := by
  rw [m.encodeTo_eq_bytes, m.encode_eq_bytes]
  cases m.body.bytes <;> rfl

end Message

end HolePunch
