import HolePunch.Frame.Session
import HolePunch.Proofs.Message.RoundTrip

/-!
# Steps on the buffer of a stream

`StreamStep` lists what one step can do to the buffer of a stream. `decodeStream_step` and
`StreamStep.eq` show that the step is the listed one, and `StreamStep.append` that a step which
gives anything but a lost boundary gives the same when more bytes have arrived.
-/

namespace HolePunch.Frame

open Wire

/-- The steps on the buffer of a stream, each with what has to be true of the buffer. -/
inductive StreamStep (buffer : Bytes) : Step → Prop where
  | noHeader (short : buffer.length < headerSize) : StreamStep buffer (.wait buffer)
  | lost {tag version : UInt8} (head : buffer.take headerSize = [tag, version])
      (unregistered : ∀ kind : Kind, kind.tag ≠ tag) :
      StreamStep buffer ⟨some (.error (.unknownType tag)), [], []⟩
  | cut {kind : Kind} {version : UInt8} (head : buffer.take headerSize = [kind.tag, version])
      (short : buffer.length < kind.size) : StreamStep buffer (.wait buffer)
  | refused {kind : Kind} {version : UInt8} (head : buffer.take headerSize = [kind.tag, version])
      (whole : kind.size ≤ buffer.length) (other : version ≠ 1) :
      StreamStep buffer ⟨some (.error (.unsupportedVersion version)), buffer.drop kind.size, []⟩
  | message {m : Message} (spelled : m.Spelled buffer) :
      StreamStep buffer ⟨some (.ok m), buffer.drop m.size, [.frame m.kind m.size]⟩

theorem decodeStream_tag (kind : Kind) (version : UInt8) (rest : Bytes) :
    decodeStream (kind.tag :: version :: rest) =
      if (kind.tag :: version :: rest).length < kind.size then .wait (kind.tag :: version :: rest)
      else .take ((kind.tag :: version :: rest).take kind.size)
        ((kind.tag :: version :: rest).drop kind.size) (.frame · kind.size) := by
  simp only [decodeStream, Kind.lookup_tag]

theorem take_of_ok {bytes : Bytes} {m : Message} (decoded : Message.decode bytes = .ok m)
    (rest : Bytes) (event : Kind → Event) :
    Step.take bytes rest event = ⟨some (.ok m), rest, [event m.kind]⟩ := by
  simp only [Step.take, decoded]

theorem take_of_error {bytes : Bytes} {e : ProtocolError}
    (refused : Message.decode bytes = .error e) (rest : Bytes) (event : Kind → Event) :
    Step.take bytes rest event = ⟨some (.error e), rest, []⟩ := by
  simp only [Step.take, refused]

/-- A buffer with as many bytes as its tag asks for starts with a message, or with the frame of
another version. -/
theorem decode_frame {kind : Kind} {version : UInt8} {buffer : Bytes}
    (head : buffer.take headerSize = [kind.tag, version]) (whole : kind.size ≤ buffer.length) :
    (version ≠ 1 ∧
        Message.decode (buffer.take kind.size) = .error (.unsupportedVersion version)) ∨
      ∃ m, m.kind = kind ∧ m.Spelled buffer ∧ Message.decode (buffer.take kind.size) = .ok m := by
  by_cases spoken : version = 1
  · subst version
    obtain ⟨rest, rfl⟩ := eq_cons_of_take_header head
    obtain ⟨m, -, spelled⟩ := Message.decodeAs_within kind whole
    have same : m.kind = kind := Kind.tag_injective (List.cons.inj (spelled.head.symm.trans head)).1
    subst kind
    exact .inr ⟨m, rfl, spelled,
      Message.decode_eq_ok_iff.mpr ((Message.spelled_take_iff (Nat.le_refl _)).mpr spelled)⟩
  · have framed : (buffer.take kind.size).take headerSize = [kind.tag, version] := by
      rw [List.take_take, Nat.min_eq_left kind.headerSize_le_size, head]
    exact .inl ⟨spoken, (Decodes.unsupportedVersion framed spoken).decode_eq⟩

theorem decodeStream_short {buffer : Bytes} (short : buffer.length < headerSize) :
    decodeStream buffer = .wait buffer := by
  match buffer with
  | [] => rfl
  | [_] => rfl
  | _ :: _ :: rest => exact absurd short (Nat.not_lt.mpr (Nat.le_add_left 2 rest.length))

theorem decodeStream_unregistered {tag : UInt8} (unregistered : ∀ kind : Kind, kind.tag ≠ tag)
    (version : UInt8) (rest : Bytes) :
    decodeStream (tag :: version :: rest) = ⟨some (.error (.unknownType tag)), [], []⟩ := by
  simp only [decodeStream, Kind.lookup_eq_error unregistered]

theorem decodeStream_step (buffer : Bytes) : StreamStep buffer (decodeStream buffer) := by
  rcases header_cases buffer with short | ⟨tag, version, rest, rfl, unregistered⟩ |
    ⟨kind, version, rest, rfl⟩
  · rw [decodeStream_short short]
    exact .noHeader short
  · rw [decodeStream_unregistered unregistered]
    exact .lost rfl unregistered
  · rw [decodeStream_tag]
    split
    · next short => exact .cut rfl short
    · next whole =>
      have whole := Nat.le_of_not_lt whole
      rcases decode_frame rfl whole with ⟨other, refused⟩ | ⟨m, rfl, spelled, decoded⟩
      · rw [take_of_error refused]
        exact .refused rfl whole other
      · rw [take_of_ok decoded]
        exact .message spelled

theorem StreamStep.eq {buffer : Bytes} {s : Step} (allowed : StreamStep buffer s) :
    decodeStream buffer = s := by
  cases allowed with
  | noHeader short => exact decodeStream_short short
  | lost head unregistered =>
    obtain ⟨rest, rfl⟩ := eq_cons_of_take_header head
    exact decodeStream_unregistered unregistered _ rest
  | cut head short =>
    obtain ⟨rest, rfl⟩ := eq_cons_of_take_header head
    rw [decodeStream_tag, if_pos short]
  | refused head whole other =>
    obtain ⟨rest, rfl⟩ := eq_cons_of_take_header head
    rw [decodeStream_tag, if_neg (Nat.not_lt.mpr whole)]
    rcases decode_frame head whole with ⟨-, refused⟩ | ⟨m, -, spelled, -⟩
    · exact take_of_error refused _ _
    · have versions := (List.cons.inj (spelled.head.symm.trans head)).2
      exact absurd (List.cons.inj versions).1.symm other
  | @message m spelled =>
    obtain ⟨rest, rfl⟩ := eq_cons_of_take_header spelled.head
    have whole : m.kind.size ≤ (m.kind.tag :: 1 :: rest).length := spelled.whole
    rw [decodeStream_tag, if_neg (Nat.not_lt.mpr whole)]
    rcases decode_frame spelled.head whole with ⟨other, -⟩ | ⟨n, -, again, decoded⟩
    · exact absurd rfl other
    · obtain rfl : n = m := again.unique spelled
      exact take_of_ok decoded _ _

/-- Induction over the steps on a buffer: each one that gives something shortens it. -/
theorem step_induction {P : Bytes → Prop}
    (waits : ∀ buffer, (decodeStream buffer).result = none → P buffer)
    (gives : ∀ buffer item, (decodeStream buffer).result = some item →
      P (decodeStream buffer).buffer → P buffer)
    (buffer : Bytes) : P buffer := by
  induction length : buffer.length using Nat.strongRecOn generalizing buffer with
  | ind n ih =>
    cases given : (decodeStream buffer).result with
    | none => exact waits buffer given
    | some item =>
      have shorter := length_decodeStream_lt (Option.isSome_iff_exists.mpr ⟨item, given⟩)
      exact gives buffer item given (ih _ (length ▸ shorter) _ rfl)

/-! ### Steps when more bytes have arrived -/

/-- True of the error after which the boundaries in a stream are lost. -/
def losesBoundary : Except ProtocolError Message → Bool
  | .error (.unknownType _) => true
  | _ => false

theorem take_header_append {buffer : Bytes} {tag version : UInt8}
    (head : buffer.take headerSize = [tag, version]) (more : Bytes) :
    (buffer ++ more).take headerSize = [tag, version] := by
  obtain ⟨rest, rfl⟩ := eq_cons_of_take_header head
  rfl

namespace StreamStep

variable {buffer : Bytes} {s : Step} {item : Except ProtocolError Message}

theorem buffer_of_result_none (allowed : StreamStep buffer s) (waits : s.result = none) :
    s.buffer = buffer := by
  cases allowed with
  | noHeader | cut => rfl
  | lost | refused | message => cases waits

theorem append (allowed : StreamStep buffer s) (given : s.result = some item)
    (kept : losesBoundary item = false) (more : Bytes) :
    StreamStep (buffer ++ more) { s with buffer := s.buffer ++ more } := by
  cases allowed with
  | noHeader | cut => cases given
  | lost =>
    cases given
    cases kept
  | @refused kind version head whole other =>
    have longer : kind.size ≤ (buffer ++ more).length := by
      rw [List.length_append]
      omega
    rw [← List.drop_append_of_le_length whole]
    exact .refused (take_header_append head more) longer other
  | message spelled =>
    rw [← List.drop_append_of_le_length spelled.whole]
    exact .message (spelled.append more)

theorem append_lost (allowed : StreamStep buffer s) (given : s.result = some item)
    (gone : losesBoundary item = true) (more : Bytes) :
    StreamStep (buffer ++ more) ⟨some item, [], []⟩ := by
  cases allowed with
  | noHeader | cut => cases given
  | lost head unregistered =>
    cases given
    exact .lost (take_header_append head more) unregistered
  | refused | message =>
    cases given
    cases gone

theorem error {e : ProtocolError} (allowed : StreamStep buffer s)
    (given : s.result = some (.error e)) :
    (∃ tag, e = .unknownType tag) ∨ ∃ version, e = .unsupportedVersion version := by
  cases allowed with
  | noHeader | cut | message => cases given
  | @lost tag =>
    cases given
    exact .inl ⟨tag, rfl⟩
  | @refused _ version =>
    cases given
    exact .inr ⟨version, rfl⟩

end StreamStep

end HolePunch.Frame
