import HolePunch.Exchange
import HolePunch.Proofs.Message.WireForm

/-!
# Sending a message

A message that cannot be encoded is not sent, and one that can be goes out as its wire form, if there
is a socket and the network takes it. `Concludes` lists what a sender makes of what arrives then: it
looks at the first reply alone, and holds a bad one against whoever it came from
(`send_whole_or_nothing`).
-/

namespace HolePunch.Exchange

/-- What a sender comes to that was told to wait, or not to, when these arrive. -/
inductive Concludes (s : Settings) (target : SocketAddr) :
    Bool → List Arrival → Ending (Option Message) → Prop where
  | unasked (arrivals : List Arrival) : Concludes s target false arrivals (.done none)
  | silence : Concludes s target true [] (.failed (.noReply target (waitMs s)))
  | lost (cause : String) (later : List Arrival) :
    Concludes s target true (.failure cause :: later) (.failed (.unreceived cause))
  | answer {reply : Datagram} {answer : Message} (later : List Arrival)
      (decoded : Message.decode (reply.bytes.take s.recvBufferSize.toNat) = .ok answer) :
    Concludes s target true (.datagram reply :: later) (.done (some answer))
  | bad {reply : Datagram} {e : ProtocolError} (later : List Arrival)
      (decoded : Message.decode (reply.bytes.take s.recvBufferSize.toNat) = .error e) :
    Concludes s target true (.datagram reply :: later) (.failed (.badReply reply.sender e))

variable (s : Settings) (target : SocketAddr)

/-! ### The first reply -/

theorem awaitReply_datagram (buffer : ReceiveBuffer) (reply : Datagram) (later : List Arrival) :
    (awaitReply s target buffer (.datagram reply :: later)).1 =
      match Message.decode (reply.bytes.take buffer.size) with
      | .ok answer => .ok (some answer)
      | .error e => .error (.badReply reply.sender e) := by
  have front := buffer.front_receive reply.bytes
  rw [awaitReply]
  simp only [front]
  cases Message.decode (reply.bytes.take buffer.size) <;> rfl

theorem awaitReply_first (buffer : ReceiveBuffer) (first : Arrival) (later others : List Arrival) :
    awaitReply s target buffer (first :: later) = awaitReply s target buffer (first :: others) := by
  cases first <;> rfl

theorem concludes_awaitReply {buffer : ReceiveBuffer} (size : buffer.size = s.recvBufferSize.toNat)
    (arrivals : List Arrival) :
    Concludes s target true arrivals (.ofResult (awaitReply s target buffer arrivals).1) := by
  match arrivals with
  | [] => exact .silence
  | .failure cause :: later => exact .lost cause later
  | .datagram reply :: later =>
    rw [awaitReply_datagram, size]
    cases decoded : Message.decode (reply.bytes.take s.recvBufferSize.toNat) with
    | ok answer => exact .answer later decoded
    | error e => exact .bad later decoded

variable {s target} {wait : Bool}

theorem Concludes.unique {arrivals : List Arrival} {x y : Ending (Option Message)}
    (left : Concludes s target wait arrivals x) (right : Concludes s target wait arrivals y) :
    x = y := by
  cases left with
  | unasked => cases right; rfl
  | silence => cases right; rfl
  | lost => cases right; rfl
  | answer _ decoded =>
    cases right with
    | answer _ again => rw [Except.ok.inj (decoded.symm.trans again)]
    | bad _ again => cases decoded.symm.trans again
  | bad _ decoded =>
    cases right with
    | answer _ again => cases decoded.symm.trans again
    | bad _ again => rw [Except.error.inj (decoded.symm.trans again)]

/-! ### Sending -/

theorem send_of_unset {m : Message} {field : String} {e : Endpoint}
    (first : m.body.unset? = some (field, e)) (link : Link) :
    send s target m wait link =
      ⟨none, .failed (.unencodable m.kind (.unsetAddress m.kind field)), []⟩ := by
  rw [send, m.encode_eq, first]

theorem send_unbound {m : Message} (set : m.IsSet) (cause : String) :
    send s target m wait (.unbound cause) = ⟨none, .failed (.unboundLocal cause), []⟩ := by
  rw [send, Message.encode_of_set set]

theorem send_broken {m : Message} (set : m.IsSet) (cause : String) :
    send s target m wait (.broken cause) = ⟨none, .failed (.unsent target cause), []⟩ := by
  rw [send, Message.encode_of_set set]

theorem request_send {m : Message} (set : m.IsSet) (arrivals : List Arrival) :
    (send s target m wait (.sent arrivals)).request = some m.wireForm := by
  rw [send, Message.encode_of_set set]
  cases wait with
  | false => rfl
  | true =>
    simp only [if_true]
    split <;> rfl

theorem send_waiting (target : SocketAddr) {m : Message} (set : m.IsSet)
    (room : s.recvBufferSize.toNat ≤ ReceiveBuffer.largest) :
    ∃ buffer : ReceiveBuffer, buffer.size = s.recvBufferSize.toNat ∧ ∀ arrivals,
      (send s target m true (.sent arrivals)).ending =
        .ofResult (awaitReply s target buffer arrivals).1 := by
  obtain ⟨buffer, zeros, size⟩ := ReceiveBuffer.exists_zeros? room
  refine ⟨buffer, size, fun arrivals => ?_⟩
  rw [send, Message.encode_of_set set]
  simp only [if_true, zeros]

theorem concludes_send (target : SocketAddr) {m : Message} (set : m.IsSet)
    (room : wait = true → s.recvBufferSize.toNat ≤ ReceiveBuffer.largest)
    (arrivals : List Arrival) :
    Concludes s target wait arrivals (send s target m wait (.sent arrivals)).ending := by
  cases wait with
  | false =>
    rw [send, Message.encode_of_set set]
    exact .unasked arrivals
  | true =>
    obtain ⟨buffer, size, awaited⟩ := send_waiting target set (room rfl)
    rw [awaited]
    exact concludes_awaitReply s target size arrivals

theorem send_first (m : Message) (first : Arrival) (later others : List Arrival) :
    send s target m wait (.sent (first :: later)) =
      send s target m wait (.sent (first :: others)) := by
  simp only [send, awaitReply_first s target _ first later others]

/-- A message with an address missing is not sent, whatever the link is like, and neither is one that
no socket or no network takes. Any other is sent as one datagram, its encoding, and it comes to what
`Concludes` lists for the arrivals and to nothing else, if a sender that waits can have its buffer. Of
the arrivals only the first matters. -/
theorem send_whole_or_nothing (s : Settings) (target : SocketAddr) (m : Message) (wait : Bool) :
    (¬m.IsSet → ∃ field e, m.body.unset? = some (field, e) ∧
      let cause := ProtocolError.unsetAddress m.kind field
      let failure := Failure.unencodable m.kind cause
      failure.message = "Failed to encode " ++ m.kind.name ∧ failure.causes = [cause.message] ∧
        ∀ link, send s target m wait link = ⟨none, .failed failure, []⟩) ∧
    (m.IsSet → ∃ written, m.encode = .ok written ∧
      (∀ cause,
        send s target m wait (.unbound cause) = ⟨none, .failed (.unboundLocal cause), []⟩ ∧
        send s target m wait (.broken cause) = ⟨none, .failed (.unsent target cause), []⟩) ∧
      ∀ arrivals, (send s target m wait (.sent arrivals)).request = some written ∧
        ((wait = true → s.recvBufferSize.toNat ≤ ReceiveBuffer.largest) →
          ∀ ending, (send s target m wait (.sent arrivals)).ending = ending ↔
            Concludes s target wait arrivals ending)) ∧
    (∀ first later others,
      send s target m wait (.sent (first :: later)) =
        send s target m wait (.sent (first :: others))) ∧
    (∀ cause, (Failure.unboundLocal cause).message = "Failed to bind local UDP socket" ∧
      (Failure.unsent target cause).message = "Failed to send to " ++ String.ofList target.text ∧
      (Failure.unreceived cause).message = "Failed to receive datagram") ∧
    (Failure.noReply target (waitMs s)).message =
      "No reply from " ++ String.ofList target.text ++ " within " ++ Text.duration (waitMs s) ∧
    ∀ sender e, (Failure.badReply sender e).message =
        "Bad reply from " ++ String.ofList sender.text ∧
      (Failure.badReply sender e).causes = [e.message] := by
  refine ⟨?_, ?_, send_first m, fun _ => ⟨rfl, rfl, rfl⟩, rfl, fun _ _ => ⟨rfl, rfl⟩⟩
  · intro unset
    obtain ⟨⟨field, e⟩, first⟩ := Message.exists_unset unset
    exact ⟨field, e, first, rfl, rfl, send_of_unset first⟩
  · intro set
    refine ⟨m.wireForm, Message.encode_of_set set,
      fun cause => ⟨send_unbound set cause, send_broken set cause⟩,
      fun arrivals => ⟨request_send set arrivals, ?_⟩⟩
    intro room ending
    have concludes := concludes_send target set room arrivals
    constructor
    · rintro rfl
      exact concludes
    · exact concludes.unique

/-- A request without its address stays here; one of another version goes out as it is, and the
reply behind the bad one does not help. -/
theorem send_whole_or_nothing_refused :
    let s := Settings.standard
    let target : SocketAddr := .v4 ⟨192, 0, 2, 1⟩ 4000
    let blank : Message := .new (.cReq ⟨80, none⟩)
    let m : Message := ⟨⟨9⟩, .sReq ⟨1337⟩⟩
    let arrivals : List Arrival :=
      [.datagram ⟨target, [0x99, 1]⟩, .datagram ⟨target, [0x54, 1]⟩]
    ¬blank.IsSet ∧ (send s target blank true (.sent arrivals)).request = none ∧
      m.IsSet ∧ s.recvBufferSize.toNat ≤ ReceiveBuffer.largest ∧
      (send s target m true (.sent arrivals)).request = some [0x52, 9, 0x39, 5, 0, 0] ∧
      (send s target m true (.sent arrivals)).ending =
        .failed (.badReply target (.unknownType 0x99)) := by
  intro s target blank m arrivals
  have unset : ¬blank.IsSet := by decide
  have set : m.IsSet := by decide
  have room : s.recvBufferSize.toNat ≤ ReceiveBuffer.largest := by decide
  obtain ⟨_, _, _, -, -, kept⟩ := (send_whole_or_nothing s target blank true).1 unset
  obtain ⟨written, encoded, -, sent⟩ := (send_whole_or_nothing s target m true).2.1 set
  obtain ⟨request, ending⟩ := sent arrivals
  have form : [0x52, 9, 0x39, 5, 0, 0] = written := Except.ok.inj encoded
  refine ⟨unset, ?_, set, room, ?_, ?_⟩
  · rw [kept]
  · rw [request, form]
  · exact (ending (fun _ => room) _).mpr (.bad _ rfl)

/-- A bad reply may come from another address than the one that was asked, and it is that address
which the failure names. And a message that can be encoded does not go out where the network is
down. -/
theorem send_whole_or_nothing_stranger :
    let s := Settings.standard
    let target : SocketAddr := .v4 ⟨0, 0, 0, 0⟩ 4000
    let sender : SocketAddr := .v4 ⟨127, 0, 0, 1⟩ 4000
    let m : Message := .new .idReq
    let failure := Failure.badReply sender (.unknownType 0x99)
    m.IsSet ∧
      (send s target m true (.sent [.datagram ⟨sender, [0x99, 1]⟩])).ending = .failed failure ∧
      failure.message = "Bad reply from 127.0.0.1:4000" ∧
      failure.message ≠ "Bad reply from " ++ String.ofList target.text ∧
      (send s target m false (.broken "Network is unreachable")).request = none ∧
      (send s target m false (.broken "Network is unreachable")).ending ≠ .done none := by
  intro s target sender m failure
  exact ⟨by decide, rfl, by decide +kernel, by decide +kernel, rfl, nofun⟩

end HolePunch.Exchange
