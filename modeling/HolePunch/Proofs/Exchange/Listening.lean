import HolePunch.Exchange

/-!
# The log of a listener

A listener reports each datagram by an entry that its bytes and its sender decide, cut to the size of
the receive buffer; what the buffer held before makes no difference (`turn_datagram`). So the log of
a run is the entries of its datagrams, in order (`listen_log`). It takes an address that can be bound
and a buffer that can be had (`listen_log_exceptions`).
-/

namespace HolePunch.Exchange

open Event (Record)

/-! ### The entry of a datagram -/

/-- A byte as two digits, with small letters. -/
def smallHex (b : UInt8) : List Char :=
  let digit (n : Nat) : Char := "0123456789abcdef".toList.getD n '?'
  [digit (b.toNat / 16), digit (b.toNat % 16)]

/-- The text of a message, with a remark behind a request for a session. -/
def remarked (m : Message) : String :=
  String.ofList m.text ++ if m.kind = .idReq then " (session ID requested)" else ""

/-- What the log says of a datagram that comes into a buffer of a size. -/
def entry (size : Nat) (d : Datagram) : List Record :=
  let count := min d.bytes.length size
  let raw := d.bytes.take count
  let peer : String × EventValue := ("peer", .text (String.ofList d.sender.text))
  [⟨.debug, "datagram received", [peer, ("bytes", .count count)]⟩,
    match Message.decode raw with
    | .ok m => ⟨.info, remarked m, peer :: ("bytes", .count count) :: Event.bodyValues m.body⟩
    | .error e =>
      ⟨.warn, e.message,
        [peer, ("bytes", .count count), ("raw", .text (String.ofList (raw.flatMap smallHex)))]⟩]

/-- What a listener reports about a datagram by itself, of which so many bytes fit. -/
def hear (size : Nat) (d : Datagram) : List Event :=
  let raw := d.bytes.take size
  [.arrived d.sender raw.length, inspect d.sender raw]

theorem hexByte_eq_smallHex (b : UInt8) : Text.hexByte b = smallHex b := by
  have digit : ∀ n < 16, Text.hexDigit n = "0123456789abcdef".toList.getD n '?' := by decide
  have small := b.toNat_lt
  rw [Text.hexByte, smallHex, digit _ (by omega), digit _ (by omega)]

theorem receivedText_eq_remarked (m : Message) : Event.receivedText m = remarked m := by
  obtain ⟨version, body⟩ := m
  cases body with
  | idReq => rfl
  | _ => exact (String.append_empty).symm

theorem record_hear (size : Nat) (d : Datagram) : (hear size d).map Event.record = entry size d := by
  have cut : d.bytes.take (min d.bytes.length size) = d.bytes.take size := by
    rw [Nat.min_comm, ← List.take_eq_take_min]
  have length : min d.bytes.length size = (d.bytes.take size).length := by
    rw [List.length_take, Nat.min_comm]
  have hex : Text.hexByte = smallHex := funext hexByte_eq_smallHex
  simp only [hear, inspect, List.map_cons, List.map_nil, entry]
  rw [cut, length]
  cases Message.decode (d.bytes.take size) with
  | ok m => simp only [Event.record, Event.socketValue, receivedText_eq_remarked]
  | error e => simp only [Event.record, Event.socketValue, hex]

/-! ### Turns and runs -/

/-- A turn reports what is to be reported about the datagram by itself, whatever the buffer holds, and
the listener goes on. -/
theorem turn_datagram (listener : Listener) (d : Datagram) :
    turn listener (some (.datagram d)) =
      ⟨hear listener.buffer.size d,
        ⟨(listener.buffer.receive d.bytes).2, listener.received + 1⟩, none⟩ := by
  have front := listener.buffer.front_receive d.bytes
  have count : (listener.buffer.receive d.bytes).1 = (d.bytes.take listener.buffer.size).length := by
    rw [listener.buffer.fst_receive, List.length_take, Nat.min_comm]
  have turned : (turn listener (some (.datagram d))).events =
      [.arrived d.sender (listener.buffer.receive d.bytes).1,
        inspect d.sender
          ((listener.buffer.receive d.bytes).2.front (listener.buffer.receive d.bytes).1)] := rfl
  rw [front, count] at turned
  exact congrArg (Turn.mk · _ none) turned

theorem listenOn_datagrams (timeout : Option UInt64) (listener : Listener)
    (datagrams : List Datagram) :
    listenOn timeout listener (datagrams.map .datagram) =
      ⟨datagrams.flatMap (hear listener.buffer.size) ++
          if timeout.isSome then [.idle (listener.received + datagrams.length)] else [],
        if timeout.isSome then some (.done (listener.received + datagrams.length)) else none⟩ := by
  -- A turn leaves another buffer behind; of the listener only the size of its buffer is kept.
  induction datagrams generalizing listener with
  | nil => cases timeout <;> rfl
  | cons d later ih =>
    have total : listener.received + 1 + later.length =
        listener.received + (d :: later).length := by
      rw [List.length_cons]
      omega
    rw [List.map_cons, listenOn, turn_datagram]
    simp only [ih, ReceiveBuffer.size_receive, total, List.flatMap_cons, List.append_assoc]

theorem exists_start? {s : Settings} (room : s.recvBufferSize.toNat ≤ ReceiveBuffer.largest) :
    ∃ listener, Listener.start? s = some listener ∧
      listener.buffer.size = s.recvBufferSize.toNat ∧ listener.received = 0 := by
  obtain ⟨buffer, zeros, size⟩ := ReceiveBuffer.exists_zeros? room
  refine ⟨⟨buffer, 0⟩, ?_, size, rfl⟩
  rw [Listener.start?, zeros, Option.map_some]

theorem listen_datagrams {s : Settings} (room : s.recvBufferSize.toNat ≤ ReceiveBuffer.largest)
    (bind : Option SocketAddr) (address : SocketAddr) (datagrams : List Datagram) :
    listen s bind (.bound address (datagrams.map .datagram)) =
      ⟨.listening address :: (datagrams.flatMap (hear s.recvBufferSize.toNat) ++
          if s.readTimeoutMs.isSome then [.idle datagrams.length] else []),
        if s.readTimeoutMs.isSome then some (.done datagrams.length) else none⟩ := by
  obtain ⟨listener, started, size, received⟩ := exists_start? room
  rw [listen]
  simp only [started, listenOn_datagrams, size, received, Nat.zero_add]

/-- Where its address can be bound and its buffer can be had, a listener under a timeout comes to its
end, counts every datagram, and has logged one entry for each, in order, between the opening and the
closing line. An entry depends on the datagram, its sender and the size of the buffer alone: it is the
same in every turn, whatever came into the buffer before. -/
theorem listen_log (s : Settings) (waits : s.readTimeoutMs.isSome = true)
    (room : s.recvBufferSize.toNat ≤ ReceiveBuffer.largest) (bind : Option SocketAddr)
    (address : SocketAddr) (datagrams : List Datagram) :
    let size := s.recvBufferSize.toNat
    let run := listen s bind (.bound address (datagrams.map .datagram))
    run.ending = some (.done datagrams.length) ∧
    run.events.map Event.record =
      ⟨.info, "Listening for puncher messages on " ++ String.ofList address.text, []⟩ ::
        datagrams.flatMap (entry size) ++
        [⟨.info, "No datagram within read timeout, stopping",
          [("received", .count datagrams.length)]⟩] ∧
    ∀ (listener : Listener) (d : Datagram), listener.buffer.size = size →
      let now := turn listener (some (.datagram d))
      now.events.map Event.record = entry size d ∧ now.result = none ∧
        now.listener.received = listener.received + 1 ∧ now.listener.buffer.size = size := by
  intro size run
  have isRun : run = ⟨.listening address :: (datagrams.flatMap (hear size) ++
      [.idle datagrams.length]), some (.done datagrams.length)⟩ := by
    have whole := listen_datagrams room bind address datagrams
    rwa [waits, if_pos rfl, if_pos rfl] at whole
  have entries : (datagrams.flatMap (hear size)).map Event.record = datagrams.flatMap (entry size) := by
    rw [List.map_flatMap]
    exact congrArg (datagrams.flatMap ·) (funext (record_hear size))
  refine ⟨?_, ?_, ?_⟩
  · rw [isRun]
  · rw [isRun, List.map_cons, List.map_append, entries]
    rfl
  · intro listener d same now
    have isTurn : now = _ := turn_datagram listener d
    refine ⟨?_, ?_, ?_, ?_⟩
    · rw [isTurn, same, record_hear]
    · rw [isTurn]
    · rw [isTurn]
    · rw [isTurn]
      exact same

/-- A message that is cut short comes behind a whole one of its kind, which fills the buffer. -/
theorem listen_log_stale :
    let s : Settings := { Settings.standard with recvBufferSize := 38, readTimeoutMs := some 50 }
    let here : SocketAddr := .v4 ⟨127, 0, 0, 1⟩ 11113
    let there : SocketAddr := .v4 ⟨127, 0, 0, 1⟩ 4000
    let datagrams : List Datagram :=
      [⟨there, [0x51, 1, 0x39, 5, 0, 0]⟩, ⟨there, [0x51, 1, 7]⟩, ⟨here, [0x54, 1, 9]⟩]
    let run := listen s none (.bound here (datagrams.map .datagram))
    s.readTimeoutMs.isSome = true ∧ s.recvBufferSize.toNat ≤ ReceiveBuffer.largest ∧
      run.ending = some (.done 3) ∧
      run.events.map Event.record =
        [⟨.info, "Listening for puncher messages on 127.0.0.1:11113", []⟩,
          ⟨.debug, "datagram received", [("peer", .text "127.0.0.1:4000"), ("bytes", .count 6)]⟩,
          ⟨.info, "AssID v1 cid=1337",
            [("peer", .text "127.0.0.1:4000"), ("bytes", .count 6),
              ("session", .text "Some(SessionId(1337))")]⟩,
          ⟨.debug, "datagram received", [("peer", .text "127.0.0.1:4000"), ("bytes", .count 3)]⟩,
          ⟨.warn,
            "netpuncher: truncated AssID session id: need 4 bytes at offset 2, 1 available",
            [("peer", .text "127.0.0.1:4000"), ("bytes", .count 3), ("raw", .text "510107")]⟩,
          ⟨.debug, "datagram received", [("peer", .text "127.0.0.1:11113"), ("bytes", .count 3)]⟩,
          ⟨.info, "IDReq v1 (session ID requested)",
            [("peer", .text "127.0.0.1:11113"), ("bytes", .count 3)]⟩,
          ⟨.info, "No datagram within read timeout, stopping", [("received", .count 3)]⟩] := by
  intro s here there datagrams run
  have room : s.recvBufferSize.toNat ≤ ReceiveBuffer.largest := by decide
  obtain ⟨ended, log, -⟩ := listen_log s rfl room none here datagrams
  exact ⟨rfl, room, ended, log.trans (by decide +kernel)⟩

/-- Settings that are accepted may ask for a buffer larger than any can be, and for an address that
cannot be bound: then nothing is counted. And the same bytes from two senders have two entries. -/
theorem listen_log_exceptions :
    let large : Settings :=
      { Settings.standard with recvBufferSize := 9223372036854775808, readTimeoutMs := some 50 }
    let s : Settings := { Settings.standard with readTimeoutMs := some 50 }
    let here : SocketAddr := .v4 ⟨127, 0, 0, 1⟩ 11113
    let there : SocketAddr := .v4 ⟨127, 0, 0, 1⟩ 4000
    let start : Listener := ⟨⟨38, [], Nat.zero_le 38⟩, 0⟩
    large.check = .ok () ∧ (listen large none (.bound here [])).ending = some .crashed ∧
      s.check = .ok () ∧
      (listen s none (.refused "Address in use")).ending =
        some (.failed (.unbound s.bindAddress "Address in use")) ∧
      (turn start (some (.datagram ⟨here, [0x54, 1]⟩))).events.map Event.record ≠
        (turn start (some (.datagram ⟨there, [0x54, 1]⟩))).events.map Event.record := by
  intro large s here there start
  have accepted : large.check = .ok () ∧ s.check = .ok () := by
    constructor
    · rw [Settings.check, if_neg (by decide), if_neg (by decide)]
    · rw [Settings.check, if_neg (by decide), if_neg (by decide)]
  have crashed : (listen large none (.bound here [])).ending = some .crashed := by decide +kernel
  refine ⟨accepted.1, crashed, accepted.2, rfl, ?_⟩
  decide +kernel

end HolePunch.Exchange
