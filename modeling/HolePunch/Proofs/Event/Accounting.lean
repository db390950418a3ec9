import HolePunch.Proofs.Chain
import HolePunch.Proofs.Frame.Ending
import HolePunch.Proofs.Source.Reads

/-!
# What decoding reports

`Accounts` says that a step which gives a message reports it once, with as many bytes as it took,
and that any other step reports nothing. `accounts_perform` and `Source.accounts_readMessage` say so
of a step on a frame buffer and of one read, and `Event.accounts_runs` of every run of them.
-/

namespace HolePunch

/-- Of the bytes before a step and after it, the message that it gives, if it does, and what it
reports: a message is reported once, with its kind and the count of the bytes that are gone from the
front, and nothing else is reported. -/
def Accounts (before after : Bytes) : Option Message → List Event → Prop
  | none, events => events = []
  | some m, events => ∃ taken event what,
    before = taken ++ after ∧ events = [event] ∧
      event.record = ⟨.trace, "decoded puncher " ++ what,
        [("message_type", .text m.kind.name), ("bytes", .count taken.length)]⟩

/-! ### Steps on a frame buffer -/

namespace Frame

def Yield.message? : Yield → Option Message
  | .message m => some m
  | .nothing | .encoded | .refused _ => none

/-- An action on a buffer reports the message that it gives, and nothing else. -/
def Effect.Accounted (before : Bytes) (effect : Effect) : Prop :=
  Accounts before effect.buffer effect.yield.message? effect.events

variable {mode : Mode} {b : Bytes}

theorem accounted_wait (b : Bytes) : (Step.wait b).effect.Accounted b := rfl

theorem accounted_error (b rest : Bytes) (e : ProtocolError) :
    (Step.effect ⟨some (.error e), rest, []⟩).Accounted b := rfl

theorem accounted_decodeStream (b : Bytes) : (decodeStream b).effect.Accounted b := by
  have allowed := decodeStream_step b
  generalize decodeStream b = step at allowed ⊢
  cases allowed with
  | noHeader | cut => exact accounted_wait b
  | lost | refused => exact accounted_error b _ _
  | @message m spelled =>
    have length : (b.take m.size).length = m.size := List.length_take_of_le spelled.whole
    refine ⟨b.take m.size, .frame m.kind m.size, "frame", ?_, rfl, ?_⟩
    · exact (List.take_append_drop m.size b).symm
    · rw [length]
      rfl

theorem accounted_decodeDatagram (b : Bytes) : (decodeDatagram b).effect.Accounted b := by
  by_cases empty : b = []
  · subst b
    exact accounted_wait []
  · rw [decodeDatagram_of_ne_nil empty]
    cases given : Message.decode b with
    | error e =>
      rw [take_of_error given]
      exact accounted_error b _ e
    | ok m =>
      rw [take_of_ok given]
      exact ⟨b, .datagram m.kind b.length, "datagram", (List.append_nil b).symm, rfl, rfl⟩

theorem accounted_decode (mode : Mode) (b : Bytes) : (decode mode b).effect.Accounted b := by
  cases mode with
  | stream => exact accounted_decodeStream b
  | datagram => exact accounted_decodeDatagram b

/-- What is left at the end of the bytes is no message: its step is an error and reports nothing. -/
theorem exists_decodeLeftover (waits : (decode mode b).result = none)
    (more : (decode mode b).buffer ≠ []) :
    ∃ e, decodeEof mode b = decodeLeftover (decode mode b).buffer ∧
      decodeLeftover (decode mode b).buffer = ⟨some (.error e), [], []⟩ := by
  have left := decodeEof_of_none waits more
  have same : (decode mode b).buffer = b := by rw [decode_of_result_none waits, Step.wait]
  rw [same] at more
  obtain ⟨e, -, given, -⟩ := decodeEof_leftover waits more
  exact ⟨e, left, left.symm.trans given⟩

theorem accounted_decodeEof (mode : Mode) (b : Bytes) : (decodeEof mode b).effect.Accounted b := by
  cases given : (decode mode b).result with
  | some item =>
    rw [decodeEof_of_some given]
    exact accounted_decode mode b
  | none =>
    by_cases empty : b = []
    · subst b
      rw [decodeEof_nil]
      exact accounted_wait []
    · -- This step would give a message without a report, so it matters that it is an error.
      obtain ⟨e, -, left, -⟩ := decodeEof_leftover given empty
      rw [left]
      exact accounted_error b [] e

theorem accounted_perform (mode : Mode) (b : Bytes) (action : Action) :
    (perform mode b action).Accounted b := by
  cases action with
  | feed chunk => rfl
  | decode => exact accounted_decode mode b
  | decodeEof => exact accounted_decodeEof mode b
  | encode m =>
    simp only [perform]
    split <;> rfl

theorem chain_performAll (mode : Mode) (b : Bytes) (actions : List Action) :
    Chain Effect.buffer Effect.Accounted b (performAll mode b actions) := by
  induction actions generalizing b with
  | nil => exact .done b
  | cons action later ih => exact .next (accounted_perform mode b action) (ih _)

theorem length_performAll (mode : Mode) (b : Bytes) (actions : List Action) :
    (performAll mode b actions).length = actions.length := by
  induction actions generalizing b with
  | nil => rfl
  | cons action later ih => exact congrArg (· + 1) (ih _)

end Frame

/-! ### Single reads -/

def Delivery.contents : Delivery → Bytes
  | .bytes arrived => arrived
  | .failure _ => []

namespace Source

/-- The bytes that are still to come. -/
def contents (source : Source) : Bytes := source.flatMap Delivery.contents

/-- A call reports the message that it gives, and nothing else. -/
def Answer.Accounted (before : Source) (answer : Answer) : Prop :=
  Accounts before.contents answer.source.contents answer.result.toOption answer.events

theorem contents_read {source later : Source} {bytes : Bytes} {window : Nat}
    (given : source.read window = (.ok bytes, later)) :
    source.contents = bytes ++ later.contents := by
  match source with
  | [] =>
    cases given
    rfl
  | .failure text :: rest => cases given
  | .bytes arrived :: rest =>
    rw [read_bytes] at given
    obtain ⟨front, rfl⟩ := Prod.mk.inj given
    obtain rfl := Except.ok.inj front
    split
    · next fits =>
      rw [List.take_of_length_le fits]
      rfl
    · change arrived ++ contents rest =
        arrived.take window ++ (arrived.drop window ++ contents rest)
      rw [← List.append_assoc, List.take_append_drop]

theorem accounted_readMessage (source : Source) : source.readMessage.Accounted source := by
  match given : source.read maxPacketSize with
  | (.error text, later) =>
    simp only [readMessage, given]
    rfl
  | (.ok bytes, later) =>
    simp only [readMessage, given, decodeRead]
    cases Message.decode bytes with
    | error e => rfl
    | ok m => exact ⟨bytes, .message m.kind bytes.length, "message", contents_read given, rfl, rfl⟩

theorem chain_readMessages (source : Source) (count : Nat) :
    Chain Answer.source Answer.Accounted source (source.readMessages count) := by
  induction count generalizing source with
  | zero => exact .done source
  | succ count ih => exact .next (accounted_readMessage source) (ih _)

end Source

namespace AsyncSource

/-- An awaited call reports the message that it gives, and nothing else. -/
def Answer.Accounted (before : AsyncSource) (answer : Answer) : Prop :=
  Accounts before.deliveries.contents answer.source.deliveries.contents answer.result.toOption
    answer.events

theorem accounted_readMessage (source : AsyncSource) : source.readMessage.Accounted source := by
  have settled := Source.accounted_readMessage source.deliveries
  rwa [← settled_readMessage] at settled

theorem chain_readMessages (source : AsyncSource) (count : Nat) :
    Chain Answer.source Answer.Accounted source (source.readMessages count) := by
  induction count generalizing source with
  | zero => exact .done source
  | succ count ih => exact .next (accounted_readMessage source) (ih _)

end AsyncSource

/-! ### Runs -/

/-- In every run on a frame buffer, and of either reader, each step that gives a message reports it
once, with its kind and the count of the bytes that the step took, and every other step reports
nothing. The step that decodes what is left at the end of the bytes would not report a message, but
it never gives one. -/
theorem Event.accounts_runs (mode : Frame.Mode) (b : Bytes) (actions : List Frame.Action)
    (source : Source) (polls : AsyncSource) (count : Nat) :
    (Chain Frame.Effect.buffer Frame.Effect.Accounted b (Frame.performAll mode b actions) ∧
      (Frame.performAll mode b actions).length = actions.length) ∧
    Chain Source.Answer.source Source.Answer.Accounted source (source.readMessages count) ∧
    Chain AsyncSource.Answer.source AsyncSource.Answer.Accounted polls
      (polls.readMessages count) ∧
    ∀ buffer : Bytes, (Frame.decode mode buffer).result = none →
      (Frame.decode mode buffer).buffer ≠ [] →
      ∃ e, Frame.decodeEof mode buffer = Frame.decodeLeftover (Frame.decode mode buffer).buffer ∧
        Frame.decodeLeftover (Frame.decode mode buffer).buffer = ⟨some (.error e), [], []⟩ :=
  ⟨⟨Frame.chain_performAll mode b actions, Frame.length_performAll mode b actions⟩,
    Source.chain_readMessages source count, AsyncSource.chain_readMessages polls count,
    fun _ waits more => Frame.exists_decodeLeftover waits more⟩

end HolePunch
