import HolePunch.Proofs.Frame.Delivery
import HolePunch.Proofs.Frame.Plain

/-!
# The end of the bytes

When no more bytes come, every step gives something until the buffer is empty, and takes at least
two bytes or all that is left (`take_decodeEof`). So repeated steps come to an end, and the beginning
of a message becomes the error that plain decoding gives for it (`decodeEof_leftover`).
-/

namespace HolePunch.Frame

open Message (Incomplete)

variable {mode : Mode} {b : Bytes}

/-! ### One step -/

theorem eq_nil_of_datagram_waits (waits : (decodeDatagram b).result = none) : b = [] := by
  by_contra more
  rw [decodeDatagram_of_ne_nil more, result_take] at waits
  cases waits

theorem decode_of_result_none (waits : (decode mode b).result = none) : decode mode b = .wait b := by
  cases mode with
  | stream =>
    have allowed : StreamStep b (decode .stream b) := decodeStream_step b
    generalize decode .stream b = step at allowed waits ⊢
    cases allowed with
    | noHeader | cut => rfl
    | lost | refused | message => cases waits
  | datagram =>
    rw [eq_nil_of_datagram_waits waits]
    rfl

theorem decodeEof_nil (mode : Mode) : decodeEof mode [] = .wait [] := by cases mode <;> rfl

theorem decodeEof_of_waits (waits : (decode mode b).result = none) (more : b ≠ []) :
    decodeEof mode b = ⟨some (Message.decode b), [], []⟩ := by
  have same : (decode mode b).buffer = b := by rw [decode_of_result_none waits, Step.wait]
  have left := decodeEof_of_none waits (by rwa [same])
  rwa [same] at left

theorem isSome_decodeEof (mode : Mode) (more : b ≠ []) : (decodeEof mode b).result.isSome = true := by
  cases given : (decode mode b).result with
  | none =>
    rw [decodeEof_of_waits given more]
    rfl
  | some item =>
    rw [decodeEof_of_some given, given]
    rfl

theorem result_decodeEof_eq_none_iff : (decodeEof mode b).result = none ↔ b = [] := by
  constructor
  · intro none
    by_contra more
    have gives := isSome_decodeEof mode more
    rw [none] at gives
    cases gives
  · rintro rfl
    rw [decodeEof_nil]
    rfl

/-- A step that gives something takes at least a header, or all that is left. -/
theorem take_decode {item : Except ProtocolError Message} (given : (decode mode b).result = some item) :
    (decode mode b).buffer = [] ∨ (decode mode b).buffer.length + headerSize ≤ b.length := by
  cases mode with
  | stream =>
    have allowed : StreamStep b (decode .stream b) := decodeStream_step b
    have drop : ∀ kind : Kind, kind.size ≤ b.length →
        (b.drop kind.size).length + headerSize ≤ b.length := by
      intro kind whole
      have header := kind.headerSize_le_size
      rw [List.length_drop]
      omega
    generalize decode .stream b = step at allowed given ⊢
    cases allowed with
    | noHeader | cut => cases given
    | lost => exact .inl rfl
    | refused _ whole => exact .inr (drop _ whole)
    | message spelled => exact .inr (drop _ spelled.whole)
  | datagram =>
    have more : b ≠ [] := by
      rintro rfl
      cases given
    rw [decode, decodeDatagram_of_ne_nil more, buffer_take]
    exact .inl rfl

theorem take_decodeEof (mode : Mode) (b : Bytes) :
    (decodeEof mode b).buffer = [] ∨ (decodeEof mode b).buffer.length + headerSize ≤ b.length := by
  by_cases empty : b = []
  · subst b
    rw [decodeEof_nil]
    exact .inl rfl
  · cases given : (decode mode b).result with
    | none =>
      rw [decodeEof_of_waits given empty]
      exact .inl rfl
    | some item =>
      rw [decodeEof_of_some given]
      exact take_decode given

/-- What is left after a step without a result is the beginning of a message. -/
theorem incomplete_of_waits (waits : (decode mode b).result = none) : Incomplete b := by
  cases mode with
  | stream => exact result_none_iff.mp waits
  | datagram =>
    rw [eq_nil_of_datagram_waits waits]
    exact .inl (by decide)

theorem decodeEof_leftover (waits : (decode mode b).result = none) (more : b ≠ []) :
    ∃ e, Message.decode b = .error e ∧ decodeEof mode b = ⟨some (.error e), [], []⟩ ∧
      ((∃ read, e = .notReadEnough read) ∨ (∃ version, e = .unsupportedVersion version) ∨
        ∃ shortage, e = .malformed (.truncated shortage)) := by
  have short := incomplete_of_waits waits
  obtain ⟨e, refused⟩ := Message.exists_error_of_incomplete short
  refine ⟨e, refused, by rw [decodeEof_of_waits waits more, refused], ?_⟩
  have outcome := Message.decodes_decode b
  rw [refused] at outcome
  cases outcome with
  | noHeader => exact .inl ⟨_, rfl⟩
  | unknownType => exact absurd short (not_incomplete_of_unknownType refused)
  | unsupportedVersion => exact .inr (.inl ⟨_, rfl⟩)
  | truncated => exact .inr (.inr ⟨_, rfl⟩)

/-! ### Repeated steps -/

/-- As many calls at the end of the bytes as are asked for. -/
abbrev eofCalls (calls : Nat) : List Action := List.replicate calls .decodeEof

theorem exhaust_atEnd_nil (mode : Mode) : exhaust true mode [] = ⟨[], []⟩ := by
  have ended : step true mode [] = .wait [] := decodeEof_nil mode
  rw [exhaust_of_result_none (by rw [ended]; rfl), ended]
  rfl

theorem ofStep_some_ne_nothing (item : Except ProtocolError Message) :
    Yield.ofStep (some item) ≠ .nothing := by
  cases item <;> exact nofun

theorem performAll_eofCalls_succ (mode : Mode) (b : Bytes) (calls : Nat) :
    performAll mode b (eofCalls (calls + 1)) =
      (decodeEof mode b).effect :: performAll mode (decodeEof mode b).buffer (eofCalls calls) := rfl

theorem items_effect {s : Step} {item : Except ProtocolError Message} (given : s.result = some item)
    (later : List Effect) : items (s.effect :: later) = item :: items later := by
  have yields : s.effect.yield.item? = some item := by rw [Step.effect, item?_ofStep, given]
  exact List.filterMap_cons_some yields

/-- Half as many calls as there are bytes, rounded up, are enough to come to the end. -/
theorem exists_eofCalls (mode : Mode) (b : Bytes) :
    ∃ calls ≤ (b.length + 1) / 2,
      (∀ effect ∈ performAll mode b (eofCalls calls), effect.yield ≠ .nothing) ∧
      bufferAfter mode b (eofCalls calls) = [] ∧
      exhaust true mode b = ⟨items (performAll mode b (eofCalls calls)), []⟩ := by
  induction length : b.length using Nat.strongRecOn generalizing b with
  | ind n ih =>
    by_cases empty : b = []
    · subst b
      exact ⟨0, Nat.zero_le _, nofun, rfl, exhaust_atEnd_nil mode⟩
    · obtain ⟨item, given⟩ := Option.isSome_iff_exists.mp (isSome_decodeEof mode empty)
      have shorter := length_decodeEof_lt (isSome_decodeEof mode empty)
      obtain ⟨calls, few, yields, drained, run⟩ := ih _ (length ▸ shorter) _ rfl
      refine ⟨calls + 1, ?_, ?_, drained, ?_⟩
      · -- Only the last call may take a single byte.
        rcases take_decodeEof mode b with all | most
        · rw [all, List.length_nil] at few shorter
          omega
        · simp only [headerSize] at most
          omega
      · rw [performAll_eofCalls_succ]
        refine List.forall_mem_cons.mpr ⟨?_, yields⟩
        rw [Step.effect, given]
        exact ofStep_some_ne_nothing item
      · have gives : (step true mode b).result = some item := given
        have rest : exhaust true mode (step true mode b).buffer = _ := run
        rw [exhaust_of_result_some gives, rest, performAll_eofCalls_succ, items_effect given]

/-- At the end of the bytes only an empty buffer gives nothing, and every other step shortens the
buffer; so repeated calls, after errors too, come to an empty buffer and then give nothing. What a
step would wait for is no message: it becomes the error that plain decoding gives for it, and
nothing of it is left. -/
theorem decodeEof_drains (mode : Mode) (b : Bytes) :
    ((decodeEof mode b).result = none ↔ b = []) ∧
    ((decodeEof mode b).result ≠ none → (decodeEof mode b).buffer.length < b.length) ∧
    (∃ calls ≤ (b.length + 1) / 2,
      (∀ effect ∈ performAll mode b (eofCalls calls), effect.yield ≠ .nothing) ∧
      bufferAfter mode b (eofCalls calls) = [] ∧
      perform mode [] .decodeEof = ⟨.nothing, [], []⟩ ∧
      exhaust true mode b = ⟨items (performAll mode b (eofCalls calls)), []⟩) ∧
    ((decode mode b).result = none → (decode mode b).buffer ≠ [] →
      ∃ e, Message.decode (decode mode b).buffer = .error e ∧
        decodeEof mode b = ⟨some (.error e), [], []⟩ ∧
        ((∃ read, e = .notReadEnough read) ∨ (∃ version, e = .unsupportedVersion version) ∨
          ∃ shortage, e = .malformed (.truncated shortage))) := by
  refine ⟨result_decodeEof_eq_none_iff, ?_, ?_, ?_⟩
  · intro gives
    exact length_decodeEof_lt (Option.isSome_iff_ne_none.mpr gives)
  · obtain ⟨calls, few, yields, drained, run⟩ := exists_eofCalls mode b
    have ended : perform mode [] .decodeEof = ⟨.nothing, [], []⟩ := by
      rw [perform, decodeEof_nil]
      rfl
    exact ⟨calls, few, yields, drained, ended, run⟩
  · intro waits more
    have same : (decode mode b).buffer = b := by rw [decode_of_result_none waits, Step.wait]
    rw [same] at more ⊢
    exact decodeEof_leftover waits more

example : decodeEof .stream [0x53, 1, 0x69] =
    ⟨some (.error (.malformed (.truncated ⟨"CReq port", 2, 2, 1⟩))), [], []⟩ := rfl

end HolePunch.Frame
