import HolePunch.Frame.Transport
import HolePunch.Proofs.Frame.Stream
import HolePunch.Proofs.Message.Front

/-!
# Reading a source to its end

A stream decoder gives what plain decoding gives, except that it waits at the beginning of a message
(`decodeStream_of_error`). So what comes out of a source is decided by the bytes that it delivers and
not by the reads in which they come: `readAll_of_delivers` carries this through the reads, and
`readAll_failure` says what a read that fails leaves behind.
-/

namespace HolePunch.Frame

open Message (Incomplete decodeAll encodeAll)

variable {b : Bytes} {m : Message} {e : ProtocolError}

/-! ### Plain decoding and the steps of a stream -/

theorem decodeStream_of_ok (given : Message.decode b = .ok m) :
    decodeStream b = ⟨some (.ok m), b.drop m.size, [.frame m.kind m.size]⟩ :=
  (StreamStep.message (Message.decode_eq_ok_iff.mp given)).eq

theorem decodeStream_of_error (refused : Message.decode b = .error e) :
    (Incomplete b → decodeStream b = .wait b) ∧
      (¬Incomplete b → (decodeStream b).result = some (.error e)) := by
  have allowed := decodeStream_step b
  generalize decodeStream b = step at allowed
  cases allowed with
  | noHeader short => exact ⟨fun _ => rfl, fun complete => absurd (.inl short) complete⟩
  | cut head short =>
    exact ⟨fun _ => rfl, fun complete => absurd ((Message.incomplete_tag_iff head).mpr short) complete⟩
  | lost head unregistered =>
    have same := (Decodes.unknownType head unregistered).decode_eq
    obtain rfl := Except.error.inj (refused.symm.trans same)
    have complete := Message.not_incomplete_of_unregistered head unregistered
    exact ⟨fun short => absurd short complete, fun _ => rfl⟩
  | refused head whole other =>
    have same := (Decodes.unsupportedVersion head other).decode_eq
    obtain rfl := Except.error.inj (refused.symm.trans same)
    refine ⟨fun short => ?_, fun _ => rfl⟩
    exact absurd ((Message.incomplete_tag_iff head).mp short) (Nat.not_lt.mpr whole)
  | message spelled =>
    cases refused.symm.trans (Message.decode_eq_ok_iff.mpr spelled)

/-! ### Draining a buffer -/

theorem drain_of_none {atEnd : Bool} {mode : Mode} (waits : (step atEnd mode b).result = none) :
    drain atEnd mode b = ⟨[], none, (step atEnd mode b).buffer⟩ := by
  rw [drain]
  split
  · rfl
  · next given => cases waits.symm.trans given
  · next given => cases waits.symm.trans given

theorem drain_of_error {atEnd : Bool} {mode : Mode}
    (refused : (step atEnd mode b).result = some (.error e)) :
    drain atEnd mode b = ⟨[], some e, (step atEnd mode b).buffer⟩ := by
  rw [drain]
  split
  · next waits => cases refused.symm.trans waits
  · next given =>
    cases refused.symm.trans given
    rfl
  · next given => cases refused.symm.trans given

theorem drain_of_ok {atEnd : Bool} {mode : Mode}
    (given : (step atEnd mode b).result = some (.ok m)) :
    drain atEnd mode b =
      let later := drain atEnd mode (step atEnd mode b).buffer
      ⟨m :: later.messages, later.error, later.buffer⟩ := by
  rw [drain]
  split
  · next waits => cases given.symm.trans waits
  · next refused => cases given.symm.trans refused
  · next again =>
    cases given.symm.trans again
    rfl

/-- A stream gives the messages that plain decoding finds, and waits at the beginning of a message;
any other rest is an error. -/
theorem drain_stream (b : Bytes) :
    let all := decodeAll b
    (Incomplete all.rest → drain false .stream b = ⟨all.messages, none, all.rest⟩) ∧
      (¬Incomplete all.rest → ∃ e buffer, Message.decode all.rest = .error e ∧
        drain false .stream b = ⟨all.messages, some e, buffer⟩) := by
  induction b using Message.decodeAll_induction with
  | stops b e refused =>
    obtain ⟨waits, fails⟩ := decodeStream_of_error refused
    rw [Message.decodeAll_of_error refused]
    constructor
    · intro short
      have step : step false .stream b = .wait b := waits short
      rw [drain_of_none (congrArg Step.result step), step]
      rfl
    · intro complete
      exact ⟨e, _, refused, drain_of_error (fails complete)⟩
  | goes b m given ih =>
    have step : step false .stream b = ⟨some (.ok m), b.drop m.size, [.frame m.kind m.size]⟩ :=
      decodeStream_of_ok given
    obtain ⟨waits, fails⟩ := ih
    rw [Message.decodeAll_of_ok given, drain_of_ok (congrArg Step.result step), step]
    constructor
    · intro short
      rw [waits short]
    · intro complete
      obtain ⟨e, buffer, refused, rest⟩ := fails complete
      exact ⟨e, buffer, refused, by rw [rest]⟩

/-- At the end of a stream the beginning of a message is an error, and nothing is left. -/
theorem drain_atEnd (short : Incomplete b) (refused : Message.decode b = .error e) :
    drain true .stream b = ⟨[], if b = [] then none else some e, []⟩ := by
  have waits : decode .stream b = .wait b := (decodeStream_of_error refused).1 short
  by_cases empty : b = []
  · subst empty
    exact drain_of_none rfl
  · have none : (decode .stream b).result = none := by rw [waits, Step.wait]
    have more : (decode .stream b).buffer ≠ [] := by rwa [waits, Step.wait]
    have last : step true .stream b = ⟨some (.error e), [], []⟩ := by
      rw [step, if_pos rfl, decodeEof_of_none none more, waits, Step.wait, decodeLeftover, refused]
    rw [drain_of_error (congrArg Step.result last), last, if_neg empty]

/-! ### Reads -/

variable {source next last : Source} {chunk : Bytes}

/-- Reads of a source give some bytes each, these bytes in all, and leave the source at a place. -/
inductive Delivers : Source → Bytes → Source → Prop where
  | nil (source : Source) : Delivers source [] source
  | read {source next last : Source} {chunk bytes : Bytes}
      (given : source.read readWindow = (.ok chunk, next)) (some : chunk ≠ [])
      (later : Delivers next bytes last) : Delivers source (chunk ++ bytes) last

theorem Delivers.delivery {bytes : Bytes} (some : chunk ≠ []) (later : Delivers next bytes last) :
    Delivers (.bytes chunk :: next) (chunk ++ bytes) last := by
  -- A chunk that is longer than the window takes several reads, all of them full but the last.
  induction length : chunk.length using Nat.strongRecOn generalizing chunk with
  | ind n ih =>
    have given := Source.read_bytes readWindow chunk next
    by_cases fits : chunk.length ≤ readWindow
    · rw [if_pos fits, List.take_of_length_le fits] at given
      exact .read given some later
    · rw [if_neg fits] at given
      have room : 0 < readWindow := by decide
      have front : chunk.take readWindow ≠ [] := by
        rw [← List.length_pos_iff, List.length_take]
        omega
      have back : chunk.drop readWindow ≠ [] := by
        rw [← List.length_pos_iff, List.length_drop]
        omega
      have shorter : (chunk.drop readWindow).length < n := by
        rw [List.length_drop]
        omega
      have both := Delivers.read given front (ih _ shorter back rfl)
      rwa [← List.append_assoc, List.take_append_drop] at both

theorem delivers_chunks {chunks : List Bytes} (full : ∀ chunk ∈ chunks, chunk ≠ [])
    (last : Source) : Delivers (chunks.map .bytes ++ last) chunks.flatten last := by
  induction chunks with
  | nil => exact .nil last
  | cons chunk chunks ih =>
    obtain ⟨here, rest⟩ := List.forall_mem_cons.mp full
    exact (ih rest).delivery here

theorem readAll_of_failure {mode : Mode} {text : String}
    (failed : source.read readWindow = (.error text, next)) (buffer : Bytes) :
    readAll mode buffer source = ⟨[.error (.failed text)], buffer, next⟩ := by
  rw [readAll]
  split
  · next given =>
    cases failed.symm.trans given
    rfl
  · next given => cases failed.symm.trans given
  · next given => cases failed.symm.trans given

theorem readAll_of_end {mode : Mode} (ended : source.read readWindow = (.ok [], next))
    (buffer : Bytes) :
    readAll mode buffer source =
      ⟨(drain true mode buffer).items, (drain true mode buffer).buffer, next⟩ := by
  rw [readAll]
  split
  · next given => cases ended.symm.trans given
  · next given =>
    cases ended.symm.trans given
    rfl
  · next given => cases ended.symm.trans given

theorem readAll_of_read {mode : Mode} (given : source.read readWindow = (.ok chunk, next))
    (some : chunk ≠ []) {buffer rest : Bytes} {ms : List Message}
    (drained : drain false mode (buffer ++ chunk) = ⟨ms, none, rest⟩) :
    readAll mode buffer source =
      let later := readAll mode rest next
      ⟨ms.map .ok ++ later.items, later.buffer, later.source⟩ := by
  rw [readAll]
  split
  · next other => cases given.symm.trans other
  · next other =>
    cases given.symm.trans other
    exact absurd rfl some
  · next other =>
    cases given.symm.trans other
    simp only [drained, Drained.items, Option.map_none, Option.toList_none, List.append_nil]

theorem readAll_of_read_error {mode : Mode} (given : source.read readWindow = (.ok chunk, next))
    (some : chunk ≠ []) {buffer rest : Bytes} {ms : List Message}
    (drained : drain false mode (buffer ++ chunk) = ⟨ms, .some e, rest⟩) :
    readAll mode buffer source = ⟨ms.map .ok ++ [.error (.protocol e)], rest, next⟩ := by
  rw [readAll]
  split
  · next other => cases given.symm.trans other
  · next other =>
    cases given.symm.trans other
    exact absurd rfl some
  · next other =>
    cases given.symm.trans other
    simp only [drained, Drained.items, Option.map_some, Option.toList_some]

/-- What a source delivers comes out as plain decoding of all of it has it, in whatever reads it
came: messages, and then what is read next, or an error if the rest is no beginning of a message. -/
theorem readAll_of_delivers {bytes : Bytes} (delivered : Delivers source bytes last) {buffer : Bytes}
    (short : Incomplete buffer) :
    let all := decodeAll (buffer ++ bytes)
    (Incomplete all.rest →
      let later := readAll .stream all.rest last
      readAll .stream buffer source =
        ⟨all.messages.map .ok ++ later.items, later.buffer, later.source⟩) ∧
    (¬Incomplete all.rest → ∃ e, Message.decode all.rest = .error e ∧
      (readAll .stream buffer source).items =
        all.messages.map .ok ++ [.error (.protocol e)]) := by
  induction delivered generalizing buffer with
  | nil source =>
    obtain ⟨e, refused⟩ := Message.exists_error_of_incomplete short
    rw [List.append_nil, Message.decodeAll_of_error refused]
    exact ⟨fun _ => rfl, fun complete => absurd short complete⟩
  | @read source next last chunk bytes given some later ih =>
    obtain ⟨waits, fails⟩ := drain_stream (buffer ++ chunk)
    rw [← List.append_assoc, Message.decodeAll_append]
    by_cases now : Incomplete (decodeAll (buffer ++ chunk)).rest
    · obtain ⟨goes, stops⟩ := ih now
      rw [readAll_of_read given some (waits now)]
      constructor
      · intro rest
        rw [goes rest]
        simp only [List.map_append, List.append_assoc]
      · intro complete
        obtain ⟨e, refused, items⟩ := stops complete
        refine ⟨e, refused, ?_⟩
        simp only [items, List.map_append, List.append_assoc]
    · -- The bytes that would come later are not read, and would not take the error away.
      obtain ⟨e, rest, refused, drained⟩ := fails now
      have after := Message.decode_append_of_error now refused bytes
      rw [readAll_of_read_error given some drained, Message.decodeAll_of_error after]
      refine ⟨fun short => absurd short (Message.not_incomplete_append now bytes), fun _ => ?_⟩
      exact ⟨e, after, by rw [List.append_nil]⟩

/-- A read that fails takes nothing away: the messages before it are given, the beginning of a
message stays in the buffer, and what comes after the failure is not read. Bytes that are no
messages are an error instead, the same in whatever chunks they came. -/
theorem readAll_failure (chunks : List Bytes) (full : ∀ chunk ∈ chunks, chunk ≠ [])
    (text : String) (later : Source) :
    let all := decodeAll chunks.flatten
    let intake := readAll .stream [] (chunks.map .bytes ++ .failure text :: later)
    (∃ written, encodeAll all.messages = .ok written ∧ written ++ all.rest = chunks.flatten) ∧
    (Incomplete all.rest →
      intake = ⟨all.messages.map .ok ++ [.error (.failed text)], all.rest, later⟩ ∧
        (ReadError.failed text).message = "netpuncher: read failed: " ++ text) ∧
    (¬Incomplete all.rest → ∃ e, Message.decode all.rest = .error e ∧
      intake.items = all.messages.map .ok ++ [.error (.protocol e)]) := by
  intro all intake
  have start : Incomplete [] := .inl (by decide)
  obtain ⟨waits, fails⟩ :=
    readAll_of_delivers (delivers_chunks full (.failure text :: later)) start
  refine ⟨Message.encodeAll_decodeAll chunks.flatten, fun short => ⟨?_, rfl⟩, fails⟩
  have failed : Source.read readWindow (.failure text :: later) = (.error text, later) := rfl
  rw [show intake = _ from waits short, readAll_of_failure failed]
  rfl

/-- A failure behind the beginning of a message, and one behind a frame of another version. -/
theorem readAll_failure_cut :
    let cut : List Bytes := [[0x54, 1, 0x51], [1, 0x39, 5]]
    let refused : List Bytes := [[0x54, 1, 0x51, 2, 0], [0, 0, 0, 0x54, 1]]
    let later : Source := [.bytes [0, 0, 0x54, 1]]
    let failure : Delivery := .failure "connection reset"
    (∀ chunk ∈ cut, chunk ≠ []) ∧ (∀ chunk ∈ refused, chunk ≠ []) ∧
      Incomplete (decodeAll cut.flatten).rest ∧ ¬Incomplete (decodeAll refused.flatten).rest ∧
      readAll .stream [] (cut.map .bytes ++ failure :: later) =
        ⟨[.ok (.new .idReq), .error (.failed "connection reset")], [0x51, 1, 0x39, 5], later⟩ ∧
      (readAll .stream [] (refused.map .bytes ++ failure :: later)).items =
        [.ok (.new .idReq), .error (.protocol (.unsupportedVersion 2))] := by
  intro cut refused later failure
  have cutFull : ∀ chunk ∈ cut, chunk ≠ [] := by decide
  have refusedFull : ∀ chunk ∈ refused, chunk ≠ [] := by decide
  have cutAll : decodeAll cut.flatten = ⟨[.new .idReq], [0x51, 1, 0x39, 5]⟩ := by
    rw [Message.decodeAll_of_ok (m := .new .idReq) rfl, Message.decodeAll_of_error rfl]
    rfl
  have refusedAll : decodeAll refused.flatten =
      ⟨[.new .idReq], [0x51, 2, 0, 0, 0, 0, 0x54, 1]⟩ := by
    rw [Message.decodeAll_of_ok (m := .new .idReq) rfl, Message.decodeAll_of_error rfl]
    rfl
  have short : Incomplete (decodeAll cut.flatten).rest := by
    rw [cutAll]
    exact .inr ⟨.assId, rfl, by decide⟩
  have complete : ¬Incomplete (decodeAll refused.flatten).rest := by
    have head : [0x51, 2, 0, 0, 0, 0, 0x54, 1].take headerSize = [Kind.assId.tag, 2] := rfl
    rw [refusedAll, Message.incomplete_tag_iff head]
    decide
  obtain ⟨-, waits, -⟩ := readAll_failure cut cutFull "connection reset" later
  obtain ⟨-, -, fails⟩ := readAll_failure refused refusedFull "connection reset" later
  obtain ⟨waits, -⟩ := waits short
  obtain ⟨e, isError, items⟩ := fails complete
  rw [refusedAll] at isError items
  cases isError
  rw [cutAll] at waits
  exact ⟨cutFull, refusedFull, short, complete, waits, items⟩

end HolePunch.Frame
