import HolePunch.AsyncSource
import HolePunch.Proofs.Message.Front

/-!
# Single reads, call after call

`Call` lists what one call of a reader may do to its source, and `Run` puts calls one after the
other. A call that finds more than a window of bytes leaves the rest for the next, so a run goes
through the pieces of the deliveries, one for each call (`Source.readMessages_single_reads`).
-/

namespace HolePunch

namespace Delivery

/-- The parts of a delivery that reads of the longest message's size find, one after the other. A
read that gives no bytes is one part too. -/
def pieces : Delivery → List Delivery
  | .bytes arrived =>
    (List.range ((arrived.length - 1) / maxPacketSize + 1)).map fun i =>
      .bytes ((arrived.drop (maxPacketSize * i)).take maxPacketSize)
  | .failure text => [.failure text]

theorem pieces_of_fits {d : Delivery} (fits : d.length ≤ maxPacketSize) : d.pieces = [d] := by
  cases d with
  | failure text => rfl
  | bytes arrived =>
    have one : (arrived.length - 1) / maxPacketSize = 0 :=
      Nat.div_eq_of_lt (Nat.lt_of_le_of_lt (Nat.sub_le_sub_right fits 1) (by decide))
    simp only [pieces, one, Nat.zero_add, List.range_one, List.map_singleton, Nat.mul_zero,
      List.drop_zero]
    rw [List.take_of_length_le fits]

theorem pieces_of_long {arrived : Bytes} (long : maxPacketSize < arrived.length) :
    (bytes arrived).pieces =
      .bytes (arrived.take maxPacketSize) :: (bytes (arrived.drop maxPacketSize)).pieces := by
  have more : (arrived.length - 1) / maxPacketSize =
      ((arrived.drop maxPacketSize).length - 1) / maxPacketSize + 1 := by
    rw [List.length_drop, Nat.sub_right_comm]
    exact Nat.div_eq_sub_div (by decide) (Nat.le_sub_one_of_lt long)
  rw [pieces, more, List.range_succ_eq_map, List.map_cons, List.map_map, Nat.mul_zero,
    List.drop_zero, pieces]
  simp only [Function.comp_def, List.drop_drop, Nat.succ_eq_add_one, Nat.mul_add_one,
    Nat.add_comm maxPacketSize]

end Delivery

namespace Source

/-- What a reader gives when its one read finds this, or nothing at all. -/
def outcome : Option Delivery → Except ReadError Message
  | some (.bytes arrived) => (Message.decode arrived).mapError .protocol
  | some (.failure text) => .error (.failed text)
  | none => .error (.protocol (.notReadEnough 0))

/-- One call: the source it finds, what it gives, and the source it leaves. -/
inductive Call : Source → Except ReadError Message → Source → Prop where
  | exhausted : Call [] (.error (.protocol (.notReadEnough 0))) []
  | failed (text : String) (later : Source) :
    Call (.failure text :: later) (.error (.failed text)) later
  | empty (later : Source) : Call (.bytes [] :: later) (.error (.protocol (.notReadEnough 0))) later
  | whole (arrived : Bytes) (later : Source) (fits : arrived.length ≤ maxPacketSize) :
    Call (.bytes arrived :: later) ((Message.decode arrived).mapError .protocol) later
  | front (arrived : Bytes) (later : Source) (long : maxPacketSize < arrived.length) :
    Call (.bytes arrived :: later)
      ((Message.decode (arrived.take maxPacketSize)).mapError .protocol)
      (.bytes (arrived.drop maxPacketSize) :: later)

/-- Calls one after the other, each on the source that the one before left. -/
inductive Run : Source → List Answer → Prop where
  | done (source : Source) : Run source []
  | call {source : Source} {answer : Answer} {answers : List Answer}
      (made : Call source answer.result answer.source) (rest : Run answer.source answers) :
    Run source (answer :: answers)

/-! ### One call -/

/-- A read does not depend on the deliveries behind the first. -/
theorem read_cons (window : Nat) (delivery : Delivery) (later : Source) :
    read window (delivery :: later) =
      ((read window [delivery]).1, (read window [delivery]).2 ++ later) := by
  cases delivery with
  | failure text => rfl
  | bytes arrived =>
    simp only [read]
    split <;> rfl

theorem call_readMessage (source : Source) :
    Call source source.readMessage.result source.readMessage.source := by
  match source with
  | [] => exact .exhausted
  | .failure text :: later => exact .failed text later
  | .bytes arrived :: later =>
    rw [readMessage, read_bytes]
    simp only [result_decodeRead, source_decodeRead]
    by_cases fits : arrived.length ≤ maxPacketSize
    · rw [if_pos fits, List.take_of_length_le fits]
      exact .whole arrived later fits
    · rw [if_neg fits]
      exact .front arrived later (Nat.lt_of_not_le fits)

namespace Call

variable {source later : Source} {result : Except ReadError Message}

theorem pieces_eq (made : Call source result later) :
    result = outcome (source.flatMap Delivery.pieces)[0]? ∧
      later.flatMap Delivery.pieces = (source.flatMap Delivery.pieces).tail := by
  cases made with
  | exhausted => exact ⟨rfl, rfl⟩
  | failed text => exact ⟨rfl, rfl⟩
  | empty => exact ⟨rfl, rfl⟩
  | whole arrived _ fits =>
    rw [List.flatMap_cons, Delivery.pieces_of_fits (d := .bytes arrived) fits]
    exact ⟨rfl, rfl⟩
  | front arrived later long =>
    rw [List.flatMap_cons, List.flatMap_cons, Delivery.pieces_of_long long]
    exact ⟨rfl, rfl⟩

theorem eq_tail (made : Call source result later) (fits : ∀ d ∈ source, d.length ≤ maxPacketSize) :
    later = source.tail := by
  cases made with
  | exhausted | failed | empty | whole => rfl
  | front arrived _ long =>
    have short : arrived.length ≤ maxPacketSize := fits (.bytes arrived) List.mem_cons_self
    exact absurd short (Nat.not_le.mpr long)

end Call

/-! ### Runs -/

theorem run_readMessages (source : Source) (count : Nat) :
    Run source (source.readMessages count) := by
  induction count generalizing source with
  | zero => exact .done source
  | succ count ih => exact .call (call_readMessage source) (ih _)

theorem length_readMessages (source : Source) (count : Nat) :
    (source.readMessages count).length = count := by
  induction count generalizing source with
  | zero => rfl
  | succ count ih => exact congrArg (· + 1) (ih _)

namespace Run

variable {source : Source} {answers : List Answer}

theorem results (run : Run source answers) :
    answers.map (·.result) =
      (List.range answers.length).map fun k => outcome (source.flatMap Delivery.pieces)[k]? := by
  induction run with
  | done => rfl
  | call made _ ih =>
    obtain ⟨result, later⟩ := made.pieces_eq
    rw [List.map_cons, List.length_cons, List.range_succ_eq_map, List.map_cons, List.map_map, ih,
      result, later]
    simp only [List.getElem?_tail, Function.comp_def]

theorem sources (run : Run source answers) (fits : ∀ d ∈ source, d.length ≤ maxPacketSize) :
    answers.map (·.source) = (List.range answers.length).map fun k => source.drop (k + 1) := by
  induction run with
  | done => rfl
  | call made _ ih =>
    have later := made.eq_tail fits
    rw [later] at ih
    rw [List.map_cons, List.length_cons, List.range_succ_eq_map, List.map_cons, List.map_map,
      ih fun d mem => fits d (List.mem_of_mem_tail mem), later, List.drop_one]
    simp only [List.drop_tail, Function.comp_def]

end Run

theorem flatMap_pieces_of_fits {source : Source}
    (fits : ∀ d ∈ source, d.length ≤ maxPacketSize) : source.flatMap Delivery.pieces = source := by
  induction source with
  | nil => rfl
  | cons d later ih =>
    rw [List.forall_mem_cons] at fits
    rw [List.flatMap_cons, Delivery.pieces_of_fits fits.1, ih fits.2, List.singleton_append]

end Source

/-! ### Awaited reads -/

namespace AsyncSource

theorem deliveries_cons (delivery : Delivery) (later : AsyncSource) :
    deliveries (.ready delivery :: later) = delivery :: later.deliveries := rfl

theorem deliveries_ready_append (source : Source) (later : AsyncSource) :
    deliveries (source.map .ready ++ later) = source ++ later.deliveries := by
  induction source with
  | nil => rfl
  | cons delivery source ih =>
    rw [List.map_cons, List.cons_append, deliveries_cons, ih, List.cons_append]

theorem read_deliveries (window : Nat) (source : AsyncSource) :
    source.deliveries.read window = ((source.read window).1, (source.read window).2.deliveries) := by
  induction source with
  | nil => rfl
  | cons poll later ih =>
    cases poll with
    | pending => exact ih
    | ready delivery =>
      rw [deliveries_cons, Source.read_cons, read, deliveries_ready_append]

theorem settled_readMessage (source : AsyncSource) :
    source.readMessage.settled = source.deliveries.readMessage := by
  rw [readMessage, Source.readMessage, read_deliveries]
  rcases source.read maxPacketSize with ⟨_ | bytes, later⟩
  · rfl
  · simp only [Answer.settled, Source.decodeRead]
    cases Message.decode bytes <;> rfl

theorem settled_readMessages (source : AsyncSource) (count : Nat) :
    (source.readMessages count).map Answer.settled = source.deliveries.readMessages count := by
  induction count generalizing source with
  | zero => rfl
  | succ count ih =>
    have first := settled_readMessage source
    have left : source.readMessage.source.deliveries = source.deliveries.readMessage.source :=
      congrArg Source.Answer.source first
    rw [readMessages, List.map_cons, ih, first, left, Source.readMessages]

end AsyncSource

/-! ### Both readers -/

namespace Source

/-- Each call makes one read and decodes just what it gave, so the calls go through the pieces of
the deliveries. Where every delivery fits into one read, a call's result is that of its delivery
whatever the calls before it gave. Awaiting the reads changes nothing. -/
theorem readMessages_single_reads (source : Source) (count : Nat) :
    let answers := source.readMessages count
    Run source answers ∧
    answers.map (·.result) =
      (List.range count).map (fun k => outcome (source.flatMap Delivery.pieces)[k]?) ∧
    ((∀ d ∈ source, d.length ≤ maxPacketSize) →
      answers.map (·.result) = (List.range count).map (fun k => outcome source[k]?) ∧
      answers.map (·.source) = (List.range count).map fun k => source.drop (k + 1)) ∧
    ∀ polls : AsyncSource, polls.deliveries = source →
      (polls.readMessages count).map AsyncSource.Answer.settled = answers := by
  intro answers
  have run : Run source answers := run_readMessages source count
  have length : answers.length = count := length_readMessages source count
  have results := run.results
  rw [length] at results
  refine ⟨run, results, ?_, ?_⟩
  · intro fits
    have sources := run.sources fits
    rw [length] at sources
    rw [flatMap_pieces_of_fits fits] at results
    exact ⟨results, sources⟩
  · rintro polls rfl
    exact AsyncSource.settled_readMessages polls count

/-- A reader goes on after a message of no known kind, a read that fails and a read of nothing. -/
theorem readMessages_single_reads_mixed :
    let source : Source :=
      [.bytes [0x99, 1], .failure "connection reset", .bytes [], .bytes [0x54, 1, 7]]
    let polls : AsyncSource :=
      [.pending, .ready (.bytes [0x99, 1]), .ready (.failure "connection reset"), .pending,
        .pending, .ready (.bytes []), .ready (.bytes [0x54, 1, 7])]
    (∀ d ∈ source, d.length ≤ maxPacketSize) ∧ polls.deliveries = source ∧
      (source.readMessages 5).map (·.result) =
        [.error (.protocol (.unknownType 0x99)), .error (.failed "connection reset"),
          .error (.protocol (.notReadEnough 0)), .ok (.new .idReq),
          .error (.protocol (.notReadEnough 0))] ∧
      (polls.readMessages 5).map AsyncSource.Answer.settled = source.readMessages 5 := by
  intro source polls
  have fits : ∀ d ∈ source, d.length ≤ maxPacketSize := by decide
  have same : polls.deliveries = source := rfl
  obtain ⟨-, -, short, awaited⟩ := readMessages_single_reads source 5
  exact ⟨fits, same, (short fits).1.trans rfl, awaited polls same⟩

end Source

end HolePunch
