import HolePunch.Inspect.Commands
import HolePunch.Proofs.Frame.Intake

/-!
# Dumping a capture

A dump prints the messages that plain decoding finds in the bytes of a capture, one line each, and
ends in a count or in the error of the bytes that are left (`dump_eq_decodeAll`). The reads in which
the capture came make no difference.
-/

namespace HolePunch.Inspect

open Message (Incomplete decodeAll)

theorem dumpItems_append (number : Nat) (ms : List Message)
    (later : List (Except ReadError Message)) :
    dumpItems number (ms.map .ok ++ later) =
      ⟨(ms.zipIdx number).flatMap (fun (m, k) => dumpLine k m) ++
          (dumpItems (number + ms.length) later).output,
        (dumpItems (number + ms.length) later).result⟩ := by
  induction ms generalizing number with
  | nil => rfl
  | cons m ms ih =>
    have next : number + 1 + ms.length = number + (m :: ms).length := by
      rw [List.length_cons]
      omega
    rw [List.map_cons, List.cons_append, dumpItems, ih, next]
    simp only [List.zipIdx_cons, List.flatMap_cons, List.append_assoc]

/-- The items of a source that comes to its end: the messages that plain decoding finds, and the
error of what is left, unless nothing is. -/
theorem items_readAll {bytes : Bytes} {source last : Source}
    (delivered : Frame.Delivers source bytes last)
    (ended : (last.read Frame.readWindow).1 = .ok []) :
    ∃ e, Message.decode (decodeAll bytes).rest = .error e ∧
      (Frame.readAll .stream [] source).items =
        (decodeAll bytes).messages.map .ok ++
          if (decodeAll bytes).rest = [] then [] else [.error (.protocol e)] := by
  have start : Incomplete [] := .inl (by decide)
  obtain ⟨waits, fails⟩ := Frame.readAll_of_delivers delivered start
  rw [List.nil_append] at waits fails
  by_cases short : Incomplete (decodeAll bytes).rest
  · obtain ⟨e, refused⟩ := Message.exists_error_rest bytes
    have stop : last.read Frame.readWindow = (.ok [], (last.read Frame.readWindow).2) :=
      Prod.ext ended rfl
    refine ⟨e, refused, ?_⟩
    rw [waits short, Frame.readAll_of_end stop, Frame.drain_atEnd short refused]
    by_cases empty : (decodeAll bytes).rest = []
    · simp only [empty, if_true, Frame.Drained.items, Option.map_none, Option.toList_none,
        List.map_nil, List.append_nil]
    · simp only [empty, if_false, Frame.Drained.items, Option.map_some, Option.toList_some,
        List.map_nil, List.nil_append]
  · obtain ⟨e, refused, items⟩ := fails short
    have more : (decodeAll bytes).rest ≠ [] := by
      intro empty
      rw [empty] at short
      exact short start
    exact ⟨e, refused, by rw [items, if_neg more]⟩

/-- A dump prints a numbered line for each message that plain decoding finds, one behind the other,
in all the bytes of a capture. It gives their number if they take up the capture, and otherwise fails
at the next number, for the reason for which decoding what is left fails. -/
theorem dump_eq_decodeAll (chunks : List Bytes) (full : ∀ chunk ∈ chunks, chunk ≠ [])
    (last : Source) (ended : (last.read Frame.readWindow).1 = .ok []) :
    let all := decodeAll chunks.flatten
    let dumped := dump (chunks.map .bytes ++ last)
    dumped.output = (all.messages.zipIdx 1).flatMap (fun (m, k) =>
      Text.padLeft 4 (Text.decimal k) ++ "  ".toList ++ m.text ++ ['\n']) ∧
    (all.rest = [] → dumped.result = .ok all.messages.length) ∧
    (all.rest ≠ [] → ∃ e, Message.decode all.rest = .error e ∧
      let failure := Failure.undecodableAt (all.messages.length + 1) (.protocol e)
      dumped.result = .error failure ∧
        failure.message = s!"Failed to decode message #{all.messages.length + 1}" ∧
        failure.causes = [e.message]) := by
  intro all dumped
  obtain ⟨e, refused, items⟩ := items_readAll (Frame.delivers_chunks full last) ended
  have printed := dumpItems_append 1 all.messages
    (if all.rest = [] then [] else [.error (.protocol e)])
  rw [← items] at printed
  have isDump : dumped = _ := printed
  have line : ∀ (m : Message) (k : Nat), dumpLine k m =
      Text.padLeft 4 (Text.decimal k) ++ "  ".toList ++ m.text ++ ['\n'] := by
    intro m k
    simp only [dumpLine, List.append_assoc]
    rfl
  have next : 1 + all.messages.length = all.messages.length + 1 := Nat.add_comm _ _
  by_cases empty : all.rest = []
  · rw [if_pos empty, dumpItems, next, List.append_nil] at isDump
    rw [isDump]
    exact ⟨by simp only [line], fun _ => rfl, fun more => absurd empty more⟩
  · rw [if_neg empty, dumpItems, next, List.append_nil] at isDump
    rw [isDump]
    exact ⟨by simp only [line], fun none => absurd none empty,
      fun _ => ⟨e, refused, rfl, rfl, rfl⟩⟩

theorem dump_eq_decodeAll_cut :
    let chunks : List Bytes := [[0x54, 1, 0x51], [1, 0x39, 5, 0, 0, 0x53], [1, 0x69]]
    let last : Source := [.bytes [], .bytes [0x54, 1]]
    let dumped := dump (chunks.map .bytes ++ last)
    (∀ chunk ∈ chunks, chunk ≠ []) ∧ (last.read Frame.readWindow).1 = .ok [] ∧
      (decodeAll chunks.flatten).rest ≠ [] ∧
      dumped.output = "   1  IDReq v1\n   2  AssID v1 cid=1337\n".toList ∧
      dumped.result = .error (.undecodableAt 3
        (.protocol (.malformed (.truncated ⟨"CReq port", 2, 2, 1⟩)))) := by
  intro chunks last dumped
  have full : ∀ chunk ∈ chunks, chunk ≠ [] := by decide
  have ended : (last.read Frame.readWindow).1 = .ok [] := rfl
  have all : decodeAll chunks.flatten =
      ⟨[.new .idReq, .new (.assId ⟨1337⟩)], [0x53, 1, 0x69]⟩ := by
    rw [Message.decodeAll_of_ok (m := .new .idReq) rfl,
      Message.decodeAll_of_ok (m := .new (.assId ⟨1337⟩)) rfl, Message.decodeAll_of_error rfl]
    rfl
  obtain ⟨output, -, fails⟩ := dump_eq_decodeAll chunks full last ended
  rw [all] at output fails
  obtain ⟨e, refused, result, -⟩ := fails (List.cons_ne_nil _ _)
  cases refused
  have more : (decodeAll chunks.flatten).rest ≠ [] := by
    rw [all]
    exact List.cons_ne_nil _ _
  exact ⟨full, ended, more, output.trans (by decide +kernel), result⟩

end HolePunch.Inspect
