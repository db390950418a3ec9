import HolePunch.Proofs.Frame.Stream

/-!
# Chunks of a stream

Feeding a stream in chunks gives what exhausting it at once gives, up to the first item after which
the boundaries are lost (`feedAll_agree`). Hence it does not matter where a stream is cut.
-/

namespace HolePunch.Frame

/-! ### Exhausting a buffer -/

theorem exhaust_of_none {buffer : Bytes} (waits : (decodeStream buffer).result = none) :
    exhaust false .stream buffer = ⟨[], buffer⟩ := by
  have given : (step false .stream buffer).result = none := waits
  have same : (step false .stream buffer).buffer = buffer :=
    (decodeStream_step buffer).buffer_of_result_none waits
  rw [exhaust_of_result_none given, same]

theorem exhaust_of_some {buffer : Bytes} {item : Except ProtocolError Message}
    (given : (decodeStream buffer).result = some item) :
    exhaust false .stream buffer =
      let later := exhaust false .stream (decodeStream buffer).buffer
      ⟨item :: later.items, later.buffer⟩ :=
  exhaust_of_result_some given

theorem exhaust_waits (buffer : Bytes) :
    (decodeStream (exhaust false .stream buffer).buffer).result = none := by
  induction buffer using step_induction with
  | waits buffer waits => rwa [exhaust_of_none waits]
  | gives buffer item given ih =>
    rw [exhaust_of_some given]
    exact ih

/-- The items up to the first after which the boundaries are lost, and with it. -/
def throughLost : List (Except ProtocolError Message) → List (Except ProtocolError Message)
  | [] => []
  | item :: later => if losesBoundary item then [item] else item :: throughLost later

theorem throughLost_eq_self {items : List (Except ProtocolError Message)}
    (kept : ∀ item ∈ throughLost items, losesBoundary item = false) :
    throughLost items = items := by
  induction items with
  | nil => rfl
  | cons item later ih =>
    unfold throughLost at kept ⊢
    split at kept
    · next gone => cases gone.symm.trans (kept item List.mem_cons_self)
    · next stays =>
      rw [if_neg stays, ih fun other member => kept other (List.mem_cons_of_mem item member)]

theorem mem_of_mem_throughLost {items : List (Except ProtocolError Message)}
    {item : Except ProtocolError Message} (member : item ∈ throughLost items) : item ∈ items := by
  induction items with
  | nil => exact member
  | cons first later ih =>
    unfold throughLost at member
    split at member
    · rw [List.mem_singleton.mp member]
      exact List.mem_cons_self
    · rcases List.mem_cons.mp member with same | inner
      · rw [same]
        exact List.mem_cons_self
      · exact List.mem_cons_of_mem first (ih inner)

/-- Two runs agree: they give the same up to the first lost boundary, and they leave the same when
none is lost. -/
structure Agree (p q : Exhausted) : Prop where
  items : throughLost p.items = throughLost q.items
  buffer : (∀ item ∈ throughLost p.items, losesBoundary item = false) → p.buffer = q.buffer

namespace Agree

theorem refl (p : Exhausted) : Agree p p := ⟨rfl, fun _ => rfl⟩

theorem symm {p q : Exhausted} (agree : Agree p q) : Agree q p :=
  ⟨agree.items.symm, fun kept => (agree.buffer (agree.items ▸ kept)).symm⟩

theorem trans {p q r : Exhausted} (first : Agree p q) (second : Agree q r) : Agree p r :=
  ⟨first.items.trans second.items,
    fun kept => (first.buffer kept).trans (second.buffer (first.items ▸ kept))⟩

theorem of_lost {item : Except ProtocolError Message} (gone : losesBoundary item = true)
    (left right : List (Except ProtocolError Message)) (b c : Bytes) :
    Agree ⟨item :: left, b⟩ ⟨item :: right, c⟩ := by
  have alone : ∀ later, throughLost (item :: later) = [item] := fun later => if_pos gone
  refine ⟨(alone left).trans (alone right).symm, fun kept => ?_⟩
  have stays := kept item (by rw [alone]; exact List.mem_cons_self)
  cases gone.symm.trans stays

theorem cons {p q : Exhausted} (agree : Agree p q) (item : Except ProtocolError Message) :
    Agree ⟨item :: p.items, p.buffer⟩ ⟨item :: q.items, q.buffer⟩ := by
  cases gone : losesBoundary item with
  | true => exact of_lost gone _ _ _ _
  | false =>
    have longer : ∀ later, throughLost (item :: later) = item :: throughLost later :=
      fun later => if_neg (by rw [gone]; decide)
    refine ⟨by rw [longer, longer, agree.items], fun kept => agree.buffer fun other member => ?_⟩
    exact kept other (by rw [longer]; exact List.mem_cons_of_mem item member)

theorem append {p q : Exhausted} (agree : Agree p q) (items : List (Except ProtocolError Message)) :
    Agree ⟨items ++ p.items, p.buffer⟩ ⟨items ++ q.items, q.buffer⟩ := by
  induction items with
  | nil => exact agree
  | cons item items ih => exact ih.cons item

theorem eq_of_kept {p q : Exhausted} (agree : Agree p q)
    (kept : ∀ item ∈ p.items, losesBoundary item = false) : p = q := by
  have stays : ∀ item ∈ throughLost p.items, losesBoundary item = false :=
    fun item member => kept item (mem_of_mem_throughLost member)
  have items : p.items = q.items := by
    rw [← throughLost_eq_self stays, agree.items]
    exact throughLost_eq_self (agree.items ▸ stays)
  have buffer := agree.buffer stays
  obtain ⟨_, _⟩ := p
  obtain ⟨_, _⟩ := q
  simp_all only

end Agree

/-- A step that gives something before more bytes arrive, and then what is left with them, agrees
with exhausting all of it at once. -/
theorem exhaust_append_of_some {buffer : Bytes} {item : Except ProtocolError Message}
    (given : (decodeStream buffer).result = some item) (more : Bytes) :
    let later := exhaust false .stream ((decodeStream buffer).buffer ++ more)
    Agree (exhaust false .stream (buffer ++ more)) ⟨item :: later.items, later.buffer⟩ := by
  have allowed := decodeStream_step buffer
  cases gone : losesBoundary item with
  | true =>
    -- The bytes behind a lost boundary are dropped, however many there are.
    have all := (allowed.append_lost given gone more).eq
    rw [exhaust_of_some (congrArg Step.result all)]
    exact .of_lost gone _ _ _ _
  | false =>
    have all := (allowed.append given gone more).eq
    have result : (decodeStream (buffer ++ more)).result = some item := by rw [all, given]
    rw [exhaust_of_some result, all]
    exact .refl _

/-- Exhausting a buffer before more bytes arrive, and then what is left with them, agrees with
exhausting all of it at once. -/
theorem exhaust_append (buffer more : Bytes) :
    let now := exhaust false .stream buffer
    let later := exhaust false .stream (now.buffer ++ more)
    Agree (exhaust false .stream (buffer ++ more)) ⟨now.items ++ later.items, later.buffer⟩ := by
  induction buffer using step_induction with
  | waits buffer waits =>
    rw [exhaust_of_none waits]
    exact .refl _
  | gives buffer item given ih =>
    rw [exhaust_of_some given]
    exact (exhaust_append_of_some given more).trans (ih.cons item)

theorem feedAll_agree (chunks : List Bytes) {buffer : Bytes}
    (waits : (decodeStream buffer).result = none) :
    Agree (feedAll .stream buffer chunks) (exhaust false .stream (buffer ++ chunks.flatten)) := by
  induction chunks generalizing buffer with
  | nil =>
    rw [List.flatten_nil, List.append_nil, exhaust_of_none waits]
    exact .refl _
  | cons chunk later ih =>
    have rest := ih (exhaust_waits (buffer ++ chunk))
    have split := exhaust_append (buffer ++ chunk) later.flatten
    rw [List.flatten_cons, ← List.append_assoc]
    exact (rest.append _).trans split.symm

/-! ### What the items of a run are -/

section

variable {P : Except ProtocolError Message → Prop}

theorem exhaust_forall
    (every : ∀ buffer item, (decodeStream buffer).result = some item → P item) (buffer : Bytes) :
    ∀ item ∈ (exhaust false .stream buffer).items, P item := by
  induction buffer using step_induction with
  | waits buffer waits =>
    rw [exhaust_of_none waits]
    exact fun _ member => nomatch member
  | gives buffer item given ih =>
    rw [exhaust_of_some given]
    exact List.forall_mem_cons.mpr ⟨every _ _ given, ih⟩

theorem feedAll_forall
    (every : ∀ buffer item, (decodeStream buffer).result = some item → P item)
    (buffer : Bytes) (chunks : List Bytes) :
    ∀ item ∈ (feedAll .stream buffer chunks).items, P item := by
  induction chunks generalizing buffer with
  | nil => exact fun _ member => nomatch member
  | cons chunk later ih =>
    exact List.forall_mem_append.mpr ⟨exhaust_forall every (buffer ++ chunk), ih _⟩

end

/-- However a stream is cut into chunks, the run gives the same up to the first lost boundary. When
none is lost the runs are the same to the end, and so is what the end of the stream makes of the
rest. A run meets no errors but unknown tags and other versions. -/
theorem feedAll_of_flatten_eq (stream : Bytes) (left right : List Bytes)
    (leftCut : left.flatten = stream) (rightCut : right.flatten = stream) :
    let p := feedAll .stream [] left
    let q := feedAll .stream [] right
    throughLost p.items = throughLost q.items ∧
      ((∀ item ∈ p.items, losesBoundary item = false) →
        p.items = q.items ∧ p.buffer = q.buffer ∧
          decodeEof .stream p.buffer = decodeEof .stream q.buffer) ∧
      ∀ e : ProtocolError, .error e ∈ p.items →
        (∃ tag, e = .unknownType tag) ∨ ∃ version, e = .unsupportedVersion version := by
  intro p q
  have settled : (decodeStream []).result = none := rfl
  have first : Agree p (exhaust false .stream stream) := by
    rw [← leftCut]
    exact feedAll_agree left settled
  have second : Agree q (exhaust false .stream stream) := by
    rw [← rightCut]
    exact feedAll_agree right settled
  have agree : Agree p q := first.trans second.symm
  refine ⟨agree.items, ?_, ?_⟩
  · intro kept
    have stays : ∀ item ∈ throughLost p.items, losesBoundary item = false :=
      fun item member => kept item (mem_of_mem_throughLost member)
    have items : p.items = q.items := by
      rw [← throughLost_eq_self stays, agree.items]
      exact throughLost_eq_self (agree.items ▸ stays)
    have buffer := agree.buffer stays
    exact ⟨items, buffer, by rw [buffer]⟩
  · intro e member
    refine feedAll_forall (P := fun item => ∀ e, item = .error e →
      (∃ tag, e = .unknownType tag) ∨ ∃ version, e = .unsupportedVersion version)
      ?_ [] left _ member e rfl
    intro buffer item given e same
    exact (decodeStream_step buffer).error (same ▸ given)

theorem feedAll_of_flatten_eq_lost :
    let stream : Bytes := [0x54, 1, 0x51, 7, 1, 2, 3, 4, 0x10, 0x20, 0x54]
    let left : List Bytes := [[0x54], [1, 0x51, 7, 1], [], [2, 3, 4, 0x10], [0x20, 0x54]]
    let right : List Bytes := [stream]
    let p := feedAll .stream [] left
    let q := feedAll .stream [] right
    left.flatten = stream ∧ right.flatten = stream ∧
      throughLost p.items = throughLost q.items ∧
      ((∀ item ∈ p.items, losesBoundary item = false) →
        p.items = q.items ∧ p.buffer = q.buffer ∧
          decodeEof .stream p.buffer = decodeEof .stream q.buffer) ∧
      ∀ e : ProtocolError, .error e ∈ p.items →
        (∃ tag, e = .unknownType tag) ∨ ∃ version, e = .unsupportedVersion version :=
  ⟨rfl, rfl, feedAll_of_flatten_eq _ _ _ rfl rfl⟩

end HolePunch.Frame
