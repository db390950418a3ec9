import HolePunch.Proofs.Message.RoundTrip

/-!
# Sequences of messages

The wire form of a sequence is the wire forms of its messages, one after the other. The tag in front
of a wire form decides its length, so no wire form starts a longer one (`Message.encode_append_inj`),
and messages that are written alike are equal (`Message.beq_of_encode_eq`).
-/

namespace HolePunch

open Wire

theorem Body.wide_eq_of_bytes_eq {x y : Body} {written : Bytes} (kinds : x.kind = y.kind)
    (left : x.bytes = .ok written) (right : y.bytes = .ok written) : x.wide = y.wide := by
  -- Behind any header the written bytes spell the wide forms of both.
  have spelled : ∀ z : Body, z.bytes = .ok written → z.wide.Spelled (0 :: 0 :: written) := by
    intro z given
    have length := length_bytes given
    have whole : z.wide.kind.size ≤ (0 :: 0 :: written : Bytes).length := by
      rw [kind_wide, ← length, List.length_cons, List.length_cons]
      simp only [headerSize]
      omega
    have payload : span (0 :: 0 :: written) headerSize (z.wide.kind.size - headerSize) = written := by
      rw [kind_wide, ← length, Nat.add_sub_cancel_left]
      exact List.take_length
    rw [spelled_iff whole, wide_wide, bytes_wide, payload]
    exact ⟨rfl, given⟩
  have same : x.wide.kind = y.wide.kind := by rw [kind_wide, kind_wide, kinds]
  exact (spelled x left).unique same (spelled y right)

namespace Message

/-- The wire forms of messages, one after the other. -/
def encodeAll : List Message → Except ProtocolError Bytes
  | [] => .ok []
  | m :: ms => do return (← m.encode) ++ (← encodeAll ms)

variable {m n : Message} {ms ns : List Message} {v w : Bytes}

theorem encodeAll_cons_eq_ok_iff :
    encodeAll (m :: ms) = .ok w ↔
      ∃ first, m.encode = .ok first ∧ ∃ later, encodeAll ms = .ok later ∧ first ++ later = w := by
  simp only [encodeAll, bind_eq_ok_iff]
  simp only [pure, Except.pure, Except.ok.injEq]

theorem exists_encodeAll (set : ∀ m ∈ ms, m.IsSet) : ∃ w, encodeAll ms = .ok w := by
  induction ms with
  | nil => exact ⟨[], rfl⟩
  | cons m ms ih =>
    obtain ⟨here, later⟩ := List.forall_mem_cons.mp set
    obtain ⟨first, isFirst⟩ := isSet_iff.mp here
    obtain ⟨rest, isRest⟩ := ih later
    exact ⟨first ++ rest, encodeAll_cons_eq_ok_iff.mpr ⟨first, isFirst, rest, isRest, rfl⟩⟩

/-! ### One wire form against another -/

theorem encode_append_inj {x y : Bytes} (left : m.encode = .ok v) (right : n.encode = .ok w)
    (same : v ++ x = w ++ y) : v = w ∧ x = y := by
  have leftLength := length_encode left
  have rightLength := length_encode right
  obtain ⟨body, -, rfl⟩ := encode_eq_ok_iff.mp left
  obtain ⟨other, -, rfl⟩ := encode_eq_ok_iff.mp right
  have kinds : m.kind = n.kind := Kind.tag_injective (List.cons.inj same).1
  apply List.append_inj same
  rw [leftLength, rightLength, size, size, kinds]

theorem encode_ne_nil (given : m.encode = .ok w) : w ≠ [] := by
  obtain ⟨body, -, rfl⟩ := encode_eq_ok_iff.mp given
  exact List.cons_ne_nil _ _

theorem beq_of_encode_eq (left : m.encode = .ok w) (right : n.encode = .ok w) :
    (m == n) = true := by
  obtain ⟨body, isBody, rfl⟩ := encode_eq_ok_iff.mp left
  obtain ⟨other, isOther, same⟩ := encode_eq_ok_iff.mp right
  obtain ⟨tags, rest⟩ := List.cons.inj same
  obtain ⟨versions, rfl⟩ := List.cons.inj rest
  have kinds : m.body.kind = n.body.kind := (Kind.tag_injective tags).symm
  have bodies := Body.wide_eq_of_bytes_eq kinds isBody isOther
  have sameVersion : m.version = n.version := congrArg Version.mk versions.symm
  rw [beq_iff_wide, wide, wide, bodies, sameVersion]

theorem encode_eq_of_beq (equal : (m == n) = true) : m.encode = n.encode := by
  rw [← m.encode_wide, ← n.encode_wide, beq_iff_wide.mp equal]

theorem encode_eq_iff_beq (left : m.encode = .ok v) (right : n.encode = .ok w) :
    v = w ↔ (m == n) = true := by
  constructor
  · rintro rfl
    exact beq_of_encode_eq left right
  · intro equal
    have same := encode_eq_of_beq equal
    rw [left, right] at same
    exact Except.ok.inj same

/-! ### Sequences -/

theorem encodeAll_eq_iff_beq (left : encodeAll ms = .ok v) (right : encodeAll ns = .ok w) :
    v = w ↔ List.Forall₂ (fun m n => (m == n) = true) ms ns := by
  induction ms generalizing ns v w with
  | nil =>
    cases left
    cases ns with
    | nil =>
      cases right
      exact ⟨fun _ => .nil, fun _ => rfl⟩
    | cons n ns =>
      obtain ⟨first, isFirst, later, -, rfl⟩ := encodeAll_cons_eq_ok_iff.mp right
      have longer : [] ≠ first ++ later :=
        (List.append_ne_nil_of_left_ne_nil (encode_ne_nil isFirst) later).symm
      exact ⟨fun same => absurd same longer, fun equal => nomatch equal⟩
  | cons m ms ih =>
    obtain ⟨first, isFirst, later, isLater, rfl⟩ := encodeAll_cons_eq_ok_iff.mp left
    cases ns with
    | nil =>
      cases right
      have longer : first ++ later ≠ [] :=
        List.append_ne_nil_of_left_ne_nil (encode_ne_nil isFirst) later
      exact ⟨fun same => absurd same longer, fun equal => nomatch equal⟩
    | cons n ns =>
      obtain ⟨head, isHead, tail, isTail, rfl⟩ := encodeAll_cons_eq_ok_iff.mp right
      rw [List.forall₂_cons, ← encode_eq_iff_beq isFirst isHead, ← ih isLater isTail]
      constructor
      · exact encode_append_inj isFirst isHead
      · rintro ⟨rfl, rfl⟩
        rfl

/-- Sequences are written alike exactly when they are equal message by message, whatever the
versions. A wire form starts no other one, and single messages are written alike exactly when they
are equal. -/
theorem encodeAll_eq_iff (ms ns : List Message) (left : ∀ m ∈ ms, m.IsSet)
    (right : ∀ n ∈ ns, n.IsSet) :
    (∃ v w, encodeAll ms = .ok v ∧ encodeAll ns = .ok w ∧
      (v = w ↔
        ms.length = ns.length ∧ List.Forall₂ (fun m n => (m == n) = true) ms ns)) ∧
    ∀ m ∈ ms, ∀ n ∈ ns, ∃ v w, m.encode = .ok v ∧ n.encode = .ok w ∧
      (v <+: w → v = w) ∧ (v = w ↔ (m == n) = true) := by
  constructor
  · obtain ⟨v, isV⟩ := exists_encodeAll left
    obtain ⟨w, isW⟩ := exists_encodeAll right
    refine ⟨v, w, isV, isW, ?_⟩
    rw [encodeAll_eq_iff_beq isV isW]
    exact ⟨fun equal => ⟨equal.length_eq, equal⟩, fun both => both.2⟩
  · intro m inLeft n inRight
    obtain ⟨v, isV⟩ := isSet_iff.mp (left m inLeft)
    obtain ⟨w, isW⟩ := isSet_iff.mp (right n inRight)
    refine ⟨v, w, isV, isW, ?_, encode_eq_iff_beq isV isW⟩
    rintro ⟨more, longer⟩
    have same : v ++ more = w ++ [] := by rw [longer, List.append_nil]
    exact (encode_append_inj isV isW same).1

theorem encodeAll_eq_iff_widened :
    let narrow : Endpoint := ⟨4000, some (.v4 ⟨192, 0, 2, 7⟩)⟩
    let widened : Endpoint := ⟨4000, some (.v6 (Ipv4.widen ⟨192, 0, 2, 7⟩))⟩
    let ms : List Message := [⟨⟨9⟩, .cReq narrow⟩, ⟨⟨0⟩, .idReq⟩]
    let ns : List Message := [⟨⟨9⟩, .cReq widened⟩, ⟨⟨1⟩, .idReq⟩]
    (∀ m ∈ ms, m.IsSet) ∧ (∀ n ∈ ns, n.IsSet) ∧
      (∃ v w, encodeAll ms = .ok v ∧ encodeAll ns = .ok w ∧
        (v = w ↔
          ms.length = ns.length ∧ List.Forall₂ (fun m n => (m == n) = true) ms ns)) ∧
      ∀ m ∈ ms, ∀ n ∈ ns, ∃ v w, m.encode = .ok v ∧ n.encode = .ok w ∧
        (v <+: w → v = w) ∧ (v = w ↔ (m == n) = true) :=
  ⟨by decide, by decide, encodeAll_eq_iff _ _ (by decide) (by decide)⟩

end Message

end HolePunch
