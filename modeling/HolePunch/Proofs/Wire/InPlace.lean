import HolePunch.Proofs.Chain
import HolePunch.Proofs.Wire.Reading
import HolePunch.Wire.InPlace

/-!
# Runs of reads in place

Reading in place is reading with a cursor that stays where it is when a read is refused
(`InPlace.read_eq`), so in every run of reads the cursor stands at its offset of the buffer, and no
read leaves the buffer (`InPlace.answers_right`).
-/

namespace HolePunch.Wire

/-- Reads with a reader and stays in place when it refuses. -/
def InPlace.ofReader {α : Type} (reader : Reader α) : InPlace α := fun c =>
  match reader c with
  | .ok (a, next) => .ok a next
  | .error e => .error (.refused e) c

/-- The reader of the fields of messages that a request asks for. -/
def Request.reader (r : Request) : Reader Value :=
  match r.shape with
  | .u8 => Value.u8 <$> Reader.lift (Cursor.u8 r.field)
  | .u16 => Value.u16 <$> Reader.lift (Cursor.u16 r.field)
  | .u32 => Value.u32 <$> Reader.lift (Cursor.u32 r.field)
  | .array width => (fun bs => Value.array bs.val) <$> Reader.lift (Cursor.take width r.field)

namespace InPlace

variable {c : Cursor} {width : Nat} {field : String}

/-- The error of a field that is longer than what is left. -/
def shortage (field : String) (width : Nat) (c : Cursor) : ProtocolError :=
  .malformed (.truncated ⟨field, c.offset, width, c.rest.length⟩)

theorem ensure_of_le (enough : width ≤ c.rest.length) : ensure field width c = .ok () c := by
  have plenty : ¬c.rest.length < width := Nat.not_lt.mpr enough
  show (if c.rest.length < width then _ else _ : InPlace Unit) c = _
  rw [if_neg plenty]
  rfl

theorem ensure_of_lt (short : c.rest.length < width) :
    ensure field width c = .error (.refused (shortage field width c)) c := by
  show (if c.rest.length < width then _ else _ : InPlace Unit) c = _
  rw [if_pos short]
  rfl

theorem count_eq (width : Nat) (c : Cursor) :
    count width c = .ok () { c with offset := c.offset + width } := rfl

theorem pull_eq (width : Nat) (c : Cursor) :
    pull width c =
      if c.rest.length < width then .error .outOfBounds c
      else .ok (c.rest.take width) { c with rest := c.rest.drop width } := by
  show (do if c.rest.length < width then throw .outOfBounds
           set { c with rest := c.rest.drop width }
           return c.rest.take width : InPlace Bytes) c = _
  split
  · rfl
  · rfl

theorem pull_of_le (enough : width ≤ c.rest.length) :
    pull width c = .ok (c.rest.take width) { c with rest := c.rest.drop width } := by
  rw [pull_eq, if_neg (Nat.not_lt.mpr enough)]

theorem number_of_le {α : Type} (ofNat : Nat → α) (enough : width ≤ c.rest.length) :
    number width ofNat field c =
      .ok (ofNat (leNat (c.rest.take width))) ⟨c.rest.drop width, c.offset + width⟩ := by
  have taken := pull_of_le (c := { c with offset := c.offset + width }) enough
  simp only [number, bind, EStateM.bind, ensure_of_le enough, count_eq, taken]
  rfl

theorem number_of_lt {α : Type} (ofNat : Nat → α) (short : c.rest.length < width) :
    number width ofNat field c = .error (.refused (shortage field width c)) c := by
  simp only [number, bind, EStateM.bind, ensure_of_lt short]

theorem array_of_le (enough : width ≤ c.rest.length) :
    array width field c = .ok (c.rest.take width) ⟨c.rest.drop width, c.offset + width⟩ := by
  simp only [array, bind, EStateM.bind, ensure_of_le enough, pull_of_le enough, count_eq]
  rfl

theorem array_of_lt (short : c.rest.length < width) :
    array width field c = .error (.refused (shortage field width c)) c := by
  simp only [array, bind, EStateM.bind, ensure_of_lt short]

end InPlace

/-- The value of a shape that bytes spell. -/
def Shape.ofBytes (bytes : Bytes) : Shape → Value
  | .u8 => .u8 (UInt8.ofNat (leNat bytes))
  | .u16 => .u16 (UInt16.ofNat (leNat bytes))
  | .u32 => .u32 (UInt32.ofNat (leNat bytes))
  | .array _ => .array bytes

/-- A value is spelled by the bytes that it was read from. -/
theorem ofBytes_spec {s : Shape} {bytes : Bytes} (length : bytes.length = s.width) :
    (s.ofBytes bytes).shape = s ∧ (s.ofBytes bytes).bytes = bytes := by
  have small := leNat_lt bytes
  have back := leBytes_leNat bytes
  rw [length] at small back
  cases s with
  | u8 =>
    obtain ⟨b, rfl⟩ := List.length_eq_one_iff.mp length
    refine ⟨rfl, ?_⟩
    simp [Shape.ofBytes, Value.bytes]
  | u16 =>
    refine ⟨rfl, ?_⟩
    show leBytes 2 (UInt16.ofNat (leNat bytes)).toNat = bytes
    rwa [UInt16.toNat_ofNat_of_lt' small]
  | u32 =>
    refine ⟨rfl, ?_⟩
    show leBytes 4 (UInt32.ofNat (leNat bytes)).toNat = bytes
    rwa [UInt32.toNat_ofNat_of_lt' small]
  | array width => exact ⟨congrArg Shape.array length, rfl⟩

namespace InPlace

section

variable {α β : Type} {x : InPlace α} {c next : Cursor}

theorem map_of_ok {a : α} (given : x c = .ok a next) (f : α → β) :
    (f <$> x) c = .ok (f a) next := by
  simp only [Functor.map, EStateM.map, given]

theorem map_of_error {stop : Stop} (stops : x c = .error stop next) (f : α → β) :
    (f <$> x) c = .error stop next := by
  simp only [Functor.map, EStateM.map, stops]

end

variable {c : Cursor} {r : Request}

theorem read_of_le (enough : r.width ≤ c.rest.length) :
    read r c =
      .ok (r.shape.ofBytes (c.rest.take r.width)) ⟨c.rest.drop r.width, c.offset + r.width⟩ := by
  obtain ⟨field, shape⟩ := r
  cases shape with
  | u8 => exact map_of_ok (number_of_le UInt8.ofNat enough) Value.u8
  | u16 => exact map_of_ok (number_of_le UInt16.ofNat enough) Value.u16
  | u32 => exact map_of_ok (number_of_le UInt32.ofNat enough) Value.u32
  | array width => exact map_of_ok (array_of_le enough) Value.array

theorem read_of_lt (short : c.rest.length < r.width) :
    read r c = .error (.refused (shortage r.field r.width c)) c := by
  obtain ⟨field, shape⟩ := r
  cases shape with
  | u8 => exact map_of_error (number_of_lt UInt8.ofNat short) Value.u8
  | u16 => exact map_of_error (number_of_lt UInt16.ofNat short) Value.u16
  | u32 => exact map_of_error (number_of_lt UInt32.ofNat short) Value.u32
  | array width => exact map_of_error (array_of_lt short) Value.array

end InPlace

/-! ### The readers of messages -/

namespace Request

section

variable {α β : Type} {x : Reader α} {c next : Cursor} {width : Nat} {field : String}

theorem map_of_ok {a : α} (given : x c = .ok (a, next)) (f : α → β) :
    (f <$> x) c = .ok (f a, next) := by
  simp only [Functor.map, StateT.map, given]
  rfl

theorem map_of_error {e : ProtocolError} (refused : x c = .error e) (f : α → β) :
    (f <$> x) c = .error e := by
  simp only [Functor.map, StateT.map, refused]
  rfl

theorem lift_take_of_le (enough : width ≤ c.rest.length) :
    Reader.lift (Cursor.take width field) c =
      .ok (⟨c.rest.take width, List.length_take_of_le enough⟩,
        ⟨c.rest.drop width, c.offset + width⟩) := by
  simp only [Reader.lift, Cursor.take_of_le enough]
  rfl

theorem lift_take_of_lt (short : c.rest.length < width) :
    Reader.lift (Cursor.take width field) c = .error (InPlace.shortage field width c) := by
  simp only [Reader.lift, Cursor.take_of_lt short]
  rfl

theorem map_lift_number (value : α → β) (ofNat : Nat → α) :
    (value <$> Reader.lift fun c =>
        (c.take width field).map fun p => (ofNat (leNat p.1.val), p.2)) =
      (fun bs => value (ofNat (leNat bs.val))) <$> Reader.lift (Cursor.take width field) := by
  funext c
  by_cases enough : width ≤ c.rest.length
  · rw [map_of_ok (lift_take_of_le enough)]
    apply map_of_ok
    simp only [Reader.lift, Cursor.take_of_le enough]
    rfl
  · have short := Nat.lt_of_not_le enough
    rw [map_of_error (lift_take_of_lt short)]
    apply map_of_error
    simp only [Reader.lift, Cursor.take_of_lt short]
    rfl

end

variable {c : Cursor} {r : Request}

theorem reader_eq (r : Request) :
    r.reader =
      (fun bs => r.shape.ofBytes bs.val) <$> Reader.lift (Cursor.take r.width r.field) := by
  obtain ⟨field, shape⟩ := r
  cases shape with
  | u8 => exact map_lift_number Value.u8 UInt8.ofNat
  | u16 => exact map_lift_number Value.u16 UInt16.ofNat
  | u32 => exact map_lift_number Value.u32 UInt32.ofNat
  | array width => rfl

theorem reader_of_le (enough : r.width ≤ c.rest.length) :
    r.reader c =
      .ok (r.shape.ofBytes (c.rest.take r.width), ⟨c.rest.drop r.width, c.offset + r.width⟩) := by
  rw [reader_eq, map_of_ok (lift_take_of_le enough)]

theorem reader_of_lt (short : c.rest.length < r.width) :
    r.reader c = .error (InPlace.shortage r.field r.width c) := by
  rw [reader_eq, map_of_error (lift_take_of_lt short)]

end Request

namespace InPlace

/-- Both orders of updating come to the reads of messages. -/
theorem read_eq (r : Request) : read r = ofReader r.reader := by
  funext c
  by_cases enough : r.width ≤ c.rest.length
  · rw [read_of_le enough, ofReader, Request.reader_of_le enough]
  · have short := Nat.lt_of_not_le enough
    rw [read_of_lt short, ofReader, Request.reader_of_lt short]

end InPlace

/-! ### Runs -/

/-- The cursor stands at its offset of a buffer. -/
structure Cursor.Within (b : Bytes) (c : Cursor) : Prop where
  rest : c.rest = b.drop c.offset
  total : c.offset + c.rest.length = b.length

theorem Cursor.within_start (b : Bytes) : (start b).Within b where
  rest := rfl
  total := Nat.zero_add _

theorem Cursor.Within.advance {b : Bytes} {c : Cursor} {width : Nat} (within : c.Within b)
    (enough : width ≤ c.rest.length) : Within b ⟨c.rest.drop width, c.offset + width⟩ where
  rest := by rw [within.rest, List.drop_drop]
  total := by
    have total := within.total
    simp only [List.length_drop]
    omega

namespace InPlace

/-- What is right of a read that finds the cursor at an offset of a buffer: it gives a value exactly
if enough bytes are left, the value is spelled by the bytes at the offset, and these are gone
afterwards. Otherwise the read is refused with the field, the offset, and the counts of the bytes
that it needs and that are left, and the cursor stays. -/
structure Answer.Right (b : Bytes) (before : Cursor) (a : Answer) : Prop where
  within : a.cursor.Within b
  gives_iff : (∃ value, a.result = .ok value) ↔ a.request.width ≤ before.rest.length
  gives : ∀ value, a.result = .ok value →
    value.shape = a.request.shape ∧ value.bytes = span b before.offset a.request.width ∧
      a.cursor.offset = before.offset + a.request.width
  stops : ∀ stop, a.result = .error stop →
    stop = .refused (.malformed (.truncated
      ⟨a.request.field, before.offset, a.request.width, before.rest.length⟩)) ∧
    a.cursor = before

theorem answer_of_le {c : Cursor} {r : Request} (enough : r.width ≤ c.rest.length) :
    answer c r =
      ⟨r, .ok (r.shape.ofBytes (c.rest.take r.width)),
        ⟨c.rest.drop r.width, c.offset + r.width⟩⟩ := by
  rw [answer, read_of_le enough]

theorem answer_of_lt {c : Cursor} {r : Request} (short : c.rest.length < r.width) :
    answer c r = ⟨r, .error (.refused (shortage r.field r.width c)), c⟩ := by
  rw [answer, read_of_lt short]

theorem request_answer (c : Cursor) (r : Request) : (answer c r).request = r := by
  by_cases enough : r.width ≤ c.rest.length
  · rw [answer_of_le enough]
  · rw [answer_of_lt (Nat.lt_of_not_le enough)]

theorem answer_right {b : Bytes} {c : Cursor} (within : c.Within b) (r : Request) :
    (answer c r).Right b c := by
  by_cases enough : r.width ≤ c.rest.length
  · rw [answer_of_le enough]
    refine ⟨within.advance enough, ⟨fun _ => enough, fun _ => ⟨_, rfl⟩⟩, ?_, nofun⟩
    rintro value same
    obtain rfl := Except.ok.inj same
    obtain ⟨shape, bytes⟩ := ofBytes_spec (s := r.shape) (List.length_take_of_le enough)
    refine ⟨shape, bytes.trans ?_, rfl⟩
    rw [within.rest]
    rfl
  · have short := Nat.lt_of_not_le enough
    rw [answer_of_lt short]
    refine ⟨within, ⟨nofun, fun fits => absurd fits enough⟩, nofun, ?_⟩
    rintro stop same
    exact ⟨(Except.error.inj same).symm, rfl⟩

theorem chain_answers {b : Bytes} {c : Cursor} (within : c.Within b) (requests : List Request) :
    Chain Answer.cursor (Answer.Right b) c (answers c requests) := by
  induction requests generalizing c with
  | nil => exact .done c
  | cons r later ih =>
    have right := answer_right within r
    exact .next right (ih right.within)

theorem map_request_answers (c : Cursor) (requests : List Request) :
    (answers c requests).map Answer.request = requests := by
  induction requests generalizing c with
  | nil => rfl
  | cons r later ih => rw [answers, List.map_cons, ih, request_answer]

/-- In every run of reads on one cursor, of which any may fail, the cursor stands at its offset of
the buffer after each. A read gives what the bytes there spell and passes them if there are enough,
and otherwise it names what is missing and leaves the cursor for the reads after it. None touches
bytes behind the end, and each is the read that the readers of messages make. -/
theorem answers_right (b : Bytes) (requests : List Request) :
    let made := answers (.start b) requests
    Chain Answer.cursor (Answer.Right b) (.start b) made ∧
      made.map Answer.request = requests ∧
      (∀ a ∈ made, a.cursor.rest = b.drop a.cursor.offset ∧
        a.cursor.offset + a.cursor.rest.length = b.length ∧ a.result ≠ .error .outOfBounds) ∧
      ∀ r : Request, read r = ofReader r.reader := by
  intro made
  have chain : Chain Answer.cursor (Answer.Right b) (.start b) made :=
    chain_answers (Cursor.within_start b) requests
  refine ⟨chain, map_request_answers (.start b) requests, ?_, read_eq⟩
  intro a member
  obtain ⟨before, right⟩ := chain.exists_right a member
  refine ⟨right.within.rest, right.within.total, ?_⟩
  intro outside
  obtain ⟨refused, -⟩ := right.stops .outOfBounds outside
  cases refused

example : (answers (.start [0xaa, 0xbb, 0xcc])
      [⟨"port", .u16⟩, ⟨"address", .array 16⟩, ⟨"tail", .u8⟩]).map (·.result) =
    [.ok (.u16 0xbbaa), .error (.refused (.malformed (.truncated ⟨"address", 2, 16, 1⟩))),
      .ok (.u8 0xcc)] := rfl

end InPlace

end HolePunch.Wire
