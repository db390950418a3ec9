import HolePunch.Header

/-!
# Reading a row of fields

A `Field` is a named stretch of a buffer. `Reads` says what a reader does at an offset of any
buffer: it takes its fields one after the other and gives a value with a property, or it fails at
the first field that runs over the end. `Reads.bind` puts two readers together, so the reader of a
message needs no more than a lemma for each of its parts.
-/

namespace HolePunch

namespace Wire

/-- The bytes of a buffer from an offset on, at most so many. -/
def span (b : Bytes) (offset width : Nat) : Bytes := (b.drop offset).take width

theorem length_span {b : Bytes} {offset width : Nat} (fits : offset + width ≤ b.length) :
    (span b offset width).length = width := by
  simp only [span, List.length_take, List.length_drop]
  omega

theorem span_add (b : Bytes) (offset m n : Nat) :
    span b offset (m + n) = span b offset m ++ span b (offset + m) n := by
  simp only [span, List.take_add, List.drop_drop]

structure Field where
  name : String
  offset : Nat
  width : Nat
  deriving DecidableEq, Repr

namespace Field

def runsOver (f : Field) (b : Bytes) : Bool := b.length < f.offset + f.width

def shortage (f : Field) (b : Bytes) : Shortage :=
  ⟨f.name, f.offset, f.width, b.length - f.offset⟩

/-- The first field of a row that runs over. -/
def firstOver (b : Bytes) (fields : List Field) : Option Field := fields.find? (·.runsOver b)

def total : List Field → Nat
  | [] => 0
  | f :: later => f.width + total later

theorem firstOver_append (b : Bytes) (front back : List Field) :
    firstOver b (front ++ back) = (firstOver b front).or (firstOver b back) :=
  List.find?_append

theorem total_append (front back : List Field) :
    total (front ++ back) = total front + total back := by
  induction front with
  | nil => exact (Nat.zero_add _).symm
  | cons f later ih => rw [List.cons_append, total, total, ih, Nat.add_assoc]

end Field

namespace Cursor

def into (b : Bytes) (offset : Nat) : Cursor := ⟨b.drop offset, offset⟩

theorem take_into {b : Bytes} {offset width : Nat} (fits : offset + width ≤ b.length)
    (name : String) :
    (into b offset).take width name =
      .ok (⟨span b offset width, length_span fits⟩, into b (offset + width)) := by
  have enough : width ≤ (into b offset).rest.length := by
    simp only [into, List.length_drop]
    omega
  rw [take_of_le enough]
  simp only [into, span, List.drop_drop]

theorem take_into_short {b : Bytes} {f : Field} (short : f.runsOver b = true) (wide : 0 < f.width) :
    (into b f.offset).take f.width f.name = .error (f.shortage b) := by
  have short : b.length < f.offset + f.width := of_decide_eq_true short
  have tooFew : (into b f.offset).rest.length < f.width := by
    simp only [into, List.length_drop]
    omega
  rw [take_of_lt tooFew]
  simp only [into, List.length_drop, Field.shortage]

end Cursor

end Wire

open Wire

/-- At an offset of a buffer the reader takes a row of fields, and what it gives has a property;
or it fails at the first field that runs over. -/
structure Reads {α : Type} (read : Reader α) (b : Bytes) (offset : Nat) (fields : List Field)
    (Good : α → Prop) : Prop where
  short : ∀ f, Field.firstOver b fields = some f →
    read (.into b offset) = .error (.malformed (.truncated (f.shortage b)))
  within : Field.firstOver b fields = none →
    ∃ a, read (.into b offset) = .ok (a, .into b (offset + Field.total fields)) ∧ Good a

namespace Reads

variable {α β : Type} {b : Bytes} {offset : Nat} {fields more : List Field}
variable {Good : α → Prop} {Fine : β → Prop}

theorem pure {a : α} (good : Good a) : Reads (Pure.pure a : Reader α) b offset [] Good where
  short _ none := nomatch none
  within _ := ⟨a, rfl, good⟩

theorem bind {read : Reader α} {next : α → Reader β} (first : Reads read b offset fields Good)
    (later : ∀ a, Good a → Reads (next a) b (offset + Field.total fields) more Fine) :
    Reads (read >>= next) b offset (fields ++ more) Fine := by
  constructor
  · intro f found
    rw [Field.firstOver_append] at found
    change (read (.into b offset) >>= fun p => next p.1 p.2) = _
    cases early : Field.firstOver b fields with
    | some g =>
      rw [early, Option.some_or, Option.some.injEq] at found
      subst g
      rw [first.short f early]
      rfl
    | none =>
      rw [early, Option.none_or] at found
      obtain ⟨a, given, good⟩ := first.within early
      rw [given]
      exact (later a good).short f found
  · intro none
    rw [Field.firstOver_append, Option.or_eq_none_iff] at none
    obtain ⟨a, given, good⟩ := first.within none.1
    obtain ⟨c, last, fine⟩ := (later a good).within none.2
    refine ⟨c, ?_, fine⟩
    change (read (.into b offset) >>= fun p => next p.1 p.2) = _
    rw [given, Field.total_append, ← Nat.add_assoc]
    exact last

theorem map {read : Reader α} {f : α → β} (first : Reads read b offset fields Good)
    (fine : ∀ a, Good a → Fine (f a)) : Reads (do return f (← read)) b offset fields Fine := by
  have both := first.bind (fun a good => pure (fine a good))
  rwa [List.append_nil] at both

theorem bytes {width : Nat} (name : String) (wide : 0 < width) :
    Reads (.lift (Cursor.take width name)) b offset [⟨name, offset, width⟩]
      fun bs => bs.val = span b offset width := by
  constructor
  · intro f found
    have only : f = ⟨name, offset, width⟩ :=
      List.mem_singleton.mp (List.mem_of_find?_eq_some found)
    have short := List.find?_some found
    subst f
    simp only [Reader.lift, Cursor.take_into_short short wide]
    rfl
  · intro none
    have fits : offset + width ≤ b.length := by
      simpa [Field.firstOver, Field.runsOver] using none
    refine ⟨⟨span b offset width, length_span fits⟩, ?_, rfl⟩
    simp only [Reader.lift, Cursor.take_into fits]
    rfl

theorem lift_map (read : Cursor → Except Shortage (α × Cursor)) (f : α → β) :
    Reader.lift (fun c => (read c).map fun p => (f p.1, p.2)) =
      (do return f (← Reader.lift read)) := by
  funext c
  show _ = (Reader.lift read c >>= fun p => .ok (f p.1, p.2))
  simp only [Reader.lift]
  cases read c <;> rfl

theorem u16 (name : String) :
    Reads (.lift (Cursor.u16 name)) b offset [⟨name, offset, 2⟩]
      fun w => w.toNat = leNat (span b offset 2) := by
  have word : Reader.lift (Cursor.u16 name) =
      (do return UInt16.ofNat (leNat (← Reader.lift (Cursor.take 2 name)).val)) :=
    lift_map (Cursor.take 2 name) fun bs => UInt16.ofNat (leNat bs.val)
  rw [word]
  refine (bytes name (by decide)).map ?_
  rintro ⟨bs, two⟩ rfl
  have small := leNat_lt (span b offset 2)
  rw [two] at small
  exact UInt16.toNat_ofNat_of_lt' small

theorem u32 (name : String) :
    Reads (.lift (Cursor.u32 name)) b offset [⟨name, offset, 4⟩]
      fun w => w.toNat = leNat (span b offset 4) := by
  have word : Reader.lift (Cursor.u32 name) =
      (do return UInt32.ofNat (leNat (← Reader.lift (Cursor.take 4 name)).val)) :=
    lift_map (Cursor.take 4 name) fun bs => UInt32.ofNat (leNat bs.val)
  rw [word]
  refine (bytes name (by decide)).map ?_
  rintro ⟨bs, four⟩ rfl
  have small := leNat_lt (span b offset 4)
  rw [four] at small
  exact UInt32.toNat_ofNat_of_lt' small

end Reads

end HolePunch
