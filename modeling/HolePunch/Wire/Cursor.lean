import HolePunch.Wire.Word

/-!
# Reading fields off a buffer

A `Cursor` stands at an offset of a buffer and holds the bytes from there on. Every read names the
field it is after and checks the length first, so that a short buffer becomes a `Shortage` with the
offset, the width and the bytes that were left.
-/

namespace HolePunch.Wire

structure Shortage where
  field : String
  offset : Nat
  need : Nat
  available : Nat
  deriving DecidableEq, Repr

structure Cursor where
  rest : Bytes
  offset : Nat
  deriving DecidableEq, Repr

namespace Cursor

def start (bytes : Bytes) : Cursor := ⟨bytes, 0⟩

/-- Takes exactly `width` bytes, or says how many there were. -/
def take (width : Nat) (field : String) (c : Cursor) :
    Except Shortage ({ bs : Bytes // bs.length = width } × Cursor) :=
  if h : width ≤ c.rest.length then
    .ok (⟨c.rest.take width, List.length_take_of_le h⟩, ⟨c.rest.drop width, c.offset + width⟩)
  else
    .error ⟨field, c.offset, width, c.rest.length⟩

def u8 (field : String) (c : Cursor) : Except Shortage (UInt8 × Cursor) :=
  (c.take 1 field).map fun (bs, next) => (UInt8.ofNat (leNat bs.val), next)

def u16 (field : String) (c : Cursor) : Except Shortage (UInt16 × Cursor) :=
  (c.take 2 field).map fun (bs, next) => (UInt16.ofNat (leNat bs.val), next)

def u32 (field : String) (c : Cursor) : Except Shortage (UInt32 × Cursor) :=
  (c.take 4 field).map fun (bs, next) => (UInt32.ofNat (leNat bs.val), next)

theorem take_of_le {width : Nat} {field : String} {c : Cursor} (h : width ≤ c.rest.length) :
    c.take width field =
      .ok (⟨c.rest.take width, List.length_take_of_le h⟩,
        ⟨c.rest.drop width, c.offset + width⟩) := by
  simp [take, h]

theorem take_of_lt {width : Nat} {field : String} {c : Cursor} (h : c.rest.length < width) :
    c.take width field = .error ⟨field, c.offset, width, c.rest.length⟩ := by
  simp [take, Nat.not_le.2 h]

end Cursor

end HolePunch.Wire
