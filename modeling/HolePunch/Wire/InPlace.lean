import HolePunch.Header

/-!
# Reading in place

A cursor can be kept and updated over many reads, of which some fail. Its two parts, the bytes that
are left and the count of those that are gone, are updated one after the other, and a read that
fails leaves the cursor as it is at that moment.
-/

namespace HolePunch

namespace Wire

/-- Why reading stops. -/
inductive Stop where
  | refused (error : ProtocolError)
  /-- Bytes behind the end of the buffer were touched. -/
  | outOfBounds
  deriving DecidableEq, Repr

/-- Reading that updates a cursor, also when it stops. -/
abbrev InPlace := EStateM Stop Cursor

namespace InPlace

/-- Refuses to go on unless there are so many bytes. -/
def ensure (field : String) (need : Nat) : InPlace Unit := do
  let c ← get
  if c.rest.length < need then
    throw (.refused (.malformed (.truncated ⟨field, c.offset, need, c.rest.length⟩)))

/-- Counts bytes as gone and leaves them where they are. -/
def count (width : Nat) : InPlace Unit := modify fun c => { c with offset := c.offset + width }

/-- Takes bytes from the front and does not count them. -/
def pull (width : Nat) : InPlace Bytes := do
  let c ← get
  if c.rest.length < width then
    throw .outOfBounds
  set { c with rest := c.rest.drop width }
  return c.rest.take width

/-- A number is counted before its bytes are taken. -/
def number {α : Type} (width : Nat) (ofNat : Nat → α) (field : String) : InPlace α := do
  ensure field width
  count width
  return ofNat (leNat (← pull width))

/-- The bytes of an array are taken before they are counted. -/
def array (width : Nat) (field : String) : InPlace Bytes := do
  ensure field width
  let bytes ← pull width
  count width
  return bytes

end InPlace

/-! ### Reads one after the other -/

/-- What is to be read: a number of so many bits, or so many bytes. -/
inductive Shape where
  | u8
  | u16
  | u32
  | array (width : Nat)
  deriving DecidableEq, Repr

def Shape.width : Shape → Nat
  | .u8 => 1
  | .u16 => 2
  | .u32 => 4
  | .array width => width

inductive Value where
  | u8 (w : UInt8)
  | u16 (w : UInt16)
  | u32 (w : UInt32)
  | array (bytes : Bytes)
  deriving DecidableEq, Repr

namespace Value

def shape : Value → Shape
  | .u8 _ => .u8
  | .u16 _ => .u16
  | .u32 _ => .u32
  | .array bytes => .array bytes.length

/-- The bytes that spell the value, those of a number from the lowest on. -/
def bytes : Value → Bytes
  | .u8 w => [w]
  | .u16 w => wordBytes16 w
  | .u32 w => wordBytes32 w
  | .array bytes => bytes

end Value

structure Request where
  field : String
  shape : Shape
  deriving DecidableEq, Repr

def Request.width (r : Request) : Nat := r.shape.width

namespace InPlace

def read (r : Request) : InPlace Value :=
  match r.shape with
  | .u8 => Value.u8 <$> number 1 UInt8.ofNat r.field
  | .u16 => Value.u16 <$> number 2 UInt16.ofNat r.field
  | .u32 => Value.u32 <$> number 4 UInt32.ofNat r.field
  | .array width => Value.array <$> array width r.field

/-- A request, what it gave, and the cursor afterwards. -/
structure Answer where
  request : Request
  result : Except Stop Value
  cursor : Cursor

def answer (c : Cursor) (r : Request) : Answer :=
  match read r c with
  | .ok value next => ⟨r, .ok value, next⟩
  | .error stop next => ⟨r, .error stop, next⟩

/-- Reads one after the other on one cursor, whatever became of the ones before. -/
def answers (c : Cursor) : List Request → List Answer
  | [] => []
  | r :: later => answer c r :: answers (answer c r).cursor later

end InPlace

end Wire

end HolePunch
