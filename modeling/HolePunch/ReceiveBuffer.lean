import HolePunch.Wire.Word

/-!
# Receive buffers

A buffer of a fixed size that datagrams are received into, one after the other. It holds zeros at
first and is never cleared: a datagram overwrites the front of it, as far as it fits, and the bytes
behind stay what they were (`contents_receive`). So the bytes that count are the front, as long as
the datagram that came last (`front_receive`).
-/

namespace HolePunch

/-- Bytes that were never overwritten are zero and are not stored. -/
structure ReceiveBuffer where
  size : Nat
  stored : Bytes
  fits : stored.length ≤ size

namespace ReceiveBuffer

/-- The size of the largest buffer that can be asked for, which is the largest signed number of 64
bits. -/
def largest : Nat := 9223372036854775807

/-- A buffer before the first datagram, unless it would be larger than any can be. That there is
memory for it is taken for granted. -/
def zeros? (size : Nat) : Option ReceiveBuffer :=
  if size ≤ largest then some ⟨size, [], Nat.zero_le size⟩ else none

def contents (b : ReceiveBuffer) : Bytes :=
  b.stored ++ List.replicate (b.size - b.stored.length) 0

/-- The first bytes of the buffer, so many of them. -/
def front (b : ReceiveBuffer) (count : Nat) : Bytes :=
  b.stored.take count ++ List.replicate (min count b.size - b.stored.length) 0

/-- Receives a datagram: the count of its bytes that fit, and the buffer that starts with them. -/
def receive (b : ReceiveBuffer) (datagram : Bytes) : Nat × ReceiveBuffer :=
  let count := min datagram.length b.size
  have fits : (datagram.take count ++ b.stored.drop count).length ≤ b.size := by
    have := b.fits
    simp only [List.length_append, List.length_take, List.length_drop]
    omega
  (count, ⟨b.size, datagram.take count ++ b.stored.drop count, fits⟩)

theorem exists_zeros? {size : Nat} (room : size ≤ largest) :
    ∃ b, zeros? size = some b ∧ b.size = size :=
  ⟨_, if_pos room, rfl⟩

theorem front_eq_take (b : ReceiveBuffer) (count : Nat) : b.front count = b.contents.take count := by
  rw [front, contents, List.take_append, List.take_replicate]
  congr 2
  omega

theorem fst_receive (b : ReceiveBuffer) (datagram : Bytes) :
    (b.receive datagram).1 = min datagram.length b.size := rfl

@[simp] theorem size_receive (b : ReceiveBuffer) (datagram : Bytes) :
    (b.receive datagram).2.size = b.size := rfl

theorem contents_receive (b : ReceiveBuffer) (datagram : Bytes) :
    (b.receive datagram).2.contents =
      datagram.take b.size ++ b.contents.drop (min datagram.length b.size) := by
  have fits := b.fits
  have cut : datagram.take (min datagram.length b.size) = datagram.take b.size := by
    rw [Nat.min_comm, ← List.take_eq_take_min]
  simp only [receive, contents, cut, List.drop_append, List.drop_replicate, List.append_assoc,
    List.length_append, List.length_take, List.length_drop]
  congr 3
  omega

/-- Whatever the buffer held, its front is now the datagram, or the part of it that fits. -/
theorem front_receive (b : ReceiveBuffer) (datagram : Bytes) :
    (b.receive datagram).2.front (b.receive datagram).1 = datagram.take b.size := by
  have length : (datagram.take b.size).length = min datagram.length b.size := by
    rw [List.length_take, Nat.min_comm]
  rw [front_eq_take, contents_receive, fst_receive, ← length, List.take_left]

end ReceiveBuffer

end HolePunch
