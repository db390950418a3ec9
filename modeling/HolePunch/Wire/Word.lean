/-!
# Little-endian words

`leBytes` writes a number in a fixed count of bytes, least significant first, and `leNat` reads it
back. `leNat_leBytes` and `leBytes_leNat` say that the two undo each other.
-/

namespace HolePunch

abbrev Bytes := List UInt8

namespace Wire

/-- The `width` bytes of `n`, least significant first; what does not fit is dropped. -/
def leBytes : Nat → Nat → Bytes
  | 0, _ => []
  | width + 1, n => UInt8.ofNat n :: leBytes width (n / 256)

/-- The number that the bytes spell, least significant first. -/
def leNat (bytes : Bytes) : Nat := bytes.foldr (fun b n => b.toNat + 256 * n) 0

@[simp] theorem leNat_nil : leNat [] = 0 := rfl

@[simp] theorem leNat_cons (b : UInt8) (bs : Bytes) :
    leNat (b :: bs) = b.toNat + 256 * leNat bs := rfl

@[simp] theorem length_leBytes (width n : Nat) : (leBytes width n).length = width := by
  induction width generalizing n <;> simp [leBytes, *]

/-- How many numbers so many bytes can spell. -/
def capacity : Nat → Nat
  | 0 => 1
  | width + 1 => 256 * capacity width

theorem capacity_pos (width : Nat) : 0 < capacity width := by
  induction width with
  | zero => decide
  | succ width ih => exact Nat.mul_pos (by decide) ih

/-- Reading back what was written keeps the bits that fit. -/
theorem leNat_leBytes (width n : Nat) : leNat (leBytes width n) = n % capacity width := by
  induction width generalizing n with
  | zero => simp [leBytes, capacity, Nat.mod_one]
  | succ width ih =>
    rw [leBytes, leNat_cons, ih, capacity, Nat.mod_mul]
    simp

theorem leBytes_leNat (bs : Bytes) : leBytes bs.length (leNat bs) = bs := by
  induction bs with
  | nil => rfl
  | cons b bs ih =>
    have high : (b.toNat + 256 * leNat bs) / 256 = leNat bs := by
      have := b.toNat_lt
      omega
    have low : UInt8.ofNat (b.toNat + 256 * leNat bs) = b := by
      apply UInt8.toNat_inj.1
      have := b.toNat_lt
      rw [UInt8.toNat_ofNat']
      omega
    simp only [List.length_cons, leBytes, leNat_cons, high, low, ih]

theorem leNat_lt (bs : Bytes) : leNat bs < capacity bs.length := by
  have back := leNat_leBytes bs.length (leNat bs)
  rw [leBytes_leNat] at back
  rw [back]
  exact Nat.mod_lt _ (capacity_pos _)

def wordBytes16 (w : UInt16) : Bytes := leBytes 2 w.toNat

def wordBytes32 (w : UInt32) : Bytes := leBytes 4 w.toNat

@[simp] theorem length_wordBytes16 (w : UInt16) : (wordBytes16 w).length = 2 :=
  length_leBytes 2 _

@[simp] theorem length_wordBytes32 (w : UInt32) : (wordBytes32 w).length = 4 :=
  length_leBytes 4 _

end Wire

end HolePunch
