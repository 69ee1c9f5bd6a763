/-!
# Banks of bytes

A bank is a memory of fixed size.  Every access takes its offset modulo the size, so an offset is
never out of range and the bank repeats through any larger window it is mapped into.
-/

namespace GameBoy

/-- A number of bytes that leaves room for at least one. -/
class BankSize (size : Nat) : Prop where
  pos : 0 < size

/-! The sizes of the memories in the machine. -/

instance : BankSize 0x10 := ⟨by decide⟩
instance : BankSize 0x16 := ⟨by decide⟩
instance : BankSize 0x7F := ⟨by decide⟩
instance : BankSize 0xA0 := ⟨by decide⟩
instance : BankSize 0x2000 := ⟨by decide⟩
instance : BankSize 0x4000 := ⟨by decide⟩
instance : BankSize 0x10000 := ⟨by decide⟩

/-- A memory of exactly `size` bytes. -/
structure Bank (size : Nat) where
  /-- The bytes, from offset zero. -/
  bytes : Vector UInt8 size
deriving DecidableEq

namespace Bank

variable {size : Nat}

/-- The bank that holds `value` everywhere. -/
def filled (value : UInt8) : Bank size :=
  ⟨Vector.replicate size value⟩

/-- The bytes of `image` from `start` on, padded with 0xFF past its end. -/
def ofSlice (image : ByteArray) (start : Nat) : Bank size :=
  ⟨Vector.ofFn fun i => if h : start + i < image.size then image[start + i] else 0xFF⟩

/-- The first bytes of `image`, padded with 0xFF past its end. -/
def ofBytes (image : ByteArray) : Bank size :=
  ofSlice image 0

variable [BankSize size]

theorem offset_lt (offset : Nat) : offset % size < size :=
  Nat.mod_lt _ BankSize.pos

/-- The byte at `offset`, taken modulo the size. -/
def read (bank : Bank size) (offset : Nat) : UInt8 :=
  have _ : offset % size < size := offset_lt offset
  bank.bytes[offset % size]

/-- Replace the byte at `offset`, taken modulo the size. -/
def write (bank : Bank size) (offset : Nat) (value : UInt8) : Bank size :=
  ⟨bank.bytes.set (offset % size) value (offset_lt offset)⟩

@[simp]
theorem read_filled (value : UInt8) (offset : Nat) :
    (filled value : Bank size).read offset = value := by
  simp [filled, read]

theorem read_write (bank : Bank size) (offset other : Nat) (value : UInt8) :
    (bank.write offset value).read other =
      if offset % size = other % size then value else bank.read other := by
  simp [read, write, Vector.getElem_set]

@[simp]
theorem read_write_self (bank : Bank size) (offset : Nat) (value : UInt8) :
    (bank.write offset value).read offset = value := by
  simp [read_write]

theorem read_write_of_ne (bank : Bank size) {offset other : Nat} (value : UInt8)
    (distinct : offset % size ≠ other % size) :
    (bank.write offset value).read other = bank.read other := by
  simp [read_write, distinct]

end Bank

end GameBoy
