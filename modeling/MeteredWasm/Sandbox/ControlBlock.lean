import MeteredWasm.Bytes.LittleEndian

/-!
# The control block

Where in linear memory a suspended module keeps its stack. The block is two 32-bit numbers: the
position up to which the stack region is in use, and the end of the region. The region starts
right behind the block. The module's own data must stay out of both.
-/

set_option autoImplicit false

namespace MeteredWasm

structure ControlBlock where
  address : UInt32
  /-- Where the stack region ends; the byte at this address is not part of it. -/
  stackEnd : UInt32
  deriving Repr, DecidableEq, Inhabited

namespace ControlBlock

def standard : ControlBlock := ⟨16, 1024⟩

/-- Bytes in the block itself. -/
def size : UInt32 := 8

/-- Where the stack region starts. -/
def stackStart (block : ControlBlock) : UInt32 := block.address + size

/-- Bytes of memory needed to hold the block and its region. -/
def requiredMemory (block : ControlBlock) : Nat := (max block.stackEnd block.stackStart).toNat

/-- Whether an address belongs to the block or its region. -/
def Reserves (block : ControlBlock) (address : Nat) : Prop :=
  block.address.toNat ≤ address ∧ address < block.requiredMemory

instance (block : ControlBlock) (address : Nat) : Decidable (block.Reserves address) :=
  inferInstanceAs (Decidable (_ ∧ _))

/-- The block as it is before anything is captured: an empty region. -/
def encode (block : ControlBlock) : Bytes :=
  LittleEndian.write 4 block.stackStart.toNat ++ LittleEndian.write 4 block.stackEnd.toNat

theorem length_encode (block : ControlBlock) : block.encode.length = 8 := by
  simp [encode, LittleEndian.length_write]

/-- The position that the block in `memory` says, if memory reaches that far. -/
def position (block : ControlBlock) (memory : ByteArray) : Option UInt32 :=
  let start := block.address.toNat
  if start + 4 ≤ memory.size then
    some (LittleEndian.value (memory.extract start (start + 4)).toList).toUInt32
  else none

end ControlBlock

end MeteredWasm
