import MeteredWasm.Bytes.LittleEndian
import MeteredWasm.Error
import MeteredWasm.Sandbox.Pages

/-!
# Linear memory

A memory is its bytes, in whole pages. It never shrinks, and `grow?` is the only way for it to
grow: never past its greatest size. Every access is checked against the size before it touches
anything, so a write happens in full or not at all.
-/

set_option autoImplicit false

namespace MeteredWasm.Machine

structure Memory where
  bytes : ByteArray
  /-- The greatest size, in pages. -/
  maxPages : Nat
  shared : Bool
  /-- Whether addresses have 64 bits. -/
  is64 : Bool

namespace Memory

/-- The size in bytes. -/
def size (m : Memory) : Nat := m.bytes.size

def pages (m : Memory) : Nat := m.size / pageSize

/-- A page of zeros. -/
def zeroPage : ByteArray := ⟨Array.replicate pageSize 0⟩

/-- Adds pages of zeros. -/
def appendPages (bytes : ByteArray) : (count : Nat) → ByteArray
  | 0 => bytes
  | count + 1 => appendPages (bytes ++ zeroPage) count

def ofPages (count maxPages : Nat) (shared is64 : Bool) : Memory :=
  ⟨appendPages .empty count, maxPages, shared, is64⟩

/-- The memory with `delta` more pages, if it may have as many. -/
def grow? (m : Memory) (delta : Nat) : Option Memory :=
  if m.pages + delta ≤ m.maxPages then some { m with bytes := appendPages m.bytes delta } else none

/-! ## Access -/

/-- Whether `length` bytes from `address` on are all inside. -/
def holds (m : Memory) (address length : Nat) : Bool := address + length ≤ m.size

/-- The bytes from `address` on. -/
def extract (m : Memory) (address length : Nat) : Bytes :=
  (m.bytes.extract address (address + length)).data.toList

def read? (m : Memory) (address length : Nat) : Option Bytes :=
  if m.holds address length then some (m.extract address length) else none

/-- The number that `length` bytes write. -/
def load (m : Memory) (address length : Nat) : Except Trap Nat :=
  if m.holds address length then .ok (LittleEndian.value (m.extract address length))
  else .error .memoryOutOfBounds

/-- The memory with `length` bytes of `source` put at `address`. -/
def overwrite (m : Memory) (address : Nat) (source : ByteArray) (start length : Nat) : Memory :=
  { m with bytes := source.copySlice start m.bytes address length }

/-- The memory with other bytes at `address`. -/
def write (m : Memory) (address : Nat) (bs : Bytes) : Memory :=
  m.overwrite address ⟨bs.toArray⟩ 0 bs.length

/-! ## Access from outside -/

/-- Writes into a memory that belongs to its instance alone. -/
def writeOwned (m : Memory) (address : Nat) (bytes : ByteArray) : Except ExecutionError Memory :=
  if m.holds address bytes.size then .ok (m.overwrite address bytes 0 bytes.size)
  else .error .ownedAccess

/-- Writes into a memory that is shared. -/
def writeShared (m : Memory) (address : Nat) (bytes : ByteArray) : Except ExecutionError Memory :=
  if m.holds address bytes.size then .ok (m.overwrite address bytes 0 bytes.size)
  else .error (.memoryAccess address bytes.size)

/-- The host writes into a memory. -/
def hostWrite (m : Memory) (address : Nat) (bytes : ByteArray) : Except ExecutionError Memory :=
  if m.shared then m.writeShared address bytes else m.writeOwned address bytes

end Memory

end MeteredWasm.Machine
