import MeteredWasm.Bytes.Reader

/-!
# LEB128 numbers

A number is written in groups of seven bits, lowest first, every byte but the last with its high
bit set. Writers produce the shortest form. Readers take any form that fits the width of the
number's type: no more bytes than the width needs, and the bits of the last byte above the width
all zero (unsigned) or all equal to the sign (signed).
-/

set_option autoImplicit false

namespace MeteredWasm.Leb128

/-! ## Unsigned numbers -/

/-- The shortest form of `n`. -/
def writeUnsigned (n : Nat) : Bytes :=
  if n < 128 then [n.toUInt8] else (n % 128 + 128).toUInt8 :: writeUnsigned (n / 128)
termination_by n
decreasing_by omega

/-- Reads a number of `width` bits. -/
def readUnsigned (width : Nat) : Reader Nat
  | [] => none
  | b :: rest =>
    if b.toNat < 128 then
      if b.toNat < 1 <<< width then some (b.toNat, rest) else none
    else if width ≤ 7 then none
    else
      match readUnsigned (width - 7) rest with
      | some (n, left) => some (b.toNat - 128 + 128 * n, left)
      | none => none

/-! ## Signed numbers -/

/-- The shortest form of `i`. -/
def writeSigned (i : Int) : Bytes :=
  if -64 ≤ i ∧ i < 64 then [(i % 128).toNat.toUInt8]
  else ((i % 128).toNat + 128).toUInt8 :: writeSigned (i / 128)
termination_by i.natAbs
decreasing_by omega

/-- Reads a number of `width` bits in two's complement. -/
def readSigned (width : Nat) : Reader Int
  | [] => none
  | b :: rest =>
    if b.toNat < 64 then
      if b.toNat < 1 <<< (width - 1) then some ((b.toNat : Int), rest) else none
    else if b.toNat < 128 then
      if 128 - b.toNat ≤ 1 <<< (width - 1) then some ((b.toNat : Int) - 128, rest) else none
    else if width ≤ 7 then none
    else
      match readSigned (width - 7) rest with
      | some (n, left) => some ((b.toNat : Int) - 128 + 128 * n, left)
      | none => none

/-! ## Words -/

def readU32 : Reader UInt32 := do
  let n ← readUnsigned 32
  return n.toUInt32

def readU64 : Reader UInt64 := do
  let n ← readUnsigned 64
  return n.toUInt64

/-- A signed 32-bit number, as the word with the same bits. -/
def readS32 : Reader UInt32 := do
  let i ← readSigned 32
  return i.toInt32.toUInt32

/-- A signed 64-bit number, as the word with the same bits. -/
def readS64 : Reader UInt64 := do
  let i ← readSigned 64
  return i.toInt64.toUInt64

/-- A signed 33-bit number: a 32-bit index where it is not negative. -/
def readS33 : Reader Int := readSigned 33

def writeU32 (n : UInt32) : Bytes := writeUnsigned n.toNat

def writeU64 (n : UInt64) : Bytes := writeUnsigned n.toNat

/-- Writes the word as the signed number with the same bits. -/
def writeS32 (n : UInt32) : Bytes := writeSigned n.toInt32.toInt

/-- Writes the word as the signed number with the same bits. -/
def writeS64 (n : UInt64) : Bytes := writeSigned n.toInt64.toInt

/-! ## Vectors -/

/-- A count followed by that many items. -/
def readVec {α : Type} (item : Reader α) : Reader (List α) := do
  let n ← readUnsigned 32
  Reader.times n item

def writeVec {α : Type} (write : α → Bytes) (xs : List α) : Bytes :=
  writeUnsigned xs.length ++ xs.flatMap write

/-- A count followed by that many bytes. -/
def readBlob : Reader Bytes := do
  let n ← readUnsigned 32
  Reader.take n

def writeBlob (bs : Bytes) : Bytes := writeUnsigned bs.length ++ bs

/-! ## Reading what was written -/

theorem toNat_toUInt8 {n : Nat} (h : n < 256) : n.toUInt8.toNat = n := by
  simp [Nat.mod_eq_of_lt h]

theorem readUnsigned_writeUnsigned {width n : Nat} (h : n < 1 <<< width) (rest : Bytes) :
    readUnsigned width (writeUnsigned n ++ rest) = some (n, rest) := by
  induction n using Nat.strongRecOn generalizing width with
  | ind n ih =>
    rw [writeUnsigned]
    split
    · rename_i small
      simp [readUnsigned, toNat_toUInt8 (by omega : n < 256), small, h]
    · rename_i big
      have byte := toNat_toUInt8 (by omega : n % 128 + 128 < 256)
      have wide : ¬ width ≤ 7 := by
        intro hw
        have : 1 <<< width ≤ 1 <<< 7 := by
          simpa [Nat.shiftLeft_eq] using Nat.pow_le_pow_right (n := 2) (by omega) hw
        omega
      have fits : n / 128 < 1 <<< (width - 7) := by
        obtain ⟨k, rfl⟩ : ∃ k, width = k + 7 := ⟨width - 7, by omega⟩
        rw [Nat.shiftLeft_add] at h
        simp only [Nat.add_sub_cancel]
        exact Nat.div_lt_of_lt_mul (by omega)
      simp only [List.cons_append, readUnsigned, byte, wide, ih (n / 128) (by omega) fits]
      simp only [show ¬(n % 128 + 128 < 128) by omega, ite_false, Option.some.injEq,
        Prod.mk.injEq, and_true]
      omega

theorem readU32_writeU32 (n : UInt32) (rest : Bytes) :
    readU32 (writeU32 n ++ rest) = some (n, rest) := by
  have h : n.toNat < 1 <<< 32 := n.toNat_lt
  simp only [readU32, writeU32, Reader.bind_apply, readUnsigned_writeUnsigned h,
    Option.bind_some, Reader.pure_apply, Nat.toUInt32_eq, UInt32.ofNat_toNat]

theorem readU64_writeU64 (n : UInt64) (rest : Bytes) :
    readU64 (writeU64 n ++ rest) = some (n, rest) := by
  have h : n.toNat < 1 <<< 64 := n.toNat_lt
  simp only [readU64, writeU64, Reader.bind_apply, readUnsigned_writeUnsigned h,
    Option.bind_some, Reader.pure_apply, Nat.toUInt64_eq, UInt64.ofNat_toNat]

end MeteredWasm.Leb128
