import MeteredWasm.Bytes.Reader

/-!
# Little-endian numbers

Numbers of a fixed count of bytes, lowest byte first.
-/

set_option autoImplicit false

namespace MeteredWasm.LittleEndian

/-- The low `count` bytes of `n`. -/
def write : (count n : Nat) → Bytes
  | 0, _ => []
  | count + 1, n => (n % 256).toUInt8 :: write count (n / 256)

/-- The number that these bytes write. -/
def value : Bytes → Nat
  | [] => 0
  | b :: rest => b.toNat + 256 * value rest

/-- Reads a number of `count` bytes. -/
def read (count : Nat) : Reader Nat := do
  let bs ← Reader.take count
  return value bs

theorem length_write (count n : Nat) : (write count n).length = count := by
  induction count generalizing n with
  | zero => rfl
  | succ count ih => simp [write, ih]

theorem value_write (count n : Nat) : value (write count n) = n % (1 <<< (8 * count)) := by
  induction count generalizing n with
  | zero => simp [write, value, Nat.mod_one]
  | succ count ih =>
    have h : (n % 256).toUInt8.toNat = n % 256 := by simp
    rw [write, value, ih, h, Nat.mul_succ, Nat.shiftLeft_add, Nat.shiftLeft_eq _ 8,
      Nat.mul_comm _ (2 ^ 8), Nat.mod_mul]

theorem value_lt (bs : Bytes) : value bs < 1 <<< (8 * bs.length) := by
  induction bs with
  | nil => simp [value]
  | cons b rest ih =>
    have := b.toNat_lt
    rw [value, List.length_cons, Nat.mul_succ, Nat.shiftLeft_add]
    omega

theorem write_value (bs : Bytes) : write bs.length (value bs) = bs := by
  induction bs with
  | nil => rfl
  | cons b rest ih =>
    have hb := b.toNat_lt
    have hm : (b.toNat + 256 * value rest) % 256 = b.toNat := by omega
    have hd : (b.toNat + 256 * value rest) / 256 = value rest := by omega
    rw [List.length_cons, write, value, hm, hd, ih]
    simp

theorem read_append (count n : Nat) (h : n < 1 <<< (8 * count)) (rest : Bytes) :
    read count (write count n ++ rest) = some (n, rest) := by
  have ht := Reader.take_append (write count n) rest
  rw [length_write] at ht
  simp only [read, Reader.bind_apply, ht, Option.bind_some, Reader.pure_apply, value_write,
    Nat.mod_eq_of_lt h]

end MeteredWasm.LittleEndian
