import MeteredWasm.Machine.Memory

/-!
# Memories that agree off hidden bytes

Two memories agree if they have the same size and bounds and the same bytes, except for those that
are hidden. Whatever reads no hidden byte finds the same in both, and writing the same to both
keeps them in agreement. With nothing hidden, memories that agree are equal (`Agrees.eq`).
-/

set_option autoImplicit false

namespace MeteredWasm

/-! ## Bytes as a list -/

theorem byteArray_loop (bytes : ByteArray) (k : Nat) (before : List UInt8) :
    ByteArray.toList.loop bytes k before = before.reverse ++ bytes.data.toList.drop k := by
  induction h : bytes.size - k generalizing k before with
  | zero =>
    have hsize : bytes.data.toList.length ≤ k := by
      have : bytes.data.size - k = 0 := h
      rw [Array.length_toList]
      omega
    rw [ByteArray.toList.loop, if_neg (by omega), List.drop_eq_nil_of_le hsize, List.append_nil]
  | succ n ih =>
    have hk : k < bytes.data.toList.length := by
      have : bytes.data.size - k = n + 1 := h
      rw [Array.length_toList]
      omega
    have hlt : k < bytes.data.size := by rwa [Array.length_toList] at hk
    have hget : bytes.get! k = bytes.data.toList[k] := by
      rw [Array.getElem_toList]
      exact getElem!_pos bytes.data k hlt
    rw [ByteArray.toList.loop, if_pos (by omega), ih _ _ (by omega), List.drop_eq_getElem_cons hk,
      hget]
    simp

theorem byteArray_toList (bytes : ByteArray) : bytes.toList = bytes.data.toList :=
  (byteArray_loop bytes 0 []).trans (by simp)

end MeteredWasm

namespace MeteredWasm.Machine.Memory

/-! ## Single bytes -/

/-- The byte at an address. -/
def byte? (m : Memory) (address : Nat) : Option UInt8 := m.bytes.data[address]?

section
variable (m : Memory) {source : ByteArray} {address start length : Nat}

/-- Overwriting inside of the memory leaves its size. -/
theorem size_overwrite (hm : address + length ≤ m.size) (hs : start + length ≤ source.size) :
    (m.overwrite address source start length).size = m.size := by
  obtain ⟨⟨bytes⟩, maxPages, shared, is64⟩ := m
  obtain ⟨source⟩ := source
  simp only [size, ByteArray.size] at hm hs
  simp only [size, overwrite, ByteArray.size, ByteArray.copySlice, Array.size_append,
    Array.size_extract]
  omega

theorem size_write {bs : Bytes} (hm : address + bs.length ≤ m.size) :
    (m.write address bs).size = m.size :=
  size_overwrite m hm (by simp [ByteArray.size])

/-- What stands at an address after overwriting. -/
theorem byte?_overwrite (hm : address + length ≤ m.size) (hs : start + length ≤ source.size)
    (k : Nat) : (m.overwrite address source start length).byte? k =
      if address ≤ k ∧ k < address + length then source.data[start + (k - address)]?
      else m.byte? k := by
  obtain ⟨⟨bytes⟩, maxPages, shared, is64⟩ := m
  obtain ⟨source⟩ := source
  simp only [size, ByteArray.size] at hm hs
  simp only [byte?, overwrite, ByteArray.copySlice, Array.getElem?_append, Array.size_append,
    Array.size_extract, Array.getElem?_extract]
  have h1 : min address bytes.size - 0 = address := by omega
  have h2 : min (start + length) source.size - start = length := by omega
  have h3 : min length (source.size - start) = length := by omega
  simp only [h1, h2, h3]
  by_cases hlow : k < address
  · simp [show k < address + length by omega, hlow, show ¬address ≤ k by omega]
  · by_cases hhigh : k < address + length
    · simp only [hlow, hhigh, if_true, if_false, show address ≤ k by omega, true_and]
      rw [if_pos (by omega)]
    · simp only [hlow, hhigh, and_false, if_false]
      split
      · congr 1
        omega
      · rw [Array.getElem?_eq_none (by omega)]

end

/-! ## Agreement -/

/-- The two memories are the same but for the bytes at hidden addresses. -/
structure Agrees (hidden : Nat → Prop) (m m' : Memory) : Prop where
  size : m'.size = m.size
  maxPages : m'.maxPages = m.maxPages
  shared : m'.shared = m.shared
  is64 : m'.is64 = m.is64
  byte : ∀ address, ¬hidden address → m'.byte? address = m.byte? address

/-- Whether an access that is inside of the memory leaves hidden bytes alone. -/
def Spares (hidden : Nat → Prop) (m : Memory) (address length : Nat) : Prop :=
  m.holds address length = true → ∀ k, address ≤ k → k < address + length → ¬hidden k

theorem Agrees.refl (hidden : Nat → Prop) (m : Memory) : Agrees hidden m m :=
  ⟨rfl, rfl, rfl, rfl, fun _ _ => rfl⟩

theorem byte?_extract (m : Memory) (address length k : Nat) :
    (m.extract address length)[k]? = if k < length then m.byte? (address + k) else none := by
  simp only [extract, ByteArray.data_extract, Array.getElem?_toList, Array.getElem?_extract,
    byte?]
  by_cases hk : k < length
  · rw [if_pos hk]
    split
    · rfl
    · rw [Array.getElem?_eq_none (by omega)]
  · rw [if_neg hk, if_neg (by omega)]

/-- What has been written can be read, also from inside of it. -/
theorem extract_write {m : Memory} {address : Nat} {bs : Bytes} {start length : Nat}
    (hm : m.holds address bs.length = true) (hlength : start + length ≤ bs.length) :
    (m.write address bs).extract (address + start) length = (bs.drop start).take length := by
  have hsize : address + bs.length ≤ m.size := by simpa [Memory.holds] using hm
  apply List.ext_getElem?
  intro k
  rw [byte?_extract, List.getElem?_take, List.getElem?_drop, write,
    byte?_overwrite m hsize (by simp [ByteArray.size])]
  by_cases hk : k < length
  · rw [if_pos hk, if_pos hk, if_pos ⟨by omega, by omega⟩]
    simp only [List.getElem?_toArray]
    congr 1
    omega
  · rw [if_neg hk, if_neg hk]

theorem load_write {m : Memory} {address : Nat} {bs : Bytes} {start length : Nat}
    (hm : m.holds address bs.length = true) (hlength : start + length ≤ bs.length) :
    (m.write address bs).load (address + start) length =
      .ok (LittleEndian.value ((bs.drop start).take length)) := by
  have hsize : address + bs.length ≤ m.size := by simpa [Memory.holds] using hm
  have hholds : (m.write address bs).holds (address + start) length = true := by
    simp only [holds, size_write m hsize, decide_eq_true_eq]
    omega
  rw [load, if_pos hholds, extract_write hm hlength]

/-- Writing changes what it writes over, and nothing else. -/
theorem agrees_write {m : Memory} {address : Nat} {bs : Bytes}
    (hm : m.holds address bs.length = true) :
    Agrees (fun k => address ≤ k ∧ k < address + bs.length) m (m.write address bs) := by
  have hsize : address + bs.length ≤ m.size := by simpa [Memory.holds] using hm
  refine ⟨size_write m hsize, rfl, rfl, rfl, fun k hk => ?_⟩
  rw [write, byte?_overwrite m hsize (by simp [ByteArray.size]), if_neg hk]

namespace Agrees

variable {hidden : Nat → Prop} {m m' : Memory} (h : Agrees hidden m m')
include h

theorem pages : m'.pages = m.pages := by simp only [Memory.pages, h.size]

theorem holds (address length : Nat) : m'.holds address length = m.holds address length := by
  simp only [Memory.holds, h.size]

theorem extract {address length : Nat}
    (hk : ∀ k, address ≤ k → k < address + length → ¬hidden k) :
    m'.extract address length = m.extract address length := by
  apply List.ext_getElem?
  intro k
  rw [byte?_extract, byte?_extract]
  split
  · exact h.byte _ (hk _ (by omega) (by omega))
  · rfl

/-- Reading no hidden byte, one finds the same. -/
theorem load {address length : Nat} (hs : Spares hidden m address length) :
    m'.load address length = m.load address length := by
  unfold Memory.load
  rw [h.holds]
  cases hh : m.holds address length with
  | false => rfl
  | true => rw [h.extract (hs hh)]

/-- The same bytes can be put in, from where they are not hidden. -/
theorem overwrite {source source' : ByteArray} {address start length : Nat}
    (hm : m.holds address length = true) (hs : start + length ≤ source.size)
    (hs' : start + length ≤ source'.size)
    (hsource : ∀ k, start ≤ k → k < start + length → source'.data[k]? = source.data[k]?) :
    Agrees hidden (m.overwrite address source start length)
      (m'.overwrite address source' start length) := by
  have hsize : address + length ≤ m.size := by simpa [Memory.holds] using hm
  have hsize' : address + length ≤ m'.size := h.size ▸ hsize
  refine ⟨?_, h.maxPages, h.shared, h.is64, fun k hk => ?_⟩
  · rw [size_overwrite m' hsize' hs', size_overwrite m hsize hs, h.size]
  · rw [byte?_overwrite m' hsize' hs', byte?_overwrite m hsize hs]
    split
    · exact hsource _ (by omega) (by omega)
    · exact h.byte k hk

theorem write {address : Nat} {bs : Bytes} (hm : m.holds address bs.length = true) :
    Agrees hidden (m.write address bs) (m'.write address bs) :=
  h.overwrite hm (by simp [ByteArray.size]) (by simp [ByteArray.size]) fun _ _ _ => rfl

theorem append (tail : ByteArray) : Agrees hidden { m with bytes := m.bytes ++ tail }
    { m' with bytes := m'.bytes ++ tail } := by
  have hsize : m'.bytes.data.size = m.bytes.data.size := h.size
  refine ⟨?_, h.maxPages, h.shared, h.is64, fun k hk => ?_⟩
  · simp only [Memory.size, ByteArray.size_append]
    exact congrArg (· + tail.size) h.size
  · have hbyte : m'.bytes.data[k]? = m.bytes.data[k]? := h.byte k hk
    simp only [byte?, ByteArray.data_append, Array.getElem?_append, hsize, hbyte]

theorem appendPages (count : Nat) : Agrees hidden
    { m with bytes := Memory.appendPages m.bytes count }
    { m' with bytes := Memory.appendPages m'.bytes count } := by
  induction count generalizing m m' with
  | zero => exact h
  | succ count ih => exact ih (h.append zeroPage)

/-- Both memories can grow, or neither can. -/
theorem grow (delta : Nat) :
    (m.grow? delta = none ∧ m'.grow? delta = none) ∨
      ∃ larger larger', m.grow? delta = some larger ∧ m'.grow? delta = some larger' ∧
        Agrees hidden larger larger' := by
  unfold grow?
  rw [h.pages, h.maxPages]
  split
  · have hlarger := h.appendPages delta
    rw [h.maxPages] at hlarger
    exact .inr ⟨_, _, rfl, rfl, hlarger⟩
  · exact .inl ⟨rfl, rfl⟩

end Agrees

/-- Elsewhere there is what has been there. -/
theorem load_write_apart {m : Memory} {address start length : Nat} {bs : Bytes}
    (h : address + bs.length ≤ m.size)
    (hapart : start + length ≤ address ∨ address + bs.length ≤ start) :
    (m.write address bs).load start length = m.load start length :=
  (agrees_write (by simpa [holds] using h)).load fun _ k hlow hhigh hwritten => by omega

/-- A word that has been written can be read. -/
theorem load_write_word {m : Memory} {address word : Nat} (h : address + 4 ≤ m.size)
    (hword : word < 0x100000000) :
    (m.write address (LittleEndian.write 4 word)).load address 4 = .ok word := by
  have hlength := LittleEndian.length_write 4 word
  have hholds : m.holds address (LittleEndian.write 4 word).length = true := by
    simpa [holds, hlength] using h
  have hload := load_write hholds (show 0 + 4 ≤ _ by omega)
  rw [Nat.add_zero, List.drop_zero, List.take_of_length_le (by omega),
    LittleEndian.value_write] at hload
  rw [hload]
  exact congrArg Except.ok (Nat.mod_eq_of_lt hword)

theorem size_write_word {m : Memory} {address word : Nat} (h : address + 4 ≤ m.size) :
    (m.write address (LittleEndian.write 4 word)).size = m.size :=
  size_write m (by rw [LittleEndian.length_write]; exact h)

theorem Agrees.eq {m m' : Memory} (h : Agrees (fun _ => False) m m') : m' = m := by
  obtain ⟨⟨bytes⟩, maxPages, shared, is64⟩ := m
  obtain ⟨⟨bytes'⟩, maxPages', shared', is64'⟩ := m'
  obtain ⟨-, rfl, rfl, rfl, hbyte⟩ := h
  have : bytes' = bytes := Array.ext_getElem? fun k => hbyte k id
  rw [this]

end MeteredWasm.Machine.Memory
