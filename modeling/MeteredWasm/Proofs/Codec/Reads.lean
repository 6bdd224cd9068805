import Mathlib.Algebra.GroupWithZero.Nat
import Mathlib.Algebra.Ring.Int.Defs
import MeteredWasm.Bytes.Leb128
import MeteredWasm.Bytes.LittleEndian
import MeteredWasm.Bytes.Utf8

/-!
# Reading what was written

A reader *reads* a value from bytes if it can read nothing else from them, whatever follows. It may
refuse: lengths and sizes are bounded, and a writer does not look at the bounds. So what a reader
says about written bytes, if it says anything, is what was written.

Whether it says anything is a matter of these bounds alone. `Gives` states both at once: bounds are
asked for only by those who have to be sure that nothing is refused.

Readers that are put together read what their parts read, one behind the other.
-/

set_option autoImplicit false

namespace MeteredWasm.Reader

variable {α β : Type}

/-- The answer is `a`; unless `sure`, there may be none. -/
def Answers (sure : Prop) (o : Option α) (a : α) : Prop := o = some a ∨ ¬sure ∧ o = none

namespace Answers

variable {sure : Prop} {o : Option α} {a b : α}

theorem unique (h : Answers sure o a) (hb : o = some b) : b = a := by
  rcases h with h | ⟨-, h⟩
  · exact Option.some.inj (hb.symm.trans h)
  · cases hb.symm.trans h

theorem eq_some (h : Answers True o a) : o = some a := h.resolve_right fun hn => hn.1 trivial

theorem map (f : α → β) (h : Answers sure o a) : Answers sure (o.map f) (f a) := by
  rcases h with rfl | ⟨hs, rfl⟩
  · exact .inl rfl
  · exact .inr ⟨hs, rfl⟩

theorem bind {f : α → Option β} {b : β} (h : Answers sure o a) (hf : Answers sure (f a) b) :
    Answers sure (o.bind f) b := by
  rcases h with rfl | ⟨hs, rfl⟩
  · exact hf
  · exact .inr ⟨hs, rfl⟩

theorem ite {c : Prop} [Decidable c] (hc : sure → c) (h : Answers sure o a) :
    Answers sure (if c then o else none) a := by
  split
  · exact h
  · rename_i hnot
    exact .inr ⟨fun hs => hnot (hc hs), rfl⟩

theorem mapM {f : β → Option α} {write : α → β} {xs : List α}
    (h : ∀ x ∈ xs, Answers sure (f (write x)) x) : Answers sure ((xs.map write).mapM f) xs := by
  induction xs with
  | nil => exact .inl rfl
  | cons x xs ih =>
    rw [List.map_cons, List.mapM_cons]
    exact (h x (List.mem_cons_self ..)).bind
      ((ih fun y hy => h y (List.mem_cons_of_mem _ hy)).bind (.inl rfl))

end Answers

/-- Of bytes that start with `front` the reader makes nothing but `a`, and leaves what follows. -/
def Reads (r : Reader α) (front : Bytes) (a : α) : Prop :=
  ∀ rest b left, r (front ++ rest) = some (b, left) → b = a ∧ left = rest

/-- Of bytes that start with `front` the reader makes `a`, and leaves what follows; unless `sure`, it
may refuse them. -/
def Gives (sure : Prop) (r : Reader α) (front : Bytes) (a : α) : Prop :=
  ∀ rest, Answers sure (r (front ++ rest)) (a, rest)

namespace Gives

variable {sure : Prop}

theorem reads {r : Reader α} {front : Bytes} {a : α} (h : r.Gives sure front a) :
    r.Reads front a := by
  intro rest b left hr
  cases (h rest).unique hr
  exact ⟨rfl, rfl⟩

theorem takes {r : Reader α} {front : Bytes} {a : α} (h : r.Gives True front a) (rest : Bytes) :
    r (front ++ rest) = some (a, rest) := (h rest).eq_some

theorem whole {r : Reader α} {front : Bytes} {a : α} (h : r.Gives sure front a) :
    Answers sure (Reader.whole r front) a := by
  unfold Reader.whole
  rcases h [] with h | ⟨hs, h⟩ <;> rw [List.append_nil] at h <;> rw [h]
  · exact .inl rfl
  · exact .inr ⟨hs, rfl⟩

theorem pure (a : α) : Gives sure (Pure.pure a) [] a := fun _ => .inl rfl

theorem bind {x : Reader α} {k : α → Reader β} {front back : Bytes} {a : α} {b : β}
    (hx : x.Gives sure front a) (hk : (k a).Gives sure back b) :
    (x >>= k).Gives sure (front ++ back) b := by
  intro rest
  rw [List.append_assoc, bind_apply]
  rcases hx (back ++ rest) with h | ⟨hs, h⟩
  · rw [h]
    exact hk rest
  · rw [h]
    exact .inr ⟨hs, rfl⟩

/-- A reader in front of one that takes no bytes. -/
theorem bind_pure {x : Reader α} {k : α → Reader β} {front : Bytes} {a : α} {b : β}
    (hx : x.Gives sure front a) (hk : (k a).Gives sure [] b) : (x >>= k).Gives sure front b := by
  have h := hx.bind hk
  rwa [List.append_nil] at h

theorem map {x : Reader α} {front : Bytes} {a : α} (f : α → β) (hx : x.Gives sure front a) :
    (f <$> x).Gives sure front (f a) := by
  rw [map_eq_pure_bind]
  exact hx.bind_pure (.pure _)

theorem byte {k : UInt8 → Reader β} {b : UInt8} {back : Bytes} {c : β}
    (hk : (k b).Gives sure back c) : (Reader.byte >>= k).Gives sure (b :: back) c :=
  fun rest => hk rest

theorem peek {k : UInt8 → Reader β} {b : UInt8} {back : Bytes} {c : β}
    (hk : (k b).Gives sure (b :: back) c) : (Reader.peek >>= k).Gives sure (b :: back) c :=
  fun rest => hk rest

theorem require {k : Unit → Reader β} {c : Bool} {front : Bytes} {b : β} (hc : sure → c = true)
    (hk : c = true → (k ()).Gives sure front b) :
    (Reader.require c >>= k).Gives sure front b := by
  intro rest
  cases c with
  | true => exact hk rfl rest
  | false => exact .inr ⟨fun hs => (nomatch hc hs), rfl⟩

theorem refuse (front : Bytes) (a : α) (h : ¬sure) :
    (Reader.refuse : Reader α).Gives sure front a :=
  fun _ => .inr ⟨h, rfl⟩

theorem ofOption_bind {o : Option α} {k : α → Reader β} {front : Bytes} {b : β}
    (hs : sure → o.isSome) (hk : ∀ a, o = some a → (k a).Gives sure front b) :
    (Reader.ofOption o >>= k).Gives sure front b := by
  cases o with
  | none => exact fun _ => .inr ⟨fun s => (nomatch hs s), rfl⟩
  | some a => exact hk a rfl

theorem ofOption {o : Option α} {a : α} (h : Answers sure o a) :
    (Reader.ofOption o).Gives sure [] a := by
  rcases h with rfl | ⟨hs, rfl⟩
  · exact .pure a
  · exact fun _ => .inr ⟨hs, rfl⟩

/-- A reader of a value that is there. -/
theorem ofOption_some {o : Option α} {a : α} (h : o = some a) :
    (Reader.ofOption o).Gives sure [] a := by
  subst h
  exact .pure a

theorem take (bs : Bytes) : (Reader.take bs.length).Gives sure bs bs :=
  fun rest => .inl (take_append bs rest)

theorem times {item : Reader α} {write : α → Bytes} {xs : List α}
    (h : ∀ x ∈ xs, item.Gives sure (write x) x) :
    (Reader.times xs.length item).Gives sure (xs.flatMap write) xs := by
  induction xs with
  | nil => exact .pure _
  | cons x xs ih =>
    have hx := h x (List.mem_cons_self ..)
    have hxs := ih fun y hy => h y (List.mem_cons_of_mem _ hy)
    exact hx.bind (hxs.bind_pure (.pure _))

end Gives

end MeteredWasm.Reader

namespace MeteredWasm.Leb128

open Reader (Gives)

variable {sure : Prop}

/-! ## Numbers -/

theorem readUnsigned_gives (width n : Nat) (hs : sure → n < 2 ^ width) :
    (readUnsigned width).Gives sure (writeUnsigned n) n := by
  induction n using Nat.strongRecOn generalizing width with
  | ind n ih =>
    intro rest
    rw [writeUnsigned]
    by_cases hsmall : n < 128
    · have hbyte := toNat_toUInt8 (show n < 256 by omega)
      rw [if_pos hsmall, List.cons_append, readUnsigned, hbyte, if_pos hsmall, Nat.one_shiftLeft]
      split
      · exact .inl rfl
      · rename_i hbig
        exact .inr ⟨fun h => hbig (hs h), rfl⟩
    · have hbyte := toNat_toUInt8 (show n % 128 + 128 < 256 by omega)
      rw [if_neg hsmall, List.cons_append, readUnsigned, hbyte, if_neg (by omega)]
      by_cases hwidth : width ≤ 7
      · rw [if_pos hwidth]
        refine .inr ⟨fun h => ?_, rfl⟩
        have hpow := Nat.pow_le_pow_right (show 0 < 2 by omega) hwidth
        have := hs h
        omega
      · obtain ⟨k, rfl⟩ : ∃ k, width = k + 7 := ⟨width - 7, by omega⟩
        rw [if_neg hwidth, Nat.add_sub_cancel]
        have hrest : sure → n / 128 < 2 ^ k := fun h => by
          have hlt := hs h
          rw [Nat.pow_add] at hlt
          omega
        rcases ih (n / 128) (by omega) k hrest rest with h | ⟨h, hnone⟩
        · rw [h]
          refine .inl (congrArg some (Prod.ext ?_ rfl))
          show n % 128 + 128 - 128 + 128 * (n / 128) = n
          omega
        · rw [hnone]
          exact .inr ⟨h, rfl⟩

theorem readSigned_gives (width : Nat) (i : Int)
    (hs : sure → -2 ^ (width - 1) ≤ i ∧ i < 2 ^ (width - 1)) :
    (readSigned width).Gives sure (writeSigned i) i := by
  induction hk : i.natAbs using Nat.strongRecOn generalizing width i with
  | ind k ih =>
    intro rest
    have hcast : (2 : Int) ^ (width - 1) = (2 ^ (width - 1) : Nat) := by simp
    rw [hcast] at hs
    rw [writeSigned]
    by_cases hsmall : -64 ≤ i ∧ i < 64
    · have hbyte := toNat_toUInt8 (show (i % 128).toNat < 256 by omega)
      rw [if_pos hsmall, List.cons_append, readSigned, hbyte, Nat.one_shiftLeft]
      split
      · split
        · refine .inl (congrArg some (Prod.ext ?_ rfl))
          show ((i % 128).toNat : Int) = i
          omega
        · refine .inr ⟨fun h => ?_, rfl⟩
          have := hs h
          omega
      · rw [if_pos (by omega)]
        split
        · refine .inl (congrArg some (Prod.ext ?_ rfl))
          show ((i % 128).toNat : Int) - 128 = i
          omega
        · refine .inr ⟨fun h => ?_, rfl⟩
          have := hs h
          omega
    · have hbyte := toNat_toUInt8 (show (i % 128).toNat + 128 < 256 by omega)
      rw [if_neg hsmall, List.cons_append, readSigned, hbyte, if_neg (by omega), if_neg (by omega)]
      by_cases hwidth : width ≤ 7
      · rw [if_pos hwidth]
        refine .inr ⟨fun h => ?_, rfl⟩
        have hpow := Nat.pow_le_pow_right (show 0 < 2 by omega) (show width - 1 ≤ 6 by omega)
        have := hs h
        omega
      · obtain ⟨k, rfl⟩ : ∃ k, width = k + 8 := ⟨width - 8, by omega⟩
        rw [if_neg hwidth]
        have hrest : sure → -2 ^ (k + 8 - 7 - 1) ≤ i / 128 ∧ i / 128 < 2 ^ (k + 8 - 7 - 1) := by
          intro h
          have hcast' : (2 : Int) ^ (k + 8 - 7 - 1) = (2 ^ k : Nat) := by simp
          have hlt := hs h
          rw [show k + 8 - 1 = k + 7 by omega, Nat.pow_add] at hlt
          rw [hcast']
          omega
        rcases ih (i / 128).natAbs (by omega) _ _ hrest rfl rest with h | ⟨h, hnone⟩
        · rw [h]
          refine .inl (congrArg some (Prod.ext ?_ rfl))
          show (((i % 128).toNat + 128 : Nat) : Int) - 128 + 128 * (i / 128) = i
          omega
        · rw [hnone]
          exact .inr ⟨h, rfl⟩

/-- Only zero starts with a zero byte. -/
theorem head_writeUnsigned (n : Nat) :
    ∃ b bs, writeUnsigned n = b :: bs ∧ (b = 0 → n = 0 ∧ bs = []) := by
  rw [writeUnsigned]
  split
  · have hbyte := toNat_toUInt8 (show n < 256 by omega)
    refine ⟨_, _, rfl, fun h => ⟨?_, rfl⟩⟩
    rw [← hbyte, h]
    rfl
  · have hbyte := toNat_toUInt8 (show n % 128 + 128 < 256 by omega)
    refine ⟨_, _, rfl, fun h => ?_⟩
    rw [h] at hbyte
    simp at hbyte

/-- Reading cannot mistake the first byte of a written index for that of a negative number. -/
theorem head_writeSigned (n : Nat) :
    ∃ b bs, writeSigned n = b :: bs ∧ (b.toNat < 64 ∨ 128 ≤ b.toNat) := by
  rw [writeSigned]
  split
  · have hbyte := toNat_toUInt8 (show ((n : Int) % 128).toNat < 256 by omega)
    exact ⟨_, _, rfl, .inl (by omega)⟩
  · have hbyte := toNat_toUInt8 (show ((n : Int) % 128).toNat + 128 < 256 by omega)
    exact ⟨_, _, rfl, .inr (by omega)⟩

/-! ## Words -/

theorem readU32_gives (n : UInt32) : readU32.Gives sure (writeU32 n) n := by
  have h : readU32.Gives sure (writeU32 n) n.toNat.toUInt32 :=
    (readUnsigned_gives 32 n.toNat fun _ => n.toNat_lt).bind_pure (.pure _)
  rwa [Nat.toUInt32_eq, UInt32.ofNat_toNat] at h

theorem readS32_gives (n : UInt32) : readS32.Gives sure (writeS32 n) n := by
  have h : readS32.Gives sure (writeS32 n) n.toInt32.toInt.toInt32.toUInt32 :=
    (readSigned_gives 32 n.toInt32.toInt fun _ =>
      ⟨n.toInt32.le_toInt, n.toInt32.toInt_lt⟩).bind_pure (.pure _)
  rwa [show n.toInt32.toInt.toInt32 = n.toInt32 from Int32.ofInt_toInt _,
    UInt32.toUInt32_toInt32] at h

theorem readS64_gives (n : UInt64) : readS64.Gives sure (writeS64 n) n := by
  have h : readS64.Gives sure (writeS64 n) n.toInt64.toInt.toInt64.toUInt64 :=
    (readSigned_gives 64 n.toInt64.toInt fun _ =>
      ⟨n.toInt64.le_toInt, n.toInt64.toInt_lt⟩).bind_pure (.pure _)
  rwa [show n.toInt64.toInt.toInt64 = n.toInt64 from Int64.ofInt_toInt _,
    UInt64.toUInt64_toInt64] at h

/-! ## Vectors -/

theorem readVec_gives {α : Type} {item : Reader α} {write : α → Bytes} {xs : List α}
    (hs : sure → xs.length < 2 ^ 32) (h : ∀ x ∈ xs, item.Gives sure (write x) x) :
    (readVec item).Gives sure (writeVec write xs) xs :=
  (readUnsigned_gives 32 xs.length hs).bind (.times h)

theorem writeUnsigned_ne_nil (n : Nat) : writeUnsigned n ≠ [] := by
  obtain ⟨b, bs, h, -⟩ := head_writeUnsigned n
  rw [h]
  exact List.cons_ne_nil b bs

theorem writeU32_ne_nil (n : UInt32) : writeU32 n ≠ [] := writeUnsigned_ne_nil n.toNat

theorem writeBlob_ne_nil (bs : Bytes) : writeBlob bs ≠ [] :=
  List.append_ne_nil_of_left_ne_nil (writeUnsigned_ne_nil _) _

section
variable {α : Type} {write : α → Bytes} {xs : List α}

/-- Items that take `k` bytes at least when they are written down. -/
theorem mul_length_le_flatMap {k : Nat} (h : ∀ x ∈ xs, k ≤ (write x).length) :
    k * xs.length ≤ (xs.flatMap write).length := by
  induction xs with
  | nil => exact Nat.le_refl 0
  | cons x xs ih =>
    have hx := h x (List.mem_cons_self ..)
    have hxs := ih fun y hy => h y (List.mem_cons_of_mem _ hy)
    rw [List.length_cons, List.flatMap_cons, List.length_append, Nat.mul_succ]
    omega

/-- Items that are written down take a byte at least. -/
theorem length_le_flatMap (h : ∀ x ∈ xs, write x ≠ []) : xs.length ≤ (xs.flatMap write).length := by
  have hle := mul_length_le_flatMap (k := 1) fun x hx => List.length_pos_iff.2 (h x hx)
  rwa [Nat.one_mul] at hle

theorem length_lt_of_writeVec {n : Nat} (h : ∀ x ∈ xs, write x ≠ [])
    (hlt : (writeVec write xs).length < n) : xs.length < n := by
  have hle := length_le_flatMap h
  rw [writeVec, List.length_append] at hlt
  omega

theorem length_le_writeVec (write : α → Bytes) {x : α} (h : x ∈ xs) :
    (write x).length ≤ (writeVec write xs).length := by
  have hsub : (write x).Sublist (xs.flatMap write) :=
    List.sublist_flatten_of_mem (List.mem_map_of_mem h)
  rw [writeVec, List.length_append]
  exact Nat.le_trans hsub.length_le (Nat.le_add_left ..)

end

theorem readBlob_gives (bs : Bytes) (hs : sure → bs.length < 2 ^ 32) :
    readBlob.Gives sure (writeBlob bs) bs :=
  (readUnsigned_gives 32 bs.length hs).bind (.take bs)

end MeteredWasm.Leb128

namespace MeteredWasm

open Reader (Gives)

theorem LittleEndian.read_gives {sure : Prop} (count : Nat) {n : Nat}
    (hn : n < 1 <<< (8 * count)) : (read count).Gives sure (write count n) n :=
  fun rest => .inl (read_append count n hn rest)

namespace Utf8

theorem toList_loop (bs : ByteArray) (i : Nat) (r : List UInt8) :
    ByteArray.toList.loop bs i r = r.reverse ++ bs.data.toList.drop i := by
  induction hk : bs.size - i generalizing i r with
  | zero =>
    have hle : bs.data.toList.length ≤ i := by
      rw [Array.length_toList]
      exact Nat.sub_eq_zero_iff_le.1 hk
    rw [ByteArray.toList.loop, if_neg (by omega), List.drop_eq_nil_of_le hle, List.append_nil]
  | succ k ih =>
    have hlt : i < bs.data.toList.length := by
      rw [Array.length_toList]
      exact Nat.lt_of_sub_eq_succ hk
    have hget : bs.get! i = bs.data.toList[i] := getElem!_pos bs.data i hlt
    rw [ByteArray.toList.loop, if_pos (by omega), ih _ _ (by omega), List.reverse_cons,
      List.append_assoc, hget, List.singleton_append, List.getElem_cons_drop]

theorem length_encode (s : String) : (encode s).length = s.utf8ByteSize := by
  simp [encode, ByteArray.toList, toList_loop]

/-- Text is read back as it was. -/
theorem decode_encode (s : String) : decode? (encode s) = some s := by
  have hbytes : (⟨(encode s).toArray⟩ : ByteArray) = s.toByteArray := by
    simp [encode, ByteArray.toList, toList_loop]
  unfold decode?
  rw [hbytes]
  simp only [String.fromUTF8?, s.isValidUTF8, dif_pos]
  rfl

end Utf8

end MeteredWasm
