import MeteredWasm.Proofs.Codec.Reads
import MeteredWasm.Wasm.Operator.Immediate

/-!
# Types are read back

Every type of a module, and every immediate of the operators that valid code has, is read from its
binary form as it was written. Where forms share a first byte with others the reader looks at it
first: an index there starts with a byte that no other form starts with (`head_writeSigned`).

Types that are `Bounded` are not refused by either dialect. Sizes are as wide as the dialect has them,
so entities with sizes are not refused `Within` one.
-/

set_option autoImplicit false

namespace MeteredWasm.Wasm

open Leb128 Reader

variable {sure : Prop}

/-! ## Names -/

theorem readText_gives (s : String) (hs : sure → s.utf8ByteSize < 2 ^ 32) :
    readText.Gives sure (writeName s) s := by
  rw [← Utf8.length_encode] at hs
  exact (readUnsigned_gives 32 _ hs).bind
    ((Gives.take _).bind_pure (.ofOption_some (Utf8.decode_encode s)))

theorem writeName_ne_nil (s : String) : writeName s ≠ [] := writeBlob_ne_nil (Utf8.encode s)

/-- Text that is not too long for a name. -/
def NameFits (s : String) : Prop := s.utf8ByteSize ≤ maxNameLength

theorem NameFits.lt {s : String} (h : NameFits s) : s.utf8ByteSize < 2 ^ 32 :=
  Nat.lt_of_le_of_lt h (by decide)

theorem readName_gives (s : String) (hs : sure → NameFits s) : readName.Gives sure (writeName s) s :=
  (readText_gives s fun h => (hs h).lt).bind_pure
    (.require (fun h => decide_eq_true (hs h)) fun _ => .pure s)

/-! ## Value types -/

/-- What only an index starts with. -/
theorem ofCode_of_index {b : UInt8} (h : b.toNat < 64 ∨ 128 ≤ b.toNat) :
    AbstractHeap.ofCode? b = none := by
  unfold AbstractHeap.ofCode?
  split <;> first | rfl | simp at h

theorem readSignedIndex_gives (index : UInt32) :
    readSignedIndex.Gives sure (writeSignedIndex index) index := by
  have hindex := index.toNat_lt
  have h : readSignedIndex.Gives sure (writeSignedIndex index) (index.toNat : Int).toNat.toUInt32 :=
    (readSigned_gives 33 _ fun _ => ⟨by omega, by omega⟩).bind_pure
      (.require (fun _ => decide_eq_true (Int.natCast_nonneg _)) fun _ => .pure _)
  rwa [Int.toNat_natCast, Nat.toUInt32_eq, UInt32.ofNat_toNat] at h

/-- The index of a defined type, unless it is that of an exact type, is not too high. -/
def HeapType.Bounded : HeapType → Prop
  | .concrete index => index.toNat < maxReferencedTypes
  | .abstract _ _ | .precisely _ => True

theorem HeapType.read_gives (heap : HeapType) (hs : sure → heap.Bounded) :
    HeapType.read.Gives sure heap.write heap := by
  cases heap with
  | «abstract» shared kind =>
    cases shared with
    | true =>
      exact .peek (.byte (.byte (.bind_pure (.ofOption_some kind.ofCode?_code) (.pure _))))
    | false => cases kind <;> exact .peek (.byte (.pure _))
  | concrete index =>
    obtain ⟨b, bs, hb, hfirst⟩ := head_writeSigned index.toNat
    have hindex : readSignedIndex.Gives sure _ _ := readSignedIndex_gives index
    simp only [writeSignedIndex, hb] at hindex
    simp only [HeapType.write, writeSignedIndex, hb]
    refine .peek ?_
    have h65 : b ≠ 0x65 := by rintro rfl; simp at hfirst
    have h62 : b ≠ 0x62 := by rintro rfl; simp at hfirst
    simp only [ofCode_of_index hfirst]
    have hlt : sure → index.toNat < maxReferencedTypes := hs
    exact hindex.bind_pure (.require (fun h => decide_eq_true (hlt h)) fun _ => .pure _)
  | precisely index => exact .peek (.byte ((readU32_gives index).bind_pure (.pure _)))

theorem HeapType.bounded_of_isReferable {heap : HeapType} (h : heap.isReferable = true) :
    heap.Bounded := by
  cases heap with
  | concrete index => exact of_decide_eq_true (p := index.toNat < maxReferencedTypes) h
  | _ => trivial

theorem HeapType.readReferable_gives (heap : HeapType) (hs : sure → heap.isReferable = true) :
    HeapType.readReferable.Gives sure heap.write heap :=
  (HeapType.read_gives heap fun h => HeapType.bounded_of_isReferable (hs h)).bind_pure
    (.require hs fun _ => .pure heap)

/-- A nullable reference to a predefined heap type starts like that type. -/
theorem RefType.read_of_abstract (shared : Bool) (kind : AbstractHeap) :
    RefType.read.Gives sure (HeapType.write (.abstract shared kind))
      ⟨true, .abstract shared kind⟩ := by
  have h : (do return ⟨true, ← HeapType.readReferable⟩ : Reader RefType).Gives sure
      (HeapType.write (.abstract shared kind)) ⟨true, .abstract shared kind⟩ :=
    (HeapType.readReferable_gives _ fun _ => rfl).bind_pure (.pure _)
  cases shared with
  | true => exact .peek h
  | false => cases kind <;> exact .peek h

theorem RefType.read_gives (type : RefType) (hs : sure → type.heap.isReferable = true) :
    RefType.read.Gives sure type.write type := by
  obtain ⟨nullable, heap⟩ := type
  have hheap := HeapType.readReferable_gives heap hs
  cases nullable with
  | false => exact .peek (.byte (hheap.bind_pure (.pure _)))
  | true =>
    cases heap with
    | «abstract» shared kind => exact RefType.read_of_abstract shared kind
    | concrete index => exact .peek (.byte (hheap.bind_pure (.pure _)))
    | precisely index => exact .peek (.byte (hheap.bind_pure (.pure _)))

/-- References start with none of the bytes that stand for numbers. -/
theorem RefType.head_write (type : RefType) :
    ∃ b bs, type.write = b :: bs ∧ 0x63 ≤ b ∧ b ≤ 0x75 := by
  obtain ⟨nullable, heap⟩ := type
  cases nullable with
  | false => exact ⟨0x64, _, rfl, by decide, by decide⟩
  | true =>
    cases heap with
    | «abstract» shared kind =>
      cases shared with
      | true => exact ⟨0x65, _, rfl, by decide, by decide⟩
      | false => exact ⟨kind.code, [], rfl, by cases kind <;> decide, by cases kind <;> decide⟩
    | concrete index => exact ⟨0x63, _, rfl, by decide, by decide⟩
    | precisely index => exact ⟨0x63, _, rfl, by decide, by decide⟩

def ValType.Bounded : ValType → Prop
  | .ref type => type.heap.isReferable = true
  | _ => True

theorem ValType.read_gives (type : ValType) (hs : sure → type.Bounded) :
    ValType.read.Gives sure type.write type := by
  cases type with
  | ref type =>
    obtain ⟨b, bs, hb, hlow, hhigh⟩ := type.head_write
    have h : (do return .ref (← RefType.read) : Reader ValType).Gives sure type.write (.ref type) :=
      (RefType.read_gives type hs).bind_pure (.pure _)
    simp only [ValType.write, hb] at h ⊢
    refine .peek ?_
    split
    iterate 5 exact absurd hhigh (by decide)
    exact h
  | _ => exact .peek (.byte (.pure _))

/-- Not too many types, all of them bounded. -/
def ResultsBounded (types : List ValType) : Prop :=
  types.length ≤ maxArity ∧ ∀ type ∈ types, type.Bounded

theorem readResultType_gives (types : List ValType) (hs : sure → ResultsBounded types) :
    readResultType.Gives sure (writeVec ValType.write types) types :=
  (readUnsigned_gives 32 _ fun h => Nat.lt_of_le_of_lt (hs h).1 (by decide)).bind
    (.require (fun h => decide_eq_true (hs h).1) fun _ =>
      .times fun type hmem => ValType.read_gives type fun h => (hs h).2 type hmem)

def FuncType.Bounded (type : FuncType) : Prop :=
  ResultsBounded type.params ∧ ResultsBounded type.results

theorem FuncType.read_gives (type : FuncType) (hs : sure → type.Bounded) :
    FuncType.read.Gives sure type.write type :=
  (readResultType_gives type.params fun h => (hs h).1).bind
    ((readResultType_gives type.results fun h => (hs h).2).bind_pure (.pure _))

/-! ## Entities -/

/-- Sizes of the width that a dialect has. -/
def Limits.Within (dialect : Dialect) (limits : Limits) : Prop :=
  limits.min.toNat < 2 ^ dialect.sizeBits ∧ ∀ max ∈ limits.max, max.toNat < 2 ^ dialect.sizeBits

theorem Limits.read_gives (dialect : Dialect) (limits : Limits) (hs : sure → limits.Within dialect) :
    (Limits.read dialect limits.max.isSome).Gives sure limits.write limits := by
  obtain ⟨min, max⟩ := limits
  have hmin := readUnsigned_gives dialect.sizeBits min.toNat fun h => (hs h).1
  have hmin' : min.toNat.toUInt64 = min := by simp
  cases max with
  | none =>
    have h : (Limits.read dialect false).Gives sure (writeU64 min ++ [])
        ⟨min.toNat.toUInt64, none⟩ :=
      hmin.bind (.pure _)
    rwa [hmin'] at h
  | some max =>
    have hmax := (readUnsigned_gives dialect.sizeBits max.toNat fun h => (hs h).2 max rfl).map some
    have h : (Limits.read dialect true).Gives sure (writeU64 min ++ writeU64 max)
        ⟨min.toNat.toUInt64, some max.toNat.toUInt64⟩ := hmin.bind (hmax.bind_pure (.pure _))
    rwa [hmin', Nat.toUInt64_eq, UInt64.ofNat_toNat] at h

/-- A byte of flags gives back each of them. -/
theorem flagByte_bits (a b c d : Bool) :
    let flags := flagByte [(a, 1), (b, 2), (c, 4), (d, 8)]
    (flags &&& 1 != 0) = a ∧ (flags &&& 2 != 0) = b ∧ (flags &&& 4 != 0) = c ∧
      (flags &&& 8 != 0) = d := by
  cases a <;> cases b <;> cases c <;> cases d <;> decide

theorem flagByte_le (a b c d : Bool) :
    flagByte [(a, 1), (b, 2)] ≤ 3 ∧ flagByte [(a, 1), (b, 2), (c, 4)] ≤ 7 ∧
      flagByte [(a, 1), (b, 2), (c, 4), (d, 8)] ≤ 15 := by
  cases a <;> cases b <;> cases c <;> cases d <;> decide

def TableType.Within (dialect : Dialect) (type : TableType) : Prop :=
  type.element.heap.isReferable = true ∧ type.limits.Within dialect

theorem TableType.read_gives (dialect : Dialect) (type : TableType)
    (hs : sure → type.Within dialect) : (TableType.read dialect).Gives sure type.write type := by
  obtain ⟨element, limits, is64, shared⟩ := type
  have h (flags : UInt8) (hle : flags ≤ 7) (hmax : (flags &&& 1 != 0) = limits.max.isSome)
      (hshared : (flags &&& 2 != 0) = shared) (h64 : (flags &&& 4 != 0) = is64) :
      (TableType.read dialect).Gives sure ((element.write ++ [flags]) ++ limits.write)
        ⟨element, limits, is64, shared⟩ := by
    rw [List.append_assoc]
    refine (RefType.read_gives element fun h => (hs h).1).bind
      (.byte (.require (fun _ => decide_eq_true hle) fun _ => ?_))
    rw [hmax, hshared, h64]
    exact (Limits.read_gives dialect limits fun h => (hs h).2).bind_pure (.pure _)
  obtain ⟨hmax, hshared, h64, -⟩ := flagByte_bits limits.max.isSome shared is64 false
  exact h _ (flagByte_le _ _ _ false).2.1 hmax hshared h64

theorem readPageSizeLog_gives (size : UInt32) (hs : sure → size.toNat < pageSizeLogBound) :
    readPageSizeLog.Gives sure (writeU32 size) size :=
  (readU32_gives size).bind_pure (.require (fun h => decide_eq_true (hs h)) fun _ => .pure size)

def MemoryType.Within (dialect : Dialect) (type : MemoryType) : Prop :=
  type.limits.Within dialect ∧ ∀ size ∈ type.pageSizeLog, size.toNat < pageSizeLogBound

theorem MemoryType.read_gives (dialect : Dialect) (type : MemoryType)
    (hs : sure → type.Within dialect) : (MemoryType.read dialect).Gives sure type.write type := by
  obtain ⟨limits, is64, shared, pageSizeLog⟩ := type
  have h (flags : UInt8) (hle : flags ≤ 15) (hmax : (flags &&& 1 != 0) = limits.max.isSome)
      (hshared : (flags &&& 2 != 0) = shared) (h64 : (flags &&& 4 != 0) = is64)
      (hsize : (flags &&& 8 != 0) = pageSizeLog.isSome) :
      (MemoryType.read dialect).Gives sure (flags :: (limits.write ++ pageSizeLog.elim [] writeU32))
        ⟨limits, is64, shared, pageSizeLog⟩ := by
    refine .byte (.require (fun _ => decide_eq_true hle) fun _ => ?_)
    rw [hmax, hshared, h64, hsize]
    refine (Limits.read_gives dialect limits fun h => (hs h).1).bind ?_
    cases pageSizeLog with
    | none => exact .pure _
    | some size =>
      exact ((readPageSizeLog_gives size fun h => (hs h).2 size rfl).map some).bind_pure (.pure _)
  obtain ⟨hmax, hshared, h64, hsize⟩ :=
    flagByte_bits limits.max.isSome shared is64 pageSizeLog.isSome
  exact h _ (flagByte_le _ _ _ _).2.2 hmax hshared h64 hsize

theorem GlobalType.read_gives (type : GlobalType) (hs : sure → type.content.Bounded) :
    GlobalType.read.Gives sure type.write type := by
  obtain ⟨content, isMutable, shared⟩ := type
  have h (flags : UInt8) (hle : flags ≤ 3) (hmutable : (flags &&& 1 != 0) = isMutable)
      (hshared : (flags &&& 2 != 0) = shared) :
      GlobalType.read.Gives sure (content.write ++ [flags]) ⟨content, isMutable, shared⟩ := by
    refine (ValType.read_gives content hs).bind
      (.byte (.require (fun _ => decide_eq_true hle) fun _ => ?_))
    rw [hmutable, hshared]
    exact .pure _
  obtain ⟨hmutable, hshared, -⟩ := flagByte_bits isMutable shared false false
  exact h _ (flagByte_le _ _ false false).1 hmutable hshared

theorem readTagType_gives (type : UInt32) : readTagType.Gives sure (writeTagType type) type :=
  .byte (.require (fun _ => rfl) fun _ => readU32_gives type)

/-! ## Immediates -/

/-- The two high bits say whether a byte is a negative number by itself. -/
theorem isNegative_iff (b : UInt8) :
    (b &&& 0xC0 == 0x40) = true ↔ 64 ≤ b.toNat ∧ b.toNat < 128 := by
  obtain ⟨⟨n⟩⟩ := b
  revert n
  decide +kernel

def BlockType.Bounded : BlockType → Prop
  | .value type => type.Bounded
  | _ => True

theorem BlockType.read_gives (type : BlockType) (hs : sure → type.Bounded) :
    BlockType.read.Gives sure type.write type := by
  cases type with
  | empty => exact .peek (.byte (.pure _))
  | value type =>
    have h : (do return .value (← ValType.read) : Reader BlockType).Gives sure type.write
        (.value type) := (ValType.read_gives type hs).bind_pure (.pure _)
    have hfirst : ∃ b bs, type.write = b :: bs ∧ (b == 0x40) = false ∧
        (b &&& 0xC0 == 0x40) = true := by
      cases type with
      | ref type =>
        obtain ⟨b, bs, hb, hlow, hhigh⟩ := type.head_write
        simp only [UInt8.le_iff_toNat_le, UInt8.reduceToNat] at hlow hhigh
        refine ⟨b, bs, hb, ?_, (isNegative_iff b).2 (by omega)⟩
        rw [beq_eq_false_iff_ne]
        intro h
        simp [h] at hlow
      | _ => exact ⟨_, [], rfl, by decide, by decide⟩
    obtain ⟨b, bs, hb, hempty, hvalue⟩ := hfirst
    simp only [BlockType.write, hb] at h ⊢
    refine .peek ?_
    simp only [hempty, hvalue, Bool.false_eq_true, if_false, if_true]
    exact h
  | func index =>
    obtain ⟨b, bs, hb, hfirst⟩ := head_writeSigned index.toNat
    have h : (do return .func (← readSignedIndex) : Reader BlockType).Gives sure
        (writeSignedIndex index) (.func index) :=
      (readSignedIndex_gives index).bind_pure (.pure _)
    simp only [BlockType.write, writeSignedIndex, hb] at h ⊢
    refine .peek ?_
    have hvalue : (b &&& 0xC0 == 0x40) = false := by
      rw [← Bool.not_eq_true, isNegative_iff]
      omega
    have hempty : (b == 0x40) = false := by
      rw [beq_eq_false_iff_ne]
      intro h
      simp [h] at hfirst
    simp only [hempty, hvalue, Bool.false_eq_true, if_false]
    exact h

/-- The exponent of an alignment leaves room for the bit that says that a memory follows. -/
def MemArg.Fits (arg : MemArg) : Prop := arg.align.toNat < memoryFlag

/-- What the core dialect has of memory arguments. -/
structure MemArg.Bounded (arg : MemArg) : Prop where
  align : arg.align.toNat < 32
  offset : arg.offset.toNat < 2 ^ 32
  memory : arg.memory = 0

/-- What a dialect has of memory arguments. -/
def MemArg.Within (arg : MemArg) : Dialect → Prop
  | .core => arg.Bounded
  | .full => arg.Fits

theorem MemArg.Within.fits {arg : MemArg} {dialect : Dialect} (h : arg.Within dialect) :
    arg.Fits := by
  cases dialect with
  | core => exact Nat.lt_trans (show arg.Bounded from h).align (show 32 < memoryFlag by decide)
  | full => exact h

theorem MemArg.read_gives (dialect : Dialect) {arg : MemArg} (h : arg.Fits)
    (hs : sure → arg.Within dialect) : (MemArg.read dialect).Gives sure arg.write arg := by
  obtain ⟨align, offset, memory⟩ := arg
  have halign : align.toNat < 64 := h
  have hword : align.toNat.toUInt32 = align := by simp
  have hoffset' : offset.toNat.toUInt64 = offset := by simp
  unfold MemArg.read MemArg.write
  by_cases hm : memory = 0
  · subst hm
    rw [if_pos rfl]
    refine (readUnsigned_gives 32 align.toNat fun _ => align.toNat_lt).bind ?_
    cases dialect with
    | core =>
      refine .require (fun h => decide_eq_true (hs h).align) fun _ =>
        (readUnsigned_gives 32 offset.toNat fun h => (hs h).offset).bind_pure ?_
      rw [hword, hoffset']
      exact .pure _
    | full =>
      simp only
      rw [if_pos (show align.toNat < memoryFlag from h)]
      refine (readUnsigned_gives 64 offset.toNat fun _ => offset.toNat_lt).bind_pure ?_
      rw [hword, hoffset']
      exact .pure _
  · rw [if_neg hm, List.append_assoc]
    refine (readUnsigned_gives 32 (align.toNat + memoryFlag) fun _ => ?_).bind ?_
    · simp only [memoryFlag]
      omega
    cases dialect with
    | core =>
      refine .require (fun h => absurd (hs h).memory hm) fun hfits => ?_
      have hlt := of_decide_eq_true hfits
      simp only [memoryFlag] at hlt
      omega
    | full =>
      simp only
      rw [if_neg (Nat.not_lt.2 (Nat.le_add_left ..))]
      refine .require (fun _ => decide_eq_true ?_) fun _ => (readU32_gives memory).bind
        ((readUnsigned_gives 64 offset.toNat fun _ => offset.toNat_lt).bind_pure ?_)
      · simp only [memoryFlag]
        omega
      · rw [Nat.add_sub_cancel, hword, hoffset']
        exact .pure _

/-- The memories that an operator of a dialect can name. -/
def Dialect.HasMemory (memory : UInt32) : Dialect → Prop
  | .core => memory = 0
  | .full => True

/-- In the core dialect the only index that is read is zero. -/
theorem readMemoryIndex_gives (dialect : Dialect) (memory : UInt32)
    (hs : sure → dialect.HasMemory memory) :
    (readMemoryIndex dialect).Gives sure (writeU32 memory) memory := by
  cases dialect with
  | full => exact readU32_gives memory
  | core =>
    obtain ⟨b, bs, hb, hzero⟩ := head_writeUnsigned memory.toNat
    have hsure (h : sure) : (b == 0) = true := by
      have hmemory : memory = 0 := hs h
      have hfirst : writeUnsigned 0 = [0] := by
        rw [writeUnsigned]
        rfl
      rw [hmemory, UInt32.toNat_zero, hfirst] at hb
      cases hb
      rfl
    simp only [writeU32, hb]
    refine .byte (.require hsure fun h => ?_)
    obtain ⟨hmemory, rfl⟩ := hzero (eq_of_beq h)
    rw [UInt32.toNat_inj.1 (hmemory.trans UInt32.toNat_zero.symm)]
    exact .pure _

/-! ### Clauses -/

theorem readClauses_gives {α : Type} {clause : Reader α} {write : α → Bytes} {clauses : List α}
    (hs : sure → clauses.length ≤ maxClauses) (h : ∀ c ∈ clauses, clause.Gives sure (write c) c) :
    (readClauses clause).Gives sure (writeVec write clauses) clauses :=
  (readUnsigned_gives 32 clauses.length fun h => Nat.lt_of_le_of_lt (hs h) (by decide)).bind
    (.require (fun h => decide_eq_true (hs h)) fun _ => .times h)

theorem Catch.read_gives (clause : Catch) : Catch.read.Gives sure clause.write clause := by
  cases clause with
  | one tag label | oneRef tag label =>
    exact .byte ((readU32_gives tag).bind ((readU32_gives label).bind_pure (.pure _)))
  | all label | allRef label => exact .byte ((readU32_gives label).bind_pure (.pure _))

theorem Handler.read_gives (clause : Handler) : Handler.read.Gives sure clause.write clause := by
  cases clause with
  | onLabel tag label =>
    exact .byte ((readU32_gives tag).bind ((readU32_gives label).bind_pure (.pure _)))
  | onSwitch tag => exact .byte ((readU32_gives tag).bind_pure (.pure _))

/-! ### Vectors -/

theorem readVector_gives (v : BitVec 128) : readVector.Gives sure (writeVector v) v := by
  have h : readVector.Gives sure (writeVector v) (BitVec.ofNat 128 v.toNat) :=
    (LittleEndian.read_gives 16 v.isLt).bind_pure (.pure _)
  rwa [BitVec.ofNat_toNat, BitVec.setWidth_eq] at h

end MeteredWasm.Wasm
