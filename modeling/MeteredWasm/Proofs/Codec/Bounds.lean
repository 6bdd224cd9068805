import MeteredWasm.Proofs.Codec.Modules
import MeteredWasm.Proofs.Module.Sized

/-!
# What is read is within bounds

Whatever a reader makes of any bytes, from the numbers up to the sections of a module, is within the
bounds of its dialect: it would not be refused if it were written and read again
(`within_of_decode`). Each statement follows the way its reader is put together.
-/

set_option autoImplicit false

namespace MeteredWasm

/-! ## What readers make -/

namespace Reader

variable {α β : Type}

/-- All that the reader makes of any bytes fulfils `P`. -/
def Yields (r : Reader α) (P : α → Prop) : Prop := ∀ input a rest, r input = some (a, rest) → P a

namespace Yields

variable {P : α → Prop} {Q : β → Prop}

theorem pure {a : α} (h : P a) : Yields (Pure.pure a) P := by
  rintro input b rest ⟨⟩
  exact h

theorem bind {x : Reader α} {k : α → Reader β} (hx : x.Yields P) (hk : ∀ a, P a → (k a).Yields Q) :
    (x >>= k).Yields Q := by
  intro input b rest h
  simp only [bind_apply, Option.bind_eq_some_iff, Prod.exists] at h
  obtain ⟨a, left, ha, hb⟩ := h
  exact hk a (hx _ _ _ ha) _ _ _ hb

/-- A reader behind one whose value does not matter. -/
theorem behind {x : Reader α} {k : α → Reader β} (hk : ∀ a, (k a).Yields Q) :
    (x >>= k).Yields Q :=
  bind (fun _ _ _ _ => trivial) fun a (_ : True) => hk a

theorem map {x : Reader α} {f : α → β} (hx : x.Yields P) (hf : ∀ a, P a → Q (f a)) :
    (f <$> x).Yields Q := by
  rw [map_eq_pure_bind]
  exact hx.bind fun a ha => .pure (hf a ha)

theorem refuse : (Reader.refuse : Reader α).Yields P := fun _ _ _ h => (nomatch h)

theorem require {c : Bool} {k : Unit → Reader β} (hk : c = true → (k ()).Yields Q) :
    (Reader.require c >>= k).Yields Q := by
  cases c with
  | true => exact hk rfl
  | false => exact fun _ _ _ h => (nomatch h)

theorem ofOption {o : Option α} (h : ∀ a, o = some a → P a) : (Reader.ofOption o).Yields P := by
  cases o with
  | none => exact .refuse
  | some a => exact .pure (h a rfl)

theorem times {item : Reader α} (h : item.Yields P) (n : Nat) :
    (Reader.times n item).Yields fun xs => xs.length = n ∧ ∀ x ∈ xs, P x := by
  induction n with
  | zero => exact .pure ⟨rfl, fun _ hx => (nomatch hx)⟩
  | succ n ih =>
    refine h.bind fun x hx => ih.bind fun xs hxs => .pure ⟨congrArg Nat.succ hxs.1, ?_⟩
    exact List.forall_mem_cons.2 ⟨hx, hxs.2⟩

theorem take (n : Nat) : (Reader.take n).Yields fun bs => bs.length = n :=
  fun _ _ _ h => (eq_append_of_splitExactly h).2

theorem whole {r : Reader α} {input : Bytes} {a : α} (h : r.Yields P)
    (ha : Reader.whole r input = some a) : P a :=
  h _ _ _ (Wasm.whole_eq_some.1 ha)

end Yields

end Reader

namespace Leb128

open Reader (Yields)

theorem readUnsigned_yields (width : Nat) : (readUnsigned width).Yields (· < 2 ^ width) :=
  fun _ _ _ h => readUnsigned_lt h

theorem readVec_yields {α : Type} {item : Reader α} {P : α → Prop} (h : item.Yields P) :
    (readVec item).Yields fun xs => xs.length < 2 ^ 32 ∧ ∀ x ∈ xs, P x :=
  (readUnsigned_yields 32).bind fun n hn =>
    fun _ _ _ hread => by
      obtain ⟨hlength, hitems⟩ := h.times n _ _ _ hread
      exact ⟨by omega, hitems⟩

theorem readBlob_yields : readBlob.Yields (·.length < 2 ^ 32) :=
  (readUnsigned_yields 32).bind fun n hn =>
    fun _ _ _ hread => by
      have hlength := Yields.take n _ _ _ hread
      omega

/-- Vectors of words are bounded by their count alone. -/
theorem readVec_length {α : Type} (item : Reader α) : (readVec item).Yields (·.length < 2 ^ 32) :=
  fun _ _ _ h => length_lt_of_readVec h

end Leb128

namespace Wasm

open Leb128 Reader

/-! ## Types -/

theorem readName_yields : readName.Yields NameFits :=
  .behind fun s => .require fun h =>
    .pure (of_decide_eq_true (p := s.utf8ByteSize ≤ maxNameLength) h)

theorem HeapType.read_yields : HeapType.read.Yields HeapType.Bounded := by
  refine .behind fun b => ?_
  split
  · exact .behind fun _ => .behind fun _ => .behind fun _ => .pure trivial
  · exact .behind fun _ => .behind fun _ => .pure trivial
  · split
    · exact .behind fun _ => .pure trivial
    · refine .behind fun index => .require fun h => .pure ?_
      exact of_decide_eq_true (p := index.toNat < maxReferencedTypes) h

theorem HeapType.readReferable_yields :
    HeapType.readReferable.Yields (·.isReferable = true) :=
  .behind fun _ => .require fun h => .pure h

theorem RefType.read_yields : RefType.read.Yields (·.heap.isReferable = true) := by
  refine .behind fun b => ?_
  split
  · exact .behind fun _ => HeapType.readReferable_yields.bind fun _ h => .pure h
  · exact .behind fun _ => HeapType.readReferable_yields.bind fun _ h => .pure h
  · exact HeapType.readReferable_yields.bind fun _ h => .pure h

theorem ValType.read_yields : ValType.read.Yields ValType.Bounded := by
  refine .behind fun b => ?_
  split
  iterate 5 exact .behind fun _ => .pure trivial
  exact RefType.read_yields.bind fun _ h => .pure h

theorem readResultType_yields : readResultType.Yields ResultsBounded := by
  refine .behind fun n => .require fun hn => ?_
  intro input types rest h
  obtain ⟨hlength, htypes⟩ := ValType.read_yields.times n _ _ _ h
  exact ⟨hlength ▸ of_decide_eq_true hn, htypes⟩

theorem FuncType.read_yields : FuncType.read.Yields FuncType.Bounded :=
  readResultType_yields.bind fun _ hparams => readResultType_yields.bind fun _ hresults =>
    .pure ⟨hparams, hresults⟩

section
variable (dialect : Dialect)

theorem Limits.read_yields (bounded : Bool) :
    (Limits.read dialect bounded).Yields (·.Within dialect) := by
  have hword {n : Nat} (h : n < 2 ^ dialect.sizeBits) :
      n.toUInt64.toNat < 2 ^ dialect.sizeBits := by
    rw [Nat.toUInt64_eq, UInt64.toNat_ofNat']
    exact Nat.lt_of_le_of_lt (Nat.mod_le ..) h
  refine (readUnsigned_yields dialect.sizeBits).bind fun min hmin => ?_
  cases bounded with
  | true =>
    refine Yields.bind (P := fun max => ∀ n ∈ max, n < 2 ^ dialect.sizeBits) ?_ fun max hmax =>
      .pure ⟨hword hmin, fun n hn => ?_⟩
    · refine (readUnsigned_yields dialect.sizeBits).map fun max hmax n hn => ?_
      cases hn
      exact hmax
    · obtain ⟨max', hmax', rfl⟩ := Option.map_eq_some_iff.1 hn
      exact hword (hmax max' hmax')
  | false => exact .pure ⟨hword hmin, fun _ h => (nomatch h)⟩

theorem TableType.read_yields : (TableType.read dialect).Yields (·.Within dialect) :=
  RefType.read_yields.bind fun _ helement => .behind fun _ => .require fun _ =>
    (Limits.read_yields dialect _).bind fun _ hlimits => .pure ⟨helement, hlimits⟩

theorem MemoryType.read_yields : (MemoryType.read dialect).Yields (·.Within dialect) := by
  refine .behind fun flags => .require fun _ =>
    (Limits.read_yields dialect _).bind fun limits hlimits => ?_
  dsimp only
  split
  · refine Yields.bind (P := fun log => ∀ size ∈ log, size.toNat < pageSizeLogBound) ?_ fun _ hlog =>
      .pure ⟨hlimits, hlog⟩
    have hsize : readPageSizeLog.Yields fun size => size.toNat < pageSizeLogBound :=
      .behind fun size => .require fun h =>
        .pure (of_decide_eq_true (p := size.toNat < pageSizeLogBound) h)
    refine hsize.map fun size h size' hmem => ?_
    cases hmem
    exact h
  · exact .pure ⟨hlimits, fun _ h => (nomatch h)⟩

end

theorem GlobalType.read_yields : GlobalType.read.Yields (·.content.Bounded) :=
  ValType.read_yields.bind fun _ h => .behind fun _ => .require fun _ => .pure h

/-! ## Immediates -/

theorem BlockType.read_yields : BlockType.read.Yields BlockType.Bounded := by
  refine .behind fun b => ?_
  split
  · exact .behind fun _ => .pure trivial
  · split
    · exact ValType.read_yields.bind fun _ h => .pure h
    · exact .behind fun _ => .pure trivial

theorem MemArg.read_yields (dialect : Dialect) :
    (MemArg.read dialect).Yields (·.Within dialect) := by
  refine (readUnsigned_yields 32).bind fun flags hlt => ?_
  have hword {n : Nat} (h : n < 64) : n.toUInt32.toNat < memoryFlag := by
    rw [Nat.toUInt32_eq, UInt32.toNat_ofNat']
    simp only [memoryFlag]
    omega
  cases dialect with
  | core =>
    refine .require fun hflags => (readUnsigned_yields 32).bind fun offset hoffset =>
      .pure ⟨?_, ?_, rfl⟩
    · have hlt := of_decide_eq_true hflags
      rw [Nat.toUInt32_eq, UInt32.toNat_ofNat']
      omega
    · rw [Nat.toUInt64_eq, UInt64.toNat_ofNat']
      omega
  | full =>
    dsimp only
    split
    · rename_i hflags
      exact .behind fun _ => .pure (hword hflags)
    · refine .require fun hflags => .behind fun _ => .behind fun _ => .pure (hword ?_)
      have hlt := of_decide_eq_true hflags
      simp only [memoryFlag] at hlt ⊢
      omega

theorem readMemoryIndex_yields (dialect : Dialect) :
    (readMemoryIndex dialect).Yields dialect.HasMemory := by
  cases dialect with
  | core => exact .behind fun _ => .require fun _ => .pure rfl
  | full => exact fun _ _ _ _ => trivial

theorem readClauses_yields {α : Type} (clause : Reader α) :
    (readClauses clause).Yields (·.length ≤ maxClauses) := by
  refine .behind fun n => .require fun hn => fun input clauses rest h => ?_
  have hclause : clause.Yields fun _ => True := fun _ _ _ _ => trivial
  have hlength := (hclause.times n _ _ _ h).1
  exact hlength ▸ of_decide_eq_true hn

theorem Immediate.read_yields (dialect : Dialect) (kind : ImmediateKind) :
    (Immediate.read dialect kind).Yields (·.1.Within dialect) := by
  cases kind with
  | index => exact .behind fun _ => .pure trivial
  | memArg => exact (MemArg.read_yields dialect).bind fun _ h => .pure h
  | blockType => exact BlockType.read_yields.bind fun _ h => .pure h
  | heapType => exact HeapType.read_yields.bind fun _ h => .pure h
  | target => exact HeapType.readReferable_yields.bind fun _ h => .pure h
  | catches => exact (readClauses_yields _).bind fun _ h => .pure h
  | handlers => exact (readClauses_yields _).bind fun _ h => .pure h
  | nullability =>
    exact .behind fun flags => .require fun h => .pure (of_decide_eq_true (p := flags < 4) h)
  | ordering => exact .behind fun n => .require fun h => .pure (of_decide_eq_true (p := n < 2) h)

theorem Immediate.readAll_yields (dialect : Dialect) (kinds : List ImmediateKind) :
    (Immediate.readAll dialect kinds).Yields fun is => ∀ i ∈ is.1, i.Within dialect := by
  induction kinds with
  | nil => exact .pure fun _ h => nomatch h
  | cons kind kinds ih =>
    exact (Immediate.read_yields dialect kind).bind fun _ hi => ih.bind fun _ his =>
      .pure (List.forall_mem_cons.2 ⟨hi, his⟩)

theorem Proposal.readAfter_yields (dialect : Dialect) (opcode : Opcode) :
    (Proposal.readAfter dialect opcode).Yields (·.Within dialect) := by
  unfold Proposal.readAfter
  split
  · exact .refuse
  · exact (Immediate.readAll_yields dialect _).bind fun _ h => .pure h

namespace Operator

section
variable (dialect : Dialect)

theorem argument_yields {make : MemArg → Operator}
    (h : ∀ arg, arg.Within dialect → (make arg).Within dialect) :
    (MemArg.read dialect >>= fun arg => pure (make arg)).Yields (·.Within dialect) :=
  (MemArg.read_yields dialect).bind fun arg harg => .pure (h arg harg)

theorem readProposal_yields (opcode : Opcode) :
    (Proposal.readAfter dialect opcode >>= fun p => pure (proposal p)).Yields
      (·.Within dialect) :=
  (Proposal.readAfter_yields dialect opcode).bind fun _ h => .pure h

theorem readMisc_yields (code : Nat) : (readMisc dialect code).Yields (·.Within dialect) := by
  have hmemory := readMemoryIndex_yields dialect
  unfold readMisc
  split
  · exact .behind fun _ => hmemory.bind fun _ h => .pure h
  · exact .behind fun _ => .pure trivial
  · exact hmemory.bind fun _ h => hmemory.bind fun _ h' => .pure ⟨h, h'⟩
  · exact hmemory.bind fun _ h => .pure h
  · exact .behind fun _ => .behind fun _ => .pure trivial
  · exact .behind fun _ => .pure trivial
  · exact .behind fun _ => .behind fun _ => .pure trivial
  · exact .behind fun _ => .pure trivial
  · exact .behind fun _ => .pure trivial
  · exact .behind fun _ => .pure trivial
  · split
    · exact .pure trivial
    · exact readProposal_yields dialect _

theorem readVectorOp_yields (code : Nat) :
    (readVectorOp dialect code).Yields (·.Within dialect) := by
  have hlane {make : MemArg → UInt8 → Operator}
      (h : ∀ arg lane, arg.Within dialect → (make arg lane).Within dialect) :
      (MemArg.read dialect >>= fun arg => Reader.byte >>= fun lane => pure (make arg lane)).Yields
        (·.Within dialect) :=
    (MemArg.read_yields dialect).bind fun arg harg => .behind fun lane => .pure (h arg lane harg)
  unfold readVectorOp
  dsimp only
  repeat' split
  all_goals first
    | exact argument_yields dialect fun _ h => h
    | exact hlane fun _ _ h => h
    | exact readProposal_yields dialect _
    | exact .behind fun _ => .pure trivial
    | exact .pure trivial

theorem readAtomic_yields (code : Nat) : (readAtomic dialect code).Yields (·.Within dialect) := by
  unfold readAtomic
  dsimp only
  repeat' split
  all_goals first
    | exact argument_yields dialect fun _ h => h
    | exact readProposal_yields dialect _
    | exact .behind fun _ => .behind fun _ => .pure trivial

theorem readFamily_yields (code : UInt8) :
    (readFamily dialect code).Yields (·.Within dialect) := by
  unfold readFamily
  dsimp only
  repeat' split
  all_goals first
    | exact argument_yields dialect fun _ h => h
    | exact readProposal_yields dialect _
    | exact .pure trivial

theorem readSelected_yields :
    readSelected.Yields fun types => types.length ≤ maxSelected ∧ ∀ type ∈ types, type.Bounded :=
  (readVec_yields ValType.read_yields).bind fun _ h => .require fun hle =>
    .pure ⟨of_decide_eq_true hle, h.2⟩

theorem read_yields : (Operator.read dialect).Yields (·.Within dialect) := by
  refine .behind fun b => ?_
  split
  case h_3 | h_4 | h_5 => exact BlockType.read_yields.bind fun _ h => .pure h
  case h_10 => exact (readVec_length readU32).bind fun _ h => .behind fun _ => .pure h
  all_goals first
    | exact .pure trivial
    | exact .behind fun _ => readProposal_yields dialect _
    | exact readSelected_yields.bind fun _ h => .pure h
    | exact (readMemoryIndex_yields dialect).bind fun _ h => .pure h
    | exact HeapType.read_yields.bind fun _ h => .pure h
    | exact .behind fun code => readMisc_yields dialect code
    | exact .behind fun code => readVectorOp_yields dialect code
    | exact .behind fun code => readAtomic_yields dialect code
    | exact readFamily_yields dialect _
    | exact .behind fun _ => .pure trivial
    | exact .behind fun _ => .behind fun _ => .pure trivial

end

/-! ## Code -/

theorem readNested_yields (dialect : Dialect) (frames : List Frame) :
    (readNested dialect frames).Yields fun r =>
      r.1.Within dialect ∧ r.1.nest? frames = some r.2 :=
  (read_yields dialect).bind fun _ hop => Yields.bind (.ofOption fun _ h => h) fun _ hfs =>
    .pure ⟨hop, hfs⟩

theorem within_of_readRun {dialect : Dialect} {n : Nat} {frames : List Frame} {input : Bytes}
    {ops : List Operator} (h : readRun dialect n frames input = (ops, true)) :
    (∀ op ∈ ops, op.Within dialect) ∧ (nestAll? frames ops).isSome := by
  induction n generalizing frames input ops with
  | zero => cases input <;> cases h; exact ⟨fun _ h => (nomatch h), rfl⟩
  | succ n ih =>
    cases input with
    | nil =>
      cases h
      exact ⟨fun _ h => (nomatch h), rfl⟩
    | cons b input =>
      rw [readRun] at h
      split at h
      · cases h
      · rename_i op fs rest hread
        simp only [Prod.mk.injEq] at h
        obtain ⟨rfl, hcomplete⟩ := h
        obtain ⟨hop, hfs⟩ := readNested_yields dialect frames _ _ _ hread
        obtain ⟨hrest, hnested⟩ := ih (Prod.ext rfl hcomplete)
        refine ⟨List.forall_mem_cons.2 ⟨hop, hrest⟩, ?_⟩
        rw [nestAll_cons, hfs]
        exact hnested

theorem within_of_readAll {dialect : Dialect} {input : Bytes} {ops : List Operator}
    (h : readAll? dialect input = some ops) :
    (∀ op ∈ ops, op.Within dialect) ∧ (nestAll? [.plain] ops).isSome := by
  unfold readAll? at h
  split at h
  · rename_i hrun
    cases h
    exact within_of_readRun hrun
  · cases h

theorem readToEnd_yields (dialect : Dialect) (n : Nat) (frames : List Frame) :
    (readToEnd dialect n frames).Yields (ConstWithin dialect frames) := by
  induction n generalizing frames with
  | zero => exact .refuse
  | succ n ih =>
    refine (readNested_yields dialect frames).bind fun r ⟨hop, hfs⟩ => ?_
    obtain ⟨op, fs⟩ := r
    dsimp only at hop hfs ⊢
    split
    · rename_i hend
      subst hend
      refine .require fun hempty => .pure ⟨fun _ h => (nomatch h), fun _ h => (nomatch h), ?_⟩
      rw [List.nil_append, nestAll_cons, hfs, List.isEmpty_iff.1 hempty]
      rfl
    · rename_i hinner
      refine (ih fs).bind fun ops hops => .pure ⟨List.forall_mem_cons.2 ⟨hop, hops.within⟩,
        List.forall_mem_cons.2 ⟨hinner, hops.inner⟩, ?_⟩
      rw [List.cons_append, nestAll_cons, hfs]
      exact hops.nested

theorem readConst_yields (dialect : Dialect) :
    (readConst dialect).Yields (ConstWithin dialect [.plain]) :=
  fun input _ _ h => readToEnd_yields dialect input.length [.plain] input _ _ h

end Operator

/-! ## Items -/

theorem readRelated_yields (marker : UInt8) :
    (readRelated marker).Yields fun index => ∀ i ∈ index, i.toNat < maxReferencedTypes := by
  refine .behind fun b => ?_
  split
  · refine .behind fun _ => .behind fun index => .require fun h => .pure fun i hi => ?_
    cases hi
    exact of_decide_eq_true (p := index.toNat < maxReferencedTypes) h
  · exact .pure fun _ h => (nomatch h)

theorem TypeEntry.readForm_yields (grouped shared : Bool) :
    (TypeEntry.readForm grouped shared).Yields TypeEntry.Bounded :=
  (readRelated_yields 0x4C).bind fun _ hdescribes =>
    (readRelated_yields 0x4D).bind fun _ hdescriptor => .behind fun _ => .require fun _ =>
      FuncType.read_yields.bind fun _ htype => .pure ⟨htype, hdescribes, hdescriptor⟩

theorem TypeEntry.readMember_yields (grouped : Bool) :
    (TypeEntry.readMember grouped).Yields TypeEntry.Bounded := by
  have hshared (b : UInt8) {k : Reader TypeEntry} (hk : k.Yields TypeEntry.Bounded) :
      (if (b == 0x65) = true then Reader.byte >>= fun _ => k else k).Yields TypeEntry.Bounded := by
    split
    · exact .behind fun _ => hk
    · exact hk
  refine .behind fun b => ?_
  dsimp only
  split
  · exact .behind fun _ => .behind fun _ => .require fun _ => .behind fun b =>
      hshared b (readForm_yields grouped _)
  · exact .behind fun b => hshared b (readForm_yields grouped _)

theorem TypeEntry.read_yields : TypeEntry.read.Yields TypeEntry.Bounded := by
  refine .behind fun b => ?_
  split
  · exact .behind fun _ => .behind fun _ => .require fun _ => readMember_yields true
  · exact readMember_yields false

theorem Export.read_yields : Export.read.Yields (NameFits ·.name) :=
  readName_yields.bind fun _ h => .behind fun _ => .behind fun _ => .behind fun _ => .pure h

section
variable (dialect : Dialect)

theorem ImportType.read_yields : (ImportType.read dialect).Yields (·.Within dialect) := by
  refine .behind fun b => ?_
  split
  · exact .behind fun _ => .pure trivial
  · exact (TableType.read_yields dialect).bind fun _ h => .pure h
  · exact (MemoryType.read_yields dialect).bind fun _ h => .pure h
  · exact GlobalType.read_yields.bind fun _ h => .pure h
  · exact .behind fun _ => .pure trivial
  · exact .behind fun _ => .pure trivial
  · exact .refuse

theorem Import.read_yields : (Import.read dialect).Yields (·.Within dialect) :=
  readName_yields.bind fun _ hmodule => readName_yields.bind fun _ hname =>
    (ImportType.read_yields dialect).bind fun _ htype => .pure ⟨hmodule, hname, htype⟩

theorem Table.read_yields : (Table.read dialect).Yields (·.Within dialect) := by
  refine .behind fun b => ?_
  split
  · refine .behind fun _ => .behind fun _ => .require fun _ =>
      (TableType.read_yields dialect).bind fun _ htype =>
        (Operator.readConst_yields dialect).bind fun init hinit => .pure ⟨htype, fun init' h => ?_⟩
    cases h
    exact hinit
  · exact (TableType.read_yields dialect).bind fun _ h => .pure ⟨h, fun _ h => (nomatch h)⟩

theorem Global.read_yields : (Global.read dialect).Yields (·.Within dialect) :=
  GlobalType.read_yields.bind fun _ htype => (Operator.readConst_yields dialect).bind fun _ hinit =>
    .pure ⟨htype, hinit⟩

/-- The offset of an active segment is within bounds, and only flags that say so leave out its
table. -/
structure ElementMode.Within (flags : Nat) (mode : ElementMode) : Prop where
  offset : ∀ table offset, mode = .active table offset →
    Operator.ConstWithin dialect [.plain] offset
  implicit : ∀ offset, mode = .active none offset → flags % 4 = 0

theorem ElementMode.read_yields (flags : Nat) :
    (ElementMode.read dialect flags).Yields (·.Within dialect flags) := by
  have hactive {offset : ConstExpr} (h : Operator.ConstWithin dialect [.plain] offset)
      {table : Option UInt32} (hflags : table = none → flags % 4 = 0) :
      (ElementMode.active table offset).Within dialect flags := by
    refine ⟨fun table' offset' he => ?_, fun offset' he => ?_⟩ <;> cases he
    · exact h
    · exact hflags rfl
  have hother {mode : ElementMode} (h : ∀ table offset, mode ≠ .active table offset) :
      mode.Within dialect flags :=
    ⟨fun table offset he => absurd he (h table offset), fun offset he => absurd he (h none offset)⟩
  unfold ElementMode.read
  split
  · rename_i hflags
    exact (Operator.readConst_yields dialect).bind fun _ h => .pure (hactive h fun _ => hflags)
  · exact .pure (hother fun _ _ he => (nomatch he))
  · exact .behind fun _ => (Operator.readConst_yields dialect).bind fun _ h =>
      .pure (hactive h fun he => (nomatch he))
  · exact .pure (hother fun _ _ he => (nomatch he))

theorem Element.read_yields : (Element.read dialect).Yields (·.Within dialect) := by
  refine .behind fun flags => .require fun hlt =>
    (ElementMode.read_yields dialect flags).bind fun mode hmode => ?_
  have hflags : flags < 8 := of_decide_eq_true hlt
  have hexpressions {type : RefType} (htype : type.heap.isReferable = true)
      (hplain : flags % 4 = 0 → type = .funcref) :
      (readVec (Operator.readConst dialect) >>= fun items =>
        pure (⟨mode, .expressions type items⟩ : Element)).Yields (·.Within dialect) :=
    (readVec_yields (Operator.readConst_yields dialect)).bind fun _ hitems =>
      .pure ⟨⟨htype, hitems⟩, hmode.offset,
        fun offset he => decide_eq_true (hplain (hmode.implicit offset he))⟩
  have hfunctions : (readVec readU32 >>= fun indices =>
      pure (⟨mode, .functions indices⟩ : Element)).Yields (·.Within dialect) :=
    (readVec_length readU32).bind fun _ hlength => .pure ⟨hlength, hmode.offset, fun _ _ => rfl⟩
  dsimp only
  split
  · split
    · exact hexpressions rfl fun _ => rfl
    · exact RefType.read_yields.bind fun _ htype => hexpressions htype fun _ => by omega
  · split
    · exact .behind fun _ => .require fun _ => hfunctions
    · exact hfunctions

theorem Data.read_yields : (Data.read dialect).Yields (·.Within dialect) := by
  have hactive (memory : UInt32) : (Operator.readConst dialect >>= fun offset =>
      readBlob >>= fun bytes => pure (⟨.active memory offset, bytes⟩ : Data)).Yields
        (·.Within dialect) := by
    refine (Operator.readConst_yields dialect).bind fun offset hoffset =>
      readBlob_yields.bind fun bytes hbytes => .pure ⟨fun memory' offset' he => ?_, hbytes⟩
    cases he
    exact hoffset
  refine .behind fun flags => ?_
  split
  · exact hactive 0
  · exact readBlob_yields.bind fun _ h => .pure ⟨fun _ _ he => (nomatch he), h⟩
  · exact .behind fun memory => hactive memory
  · exact .refuse

end

theorem readLocals_yields :
    readLocals.Yields fun locals => locals.length < 2 ^ 32 ∧ ∀ group ∈ locals, group.2.Bounded :=
  readVec_yields (.behind fun _ => ValType.read_yields.bind fun _ h => .pure h)

/-- A body that has been read is not refused when it is written and read again. -/
theorem Body.within_of_ofBytes {dialect : Dialect} {bs : Bytes} {b : Body}
    (h : Body.ofBytes? dialect bs = some b) : b.Within dialect := by
  unfold Body.ofBytes? at h
  split at h
  · cases h
  · rename_i locals code hread
    obtain ⟨hlength, htypes⟩ := readLocals_yields _ _ _ hread
    split at h
    · rename_i hcount
      obtain ⟨ops, hops, rfl⟩ := Option.map_eq_some_iff.1 h
      obtain ⟨hwithin, hnested⟩ := Operator.within_of_readAll hops
      exact ⟨hlength, htypes, hcount, hwithin, hnested⟩
    · cases h

/-! ## Sections -/

theorem Section.within_of_ofContents {dialect : Dialect} {kind : SectionKind} {contents : Bytes}
    {s : Section} (h : Section.ofContents? dialect kind contents = some s) : s.Within dialect := by
  have hitems {α : Type} {item : Reader α} {P : α → Prop} {items : List α} (hitem : item.Yields P)
      (hread : Reader.whole (readVec item) contents = some items) : ∀ x ∈ items, P x :=
    ((readVec_yields hitem).whole hread).2
  cases kind <;> simp only [ofContents?, Option.map_eq_some_iff] at h <;>
    obtain ⟨items, hread, rfl⟩ := h
  case types => exact hitems TypeEntry.read_yields hread
  case imports => exact hitems (Import.read_yields dialect) hread
  case tables => exact hitems (Table.read_yields dialect) hread
  case memories => exact hitems (MemoryType.read_yields dialect) hread
  case globals => exact hitems (Global.read_yields dialect) hread
  case exports => exact hitems Export.read_yields hread
  case elements => exact hitems (Element.read_yields dialect) hread
  case data => exact hitems (Data.read_yields dialect) hread
  case code =>
    simp only [bodies?, Option.bind_eq_bind, Option.bind_eq_some_iff] at hread
    obtain ⟨raws, -, hbodies⟩ := hread
    intro b hb
    obtain ⟨bs, -, hb⟩ := mem_of_mapM hbodies hb
    exact Body.within_of_ofBytes hb
  all_goals trivial

theorem RawSection.read_yields (header : Header) : (RawSection.read header).Yields Bounded := by
  have hframe (id : UInt8) (contents : Bytes) {raw : RawSection}
      (h : RawSection.ofFrame? header id contents = some raw) : raw.Bounded := by
    unfold RawSection.ofFrame? at h
    repeat' split at h
    all_goals cases h
    · rename_i hname
      exact readName_yields _ _ _ hname
    all_goals trivial
  refine .behind fun id => ?_
  split
  · exact .behind fun _ => .behind fun _ => .require fun _ => .pure trivial
  · exact .behind fun frame => .ofOption fun raw h => hframe _ _ h

theorem bounded_of_outline {header : Header} {n : Nat} {p : Progress} {input : Bytes}
    {raws : List RawSection} {complete : Bool}
    (h : outlineFrom header n p input = (raws, complete)) : ∀ raw ∈ raws, raw.Bounded := by
  induction n generalizing p input raws complete with
  | zero => cases input <;> cases h <;> exact fun _ hraw => (nomatch hraw)
  | succ n ih =>
    cases input with
    | nil =>
      cases h
      exact fun _ hraw => (nomatch hraw)
    | cons b input =>
      rw [outlineFrom] at h
      split at h
      · cases h
        exact fun _ hraw => (nomatch hraw)
      · rename_i raw rest hread
        split at h
        · cases h
          exact fun _ hraw => (nomatch hraw)
        · cases h
          exact List.forall_mem_cons.2 ⟨RawSection.read_yields header _ _ _ hread, ih rfl⟩

/-- The sections of a decoded module are within bounds. -/
theorem within_of_decode {dialect : Dialect} {binary : Bytes} {m : Module}
    (h : Module.decode? dialect binary = some m) : ∀ s ∈ m.sections, s.Within dialect := by
  unfold Module.decode? at h
  split at h
  · rename_i raws houtline
    obtain ⟨sections, hsections, rfl⟩ := Option.map_eq_some_iff.1 h
    unfold Outline.of? at houtline
    split at houtline
    · cases houtline
    · simp only [Option.some.injEq, Outline.mk.injEq] at houtline
      obtain ⟨-, hraws, hcomplete⟩ := houtline
      intro s hs
      obtain ⟨raw, hraw, hs⟩ := mem_of_mapM hsections hs
      have hbounded := bounded_of_outline (Prod.ext hraws hcomplete) raw hraw
      cases raw with
      | custom name contents =>
        cases hs
        exact hbounded
      | known kind contents => exact Section.within_of_ofContents hs
      | unknown id => cases hs
  · cases h

/-- A word can count the bytes of a data segment. -/
theorem length_data_of_decode {dialect : Dialect} {binary : Bytes} {m : Module}
    (h : Module.decode? dialect binary = some m) : ∀ d ∈ m.datas, d.bytes.length < 2 ^ 32 := by
  intro d hd
  obtain ⟨sec, hsec, hd⟩ := List.mem_flatMap.1 hd
  have hwithin := within_of_decode h sec hsec
  cases sec
  case data items => exact (hwithin d hd).bytes
  all_goals cases hd

end Wasm

end MeteredWasm
