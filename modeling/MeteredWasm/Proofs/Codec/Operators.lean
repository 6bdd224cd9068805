import MeteredWasm.Proofs.Codec.Proposals
import MeteredWasm.Wasm.Operator.Codec

/-!
# Operators are read back

Operators whose memory arguments leave room for a flag are read from their binary form as they were
written (`read_gives`). From that follows the same of whole bodies and of constant expressions. Those
that are `Within` the bounds of the dialect are not refused; core operators are within the bounds of
both.
-/

set_option autoImplicit false

namespace MeteredWasm.Wasm

open Leb128 Reader

/-! ## Opcodes -/

theorem Numeric.mem_table (op : Numeric) :
    if op.isSaturating then op ∈ saturatingTable else op ∈ table := by
  cases op with
  | eqz width => cases width <;> decide +kernel
  | intRelation width op => cases width <;> cases op <;> decide +kernel
  | floatRelation width op => cases width <;> cases op <;> decide +kernel
  | intUnary width op => cases width <;> cases op <;> decide +kernel
  | intBinary width op => cases width <;> cases op <;> decide +kernel
  | floatUnary width op => cases width <;> cases op <;> decide +kernel
  | floatBinary width op => cases width <;> cases op <;> decide +kernel
  | convert op =>
    cases op with
    | trunc target source sign => cases target <;> cases source <;> cases sign <;> decide +kernel
    | truncSat target source sign => cases target <;> cases source <;> cases sign <;> decide +kernel
    | convert target source sign => cases target <;> cases source <;> cases sign <;> decide +kernel
    | extend sign => cases sign <;> decide +kernel
    | reinterpretFloat width => cases width <;> decide +kernel
    | reinterpretInt width => cases width <;> decide +kernel
    | extend8 width => cases width <;> decide +kernel
    | extend16 width => cases width <;> decide +kernel
    | wrap | demote | promote | extend32 => decide +kernel

theorem getElem?_idxOf {α : Type} [BEq α] [LawfulBEq α] {xs : List α} {x : α} (h : x ∈ xs) :
    xs[xs.idxOf x]? = some x := by
  rw [List.getElem?_eq_getElem (List.idxOf_lt_length_of_mem h), List.getElem_idxOf]

/-- The code of an operator of one byte. -/
theorem Numeric.ofCode_code {op : Numeric} (h : op.isSaturating = false) :
    ofCode? op.code = some op ∧ 0x45 ≤ op.code ∧ op.code < 0xC5 := by
  have hmem := op.mem_table
  rw [if_neg (by simp [h])] at hmem
  have hlt : table.idxOf op < 0x80 := List.idxOf_lt_length_of_mem hmem
  simp only [code, h, Bool.false_eq_true, if_false, ofCode?, firstCode]
  refine ⟨?_, by omega, by omega⟩
  rw [if_pos (Nat.le_add_right ..), Nat.add_sub_cancel_left, getElem?_idxOf hmem]

theorem Numeric.ofSaturatingCode_code {op : Numeric} (h : op.isSaturating = true) :
    ofSaturatingCode? op.code = some op ∧ op.code < 8 := by
  have hmem := op.mem_table
  rw [if_pos h] at hmem
  have hlt : saturatingTable.idxOf op < 8 := List.idxOf_lt_length_of_mem hmem
  simp only [code, h, if_true, ofSaturatingCode?]
  exact ⟨getElem?_idxOf hmem, hlt⟩

/-- Codes that stand for vector operators without immediates stand for no others. -/
theorem VectorInstr.code_bounds (op : VectorInstr) :
    14 ≤ op.code ∧ (op.code < 21 ∨ 35 ≤ op.code) ∧ (op.code < 84 ∨ 94 ≤ op.code) := by
  have hunused : ∀ x ∈ VectorOp.table.zipIdx, x.1.isSome →
      (x.2 < 7 ∨ 21 ≤ x.2) ∧ (x.2 < 70 ∨ 80 ≤ x.2) := by decide +kernel
  have hlisted := op.listed
  unfold VectorOp.ofCode? at hlisted
  split at hlisted
  · rename_i hle
    have hfirst : 14 ≤ op.code := hle
    change (VectorOp.table[op.code - 14]?).join = some op.op at hlisted
    rw [Option.join_eq_some_iff] at hlisted
    have := hunused (some op.op, op.code - 14) (List.mk_mem_zipIdx_iff_getElem?.2 hlisted) rfl
    simp only at this
    omega
  · cases hlisted

/-- There are codes behind those of vector operators. -/
theorem VectorInstr.ofCode_eq_none {code : Nat} (h : 0x100 ≤ code) : ofCode? code = none := by
  have hnone : VectorOp.ofCode? code = none := by
    have hlength : VectorOp.table.length ≤ 242 := by decide +kernel
    have hbehind : VectorOp.table[code - VectorOp.firstCode]? = none := by
      refine List.getElem?_eq_none ?_
      change _ ≤ code - 14
      omega
    rw [VectorOp.ofCode?, hbehind]
    split <;> rfl
  unfold ofCode?
  split
  · rename_i hsome
    rw [hnone] at hsome
    cases hsome
  · rfl

theorem VectorInstr.code_lt (op : VectorInstr) : op.code < 512 := by
  have hlisted := op.listed
  unfold VectorOp.ofCode? at hlisted
  split at hlisted
  · change (VectorOp.table[op.code - 14]?).join = some op.op at hlisted
    rw [Option.join_eq_some_iff] at hlisted
    obtain ⟨hlt, -⟩ := List.getElem?_eq_some_iff.1 hlisted
    have hlength : VectorOp.table.length ≤ 498 := by decide +kernel
    omega
  · cases hlisted

namespace Operator

variable {dialect : Dialect} {sure : Prop}

/-! ## Families -/

/-- Accesses and numeric operators have opcodes of their own. -/
theorem read_of_family {code : UInt8} {front : Bytes} {op : Operator}
    (hcode : 0x28 ≤ code.toNat ∧ code.toNat < 0x3F ∨ 0x45 ≤ code.toNat ∧ code.toNat < 0xC5)
    (h : (readFamily dialect code).Gives sure front op) :
    (read dialect).Gives sure (code :: front) op := by
  refine .byte ?_
  split <;> first | exact h | simp at hcode

theorem load_gives (op : Load) {arg : MemArg} (h : arg.Fits)
    (hs : sure → arg.Within dialect) :
    (read dialect).Gives sure (write (.load op arg)) (.load op arg) := by
  have hmem : op ∈ Load.all := by
    cases op with
    | i32 | i64 | f32 | f64 => decide
    | _ sign => cases sign <;> decide
  have hlt : Load.all.idxOf op < 14 := List.idxOf_lt_length_of_mem hmem
  have hbyte := toNat_toUInt8 (show 0x28 + Load.all.idxOf op < 256 by omega)
  refine read_of_family (.inl (by omega)) ?_
  unfold readFamily
  rw [if_pos (by rw [UInt8.le_iff_toNat_le, hbyte]; simp), hbyte, Nat.add_sub_cancel_left,
    getElem?_idxOf hmem]
  exact (MemArg.read_gives dialect h hs).bind_pure (.pure _)

/-- Codes behind those of loads. -/
theorem readFamily_behind_loads {code : UInt8} {front : Bytes} {op : Operator}
    (hcode : 0x36 ≤ code.toNat)
    (h : (do
      if 0x36 ≤ code then
        if let some op := Store.all[code.toNat - 0x36]? then
          return .store op (← MemArg.read dialect)
      match Numeric.ofCode? code.toNat with
      | some op => return .numeric op
      | none => return .proposal (← Proposal.readAfter dialect ⟨none, code.toNat⟩) :
        Reader Operator).Gives sure front op) :
    (readFamily dialect code).Gives sure front op := by
  have hnone : Load.all[code.toNat - 0x28]? = none := List.getElem?_eq_none (by
    change 14 ≤ code.toNat - 0x28
    omega)
  unfold readFamily
  rw [if_pos (by rw [UInt8.le_iff_toNat_le]; change 0x28 ≤ code.toNat; omega), hnone]
  exact h

theorem store_gives (op : Store) {arg : MemArg} (h : arg.Fits)
    (hs : sure → arg.Within dialect) :
    (read dialect).Gives sure (write (.store op arg)) (.store op arg) := by
  have hmem : op ∈ Store.all := by cases op <;> decide
  have hlt : Store.all.idxOf op < 9 := List.idxOf_lt_length_of_mem hmem
  have hbyte := toNat_toUInt8 (show 0x36 + Store.all.idxOf op < 256 by omega)
  refine read_of_family (.inl (by omega)) (readFamily_behind_loads (by omega) ?_)
  rw [if_pos (by rw [UInt8.le_iff_toNat_le, hbyte]; simp), hbyte, Nat.add_sub_cancel_left,
    getElem?_idxOf hmem]
  exact (MemArg.read_gives dialect h hs).bind_pure (.pure _)

theorem readMisc_gives {code : Nat} {front : Bytes} {op : Operator} (hcode : code < 2 ^ 32)
    (h : (readMisc dialect code).Gives sure front op) :
    (read dialect).Gives sure (writePaged 0xFC code ++ front) op :=
  .byte ((readUnsigned_gives 32 code fun _ => hcode).bind h)

theorem readVectorOp_gives {code : Nat} {front : Bytes} {op : Operator} (hcode : code < 2 ^ 32)
    (h : (readVectorOp dialect code).Gives sure front op) :
    (read dialect).Gives sure (writePaged 0xFD code ++ front) op :=
  .byte ((readUnsigned_gives 32 code fun _ => hcode).bind h)

theorem readAtomic_gives {code : Nat} {front : Bytes} {op : Operator} (hcode : code < 2 ^ 32)
    (h : (readAtomic dialect code).Gives sure front op) :
    (read dialect).Gives sure (writePaged 0xFE code ++ front) op :=
  .byte ((readUnsigned_gives 32 code fun _ => hcode).bind h)

theorem numeric_gives (op : Numeric) :
    (read dialect).Gives sure (write (.numeric op)) (.numeric op) := by
  cases hs : op.isSaturating with
  | true =>
    obtain ⟨hcode, hlt⟩ := Numeric.ofSaturatingCode_code hs
    have h : (readMisc dialect op.code).Gives sure [] (.numeric op) := by
      unfold readMisc
      split
      iterate 10 omega
      rw [hcode]
      exact .pure _
    have hread := readMisc_gives (by omega) h
    rw [List.append_nil] at hread
    simpa only [write, hs, if_true] using hread
  | false =>
    obtain ⟨hcode, hle, hlt⟩ := Numeric.ofCode_code hs
    have hbyte := toNat_toUInt8 (show op.code < 256 by omega)
    have hnone : Store.all[op.code - 0x36]? = none := List.getElem?_eq_none (by
      change 9 ≤ op.code - 0x36
      omega)
    have h := @read_of_family dialect sure op.code.toUInt8 [] (.numeric op)
      (.inr (by rw [hbyte]; omega)) (readFamily_behind_loads (by rw [hbyte]; omega) (by
        rw [if_pos (by rw [UInt8.le_iff_toNat_le, hbyte]; change 0x36 ≤ op.code; omega), hbyte, hnone]
        simp only [hcode]
        exact .pure _))
    simpa only [write, hs, Bool.false_eq_true, if_false] using h

theorem vectorLoad_gives (op : VectorLoad) {arg : MemArg} (h : arg.Fits)
    (hs : sure → arg.Within dialect) :
    (read dialect).Gives sure (write (.vectorLoad op arg)) (.vectorLoad op arg) := by
  have harg := MemArg.read_gives dialect h hs
  cases op with
  | zeroExtend width =>
    cases width <;> exact readVectorOp_gives (by decide) (harg.bind_pure (.pure _))
  | full => exact readVectorOp_gives (by decide) (harg.bind_pure (.pure _))
  | widen source sign =>
    cases source <;> cases sign <;> exact readVectorOp_gives (by decide) (harg.bind_pure (.pure _))
  | splat width => cases width <;> exact readVectorOp_gives (by decide) (harg.bind_pure (.pure _))

theorem laneAccess_gives (width : LaneWidth) {arg : MemArg} (lane : UInt8) (h : arg.Fits)
    (hs : sure → arg.Within dialect) :
    (read dialect).Gives sure (write (.loadLane width arg lane)) (.loadLane width arg lane) ∧
      (read dialect).Gives sure (write (.storeLane width arg lane)) (.storeLane width arg lane) := by
  have harg := MemArg.read_gives dialect h hs
  simp only [write, List.append_assoc]
  constructor <;> cases width <;>
    exact readVectorOp_gives (by decide) (harg.bind (.byte (.pure _)))

theorem extractLane_gives (op : LaneExtract) (lane : UInt8) :
    (read dialect).Gives sure (write (.extractLane op lane)) (.extractLane op lane) := by
  cases op with
  | i8 sign | i16 sign => cases sign <;> exact readVectorOp_gives (by decide) (.byte (.pure _))
  | i32 | i64 | f32 | f64 => exact readVectorOp_gives (by decide) (.byte (.pure _))

theorem replaceLane_gives (shape : LaneShape) (lane : UInt8) :
    (read dialect).Gives sure (write (.replaceLane shape lane)) (.replaceLane shape lane) := by
  cases shape with
  | int width => cases width <;> exact readVectorOp_gives (by decide) (.byte (.pure _))
  | float width => cases width <;> exact readVectorOp_gives (by decide) (.byte (.pure _))

theorem vector_gives (op : VectorInstr) :
    (read dialect).Gives sure (write (.vector op)) (.vector op) := by
  obtain ⟨hle, hlane, haccess⟩ := op.code_bounds
  have h : (readVectorOp dialect op.code).Gives sure [] (.vector op) := by
    have hload : VectorLoad.all[op.code]? = none := List.getElem?_eq_none (by
      change 11 ≤ op.code
      omega)
    have hextract : 21 ≤ op.code → laneAccesses[op.code - 21]? = none := fun _ =>
      List.getElem?_eq_none (by change 14 ≤ op.code - 21; omega)
    have hlanes : 84 ≤ op.code → LaneWidth.all[op.code - 84]? = none := fun _ =>
      List.getElem?_eq_none (by change 4 ≤ op.code - 84; omega)
    have hlanes' : 88 ≤ op.code → LaneWidth.all[op.code - 88]? = none := fun _ =>
      List.getElem?_eq_none (by change 4 ≤ op.code - 88; omega)
    unfold readVectorOp
    split
    iterate 5 omega
    rw [hload]
    simp only [VectorInstr.ofCode?_code]
    repeat' split
    all_goals first | exact .pure _ | simp_all
  have hread := readVectorOp_gives (Nat.lt_trans op.code_lt (by decide)) h
  rwa [List.append_nil] at hread

theorem atomic_gives (action : AtomicAction) (width : AtomicWidth) {arg : MemArg} (h : arg.Fits)
    (hs : sure → arg.Within dialect) :
    (read dialect).Gives sure (write (.atomic action width arg)) (.atomic action width arg) := by
  have haction : action ∈ AtomicAction.all := by cases action <;> decide
  have hwidth : width ∈ AtomicWidth.all := by cases width <;> decide
  have hlt : AtomicWidth.all.idxOf width < 7 := List.idxOf_lt_length_of_mem hwidth
  have hle : AtomicAction.all.idxOf action < 9 := List.idxOf_lt_length_of_mem haction
  refine readAtomic_gives (by omega) ?_
  generalize hcode : 16 + 7 * AtomicAction.all.idxOf action + AtomicWidth.all.idxOf width = code
  unfold readAtomic
  split
  iterate 4 omega
  rw [if_pos (by omega), show (code - 16) / 7 = AtomicAction.all.idxOf action by omega,
    show (code - 16) % 7 = AtomicWidth.all.idxOf width by omega, getElem?_idxOf haction,
    getElem?_idxOf hwidth]
  exact (MemArg.read_gives dialect h hs).bind_pure (.pure _)

/-! ## Proposals -/

/-- Reads what stands behind the opcode of a proposal. -/
def readProposal (dialect : Dialect) (page : Option UInt8) (code : Nat) : Reader Operator := do
  return .proposal (← Proposal.readAfter dialect ⟨page, code⟩)

/-- The operators of one byte that stand in no family are those of proposals. -/
theorem read_single : ∀ x ∈ singleByteProposals, ∀ input,
    read dialect (x.1.toUInt8 :: input) = readProposal dialect none x.1 input := by
  simp only [singleByteProposals, List.forall_mem_cons]
  repeat' apply And.intro
  all_goals first | exact fun _ => rfl | exact fun _ h => nomatch h

theorem readMisc_proposal : ∀ x ∈ miscProposals,
    readMisc dialect x.1 = readProposal dialect (some 0xFC) x.1 := by
  simp only [miscProposals, List.forall_mem_cons]
  repeat' apply And.intro
  all_goals first | rfl | exact fun _ h => nomatch h

theorem readVectorOp_proposal {code : Nat} (h : 0x100 ≤ code) :
    readVectorOp dialect code = readProposal dialect (some 0xFD) code := by
  have hload : VectorLoad.all[code]? = none := List.getElem?_eq_none (by
    change 11 ≤ code
    omega)
  have hextract : laneAccesses[code - 21]? = none := List.getElem?_eq_none (by
    change 14 ≤ code - 21
    omega)
  have hlanes : LaneWidth.all[code - 84]? = none := List.getElem?_eq_none (by
    change 4 ≤ code - 84
    omega)
  have hlanes' : LaneWidth.all[code - 88]? = none := List.getElem?_eq_none (by
    change 4 ≤ code - 88
    omega)
  unfold readVectorOp
  split
  iterate 5 omega
  simp only [hload, hextract, hlanes, hlanes', VectorInstr.ofCode_eq_none h, ite_self]
  rfl

theorem readAtomic_proposal {code : Nat} (h : 0x4F ≤ code) :
    readAtomic dialect code = readProposal dialect (some 0xFE) code := by
  have haction : AtomicAction.all[(code - 16) / 7]? = none := List.getElem?_eq_none (by
    change 9 ≤ (code - 16) / 7
    omega)
  unfold readAtomic
  split
  iterate 4 omega
  simp only [haction, ite_self]
  rfl

theorem proposal_gives (p : Proposal) (hs : sure → p.Within dialect) :
    (read dialect).Gives sure (write (.proposal p)) (.proposal p) := by
  have hmem := p.mem_table
  have hcode := p.code_lt
  have hafter : (readProposal dialect p.opcode.page p.opcode.code).Gives sure
      (p.immediates.flatMap Immediate.write) (.proposal p) :=
    (Proposal.readAfter_gives p hs).bind_pure (.pure _)
  simp only [write, Proposal.write]
  generalize p.opcode.page = page at hmem hafter ⊢
  generalize p.opcode.code = code at hmem hcode hafter ⊢
  unfold Opcode.table at hmem
  split at hmem
  case h_1 =>
    intro rest
    rw [List.append_assoc]
    exact (read_single _ hmem _).symm ▸ hafter rest
  case h_2 => exact .byte ((readUnsigned_gives 32 code fun _ => hcode).bind hafter)
  case h_3 => exact readMisc_gives hcode ((readMisc_proposal _ hmem).symm ▸ hafter)
  case h_4 =>
    have hle : 0x100 ≤ code := by
      obtain ⟨i, -, hi⟩ := List.mem_map.1 hmem
      have hfirst := (Prod.mk.inj hi).1
      omega
    exact readVectorOp_gives hcode ((readVectorOp_proposal hle).symm ▸ hafter)
  case h_5 =>
    have hle : ∀ x ∈ atomicProposals, 0x4F ≤ x.1 := by decide +kernel
    exact readAtomic_gives hcode ((readAtomic_proposal (hle _ hmem)).symm ▸ hafter)
  case h_6 => exact absurd hmem List.not_mem_nil

/-! ## One operator -/

/-- The memory argument of an operator. -/
def memArg? : Operator → Option MemArg
  | .load _ arg | .store _ arg | .vectorLoad _ arg | .vectorStore arg | .loadLane _ arg _
  | .storeLane _ arg _ | .atomicNotify arg | .atomicWait _ arg | .atomic _ _ arg => some arg
  | _ => none

/-- Operators whose binary form can be read back: an alignment leaves room for a flag. -/
def Writable (op : Operator) : Prop := ∀ arg ∈ op.memArg?, arg.Fits

/-- What is in an operator is within the bounds of a dialect. -/
def Within (dialect : Dialect) : Operator → Prop
  | .block type | .loop type | .ifThen type => type.Bounded
  | .brTable labels _ => labels.length < 2 ^ 32
  | .selectTyped types => types.length ≤ maxSelected ∧ ∀ type ∈ types, type.Bounded
  | .memorySize memory | .memoryGrow memory | .memoryFill memory | .memoryInit _ memory =>
    dialect.HasMemory memory
  | .memoryCopy target source => dialect.HasMemory target ∧ dialect.HasMemory source
  | .refNull heap => heap.Bounded
  | .load _ arg | .store _ arg | .vectorLoad _ arg | .vectorStore arg | .loadLane _ arg _
  | .storeLane _ arg _ | .atomicNotify arg | .atomicWait _ arg | .atomic _ _ arg =>
    arg.Within dialect
  | .proposal p => p.Within dialect
  | _ => True

theorem Within.writable {op : Operator} {dialect : Dialect} (h : op.Within dialect) :
    op.Writable := by
  cases op
  case load | store | vectorLoad | vectorStore | loadLane | storeLane | atomicNotify
      | atomicWait | atomic =>
    rintro arg ⟨⟩
    exact MemArg.Within.fits h
  all_goals exact fun _ h => nomatch h

/-- An operator is read back as it was written. -/
theorem read_gives (dialect : Dialect) {op : Operator} (h : op.Writable)
    (hs : sure → op.Within dialect) : (read dialect).Gives sure op.write op := by
  have harg {arg : MemArg} (ha : op.memArg? = some arg) (hs : sure → arg.Within dialect) :=
    MemArg.read_gives dialect (h arg ha) hs
  cases op
  case proposal p => exact proposal_gives p hs
  case load op arg => exact load_gives op (h arg rfl) hs
  case store op arg => exact store_gives op (h arg rfl) hs
  case numeric op => exact numeric_gives op
  case vectorLoad op arg => exact vectorLoad_gives op (h arg rfl) hs
  case loadLane width arg lane => exact (laneAccess_gives width lane (h arg rfl) hs).1
  case storeLane width arg lane => exact (laneAccess_gives width lane (h arg rfl) hs).2
  case extractLane op lane => exact extractLane_gives op lane
  case replaceLane shape lane => exact replaceLane_gives shape lane
  case vector op => exact vector_gives op
  case atomic action width arg => exact atomic_gives action width (h arg rfl) hs
  case vectorStore arg => exact readVectorOp_gives (by decide) ((harg rfl hs).bind_pure (.pure _))
  case atomicNotify arg => exact readAtomic_gives (by decide) ((harg rfl hs).bind_pure (.pure _))
  case atomicWait width arg =>
    cases width <;> exact readAtomic_gives (by decide) ((harg rfl hs).bind_pure (.pure _))
  case atomicFence =>
    exact readAtomic_gives (by decide) (.byte (.require (fun _ => rfl) fun _ => .pure _))
  case v128Const v => exact readVectorOp_gives (by decide) ((readVector_gives v).bind_pure (.pure _))
  case shuffle lanes =>
    exact readVectorOp_gives (by decide) ((readVector_gives lanes).bind_pure (.pure _))
  case unreachable | nop | elseMark | endMark | ret | drop | select | refIsNull =>
    exact .byte (.pure _)
  case block type | loop type | ifThen type =>
    exact .byte ((BlockType.read_gives type hs).bind_pure (.pure _))
  case brTable labels fallback =>
    exact .byte ((readVec_gives hs fun label _ => readU32_gives label).bind
      ((readU32_gives fallback).bind_pure (.pure _)))
  case selectTyped types =>
    have hlength (h : sure) : types.length < 2 ^ 32 :=
      Nat.lt_of_le_of_lt (hs h).1 (by decide)
    have hselected : readSelected.Gives sure (writeVec ValType.write types) types :=
      (readVec_gives hlength fun type hmem => ValType.read_gives type fun h =>
        (hs h).2 type hmem).bind_pure (.require (fun h => decide_eq_true (hs h).1) fun _ =>
          .pure types)
    exact .byte (hselected.bind_pure (.pure _))
  case refNull heap => exact .byte ((HeapType.read_gives heap hs).bind_pure (.pure _))
  case i32Const n => exact .byte ((readS32_gives n).bind_pure (.pure _))
  case i64Const n => exact .byte ((readS64_gives n).bind_pure (.pure _))
  case f32Const bits =>
    have h : (read dialect).Gives sure (write (.f32Const bits)) (.f32Const bits.toNat.toUInt32) :=
      .byte ((LittleEndian.read_gives 4 bits.toNat_lt).bind_pure (.pure _))
    rwa [Nat.toUInt32_eq, UInt32.ofNat_toNat] at h
  case f64Const bits =>
    have h : (read dialect).Gives sure (write (.f64Const bits)) (.f64Const bits.toNat.toUInt64) :=
      .byte ((LittleEndian.read_gives 8 bits.toNat_lt).bind_pure (.pure _))
    rwa [Nat.toUInt64_eq, UInt64.ofNat_toNat] at h
  case memorySize memory | memoryGrow memory =>
    exact .byte ((readMemoryIndex_gives dialect memory hs).bind_pure (.pure _))
  case memoryFill memory =>
    exact readMisc_gives (by decide) ((readMemoryIndex_gives dialect memory hs).bind_pure (.pure _))
  case memoryInit segment memory =>
    rw [write, List.append_assoc]
    exact readMisc_gives (by decide) ((readU32_gives segment).bind
      ((readMemoryIndex_gives dialect memory hs).bind_pure (.pure _)))
  case memoryCopy target source =>
    rw [write, List.append_assoc]
    exact readMisc_gives (by decide) ((readMemoryIndex_gives dialect target fun h => (hs h).1).bind
      ((readMemoryIndex_gives dialect source fun h => (hs h).2).bind_pure (.pure _)))
  case callIndirect a b | returnCallIndirect a b =>
    exact .byte ((readU32_gives a).bind ((readU32_gives b).bind_pure (.pure _)))
  case tableInit a b | tableCopy a b =>
    rw [write, List.append_assoc]
    exact readMisc_gives (by decide) ((readU32_gives a).bind ((readU32_gives b).bind_pure (.pure _)))
  case dataDrop index | elemDrop index | tableGrow index | tableSize index | tableFill index =>
    exact readMisc_gives (by decide) ((readU32_gives index).bind_pure (.pure _))
  all_goals exact .byte ((readU32_gives _).bind_pure (.pure _))

/-! ## Code -/

theorem write_ne_nil (op : Operator) : op.write ≠ [] := by
  cases op
  case numeric op =>
    rw [write]
    split <;> exact List.cons_ne_nil _ _
  case proposal p =>
    simp only [write, Proposal.write]
    split <;> exact List.cons_ne_nil _ _
  case vectorLoad op arg =>
    cases op with
    | zeroExtend width => cases width <;> exact List.cons_ne_nil _ _
    | _ => exact List.cons_ne_nil _ _
  case atomicWait width arg => cases width <;> exact List.cons_ne_nil _ _
  all_goals exact List.cons_ne_nil _ _

/-- The frames that operators leave open in a row. -/
def nestAll? (frames : List Frame) (ops : List Operator) : Option (List Frame) :=
  ops.foldlM (fun frames op => op.nest? frames) frames

theorem nestAll_cons (frames : List Frame) (op : Operator) (ops : List Operator) :
    nestAll? frames (op :: ops) = (op.nest? frames).bind fun fs => nestAll? fs ops :=
  List.foldlM_cons

/-- An operator in front of what depends on the frames that it leaves open. -/
theorem readNested_gives {α : Type} {dialect : Dialect} {frames : List Frame} {op : Operator}
    {k : Operator × List Frame → Reader α} {back : Bytes} {a : α} {sure : Prop} (h : op.Writable)
    (hs : sure → op.Within dialect ∧ (op.nest? frames).isSome)
    (hk : ∀ fs, op.nest? frames = some fs → (k (op, fs)).Gives sure back a) :
    (readNested dialect frames >>= k).Gives sure (op.write ++ back) a := by
  unfold readNested
  rw [bind_assoc]
  refine (read_gives dialect h fun hsure => (hs hsure).1).bind ?_
  rw [bind_assoc]
  exact .ofOption_bind (fun hsure => (hs hsure).2) fun fs hfs => hk fs hfs

theorem eq_of_readNested {dialect : Dialect} {frames fs : List Frame} {op op' : Operator}
    {rest left : Bytes} (h : op.Writable)
    (hread : readNested dialect frames (op.write ++ rest) = some ((op', fs), left)) :
    op' = op ∧ left = rest := by
  have hgives : (readNested dialect frames >>= fun r => pure r.1).Gives False (op.write ++ []) op :=
    readNested_gives h False.elim fun _ _ => .pure _
  rw [List.append_nil] at hgives
  exact hgives.reads rest op' left (by rw [bind_apply, hread]; rfl)

theorem writeAll_cons (op : Operator) (ops : List Operator) :
    writeAll (op :: ops) = op.write ++ writeAll ops := List.flatMap_cons ..

/-- The code of a body is read back. -/
theorem eq_of_readRun {dialect : Dialect} {n : Nat} {frames : List Frame}
    {ops ops' : List Operator} (hops : ∀ op ∈ ops, op.Writable)
    (h : readRun dialect n frames (writeAll ops) = (ops', true)) : ops' = ops := by
  induction ops generalizing n frames ops' with
  | nil =>
    cases n <;> simp only [writeAll, List.flatMap_nil, readRun, Prod.mk.injEq] at h <;>
      exact h.1.symm
  | cons op ops ih =>
    obtain ⟨b, bs, hb⟩ := List.exists_cons_of_ne_nil op.write_ne_nil
    rw [writeAll_cons] at h
    cases n with
    | zero => simp [hb, readRun] at h
    | succ n =>
      cases hread : readNested dialect frames (op.write ++ writeAll ops) with
      | none =>
        rw [hb, List.cons_append] at h hread
        simp [readRun, hread] at h
      | some r =>
        obtain ⟨⟨op', fs⟩, rest⟩ := r
        obtain ⟨rfl, rfl⟩ := eq_of_readNested (hops op (List.mem_cons_self ..)) hread
        rw [hb, List.cons_append] at h hread
        simp only [readRun, hread, Prod.mk.injEq] at h
        obtain ⟨rfl, hcomplete⟩ := h
        exact congrArg (op' :: ·) (ih (fun op hop => hops op (List.mem_cons_of_mem _ hop))
          (Prod.ext rfl hcomplete))

/-- The code of a body is not refused. -/
theorem readRun_writeAll {dialect : Dialect} {n : Nat} {frames : List Frame} {ops : List Operator}
    (hops : ∀ op ∈ ops, op.Within dialect) (hn : ops.length ≤ n)
    (hnest : (nestAll? frames ops).isSome) :
    readRun dialect n frames (writeAll ops) = (ops, true) := by
  induction ops generalizing n frames with
  | nil => cases n <;> rfl
  | cons op ops ih =>
    obtain ⟨n, rfl⟩ : ∃ k, n = k + 1 := ⟨n - 1, by simp at hn; omega⟩
    have hop := hops op (List.mem_cons_self ..)
    obtain ⟨b, bs, hb⟩ := List.exists_cons_of_ne_nil op.write_ne_nil
    obtain ⟨last, hnest⟩ := Option.isSome_iff_exists.1 hnest
    rw [nestAll_cons, Option.bind_eq_some_iff] at hnest
    obtain ⟨fs, hfs, hnest⟩ := hnest
    have hread : readNested dialect frames (op.write ++ writeAll ops) =
        some ((op, fs), writeAll ops) := by
      have hgives : (readNested dialect frames >>= pure).Gives True (op.write ++ []) (op, fs) :=
        readNested_gives hop.writable (fun _ => ⟨hop, by rw [hfs]; rfl⟩) fun fs' hfs' => by
          rw [hfs] at hfs'
          cases hfs'
          exact .pure _
      rw [bind_pure, List.append_nil] at hgives
      exact hgives.takes _
    rw [writeAll_cons]
    rw [hb, List.cons_append] at hread ⊢
    simp only [readRun, hread, ih (fun op hop => hops op (List.mem_cons_of_mem _ hop))
      (by simpa using hn) (by rw [hnest]; rfl)]

theorem eq_of_readAll {dialect : Dialect} {ops ops' : List Operator}
    (hops : ∀ op ∈ ops, op.Writable) (h : readAll? dialect (writeAll ops) = some ops') :
    ops' = ops := by
  unfold readAll? at h
  split at h
  · rename_i hrun
    cases h
    exact eq_of_readRun hops hrun
  · cases h

theorem length_le_writeAll (ops : List Operator) : ops.length ≤ (writeAll ops).length :=
  length_le_flatMap fun op _ => op.write_ne_nil

theorem readAll_writeAll {dialect : Dialect} {ops : List Operator}
    (hops : ∀ op ∈ ops, op.Within dialect) (hnest : (nestAll? [.plain] ops).isSome) :
    readAll? dialect (writeAll ops) = some ops := by
  rw [readAll?, readPrefixes, readRun_writeAll hops (length_le_writeAll ops) hnest]

theorem writable_endMark : Writable .endMark := fun _ h => nomatch h

/-- Operators of a constant expression can be read back, and do not end it. -/
def ConstWritable (ops : List Operator) : Prop := ∀ op ∈ ops, op.Writable ∧ op ≠ .endMark

/-- A constant expression is not refused: its operators are within the bounds of a dialect, none of
them ends it, and its end closes its frame. -/
structure ConstWithin (dialect : Dialect) (frames : List Frame) (ops : List Operator) : Prop where
  within : ∀ op ∈ ops, op.Within dialect
  inner : ∀ op ∈ ops, op ≠ .endMark
  nested : nestAll? frames (ops ++ [.endMark]) = some []

theorem ConstWithin.writable {dialect : Dialect} {frames : List Frame} {ops : List Operator}
    (h : ConstWithin dialect frames ops) : ConstWritable ops :=
  fun op hop => ⟨(h.within op hop).writable, h.inner op hop⟩

theorem readToEnd_gives (dialect : Dialect) {sure : Prop} (n : Nat) (frames : List Frame)
    {ops : List Operator} (hops : ConstWritable ops)
    (hs : sure → ConstWithin dialect frames ops ∧ ops.length < n) :
    (readToEnd dialect n frames).Gives sure (writeConst ops) ops := by
  induction ops generalizing n frames with
  | nil =>
    cases n with
    | zero => exact .refuse _ _ fun h => absurd (hs h).2 (Nat.lt_irrefl 0)
    | succ n =>
      have hend (h : sure) : Operator.endMark.nest? frames = some [] := by
        have hnested := (hs h).1.nested
        rw [List.nil_append, nestAll_cons, Option.bind_eq_some_iff] at hnested
        obtain ⟨fs, hfs, hnil⟩ := hnested
        cases hnil
        exact hfs
      rw [writeConst, writeAll, List.flatMap_nil, List.nil_append, ← List.append_nil (write _)]
      refine readNested_gives writable_endMark (fun h => ⟨trivial, by rw [hend h]; rfl⟩)
        fun fs hfs => ?_
      dsimp only
      rw [if_pos rfl]
      refine .require (fun h => ?_) fun _ => .pure []
      rw [hend h] at hfs
      cases hfs
      rfl
  | cons op ops ih =>
    obtain ⟨hop, hend⟩ := hops op (List.mem_cons_self ..)
    cases n with
    | zero => exact .refuse _ _ fun h => absurd (hs h).2 (Nat.not_lt_zero _)
    | succ n =>
      have hnested (h : sure) :
          ∃ fs, op.nest? frames = some fs ∧ nestAll? fs (ops ++ [.endMark]) = some [] := by
        have hnested := (hs h).1.nested
        rwa [List.cons_append, nestAll_cons, Option.bind_eq_some_iff] at hnested
      have hbounded (h : sure) : op.Within dialect ∧ (op.nest? frames).isSome := by
        obtain ⟨fs, hfs, -⟩ := hnested h
        exact ⟨(hs h).1.within op (List.mem_cons_self ..), by rw [hfs]; rfl⟩
      rw [writeConst, writeAll_cons, List.append_assoc, ← writeConst]
      refine readNested_gives hop hbounded fun fs hfs => ?_
      dsimp only
      rw [if_neg hend]
      refine (ih n fs (fun op hop => hops op (List.mem_cons_of_mem _ hop)) fun h => ?_).bind_pure
        (.pure _)
      obtain ⟨fs', hfs', hrest⟩ := hnested h
      rw [hfs] at hfs'
      cases hfs'
      exact ⟨⟨fun op hop => (hs h).1.within op (List.mem_cons_of_mem _ hop),
        fun op hop => (hs h).1.inner op (List.mem_cons_of_mem _ hop), hrest⟩,
        Nat.lt_of_succ_lt_succ (hs h).2⟩

theorem readConst_gives (dialect : Dialect) {sure : Prop} {ops : List Operator}
    (hops : ConstWritable ops) (hs : sure → ConstWithin dialect [.plain] ops) :
    (readConst dialect).Gives sure (writeConst ops) ops := by
  intro rest
  refine readToEnd_gives dialect _ _ hops (fun h => ⟨hs h, ?_⟩) rest
  have hle := length_le_writeAll ops
  have hend := List.length_pos_iff.2 Operator.endMark.write_ne_nil
  rw [writeConst, List.length_append, List.length_append]
  omega

end Operator

end MeteredWasm.Wasm
