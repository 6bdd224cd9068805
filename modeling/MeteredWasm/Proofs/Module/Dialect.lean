import MeteredWasm.Wasm.Module.Basic

/-!
# The core dialect is part of the full one

Whatever is read in the core dialect is read the same in the full one (`decode_full_of_core`). Each
reader that depends on the dialect is widened by its own reader in the full one, which follows
the way it is put together.
-/

set_option autoImplicit false

namespace MeteredWasm

open Wasm Leb128

/-! ## Readers that read more -/

/-- `y` reads all that `x` reads, and reads it the same. -/
def Reader.Widens {α : Type} (x y : Reader α) : Prop := ∀ input r, x input = some r → y input = some r

namespace Reader.Widens

variable {α β : Type} {x y : Reader α}

theorem refl (x : Reader α) : Widens x x := fun _ _ h => h

theorem bind {k k' : α → Reader β} (h : Widens x y) (hk : ∀ a, Widens (k a) (k' a)) :
    Widens (x >>= k) (y >>= k') := by
  intro input r hr
  simp only [Reader.bind_apply, Option.bind_eq_some_iff, Prod.exists] at hr ⊢
  obtain ⟨a, rest, ha, hb⟩ := hr
  exact ⟨a, rest, h _ _ ha, hk a _ _ hb⟩

theorem map {f : α → β} (h : Widens x y) : Widens (f <$> x) (f <$> y) := by
  rw [map_eq_pure_bind, map_eq_pure_bind]
  exact h.bind fun _ => .refl _

theorem times (h : Widens x y) (n : Nat) : Widens (Reader.times n x) (Reader.times n y) := by
  induction n with
  | zero => exact .refl _
  | succ n ih => exact h.bind fun _ => ih.bind fun _ => .refl _

theorem readVec (h : Widens x y) : Widens (Leb128.readVec x) (Leb128.readVec y) :=
  (refl _).bind fun n => h.times n

theorem whole {input : Bytes} {a : α} (h : Widens x y) (ha : Reader.whole x input = some a) :
    Reader.whole y input = some a := by
  unfold Reader.whole at ha
  split at ha
  · rename_i hx
    cases ha
    simp [Reader.whole, h _ _ hx]
  · cases ha

end Reader.Widens

theorem Leb128.readUnsigned_widens {width wider : Nat} (h : width ≤ wider) :
    (readUnsigned width).Widens (readUnsigned wider) := by
  intro input r hr
  induction input generalizing width wider r with
  | nil => cases hr
  | cons b rest ih =>
    unfold readUnsigned at hr ⊢
    split at hr
    · rename_i hb
      rw [if_pos hb]
      split at hr
      · rename_i hfits
        rw [if_pos (Nat.lt_of_lt_of_le hfits (by
          simp only [Nat.shiftLeft_eq, Nat.one_mul]
          exact Nat.pow_le_pow_right (by omega) h))]
        exact hr
      · cases hr
    · rename_i hb
      rw [if_neg hb]
      split at hr
      · cases hr
      · rename_i hwide
        rw [if_neg (by omega)]
        split at hr
        · rename_i n left hn
          rw [ih (show width - 7 ≤ wider - 7 by omega) _ hn]
          exact hr
        · cases hr

namespace Wasm

open Reader (Widens)

/-! ## Types -/

theorem sizeBits_widens : (readUnsigned Dialect.core.sizeBits).Widens
    (readUnsigned Dialect.full.sizeBits) := readUnsigned_widens (by decide)

theorem Limits.read_widens (bounded : Bool) :
    (Limits.read .core bounded).Widens (Limits.read .full bounded) := by
  refine sizeBits_widens.bind fun min => ?_
  dsimp only
  split
  · exact sizeBits_widens.map.bind fun _ => .refl _
  · exact .refl _

theorem TableType.read_widens : (TableType.read .core).Widens (TableType.read .full) :=
  (Widens.refl _).bind fun _ => (Widens.refl _).bind fun _ => (Widens.refl _).bind fun _ =>
    (Limits.read_widens _).bind fun _ => .refl _

theorem MemoryType.read_widens : (MemoryType.read .core).Widens (MemoryType.read .full) :=
  (Widens.refl _).bind fun _ => (Widens.refl _).bind fun _ =>
    (Limits.read_widens _).bind fun _ => .refl _

theorem MemArg.read_widens : (MemArg.read .core).Widens (MemArg.read .full) := by
  refine (Widens.refl _).bind fun flags => ?_
  intro input r hr
  simp only [Reader.bind_apply, Option.bind_eq_some_iff, Prod.exists] at hr
  obtain ⟨⟨⟩, rest, hrequire, offset, left, hoffset, hr⟩ := hr
  have hflags : flags < 32 ∧ rest = input := by
    simp only [Reader.require] at hrequire
    split at hrequire
    · rename_i hlt
      cases hrequire
      exact ⟨of_decide_eq_true hlt, rfl⟩
    · cases hrequire
  obtain ⟨hflags, rfl⟩ := hflags
  have hsmall : flags < memoryFlag := by
    simp only [memoryFlag]
    omega
  simp only [hsmall, if_true, Reader.bind_apply, Option.bind_eq_some_iff, Prod.exists]
  exact ⟨offset, left, readUnsigned_widens (by omega) _ _ hoffset, hr⟩

theorem readMemoryIndex_widens :
    (readMemoryIndex .core).Widens (readMemoryIndex .full) := by
  intro input r hr
  cases input with
  | nil => cases hr
  | cons b rest =>
    simp only [readMemoryIndex, Reader.bind_apply, Reader.byte_cons, Option.bind_some,
      Reader.require] at hr
    split at hr
    · rename_i hb
      rw [beq_iff_eq] at hb
      subst hb
      exact hr
    · cases hr

/-! ## Operators -/

theorem Immediate.read_widens (kind : ImmediateKind) :
    (Immediate.read .core kind).Widens (Immediate.read .full kind) := by
  cases kind
  case memArg => exact MemArg.read_widens.bind fun _ => .refl _
  all_goals exact .refl _

theorem Immediate.readAll_widens (kinds : List ImmediateKind) :
    (Immediate.readAll .core kinds).Widens (Immediate.readAll .full kinds) := by
  induction kinds with
  | nil => exact .refl _
  | cons kind kinds ih =>
    exact (Immediate.read_widens kind).bind fun _ => ih.bind fun _ => .refl _

theorem Proposal.readAfter_widens (opcode : Opcode) :
    (Proposal.readAfter .core opcode).Widens (Proposal.readAfter .full opcode) := by
  unfold Proposal.readAfter
  split
  · exact .refl _
  · exact (Immediate.readAll_widens _).bind fun _ => .refl _

namespace Operator

theorem argument_widens {k : MemArg → Reader Operator} :
    (MemArg.read .core >>= k).Widens (MemArg.read .full >>= k) :=
  MemArg.read_widens.bind fun _ => .refl _

theorem proposal_widens {opcode : Opcode} {k : Proposal → Reader Operator} :
    (Proposal.readAfter .core opcode >>= k).Widens (Proposal.readAfter .full opcode >>= k) :=
  (Proposal.readAfter_widens _).bind fun _ => .refl _

theorem readMisc_widens (code : Nat) : (readMisc .core code).Widens (readMisc .full code) := by
  unfold readMisc
  split <;> try exact .refl _
  · exact (Widens.refl _).bind fun _ => readMemoryIndex_widens.bind fun _ => .refl _
  · exact readMemoryIndex_widens.bind fun _ => readMemoryIndex_widens.bind fun _ => .refl _
  · exact readMemoryIndex_widens.bind fun _ => .refl _
  · split
    · exact .refl _
    · exact proposal_widens

theorem readVectorOp_widens (code : Nat) :
    (readVectorOp .core code).Widens (readVectorOp .full code) := by
  unfold readVectorOp
  dsimp only
  repeat' split
  all_goals first | exact .refl _ | exact argument_widens | exact proposal_widens

theorem readAtomic_widens (code : Nat) :
    (readAtomic .core code).Widens (readAtomic .full code) := by
  unfold readAtomic
  dsimp only
  repeat' split
  all_goals first | exact .refl _ | exact argument_widens | exact proposal_widens

theorem readFamily_widens (code : UInt8) :
    (readFamily .core code).Widens (readFamily .full code) := by
  unfold readFamily
  dsimp only
  repeat' split
  all_goals first | exact .refl _ | exact argument_widens | exact proposal_widens

theorem read_widens : (Operator.read .core).Widens (Operator.read .full) := by
  refine (Widens.refl _).bind fun b => ?_
  split <;> try exact .refl _
  · exact readMemoryIndex_widens.bind fun _ => .refl _
  · exact readMemoryIndex_widens.bind fun _ => .refl _
  · exact (Widens.refl _).bind fun _ => proposal_widens
  · exact (Widens.refl _).bind fun _ => readMisc_widens _
  · exact (Widens.refl _).bind fun _ => readVectorOp_widens _
  · exact (Widens.refl _).bind fun _ => readAtomic_widens _
  · exact readFamily_widens _

theorem readNested_widens (frames : List Frame) :
    (readNested .core frames).Widens (readNested .full frames) :=
  read_widens.bind fun _ => .refl _

theorem readRun_widens {n : Nat} {frames : List Frame} {input : Bytes} {ops : List Operator}
    (h : readRun .core n frames input = (ops, true)) :
    readRun .full n frames input = (ops, true) := by
  induction n generalizing frames input ops with
  | zero => cases input <;> exact h
  | succ n ih =>
    cases input with
    | nil => exact h
    | cons b input =>
      simp only [readRun] at h ⊢
      split at h
      · cases h
      · rename_i op frames rest hread
        rw [readNested_widens _ _ _ hread]
        simp only [Prod.mk.injEq] at h ⊢
        rw [ih (Prod.ext rfl h.2)]
        exact ⟨h.1, rfl⟩

theorem readAll_widens {code : Bytes} {ops : List Operator} (h : readAll? .core code = some ops) :
    readAll? .full code = some ops := by
  unfold readAll? at h
  split at h
  · rename_i hrun
    cases h
    have hfull : readPrefixes .full code = (ops, true) := readRun_widens hrun
    simp only [readAll?, hfull]
  · cases h

theorem readToEnd_widens (n : Nat) (frames : List Frame) :
    (readToEnd .core n frames).Widens (readToEnd .full n frames) := by
  induction n generalizing frames with
  | zero => exact .refl _
  | succ n ih =>
    refine (readNested_widens frames).bind fun r => ?_
    dsimp only
    split
    · exact .refl _
    · exact (ih _).bind fun _ => .refl _

theorem readConst_widens : (readConst .core).Widens (readConst .full) :=
  fun input r h => readToEnd_widens _ _ input r h

end Operator

/-! ## Sections -/

theorem ImportType.read_widens : (ImportType.read .core).Widens (ImportType.read .full) := by
  refine (Widens.refl _).bind fun b => ?_
  split <;> try exact .refl _
  · exact TableType.read_widens.bind fun _ => .refl _
  · exact MemoryType.read_widens.bind fun _ => .refl _

theorem Import.read_widens : (Import.read .core).Widens (Import.read .full) :=
  (Widens.refl _).bind fun _ => (Widens.refl _).bind fun _ =>
    ImportType.read_widens.bind fun _ => .refl _

theorem Table.read_widens : (Table.read .core).Widens (Table.read .full) := by
  refine (Widens.refl _).bind fun b => ?_
  split
  · exact (Widens.refl _).bind fun _ => (Widens.refl _).bind fun _ => (Widens.refl _).bind fun _ =>
      TableType.read_widens.bind fun _ => Operator.readConst_widens.bind fun _ => .refl _
  · exact TableType.read_widens.bind fun _ => .refl _

theorem Global.read_widens : (Global.read .core).Widens (Global.read .full) :=
  (Widens.refl _).bind fun _ => Operator.readConst_widens.bind fun _ => .refl _

theorem ElementMode.read_widens (flags : Nat) :
    (ElementMode.read .core flags).Widens (ElementMode.read .full flags) := by
  unfold ElementMode.read
  split <;> try exact .refl _
  · exact Operator.readConst_widens.bind fun _ => .refl _
  · exact (Widens.refl _).bind fun _ => Operator.readConst_widens.bind fun _ => .refl _

theorem Element.read_widens : (Element.read .core).Widens (Element.read .full) := by
  refine (Widens.refl _).bind fun flags => (Widens.refl _).bind fun _ =>
    (ElementMode.read_widens flags).bind fun mode => ?_
  dsimp only
  repeat' split
  · exact (Widens.refl _).bind fun _ => Operator.readConst_widens.readVec.bind fun _ => .refl _
  · exact (Widens.refl _).bind fun _ => Operator.readConst_widens.readVec.bind fun _ => .refl _
  · exact .refl _
  · exact .refl _

theorem Data.read_widens : (Data.read .core).Widens (Data.read .full) := by
  refine (Widens.refl _).bind fun b => ?_
  split <;> try exact .refl _
  · exact Operator.readConst_widens.bind fun _ => .refl _
  · exact (Widens.refl _).bind fun _ => Operator.readConst_widens.bind fun _ => .refl _

theorem Body.ofBytes_widens {bs : Bytes} {body : Body} (h : Body.ofBytes? .core bs = some body) :
    Body.ofBytes? .full bs = some body := by
  unfold Body.ofBytes? at h ⊢
  split at h
  · cases h
  · split at h
    · rename_i hlocals
      rw [if_pos hlocals]
      rw [Option.map_eq_some_iff] at h ⊢
      obtain ⟨code, hcode, rfl⟩ := h
      exact ⟨code, Operator.readAll_widens hcode, rfl⟩
    · cases h

theorem mapM_widens {α β : Type} {f g : α → Option β} (h : ∀ a b, f a = some b → g a = some b)
    {xs : List α} {ys : List β} (hf : xs.mapM f = some ys) : xs.mapM g = some ys := by
  induction xs generalizing ys with
  | nil => exact hf
  | cons x xs ih =>
    simp only [List.mapM_cons, Option.pure_def, Option.bind_eq_bind, Option.bind_eq_some_iff,
      Option.some.injEq] at hf ⊢
    obtain ⟨y, hy, zs, hzs, rfl⟩ := hf
    exact ⟨y, h _ _ hy, zs, ih hzs, rfl⟩

namespace Section

theorem items_widen {α : Type} {item item' : Reader α} (h : item.Widens item')
    {f : List α → Section} {contents : Bytes} {s : Section}
    (hs : (Reader.whole (readVec item) contents).map f = some s) :
    (Reader.whole (readVec item') contents).map f = some s := by
  rw [Option.map_eq_some_iff] at hs ⊢
  obtain ⟨items, hitems, rfl⟩ := hs
  exact ⟨items, h.readVec.whole hitems, rfl⟩

theorem ofContents_widens {kind : SectionKind} {contents : Bytes} {s : Section}
    (h : ofContents? .core kind contents = some s) : ofContents? .full kind contents = some s := by
  cases kind
  case imports => exact items_widen Import.read_widens h
  case tables => exact items_widen Table.read_widens h
  case memories => exact items_widen MemoryType.read_widens h
  case globals => exact items_widen Global.read_widens h
  case elements => exact items_widen Element.read_widens h
  case data => exact items_widen Data.read_widens h
  case code =>
    simp only [ofContents?, bodies?, Option.map_eq_some_iff, Option.bind_eq_bind,
      Option.bind_eq_some_iff] at h ⊢
    obtain ⟨bodies, ⟨raws, hraws, hb⟩, rfl⟩ := h
    exact ⟨bodies, ⟨raws, hraws, mapM_widens (fun _ _ => Body.ofBytes_widens) hb⟩, rfl⟩
  all_goals exact h

theorem ofRaw_widens {raw : RawSection} {s : Section} (h : ofRaw? .core raw = some s) :
    ofRaw? .full raw = some s := by
  cases raw with
  | known kind contents => exact ofContents_widens h
  | _ => exact h

end Section

/-- What the core dialect reads, the full one reads the same. -/
theorem decode_full_of_core {binary : Bytes} {m : Module}
    (h : Module.decode? .core binary = some m) : Module.decode? .full binary = some m := by
  unfold Module.decode? at h ⊢
  split at h
  · rw [Option.map_eq_some_iff] at h ⊢
    obtain ⟨sections, hsections, rfl⟩ := h
    exact ⟨sections, mapM_widens (fun _ _ => Section.ofRaw_widens) hsections, rfl⟩
  · cases h

end Wasm

/-- Nothing that can be read is too much for the full dialect. -/
theorem decode_full {dialect : Dialect} {binary : Bytes} {m : Module}
    (h : Module.decode? dialect binary = some m) : Module.decode? .full binary = some m := by
  cases dialect
  · exact h
  · exact decode_full_of_core h

end MeteredWasm
