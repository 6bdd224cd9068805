import MeteredWasm.Proofs.Codec.Operators
import MeteredWasm.Wasm.Module.Basic

/-!
# Modules are read back

A module whose items can be read back one by one is read back as it was written, if it is read at
all (`eq_of_decode_encode`). What stands in the way of an item are only its operators, and for a
segment of elements the form that names no table, which goes with references to functions only. No
section that is `Within` a dialect is refused by it.
-/

set_option autoImplicit false

namespace MeteredWasm.Wasm

open Leb128 Reader

variable {sure : Prop}

/-! ## Items without code -/

theorem readUnsigned_byte (width : Nat) {b : UInt8} (h : b.toNat < 128)
    (hlt : b.toNat < 2 ^ width) :
    (readUnsigned width).Gives sure [b] b.toNat := by
  have hread : (readUnsigned width).Gives sure _ _ := readUnsigned_gives width b.toNat fun _ => hlt
  rwa [writeUnsigned, if_pos h, Nat.toUInt8_eq, UInt8.ofNat_toNat] at hread

theorem readRelated_gives_none {marker b : UInt8} {bs : Bytes} {β : Type}
    {k : Option UInt32 → Reader β} {c : β} (hne : b ≠ marker)
    (hk : (k none).Gives sure (b :: bs) c) :
    (readRelated marker >>= k).Gives sure (b :: bs) c := by
  have hrelated : (readRelated marker >>= k) = Reader.peek >>= fun first =>
      (if first == marker then (do
        let _ ← Reader.byte
        let index ← readU32
        Reader.require (index.toNat < maxReferencedTypes)
        return some index) else pure none) >>= k := by
    unfold readRelated
    rw [bind_assoc]
  rw [hrelated]
  refine .peek ?_
  rw [beq_false_of_ne hne]
  exact hk

/-- A related type in front of what does not start with its marker. -/
theorem readRelated_gives {marker b : UInt8} {bs : Bytes} {β : Type} {k : Option UInt32 → Reader β}
    {c : β} (index : Option UInt32) (hs : sure → ∀ i ∈ index, i.toNat < maxReferencedTypes)
    (hne : b ≠ marker) (hk : (k index).Gives sure (b :: bs) c) :
    (readRelated marker >>= k).Gives sure (writeRelated marker index ++ b :: bs) c := by
  cases index with
  | none => exact readRelated_gives_none hne hk
  | some i =>
    have hsome : (readRelated marker).Gives sure (marker :: writeU32 i) (some i) := by
      unfold readRelated
      refine .peek ?_
      rw [if_pos (beq_self_eq_true marker)]
      exact .byte ((readU32_gives i).bind_pure
        (.require (fun h => decide_eq_true (hs h i rfl)) fun _ => .pure _))
    exact hsome.bind hk

/-- What is in an entry is within bounds. -/
structure TypeEntry.Bounded (entry : TypeEntry) : Prop where
  type : entry.type.Bounded
  describes : ∀ i ∈ entry.describes, i.toNat < maxReferencedTypes
  descriptor : ∀ i ∈ entry.descriptor, i.toNat < maxReferencedTypes

/-- An entry behind what says how it is grouped and shared. -/
def TypeEntry.writeForm (entry : TypeEntry) : Bytes :=
  writeRelated 0x4C entry.describes ++
    (writeRelated 0x4D entry.descriptor ++ 0x60 :: entry.type.write)

theorem TypeEntry.write_eq (entry : TypeEntry) :
    entry.write = (if entry.grouped then [0x4E, 1] else []) ++
      ((if entry.shared then [0x65] else []) ++ entry.writeForm) := by
  simp only [write, writeForm, List.append_assoc]

theorem TypeEntry.head_writeForm (entry : TypeEntry) :
    ∃ b bs, entry.writeForm = b :: bs ∧ (b = 0x4C ∨ b = 0x4D ∨ b = 0x60) := by
  obtain ⟨grouped, shared, describes, descriptor, type⟩ := entry
  cases describes with
  | some i => exact ⟨0x4C, _, rfl, .inl rfl⟩
  | none =>
    cases descriptor with
    | some i => exact ⟨0x4D, _, rfl, .inr (.inl rfl)⟩
    | none => exact ⟨0x60, _, rfl, .inr (.inr rfl)⟩

/-- The function type of an entry with what is said of it. -/
def TypeEntry.readType (grouped shared : Bool) (describes descriptor : Option UInt32) :
    Reader TypeEntry := do
  let form ← Reader.byte
  Reader.require (form == 0x60)
  return ⟨grouped, shared, describes, descriptor, ← FuncType.read⟩

/-- What the reader of an entry makes of the bytes behind what says how it is grouped and shared. -/
def TypeEntry.readForm (grouped shared : Bool) : Reader TypeEntry := do
  let describes ← readRelated 0x4C
  let descriptor ← readRelated 0x4D
  TypeEntry.readType grouped shared describes descriptor

theorem TypeEntry.readForm_gives (entry : TypeEntry) (hs : sure → entry.Bounded) :
    (TypeEntry.readForm entry.grouped entry.shared).Gives sure entry.writeForm entry := by
  obtain ⟨grouped, shared, describes, descriptor, type⟩ := entry
  have htype : (TypeEntry.readType grouped shared describes descriptor).Gives sure
      (0x60 :: type.write) ⟨grouped, shared, describes, descriptor, type⟩ :=
    .byte (.require (fun _ => rfl) fun _ =>
      (FuncType.read_gives type fun h => (hs h).type).bind_pure (.pure _))
  have hdescriptor := readRelated_gives descriptor (fun h => (hs h).descriptor)
    (show (0x60 : UInt8) ≠ 0x4D by decide) htype
  -- what follows the described type starts with the marker of the descriptor, or with the form
  cases descriptor <;>
    exact readRelated_gives describes (fun h => (hs h).describes) (by decide) hdescriptor

theorem TypeEntry.readMember_gives (entry : TypeEntry) (hs : sure → entry.Bounded) :
    (TypeEntry.readMember entry.grouped).Gives sure
      ((if entry.shared then [0x65] else []) ++ entry.writeForm) entry := by
  have hform := entry.readForm_gives hs
  obtain ⟨b, bs, hb, hfirst⟩ := entry.head_writeForm
  obtain ⟨grouped, shared, describes, descriptor, type⟩ := entry
  cases shared with
  | true => exact .peek (.peek (.byte hform))
  | false =>
    simp only [hb] at hform ⊢
    rcases hfirst with rfl | rfl | rfl <;> exact .peek (.peek hform)

theorem TypeEntry.read_gives (entry : TypeEntry) (hs : sure → entry.Bounded) :
    TypeEntry.read.Gives sure entry.write entry := by
  have hmember := entry.readMember_gives hs
  rw [write_eq]
  obtain ⟨b, bs, hb, hfirst⟩ := entry.head_writeForm
  obtain ⟨grouped, shared, describes, descriptor, type⟩ := entry
  cases grouped with
  | true =>
    exact .peek (.byte ((readUnsigned_byte 32 (b := 1) (by decide) (by decide)).bind
      (.require (fun _ => rfl) fun _ => hmember)))
  | false =>
    cases shared with
    | true => exact .peek hmember
    | false =>
      simp only [hb] at hmember ⊢
      rcases hfirst with rfl | rfl | rfl <;> exact .peek hmember

def ImportType.Within (dialect : Dialect) : ImportType → Prop
  | .table type => type.Within dialect
  | .memory type => type.Within dialect
  | .global type => type.content.Bounded
  | .func _ | .funcPrecisely _ | .tag _ => True

theorem ImportType.read_gives (dialect : Dialect) (type : ImportType)
    (hs : sure → type.Within dialect) : (ImportType.read dialect).Gives sure type.write type := by
  cases type with
  | func type => exact .byte ((readU32_gives type).bind_pure (.pure _))
  | funcPrecisely type => exact .byte ((readU32_gives type).bind_pure (.pure _))
  | table type => exact .byte ((TableType.read_gives dialect type hs).bind_pure (.pure _))
  | memory type => exact .byte ((MemoryType.read_gives dialect type hs).bind_pure (.pure _))
  | global type => exact .byte ((GlobalType.read_gives type hs).bind_pure (.pure _))
  | tag type => exact .byte ((readTagType_gives type).bind_pure (.pure _))

structure Import.Within (dialect : Dialect) (i : Import) : Prop where
  module : NameFits i.module
  name : NameFits i.name
  type : i.type.Within dialect

theorem Import.read_gives (dialect : Dialect) (i : Import) (hs : sure → i.Within dialect) :
    (Import.read dialect).Gives sure i.write i := by
  rw [Import.write, List.append_assoc]
  exact (readName_gives i.module fun h => (hs h).module).bind
    ((readName_gives i.name fun h => (hs h).name).bind
      ((ImportType.read_gives dialect i.type fun h => (hs h).type).bind_pure (.pure _)))

theorem ExternKind.ofCode_code (kind : ExternKind) : ofCode? kind.code = some kind := by
  cases kind <;> rfl

theorem Export.read_gives (e : Export) (hs : sure → NameFits e.name) :
    Export.read.Gives sure e.write e := by
  have hindex : (do return ⟨e.name, e.kind, ← readU32⟩ : Reader Export).Gives sure
      (writeU32 e.index) e :=
    (readU32_gives e.index).bind_pure (.pure _)
  refine (readName_gives e.name hs).bind (.byte ?_)
  rw [ExternKind.ofCode_code]
  exact hindex

/-! ## Items with code -/

theorem Table.write_ne_nil (t : Table) : t.write ≠ [] := by
  unfold Table.write
  cases t.init with
  | none => simp [TableType.write]
  | some init => exact List.cons_ne_nil _ _

structure Global.Within (dialect : Dialect) (g : Global) : Prop where
  type : g.type.content.Bounded
  init : Operator.ConstWithin dialect [.plain] g.init

theorem Global.read_gives (dialect : Dialect) {g : Global} (h : Operator.ConstWritable g.init)
    (hs : sure → g.Within dialect) : (Global.read dialect).Gives sure g.write g :=
  (GlobalType.read_gives g.type fun h => (hs h).type).bind
    ((Operator.readConst_gives dialect h fun h => (hs h).init).bind_pure (.pure _))

/-- Tables that can be read back. -/
def Table.Writable (t : Table) : Prop := ∀ init ∈ t.init, Operator.ConstWritable init

structure Table.Within (dialect : Dialect) (t : Table) : Prop where
  type : t.type.Within dialect
  init : ∀ init ∈ t.init, Operator.ConstWithin dialect [.plain] init

theorem Table.read_gives (dialect : Dialect) {t : Table} (h : t.Writable)
    (hs : sure → t.Within dialect) : (Table.read dialect).Gives sure t.write t := by
  obtain ⟨type, init⟩ := t
  have htype : (TableType.read dialect).Gives sure type.write type :=
    TableType.read_gives dialect type fun h => (hs h).type
  cases init with
  | none =>
    obtain ⟨b, bs, hb, hlow, -⟩ := type.element.head_write
    have hread : (do return ⟨← TableType.read dialect, none⟩ : Reader Table).Gives sure type.write
        ⟨type, none⟩ := htype.bind_pure (.pure _)
    simp only [Table.write, TableType.write, hb, List.cons_append] at hread ⊢
    refine .peek ?_
    rw [if_neg]
    · exact hread
    · intro h
      rw [eq_of_beq h] at hlow
      exact absurd hlow (by decide)
  | some init =>
    exact .peek (.byte (.byte (.require (fun _ => rfl) fun _ => htype.bind
      ((Operator.readConst_gives dialect (h init rfl) fun h => (hs h).init init rfl).bind_pure
        (.pure _)))))

def ElementItems.ConstWritable : ElementItems → Prop
  | .functions _ => True
  | .expressions _ items => ∀ item ∈ items, Operator.ConstWritable item

/-- Segments of elements that can be read back. One that does not name its table holds what goes
without a type. -/
structure Element.Writable (e : Element) : Prop where
  items : e.items.ConstWritable
  offset : ∀ table offset, e.mode = .active table offset → Operator.ConstWritable offset
  plain : ∀ offset, e.mode = .active none offset → e.items.plain = true

/-- What is in the items of a segment is within the bounds of a dialect. -/
def ElementItems.Within (dialect : Dialect) : ElementItems → Prop
  | .functions indices => indices.length < 2 ^ 32
  | .expressions type items => type.heap.isReferable = true ∧ items.length < 2 ^ 32 ∧
    ∀ item ∈ items, Operator.ConstWithin dialect [.plain] item

structure Element.Within (dialect : Dialect) (e : Element) : Prop where
  items : e.items.Within dialect
  offset : ∀ table offset, e.mode = .active table offset →
    Operator.ConstWithin dialect [.plain] offset
  plain : ∀ offset, e.mode = .active none offset → e.items.plain = true

theorem Element.Within.writable {dialect : Dialect} {e : Element} (h : e.Within dialect) :
    e.Writable := by
  refine ⟨?_, fun table offset hmode => (h.offset table offset hmode).writable, h.plain⟩
  have hitems := h.items
  cases hi : e.items with
  | functions indices => trivial
  | expressions type items =>
    rw [hi] at hitems
    exact fun item hmem => (hitems.2.2 item hmem).writable

theorem Element.functions_gives (mode : ElementMode) (indices : List UInt32)
    (hs : sure → indices.length < 2 ^ 32) :
    (do return ⟨mode, .functions (← readVec readU32)⟩ : Reader Element).Gives sure
      (writeVec writeU32 indices) ⟨mode, .functions indices⟩ :=
  (readVec_gives hs fun index _ => readU32_gives index).bind_pure (.pure _)

theorem Element.expressions_gives (dialect : Dialect) (mode : ElementMode) (type : RefType)
    {items : List ConstExpr} (h : ∀ item ∈ items, Operator.ConstWritable item)
    (hs : sure → items.length < 2 ^ 32 ∧
      ∀ item ∈ items, Operator.ConstWithin dialect [.plain] item) :
    (do return ⟨mode, .expressions type (← readVec (Operator.readConst dialect))⟩ :
      Reader Element).Gives sure (writeVec Operator.writeConst items)
        ⟨mode, .expressions type items⟩ :=
  (readVec_gives (fun h => (hs h).1) fun item hi => Operator.readConst_gives dialect (h item hi)
    fun h => (hs h).2 item hi).bind_pure (.pure _)

/-- A segment is read part by part: its flags, its mode and its items. -/
theorem Element.parts_gives (dialect : Dialect) (flags : UInt8) (front : Bytes)
    {mode : ElementMode} {items : ElementItems} {back : Bytes} (hflags : flags.toNat < 8)
    (hmode : (ElementMode.read dialect flags.toNat).Gives sure front mode)
    (hitems : (do
      if 4 ≤ flags.toNat then
        let type ← if flags.toNat = 4 then pure RefType.funcref else RefType.read
        return ⟨mode, .expressions type (← readVec (Operator.readConst dialect))⟩
      else
        if flags.toNat ≠ 0 then
          let kind ← Reader.byte
          Reader.require (kind == 0)
        return ⟨mode, .functions (← readVec readU32)⟩ :
      Reader Element).Gives sure back ⟨mode, items⟩) :
    (Element.read dialect).Gives sure (flags :: (front ++ back)) ⟨mode, items⟩ :=
  (readUnsigned_byte 32 (by omega) (by omega)).bind
    (.require (fun _ => decide_eq_true hflags) fun _ => hmode.bind hitems)

theorem ElementMode.active_gives (dialect : Dialect) (table : UInt32) {offset : ConstExpr}
    (h : Operator.ConstWritable offset) (hs : sure → Operator.ConstWithin dialect [.plain] offset) :
    (ElementMode.read dialect 2).Gives sure (writeU32 table ++ Operator.writeConst offset)
      (.active (some table) offset) := by
  have hoffset : (do return .active (some table) (← Operator.readConst dialect) :
      Reader ElementMode).Gives sure (Operator.writeConst offset) (.active (some table) offset) :=
    (Operator.readConst_gives dialect h hs).bind_pure (.pure _)
  exact (readU32_gives table).bind hoffset

theorem Element.read_gives (dialect : Dialect) {e : Element} (h : e.Writable)
    (hs : sure → e.Within dialect) : (Element.read dialect).Gives sure e.write e := by
  obtain ⟨mode, items⟩ := e
  cases items with
  | functions indices =>
    have hindices := Element.functions_gives mode indices fun h => (hs h).items
    cases mode with
    | active table offset =>
      have hoffset := h.offset table offset rfl
      have hbounded (h : sure) := (hs h).offset table offset rfl
      cases table with
      | none =>
        exact Element.parts_gives dialect 0 _ (by decide)
          ((Operator.readConst_gives dialect hoffset hbounded).bind_pure (.pure _)) hindices
      | some table =>
        exact Element.parts_gives dialect 2 _ (by decide)
          (ElementMode.active_gives dialect table hoffset hbounded)
          (.byte (.require (fun _ => rfl) fun _ => hindices))
    | passive =>
      exact Element.parts_gives dialect 1 [] (by decide) (.pure _)
        (.byte (.require (fun _ => rfl) fun _ => hindices))
    | declared =>
      exact Element.parts_gives dialect 3 [] (by decide) (.pure _)
        (.byte (.require (fun _ => rfl) fun _ => hindices))
  | expressions type items =>
    have hitems := Element.expressions_gives dialect mode type h.items fun h => (hs h).items.2
    have htype : RefType.read.Gives sure type.write type :=
      RefType.read_gives type fun h => (hs h).items.1
    cases mode with
    | active table offset =>
      have hoffset := h.offset table offset rfl
      have hbounded (h : sure) := (hs h).offset table offset rfl
      cases table with
      | none =>
        have hplain := h.plain offset rfl
        simp only [ElementItems.plain, decide_eq_true_eq] at hplain
        subst hplain
        exact Element.parts_gives dialect 4 _ (by decide)
          ((Operator.readConst_gives dialect hoffset hbounded).bind_pure (.pure _)) hitems
      | some table =>
        exact Element.parts_gives dialect 6 _ (by decide)
          (ElementMode.active_gives dialect table hoffset hbounded) (htype.bind hitems)
    | passive =>
      exact Element.parts_gives dialect 5 [] (by decide) (.pure _)
        (htype.bind hitems)
    | declared =>
      exact Element.parts_gives dialect 7 [] (by decide) (.pure _)
        (htype.bind hitems)

theorem Element.write_ne_nil (e : Element) : e.write ≠ [] := by
  unfold Element.write
  repeat' split
  all_goals exact List.cons_ne_nil _ _

/-- Segments of data that can be read back. -/
def Data.Writable (d : Data) : Prop :=
  ∀ memory offset, d.mode = .active memory offset → Operator.ConstWritable offset

structure Data.Within (dialect : Dialect) (d : Data) : Prop where
  offset : ∀ memory offset, d.mode = .active memory offset →
    Operator.ConstWithin dialect [.plain] offset
  bytes : d.bytes.length < 2 ^ 32

theorem Data.Within.writable {dialect : Dialect} {d : Data} (h : d.Within dialect) : d.Writable :=
  fun memory offset hmode => (h.offset memory offset hmode).writable

theorem Data.active_gives (dialect : Dialect) (memory : UInt32) {offset : ConstExpr}
    (h : Operator.ConstWritable offset) (hs : sure → Operator.ConstWithin dialect [.plain] offset)
    (bytes : Bytes) (hbytes : sure → bytes.length < 2 ^ 32) :
    (do
      let offset ← Operator.readConst dialect
      return ⟨.active memory offset, ← readBlob⟩ : Reader Data).Gives sure
      (Operator.writeConst offset ++ writeBlob bytes) ⟨.active memory offset, bytes⟩ :=
  (Operator.readConst_gives dialect h hs).bind ((readBlob_gives bytes hbytes).bind_pure (.pure _))

theorem Data.read_gives (dialect : Dialect) {d : Data} (h : d.Writable)
    (hs : sure → d.Within dialect) : (Data.read dialect).Gives sure d.write d := by
  obtain ⟨mode, bytes⟩ := d
  have hbytes (h : sure) := (hs h).bytes
  cases mode with
  | active memory offset =>
    have hactive := Data.active_gives dialect memory (h memory offset rfl)
      (fun h => (hs h).offset memory offset rfl) bytes hbytes
    by_cases hzero : memory = 0
    · subst hzero
      exact (readUnsigned_byte 32 (b := 0) (by decide) (by decide)).bind hactive
    · simp only [Data.write, if_neg hzero, List.append_assoc, List.cons_append]
      exact (readUnsigned_byte 32 (b := 2) (by decide) (by decide)).bind
        ((readU32_gives memory).bind hactive)
  | passive =>
    exact (readUnsigned_byte 32 (b := 1) (by decide) (by decide)).bind
      ((readBlob_gives bytes hbytes).bind_pure (.pure _))

theorem Data.write_ne_nil (d : Data) : d.write ≠ [] := by
  unfold Data.write
  repeat' split
  all_goals simp

/-! ## Bodies -/

def Body.Writable (b : Body) : Prop := ∀ op ∈ b.code, op.Writable

/-- What is in a body is within the bounds of a dialect, and its operators close what they open. -/
structure Body.Within (dialect : Dialect) (b : Body) : Prop where
  groups : b.locals.length < 2 ^ 32
  locals : ∀ group ∈ b.locals, group.2.Bounded
  count : localCount b.locals < UInt32.size
  code : ∀ op ∈ b.code, op.Within dialect
  nested : (Operator.nestAll? [.plain] b.code).isSome

theorem Body.Within.writable {dialect : Dialect} {b : Body} (h : b.Within dialect) :
    b.Writable := fun op hop => (h.code op hop).writable

theorem readLocals_gives (locals : List (UInt32 × ValType))
    (hs : sure → locals.length < 2 ^ 32 ∧ ∀ group ∈ locals, group.2.Bounded) :
    readLocals.Gives sure (writeLocals locals) locals :=
  readVec_gives (fun h => (hs h).1) fun group hmem => (readU32_gives group.1).bind
    ((ValType.read_gives group.2 fun h => (hs h).2 group hmem).bind_pure (.pure _))

theorem Operator.readAll_answers {dialect : Dialect} {ops : List Operator}
    (h : ∀ op ∈ ops, op.Writable)
    (hs : sure → (∀ op ∈ ops, op.Within dialect) ∧ (nestAll? [.plain] ops).isSome) :
    Answers sure (readAll? dialect (writeAll ops)) ops := by
  cases hread : readAll? dialect (writeAll ops) with
  | some ops' =>
    cases eq_of_readAll h hread
    exact .inl rfl
  | none =>
    refine .inr ⟨fun hsure => ?_, rfl⟩
    obtain ⟨hbounded, hnested⟩ := hs hsure
    rw [readAll_writeAll hbounded hnested] at hread
    cases hread

theorem Body.ofBytes_answers {dialect : Dialect} {b : Body} (h : b.Writable)
    (hs : sure → b.Within dialect) : Answers sure (Body.ofBytes? dialect b.write) b := by
  have hlocals : readLocals.Gives sure (writeLocals b.locals) b.locals :=
    readLocals_gives b.locals fun h => ⟨(hs h).groups, (hs h).locals⟩
  have hcode : Answers sure (Operator.readAll? dialect (Operator.writeAll b.code)) b.code :=
    Operator.readAll_answers h fun h => ⟨(hs h).code, (hs h).nested⟩
  unfold Body.ofBytes? Body.write
  rcases hlocals (Operator.writeAll b.code) with hread | ⟨hsure, hread⟩ <;> rw [hread]
  · exact .ite (fun h => (hs h).count) (hcode.map _)
  · exact .inr ⟨hsure, rfl⟩

/-- The form of a code section: every body behind its length. -/
def writeBodies (bodies : List Body) : Bytes := writeVec (fun body => writeBlob body.write) bodies

theorem readBodies_gives (bodies : List Body) (hs : sure → (writeBodies bodies).length < 2 ^ 32) :
    readBodies.Gives sure (writeBodies bodies) (bodies.map Body.write) := by
  have hread : readBodies.Gives sure (writeVec writeBlob (bodies.map Body.write))
      (bodies.map Body.write) := by
    refine readVec_gives (fun h => ?_) fun bs hbs => ?_
    · rw [List.length_map]
      exact length_lt_of_writeVec (fun b _ => writeBlob_ne_nil b.write) (hs h)
    · obtain ⟨b, hb, rfl⟩ := List.mem_map.1 hbs
      refine readBlob_gives b.write fun h => Nat.lt_of_le_of_lt ?_ (hs h)
      have hle := length_le_writeVec (fun b : Body => writeBlob b.write) hb
      simp only [writeBlob, List.length_append] at hle
      exact Nat.le_trans (Nat.le_add_left ..) hle
  rwa [writeVec, List.length_map, List.flatMap_map] at hread

theorem bodies_answers {dialect : Dialect} {bodies : List Body} (h : ∀ b ∈ bodies, b.Writable)
    (hs : sure → (∀ b ∈ bodies, b.Within dialect) ∧ (writeBodies bodies).length < 2 ^ 32) :
    Answers sure (Section.bodies? dialect (writeBodies bodies)) bodies :=
  (readBodies_gives bodies fun h => (hs h).2).whole.bind
    (.mapM fun b hb => Body.ofBytes_answers (h b hb) fun h => (hs h).1 b hb)

/-! ## Sections -/

/-- Sections that can be read back. -/
def Section.Writable : Section → Prop
  | .tables items => ∀ t ∈ items, t.Writable
  | .globals items => ∀ g ∈ items, Operator.ConstWritable g.init
  | .elements items => ∀ e ∈ items, e.Writable
  | .code bodies => ∀ b ∈ bodies, b.Writable
  | .data items => ∀ d ∈ items, d.Writable
  | _ => True

/-- What is in a section is within the bounds of a dialect. How many items there are is a matter of
its length. -/
def Section.Within (dialect : Dialect) : Section → Prop
  | .custom name _ => NameFits name
  | .types items => ∀ entry ∈ items, entry.Bounded
  | .imports items => ∀ i ∈ items, i.Within dialect
  | .tables items => ∀ t ∈ items, t.Within dialect
  | .memories items => ∀ type ∈ items, type.Within dialect
  | .globals items => ∀ g ∈ items, g.Within dialect
  | .exports items => ∀ e ∈ items, NameFits e.name
  | .elements items => ∀ e ∈ items, e.Within dialect
  | .code bodies => ∀ b ∈ bodies, b.Within dialect
  | .data items => ∀ d ∈ items, d.Within dialect
  | .functions _ | .tags _ | .start _ | .dataCount _ => True

/-- What is within the bounds of a dialect can be read back. -/
theorem Section.Within.writable {dialect : Dialect} {s : Section} (h : s.Within dialect) :
    s.Writable := by
  cases s
  case tables items => exact fun t ht init hi => ((h t ht).init init hi).writable
  case globals items => exact fun g hg => (h g hg).init.writable
  case elements items => exact fun e he => (h e he).writable
  case code bodies => exact fun b hb => (h b hb).writable
  case data items => exact fun d hd => (h d hd).writable
  all_goals trivial

theorem Section.ofContents_answers {dialect : Dialect} {s : Section} {kind : SectionKind}
    (h : s.Writable) (hs : sure → s.Within dialect ∧ s.contents.length < 2 ^ 32)
    (hkind : s.kind? = some kind) :
    Answers sure (Section.ofContents? dialect kind s.contents) s := by
  have hitems {α : Type} {item : Reader α} {write : α → Bytes} {xs : List α}
      (make : List α → Section) (hlength : sure → (writeVec write xs).length < 2 ^ 32)
      (hne : ∀ x, write x ≠ []) (hread : ∀ x ∈ xs, item.Gives sure (write x) x) :
      Answers sure ((Reader.whole (readVec item) (writeVec write xs)).map make) (make xs) :=
    (readVec_gives (fun h => length_lt_of_writeVec (fun x _ => hne x) (hlength h)) hread).whole.map
      make
  have hlength (h : sure) := (hs h).2
  have hwithin (h : sure) := (hs h).1
  cases s <;> cases hkind
  case types items =>
    exact hitems .types hlength (fun entry => by simp [TypeEntry.write])
      fun entry hmem => TypeEntry.read_gives entry fun h => hwithin h entry hmem
  case imports items =>
    exact hitems .imports hlength (fun i => by simp [Import.write, writeName_ne_nil])
      fun i hmem => Import.read_gives dialect i fun h => hwithin h i hmem
  case functions indices =>
    exact hitems .functions hlength writeU32_ne_nil fun index _ => readU32_gives index
  case tables items =>
    exact hitems .tables hlength Table.write_ne_nil
      fun t hmem => Table.read_gives dialect (h t hmem) fun h => hwithin h t hmem
  case memories items =>
    exact hitems .memories hlength (fun type => by simp [MemoryType.write])
      fun type hmem => MemoryType.read_gives dialect type fun h => hwithin h type hmem
  case tags indices =>
    exact hitems .tags hlength (fun index => by simp [writeTagType])
      fun index _ => readTagType_gives index
  case globals items =>
    exact hitems .globals hlength (fun g => by simp [Global.write, GlobalType.write])
      fun g hmem => Global.read_gives dialect (h g hmem) fun h => hwithin h g hmem
  case exports items =>
    exact hitems .exports hlength (fun e => by simp [Export.write])
      fun e hmem => Export.read_gives e fun h => hwithin h e hmem
  case start func => exact (readU32_gives func).whole.map Section.start
  case elements items =>
    exact hitems .elements hlength Element.write_ne_nil
      fun e hmem => Element.read_gives dialect (h e hmem) fun h => hwithin h e hmem
  case dataCount count => exact (readU32_gives count).whole.map Section.dataCount
  case code bodies => exact (bodies_answers h hs).map Section.code
  case data items =>
    exact hitems .data hlength Data.write_ne_nil
      fun d hmem => Data.read_gives dialect (h d hmem) fun h => hwithin h d hmem

/-- A section with its contents written. -/
def Section.raw (s : Section) : RawSection :=
  match s with
  | .custom name contents => .custom name contents
  | s => s.kind?.elim (.unknown s.id) (.known · s.contents)

theorem Section.raw_of_kind {s : Section} {kind : SectionKind} (h : s.kind? = some kind) :
    s.raw = .known kind s.contents := by
  cases s <;> cases h <;> rfl

theorem Section.ofRaw_answers {dialect : Dialect} {s : Section} (h : s.Writable)
    (hs : sure → s.Within dialect ∧ s.contents.length < 2 ^ 32) :
    Answers sure (Section.ofRaw? dialect s.raw) s := by
  cases hkind : s.kind? with
  | none =>
    cases s <;> cases hkind
    exact .inl rfl
  | some kind =>
    rw [raw_of_kind hkind]
    exact ofContents_answers h hs hkind

theorem readFrame_gives (id : UInt8) (contents : Bytes) (hid : id < 0x80)
    (hs : sure → contents.length < 2 ^ 32) :
    readFrame.Gives sure (id :: writeBlob contents) (id, contents) :=
  .byte (.require (fun _ => decide_eq_true hid) fun _ =>
    (readBlob_gives contents hs).bind_pure (.pure _))

theorem SectionKind.id_ne_zero (kind : SectionKind) : kind.id ≠ 0 := by
  cases kind <;> decide

theorem Section.id_lt (s : Section) : s.id < 0x80 := by
  unfold Section.id
  cases s.kind? with
  | none => decide
  | some kind => cases kind <;> decide

/-- The name of a custom section is not too long. -/
def RawSection.Bounded : RawSection → Prop
  | .custom name _ => NameFits name
  | _ => True

theorem Section.Within.raw {dialect : Dialect} {s : Section} (h : s.Within dialect) :
    s.raw.Bounded := by
  cases s
  case custom => exact h
  all_goals trivial

theorem RawSection.ofFrame_answers {s : Section} (hs : sure → s.raw.Bounded) :
    Answers sure (RawSection.ofFrame? .module s.id s.contents) s.raw := by
  unfold RawSection.ofFrame?
  cases hkind : s.kind? with
  | none =>
    cases s <;> cases hkind
    rename_i name contents
    rw [if_pos (show (Section.custom name contents).id = 0 from rfl)]
    rcases readName_gives name hs contents with h | ⟨hsure, h⟩ <;>
      rw [show (Section.custom name contents).contents = writeName name ++ contents from rfl, h]
    · exact .inl rfl
    · exact .inr ⟨hsure, rfl⟩
  | some kind =>
    simp only [Section.id, hkind, Option.elim_some, kind.id_ne_zero, if_false,
      SectionKind.ofId?_id]
    exact .inl (congrArg some (Section.raw_of_kind hkind).symm)

/-- A section in front of others is read as what it is. -/
theorem RawSection.read_gives {s : Section}
    (hs : sure → s.raw.Bounded ∧ s.contents.length < 2 ^ 32) :
    (RawSection.read .module).Gives sure s.write s.raw := by
  refine .peek ?_
  rw [if_neg (by simp)]
  refine (readFrame_gives s.id s.contents s.id_lt fun h => (hs h).2).bind_pure ?_
  exact .ofOption (RawSection.ofFrame_answers fun h => (hs h).1)

/-! ## Modules -/

def Module.Writable (m : Module) : Prop := ∀ s ∈ m.sections, s.Writable

/-- The outline of written sections is the row of them. -/
theorem raws_of_outline {n : Nat} {p : Progress} {sections : List Section} {raws : List RawSection}
    (h : outlineFrom .module n p (sections.flatMap Section.write) = (raws, true)) :
    raws = sections.map Section.raw := by
  induction sections generalizing n p raws with
  | nil =>
    cases n <;> simp only [List.flatMap_nil, outlineFrom, Prod.mk.injEq] at h <;> exact h.1.symm
  | cons s sections ih =>
    have hcons : (s :: sections).flatMap Section.write =
        s.id :: (writeBlob s.contents ++ sections.flatMap Section.write) := by
      rw [List.flatMap_cons, Section.write, List.cons_append]
    rw [hcons] at h
    cases n with
    | zero => simp [outlineFrom] at h
    | succ n =>
      simp only [outlineFrom] at h
      split at h
      · simp at h
      · rename_i raw left hraw
        split at h
        · simp at h
        · rename_i p' _
          simp only [Prod.mk.injEq] at h
          obtain ⟨rfl, hcomplete⟩ := h
          have hgives : (RawSection.read .module).Gives False s.write s.raw :=
            RawSection.read_gives False.elim
          obtain ⟨rfl, rfl⟩ := hgives.reads _ _ _ hraw
          rw [List.map_cons, ← ih (Prod.ext rfl hcomplete)]

theorem outline_encode {m : Module} {outline : Outline} (h : Outline.of? m.encode = some outline)
    (hcomplete : outline.complete = true) :
    outline = ⟨.module, m.sections.map Section.raw, true⟩ := by
  have hheader : Header.read m.encode = some (.module, m.sections.flatMap Section.write) := rfl
  unfold Outline.of? at h
  rw [hheader] at h
  dsimp only at h
  generalize houtline : outlineFrom .module _ .start (m.sections.flatMap Section.write) = row at h
  obtain ⟨raws, complete⟩ := row
  cases h
  cases hcomplete
  rw [raws_of_outline houtline]

/-- What is read of a written module is that module. -/
theorem eq_of_decode_encode {dialect : Dialect} {m m' : Module} (h : m.Writable)
    (hm : Module.decode? dialect m.encode = some m') : m' = m := by
  unfold Module.decode? at hm
  split at hm
  · rename_i raws houtline
    cases outline_encode houtline rfl
    obtain ⟨sections, hsections, rfl⟩ := Option.map_eq_some_iff.1 hm
    have hanswers : Answers False ((m.sections.map Section.raw).mapM (Section.ofRaw? dialect))
        m.sections := .mapM fun s hs => Section.ofRaw_answers (h s hs) False.elim
    exact congrArg Module.mk (hanswers.unique hsections)
  · cases hm

end MeteredWasm.Wasm
