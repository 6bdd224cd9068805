import MeteredWasm.Machine.Compute
import MeteredWasm.Proofs.Agreement.Storage

/-!
# Operators on storages that agree

Operators that only compute end alike on storages that agree and operands that are renamed, if
they leave the hidden bytes alone (`perform_agrees`). What an operator touches in memory is told by
its operands alone (`accesses`).
-/

set_option autoImplicit false

namespace MeteredWasm.Machine

open Wasm

/-! ## Accesses -/

/-- A range of bytes in a memory. -/
structure Access where
  memory : Nat
  address : Nat
  length : Nat
  deriving DecidableEq

/-- An access at an address that may not be one. -/
def accessAt (memory : UInt32) (address : Except Trap Nat) (length : Except Trap Nat) :
    List Access :=
  match address, length with
  | .ok address, .ok length => [⟨memory.toNat, address, length⟩]
  | _, _ => []

/-- The bytes that an operator reads or writes, if they are all there. -/
def accesses (op : Operator) (operands : List Value) : List Access :=
  match op, operands with
  | .load op arg, base :: _ => accessAt arg.memory (address arg base) (.ok op.bytes)
  | .store op arg, _ :: base :: _ => accessAt arg.memory (address arg base) (.ok op.bytes)
  | .memoryInit _ memory, n :: _ :: target :: _ => accessAt memory target.index n.index
  | .memoryCopy targetMemory sourceMemory, n :: source :: target :: _ =>
    accessAt sourceMemory source.index n.index ++ accessAt targetMemory target.index n.index
  | .memoryFill memory, n :: _ :: target :: _ => accessAt memory target.index n.index
  | .vectorLoad op arg, base :: _ => accessAt arg.memory (address arg base) (.ok op.bytes)
  | .vectorStore arg, _ :: base :: _ => accessAt arg.memory (address arg base) (.ok 16)
  | .loadLane width arg _, _ :: base :: _ | .storeLane width arg _, _ :: base :: _ =>
    accessAt arg.memory (address arg base) (.ok width.bytes)
  | .atomicNotify arg, _ :: base :: _ => accessAt arg.memory (address arg base) (.ok 4)
  | .atomicWait width arg, _ :: _ :: base :: _ =>
    accessAt arg.memory (address arg base) (.ok width.lane.bytes)
  | .atomic .load width arg, base :: _ =>
    accessAt arg.memory (address arg base) (.ok width.bytes)
  | .atomic .compareExchange width arg, _ :: _ :: base :: _ =>
    accessAt arg.memory (address arg base) (.ok width.bytes)
  | .atomic _ width arg, _ :: base :: _ =>
    accessAt arg.memory (address arg base) (.ok width.bytes)
  | _, _ => []

/-- Whether all that an operator touches leaves hidden bytes alone. -/
def Storage.Heeds (hidden : Nat → Nat → Prop) (st : Storage) (op : Operator)
    (operands : List Value) : Prop :=
  ∀ x ∈ accesses op operands, st.Spares hidden x.memory x.address x.length

theorem heeds_nothing (st : Storage) (op : Operator) (operands : List Value) :
    st.Heeds nothing op operands := fun _ _ _ _ _ _ _ _ h => h

/-! ## Addresses -/

section
variable (g : UInt32 → UInt32)

@[simp] theorem address_mapFunc (arg : MemArg) (base : Value) :
    address arg (base.mapFunc g) = address arg base := by simp [address]

@[simp] theorem alignedAddress_mapFunc (arg : MemArg) (bytes : Nat) (base : Value) :
    alignedAddress arg bytes (base.mapFunc g) = alignedAddress arg bytes base := by
  simp [alignedAddress]

@[simp] theorem number_mapFunc (op : Store) (v : Value) :
    op.number (v.mapFunc g) = op.number v := by cases op <;> simp [Store.number]

end

@[simp] theorem mapFunc_loadValue (g : UInt32 → UInt32) (op : Load) (n : Nat) :
    (op.value n).mapFunc g = op.value n := by cases op <;> rfl

/-- The access that is made at an address spares what is to be spared. -/
theorem spares_accessAt {hidden : Nat → Nat → Prop} {st : Storage} {memory : UInt32}
    {address length : Except Trap Nat} {a n : Nat}
    (hs : ∀ x ∈ accessAt memory address length, st.Spares hidden x.memory x.address x.length)
    (ha : address = .ok a) (hn : length = .ok n) : st.Spares hidden memory.toNat a n := by
  subst ha hn
  exact hs ⟨memory.toNat, a, n⟩ (List.mem_singleton_self _)

theorem address_of_aligned {arg : MemArg} {bytes : Nat} {base : Value} {a : Nat}
    (h : alignedAddress arg bytes base = .ok a) : address arg base = .ok a := by
  unfold alignedAddress at h
  cases ha : address arg base with
  | error t => simp [ha, bind, Except.bind] at h
  | ok b =>
    simp only [ha, bind, Except.bind] at h
    split at h
    · exact h
    · cases h

/-! ## Memory -/

/-- What operators leave on the operand stack is renamed. -/
def Renamed (g : UInt32 → UInt32) (vs vs' : List Value) : Prop := vs' = vs.map (Value.mapFunc g)

section
variable {g : UInt32 → UInt32} {hidden : Nat → Nat → Prop} {st st' : Storage}
  (h : st.Agrees g hidden st')
include h

theorem alike_return {vs vs' : List Value} (hv : vs' = vs.map (Value.mapFunc g)) :
    Alike (Storage.Agrees g hidden) (Renamed g) ((pure vs : Action (List Value)) st)
      ((pure vs' : Action (List Value)) st') := .ok hv h

omit h in
/-- Writes and then leaves the operands that are left. -/
theorem Alike.leave {x y : Action Unit} (hx : Alike (Storage.Agrees g hidden) (fun _ _ => True)
      (x st) (y st')) (vs : List Value) :
    Alike (Storage.Agrees g hidden) (Renamed g) ((x >>= fun _ => pure vs) st)
      ((y >>= fun _ => pure (vs.map (Value.mapFunc g))) st') :=
  hx.bind fun _ _ _ _ _ hst => .ok rfl hst

theorem computeMemory_agrees {op : Operator} {vs : List Value} (hs : st.Heeds hidden op vs) :
    Alike (Storage.Agrees g hidden) (Renamed g) (computeMemory op vs st)
      (computeMemory op (vs.map (Value.mapFunc g)) st') := by
  cases op
  case load op arg =>
    rcases vs with _ | ⟨base, vs⟩
    · exact .trap h
    · simp only [computeMemory, List.map_cons, address_mapFunc]
      refine Alike.ofExcept h (address arg base) fun a ha => ?_
      refine (Finds.loadNumber h (spares_accessAt hs ha rfl)).andThen h ?_
      rintro _ n rfl
      exact alike_return h (by simp)
  case store op arg =>
    rcases vs with _ | ⟨v, _ | ⟨base, vs⟩⟩
    · exact .trap h
    · exact .trap h
    · simp only [computeMemory, List.map_cons, address_mapFunc, number_mapFunc]
      refine Alike.ofExcept h (op.number v) fun n _ => ?_
      refine Alike.ofExcept h (address arg base) fun a _ => ?_
      exact (Alike.storeNumber h _ _ _ _).leave vs
  case memorySize memory =>
    refine (Finds.memory h memory.toNat).andThen h ?_
    rintro m m' ⟨hm, -, -⟩
    exact alike_return h (by simp [hm.pages, hm.is64])
  case memoryGrow memory =>
    rcases vs with _ | ⟨delta, vs⟩
    · exact .trap h
    · simp only [computeMemory, List.map_cons, Value.index_mapFunc]
      refine Alike.ofExcept h delta.index fun n _ => ?_
      refine (Alike.growMemory h _ _).bind ?_
      rintro v _ _ _ rfl hst
      exact alike_return hst rfl
  case memoryInit segment memory =>
    rcases vs with _ | ⟨n, _ | ⟨source, _ | ⟨target, vs⟩⟩⟩
    iterate 3 exact .trap h
    simp only [computeMemory, List.map_cons, Value.index_mapFunc]
    refine Alike.ofExcept h target.index fun target _ => ?_
    refine Alike.ofExcept h source.index fun source _ => ?_
    refine Alike.ofExcept h n.index fun n _ => ?_
    refine (Finds.data h segment.toNat).andThen h ?_
    rintro _ bytes rfl
    have hslice : Finds _ st st' _ _ := Finds.slice .memoryOutOfBounds id bytes source n
    simp only [List.map_id] at hslice
    refine hslice.andThen h ?_
    rintro _ part rfl
    exact (Alike.writeMemory h _ _ _).leave vs
  case dataDrop segment => exact (Alike.dropData h _).leave vs
  case memoryCopy targetMemory sourceMemory =>
    rcases vs with _ | ⟨n, _ | ⟨source, _ | ⟨target, vs⟩⟩⟩
    iterate 3 exact .trap h
    simp only [computeMemory, List.map_cons, Value.index_mapFunc]
    refine Alike.ofExcept h target.index fun target _ => ?_
    refine Alike.ofExcept h source.index fun source hsource => ?_
    refine Alike.ofExcept h n.index fun n hn => ?_
    have hspares := spares_accessAt (fun x hx => hs x (List.mem_append_left _ hx)) hsource hn
    exact (Alike.copyMemory h hspares).leave vs
  case memoryFill memory =>
    rcases vs with _ | ⟨n, _ | ⟨byte, _ | ⟨target, vs⟩⟩⟩
    iterate 3 exact .trap h
    simp only [computeMemory, List.map_cons, Value.index_mapFunc]
    refine Alike.ofExcept h target.index fun target _ => ?_
    refine Alike.ofExcept h byte.index fun byte _ => ?_
    refine Alike.ofExcept h n.index fun n _ => ?_
    exact (Alike.fillMemory h _ _ _ _).leave vs
  all_goals exact .trap h

/-! ## Vectors in memory -/

theorem computeVector_agrees {op : Operator} {vs : List Value} (hs : st.Heeds hidden op vs) :
    Alike (Storage.Agrees g hidden) (Renamed g) (computeVector op vs st)
      (computeVector op (vs.map (Value.mapFunc g)) st') := by
  cases op
  case v128Const v => exact alike_return h rfl
  case shuffle indices =>
    rcases vs with _ | ⟨b, _ | ⟨a, vs⟩⟩
    iterate 2 exact .trap h
    simp only [computeVector, List.map_cons, Value.vector_mapFunc]
    refine Alike.ofExcept h a.vector fun u _ => ?_
    refine Alike.ofExcept h b.vector fun v _ => ?_
    exact alike_return h rfl
  case vectorLoad op arg =>
    rcases vs with _ | ⟨base, vs⟩
    · exact .trap h
    simp only [computeVector, List.map_cons, address_mapFunc]
    refine Alike.ofExcept h (address arg base) fun a ha => ?_
    refine (Finds.loadNumber h (spares_accessAt hs ha rfl)).andThen h ?_
    rintro _ n rfl
    exact alike_return h rfl
  case vectorStore arg =>
    rcases vs with _ | ⟨v, _ | ⟨base, vs⟩⟩
    iterate 2 exact .trap h
    simp only [computeVector, List.map_cons, address_mapFunc, Value.vector_mapFunc]
    refine Alike.ofExcept h v.vector fun v _ => ?_
    refine Alike.ofExcept h (address arg base) fun a _ => ?_
    exact (Alike.storeNumber h _ _ _ _).leave vs
  case loadLane width arg lane =>
    rcases vs with _ | ⟨v, _ | ⟨base, vs⟩⟩
    iterate 2 exact .trap h
    simp only [computeVector, List.map_cons, address_mapFunc, Value.vector_mapFunc]
    refine Alike.ofExcept h v.vector fun v _ => ?_
    refine Alike.ofExcept h (address arg base) fun a ha => ?_
    refine (Finds.loadNumber h (spares_accessAt hs ha rfl)).andThen h ?_
    rintro _ n rfl
    exact alike_return h rfl
  case storeLane width arg lane =>
    rcases vs with _ | ⟨v, _ | ⟨base, vs⟩⟩
    iterate 2 exact .trap h
    simp only [computeVector, List.map_cons, address_mapFunc, Value.vector_mapFunc]
    refine Alike.ofExcept h v.vector fun v _ => ?_
    refine Alike.ofExcept h (address arg base) fun a _ => ?_
    exact (Alike.storeNumber h _ _ _ _).leave vs
  case extractLane op lane =>
    rcases vs with _ | ⟨v, vs⟩
    · exact .trap h
    simp only [computeVector, List.map_cons, Value.vector_mapFunc]
    refine Alike.ofExcept h v.vector fun v _ => ?_
    exact alike_return h (by simp [LaneExtract.eval_mapFunc])
  case replaceLane shape lane =>
    rcases vs with _ | ⟨a, _ | ⟨v, vs⟩⟩
    iterate 2 exact .trap h
    simp only [computeVector, List.map_cons, Value.vector_mapFunc, replaceLaneBy_mapFunc]
    refine Alike.ofExcept h v.vector fun v _ => ?_
    refine Alike.ofExcept h (replaceLaneBy shape lane.toNat a v) fun v _ => ?_
    exact alike_return h rfl
  case vector op =>
    have heval : Finds _ st st' _ _ := Finds.mapped (List.map (Value.mapFunc g)) (op.op.eval vs)
    rw [← VectorOp.eval_mapFunc] at heval
    exact heval.alike h
  all_goals exact .trap h

/-! ## Atomic accesses -/

/-- Reading a number, and writing another in its place. -/
theorem atomicModify_agrees (action : AtomicAction) (width : AtomicWidth) (arg : MemArg)
    (v base : Value) (vs : List Value)
    (hs : ∀ x ∈ accessAt arg.memory (address arg base) (.ok width.bytes),
      st.Spares hidden x.memory x.address x.length) :
    let work (v base : Value) (vs : List Value) : Action (List Value) := do
      let operand ← v.int width.word
      let a ← alignedAddress arg width.bytes base
      let old ← Action.loadNumber arg.memory.toNat a width.bytes
      Action.storeNumber arg.memory.toNat a width.bytes
        (action.combine (8 * width.bytes) old operand.toNat)
      return .ofInt width.word (BitVec.ofNat _ old) :: vs
    Alike (Storage.Agrees g hidden) (Renamed g) (work v base vs st)
      (work (v.mapFunc g) (base.mapFunc g) (vs.map (Value.mapFunc g)) st') := by
  simp only [alignedAddress_mapFunc, Value.int_mapFunc]
  refine Alike.ofExcept h (v.int width.word) fun operand _ => ?_
  refine Alike.ofExcept h (alignedAddress arg width.bytes base) fun a ha => ?_
  refine (Finds.loadNumber h (spares_accessAt hs (address_of_aligned ha) rfl)).andThen h ?_
  rintro _ old rfl
  refine (Alike.storeNumber h _ _ _ _).bind fun _ _ _ _ _ hst => ?_
  exact alike_return hst (by simp)

theorem computeAtomic_agrees {op : Operator} {vs : List Value} (hs : st.Heeds hidden op vs) :
    Alike (Storage.Agrees g hidden) (Renamed g) (computeAtomic op vs st)
      (computeAtomic op (vs.map (Value.mapFunc g)) st') := by
  cases op
  case atomicFence => exact alike_return h rfl
  case atomicNotify arg =>
    rcases vs with _ | ⟨n, _ | ⟨base, vs⟩⟩
    iterate 2 exact .trap h
    simp only [computeAtomic, List.map_cons, alignedAddress_mapFunc, Value.index_mapFunc]
    refine Alike.ofExcept h n.index fun n _ => ?_
    refine Alike.ofExcept h (alignedAddress arg 4 base) fun a ha => ?_
    refine (Finds.loadNumber h (spares_accessAt hs (address_of_aligned ha) rfl)).andThen h ?_
    rintro _ n rfl
    exact alike_return h rfl
  case atomicWait width arg =>
    rcases vs with _ | ⟨timeout, _ | ⟨expected, _ | ⟨base, vs⟩⟩⟩
    iterate 3 exact .trap h
    simp only [computeAtomic, List.map_cons, alignedAddress_mapFunc, Value.int_mapFunc]
    refine Alike.ofExcept h (timeout.int .w64) fun timeout _ => ?_
    refine Alike.ofExcept h (expected.int width) fun expected _ => ?_
    refine Alike.ofExcept h (alignedAddress arg width.lane.bytes base) fun a ha => ?_
    refine (Finds.loadNumber h (spares_accessAt hs (address_of_aligned ha) rfl)).andThen h ?_
    rintro _ n rfl
    refine (Finds.memory h arg.memory.toNat).andThen h ?_
    rintro m m' ⟨hm, -, -⟩
    rw [hm.shared]
    split
    · exact alike_return h rfl
    · exact .trap h
  case atomic action width arg =>
    cases action
    case load =>
      rcases vs with _ | ⟨base, vs⟩
      · exact .trap h
      simp only [computeAtomic, List.map_cons, alignedAddress_mapFunc]
      refine Alike.ofExcept h (alignedAddress arg width.bytes base) fun a ha => ?_
      refine (Finds.loadNumber h (spares_accessAt hs (address_of_aligned ha) rfl)).andThen h ?_
      rintro _ n rfl
      exact alike_return h (by simp)
    case store =>
      rcases vs with _ | ⟨v, _ | ⟨base, vs⟩⟩
      iterate 2 exact .trap h
      simp only [computeAtomic, List.map_cons, alignedAddress_mapFunc, Value.int_mapFunc]
      refine Alike.ofExcept h (v.int width.word) fun n _ => ?_
      refine Alike.ofExcept h (alignedAddress arg width.bytes base) fun a _ => ?_
      exact (Alike.storeNumber h _ _ _ _).leave vs
    case compareExchange =>
      rcases vs with _ | ⟨replacement, _ | ⟨expected, _ | ⟨base, vs⟩⟩⟩
      iterate 2 exact .trap h
      · exact atomicModify_agrees h _ _ _ _ _ _ hs
      simp only [computeAtomic, List.map_cons, alignedAddress_mapFunc, Value.int_mapFunc]
      refine Alike.ofExcept h (expected.int width.word) fun expected _ => ?_
      refine Alike.ofExcept h (replacement.int width.word) fun replacement _ => ?_
      refine Alike.ofExcept h (alignedAddress arg width.bytes base) fun a ha => ?_
      refine (Finds.loadNumber h (spares_accessAt hs (address_of_aligned ha) rfl)).andThen h ?_
      rintro _ old rfl
      split
      · refine (Alike.storeNumber h _ _ _ _).bind fun _ _ _ _ _ hst => ?_
        exact alike_return hst (by simp)
      · exact alike_return h (by simp)
    all_goals
      rcases vs with _ | ⟨v, _ | ⟨base, vs⟩⟩
      iterate 2 exact .trap h
      exact atomicModify_agrees h _ _ _ _ _ _ hs
  all_goals exact .trap h

/-! ## Tables and references -/

theorem computeTable_agrees (op : Operator) (vs : List Value) :
    Alike (Storage.Agrees g hidden) (Renamed g) (computeTable op vs st)
      (computeTable (op.mapFunc g) (vs.map (Value.mapFunc g)) st') := by
  cases op
  case tableGet table =>
    rcases vs with _ | ⟨position, vs⟩
    · exact .trap h
    simp only [computeTable, Operator.mapFunc, List.map_cons, Value.index_mapFunc]
    refine Alike.ofExcept h position.index fun position _ => ?_
    refine (Finds.tableGet h table.toNat position).andThen h ?_
    rintro r _ rfl
    exact alike_return h rfl
  case tableSet table =>
    rcases vs with _ | ⟨v, _ | ⟨position, vs⟩⟩
    iterate 2 exact .trap h
    simp only [computeTable, Operator.mapFunc, List.map_cons, Value.index_mapFunc,
      Value.reference_mapFunc]
    refine (Finds.mapped (Option.map g) v.reference).andThen h ?_
    rintro r _ rfl
    refine Alike.ofExcept h position.index fun position _ => ?_
    exact (Alike.writeTable h _ _ [r]).leave vs
  case tableInit segment table =>
    rcases vs with _ | ⟨n, _ | ⟨source, _ | ⟨target, vs⟩⟩⟩
    iterate 3 exact .trap h
    simp only [computeTable, Operator.mapFunc, List.map_cons, Value.index_mapFunc]
    refine Alike.ofExcept h target.index fun target _ => ?_
    refine Alike.ofExcept h source.index fun source _ => ?_
    refine Alike.ofExcept h n.index fun n _ => ?_
    refine (Finds.element h segment.toNat).andThen h ?_
    rintro items _ rfl
    refine (Finds.slice .tableOutOfBounds (Option.map g) items source n).andThen h ?_
    rintro part _ rfl
    exact (Alike.writeTable h _ _ part).leave vs
  case elemDrop segment => exact (Alike.dropElement h _).leave vs
  case tableCopy targetTable sourceTable =>
    rcases vs with _ | ⟨n, _ | ⟨source, _ | ⟨target, vs⟩⟩⟩
    iterate 3 exact .trap h
    simp only [computeTable, Operator.mapFunc, List.map_cons, Value.index_mapFunc]
    refine Alike.ofExcept h target.index fun target _ => ?_
    refine Alike.ofExcept h source.index fun source _ => ?_
    refine Alike.ofExcept h n.index fun n _ => ?_
    refine (Finds.table h sourceTable.toNat).andThen h ?_
    rintro t _ rfl
    simp only [RefTable.mapFunc, Array.toList_map]
    refine (Finds.slice .tableOutOfBounds (Option.map g) t.items.toList source n).andThen h ?_
    rintro part _ rfl
    exact (Alike.writeTable h _ _ part).leave vs
  case tableGrow table =>
    rcases vs with _ | ⟨n, _ | ⟨v, vs⟩⟩
    iterate 2 exact .trap h
    simp only [computeTable, Operator.mapFunc, List.map_cons, Value.index_mapFunc,
      Value.reference_mapFunc]
    refine (Finds.mapped (Option.map g) v.reference).andThen h ?_
    rintro r _ rfl
    refine Alike.ofExcept h n.index fun n _ => ?_
    refine (Alike.growTable h _ _ r).bind ?_
    rintro v _ _ _ rfl hst
    exact alike_return hst rfl
  case tableSize table =>
    refine (Finds.table h table.toNat).andThen h ?_
    rintro t _ rfl
    exact alike_return h (by simp [RefTable.mapFunc])
  case tableFill table =>
    rcases vs with _ | ⟨n, _ | ⟨v, _ | ⟨position, vs⟩⟩⟩
    iterate 3 exact .trap h
    simp only [computeTable, Operator.mapFunc, List.map_cons, Value.index_mapFunc,
      Value.reference_mapFunc]
    refine Alike.ofExcept h position.index fun position _ => ?_
    refine (Finds.mapped (Option.map g) v.reference).andThen h ?_
    rintro r _ rfl
    refine Alike.ofExcept h n.index fun n _ => ?_
    refine (Finds.table h table.toNat).andThen h ?_
    rintro t _ rfl
    simp only [RefTable.mapFunc, Array.size_map]
    split
    · exact .trap h
    · rw [← List.map_replicate]
      exact (Alike.writeTable h _ _ (List.replicate n r)).leave vs
  case refNull heap => exact alike_return h rfl
  case refIsNull =>
    rcases vs with _ | ⟨v, vs⟩
    · exact .trap h
    simp only [computeTable, refIsNull, Operator.mapFunc, List.map_cons, Value.reference_mapFunc]
    refine (Finds.mapped (Option.map g) v.reference).andThen h ?_
    rintro r _ rfl
    exact alike_return h (by simp)
  case refFunc func => exact alike_return h rfl
  all_goals exact .trap h

/-! ## All of them -/

theorem compute_agrees {op : Operator} {vs : List Value} (hs : st.Heeds hidden op vs) :
    Alike (Storage.Agrees g hidden) (Renamed g) (compute op vs st)
      (compute (op.mapFunc g) (vs.map (Value.mapFunc g)) st') := by
  cases op
  case nop => exact alike_return h rfl
  case drop =>
    rcases vs with _ | ⟨v, vs⟩
    · exact .trap h
    · exact alike_return h rfl
  case select | selectTyped =>
    rcases vs with _ | ⟨c, _ | ⟨b, _ | ⟨a, vs⟩⟩⟩
    iterate 3 exact .trap h
    unfold compute
    simp only [Operator.mapFunc, List.map_cons, Value.int_mapFunc]
    refine Alike.ofExcept h (c.int .w32) fun c _ => ?_
    refine alike_return h ?_
    split <;> rfl
  case globalGet index =>
    refine (Finds.global h index.toNat).andThen h ?_
    rintro v _ rfl
    exact alike_return h rfl
  case globalSet index =>
    rcases vs with _ | ⟨v, vs⟩
    · exact .trap h
    · exact (Alike.setGlobal h _ v).leave vs
  case i32Const | i64Const | f32Const | f64Const => exact alike_return h rfl
  case numeric op =>
    have heval : Finds _ st st' _ _ := Finds.mapped (List.map (Value.mapFunc g)) (op.eval vs)
    rw [← Numeric.eval_mapFunc] at heval
    exact heval.alike h
  case load | store | memorySize | memoryGrow | memoryInit | dataDrop | memoryCopy | memoryFill =>
    exact computeMemory_agrees h hs
  case v128Const | shuffle | vectorLoad | vectorStore | loadLane | storeLane | extractLane
      | replaceLane | vector =>
    exact computeVector_agrees h hs
  case atomicNotify | atomicWait | atomicFence | atomic => exact computeAtomic_agrees h hs
  case tableGet | tableSet | tableInit | tableCopy | tableGrow | tableFill =>
    exact computeTable_agrees h _ vs
  case refIsNull => exact computeTable_agrees h .refIsNull vs
  case elemDrop segment => exact computeTable_agrees h (.elemDrop segment) vs
  case tableSize table => exact computeTable_agrees h (.tableSize table) vs
  case refNull heap => exact computeTable_agrees h (.refNull heap) vs
  case refFunc func => exact computeTable_agrees h (.refFunc func) vs
  all_goals exact .trap h

/-- What an operator that only computes makes of locals and operands is renamed, too. -/
theorem perform_agrees {op : Operator} {locals vs : List Value} (hs : st.Heeds hidden op vs) :
    Alike (Storage.Agrees g hidden)
      (fun r r' => r' = (r.1.map (Value.mapFunc g), r.2.map (Value.mapFunc g)))
      (perform op locals vs st)
      (perform (op.mapFunc g) (locals.map (Value.mapFunc g)) (vs.map (Value.mapFunc g)) st') := by
  have hcompute : Alike (Storage.Agrees g hidden)
      (fun r r' => r' = (r.1.map (Value.mapFunc g), r.2.map (Value.mapFunc g)))
      ((compute op vs >>= fun vs => pure (locals, vs)) st)
      ((compute (op.mapFunc g) (vs.map (Value.mapFunc g)) >>= fun vs =>
        pure (locals.map (Value.mapFunc g), vs)) st') :=
    (compute_agrees h hs).bind fun _ _ _ _ hvs hst => .ok (by rw [hvs]) hst
  cases op
  case localGet index =>
    unfold perform
    simp only [Operator.mapFunc, List.getElem?_map]
    cases locals[index.toNat]? with
    | none => exact .trap h
    | some v => exact .ok rfl h
  case localSet index =>
    rcases vs with _ | ⟨v, vs⟩
    · exact hcompute
    · exact .ok (by simp [List.map_set]) h
  case localTee index =>
    rcases vs with _ | ⟨v, vs⟩
    · exact hcompute
    · exact .ok (by simp [List.map_set]) h
  all_goals exact hcompute

end

end MeteredWasm.Machine
