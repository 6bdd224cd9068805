import MeteredWasm.Proofs.Session.Created
import MeteredWasm.Proofs.Suspension.Instrumented
import MeteredWasm.Proofs.Suspension.Kept
import MeteredWasm.Sandbox.Executor
import MeteredWasm.Suspension.Module

/-!
# An executor with nothing to do

A module whose entry does nothing is metered (`idleMetered`) and made able to unwind (`idleUnwound`),
and an executor is made of that (`IdleAt.create`).
-/

set_option autoImplicit false

namespace MeteredWasm

open Wasm Machine Metering Linking

/-- A runtime with room for ten frames. -/
def shallow : Runtime := ⟨{ Options.standard with maxWasmStack := 160 }, fun _ _ => 0⟩

/-- A module with an entry that does nothing. -/
def idleModule : Module :=
  ⟨[.types [.plain ⟨[], []⟩], .functions [0], .memories [⟨⟨1, none⟩, false, false, none⟩],
    .exports [⟨"entry", .func, 0⟩], .code [⟨[], [.endMark]⟩]]⟩

def idleSummary : Summary :=
  ⟨[⟨[], []⟩], [], [0], [⟨"entry", .func, 0⟩], [⟨⟨1, none⟩, false, false⟩], false, [], none⟩

section
variable (cost : UInt32)

/-- The same, metered: what it does not do has a price. -/
def idleMetered : Module :=
  ⟨[.types [.plain ⟨[], []⟩, hookTypeEntry], .imports [⟨hookModule, hookName, .func 1⟩],
    .functions [0], .memories [⟨⟨1, none⟩, false, false, none⟩],
    .exports [⟨"entry", .func, 1⟩, ⟨"memory", .memory, 0⟩],
    .code [⟨[], [.i32Const cost, .call 0, .endMark]⟩]]⟩

def idleGlobals : Suspension.Globals := ⟨0, 1⟩

/-- The call of the hook: the first local says which call is suspended, and the second one has what
the hook takes. -/
def idleCall : List Operator :=
  idleGlobals.isIn .normal ++ [.ifThen (.value .i32), .i32Const 1, .elseMark, .localGet 0,
    .i32Const 1, .numeric (.intRelation .w32 .eq), .endMark, .ifThen .empty, .localGet 1,
    .call 0] ++ idleGlobals.only .unwinding [.i32Const 1, .localSet 0, .br 2] ++ [.endMark]

/-- The entry. It reads which call was suspended if it rewinds, and writes it down if it unwinds. -/
def idleCode : List Operator :=
  idleGlobals.only .rewinding (idleGlobals.move .sub 4 ++ idleGlobals.position ++
      [.load .i32 ⟨0, 0, 0⟩, .localSet 0]) ++
    [.block .empty] ++ idleGlobals.only .normal [.i32Const cost, .localSet 1] ++ idleCall ++
    [.ret, .endMark] ++ idleGlobals.position ++ [.localGet 0, .store .i32 ⟨0, 0, 0⟩] ++
    idleGlobals.move .add 4 ++ [.endMark]

/-- The module once more, able to unwind. -/
def idleUnwound : Module :=
  let functions := Suspension.added idleGlobals
  ⟨[.types ([.plain ⟨[], []⟩, hookTypeEntry] ++ functions.map fun f => .plain f.type),
    .imports [⟨hookModule, hookName, .func 1⟩], .functions [0, 2, 3, 4, 5, 6],
    .memories [⟨⟨1, none⟩, false, false, none⟩],
    .globals (List.replicate 2 ⟨⟨.i32, true, false⟩, [.i32Const 0]⟩),
    .exports ([⟨"entry", .func, 1⟩, ⟨"memory", .memory, 0⟩] ++
      List.zipWith (fun f index => ⟨f.name, .func, index⟩) functions [2, 3, 4, 5, 6]),
    .code (⟨[(1, .i32), (1, .i32)], idleCode cost⟩ :: functions.map fun f => ⟨[], f.code⟩)]⟩

def idleArtifact (block : ControlBlock) : Artifact :=
  ⟨(idleUnwound cost).encode, "entry", ⟨⟨1, none⟩, false, false⟩, some "memory", block⟩

def idleInstance (hardware : Hardware) (block : ControlBlock) : Instance where
  types := ((idleUnwound cost).types.map TypeEntry.type).toArray
  functions := (Function.hook :: .code ⟨[], []⟩ [.i32, .i32] (idleCode cost) ::
    (Suspension.added idleGlobals).map fun f => .code f.type [] f.code).toArray
  relaxed := hardware.relaxed
  controls := some ⟨2, 3, 4, 5⟩
  controlBlock := block
  blockMemory := 0
  maxDepth := hardware.maxDepth

/-- Storage of the idle module: its memory, in what state it is, and where its control block is. -/
def idleStorage (m : Memory) (state address : BitVec 32) : Storage :=
  ⟨[m], [], [.i32 state, .i32 address], [], []⟩

/-- The page that the idle module starts with. -/
def idlePage : Memory := .ofPages 1 256 false false

def idle (r : Runtime) (block : ControlBlock) : Executor :=
  ⟨idleInstance cost (Executor.hardware r) block, 1,
    ⟨idleStorage idlePage 0 0, 0, false, [], []⟩, false⟩

end

theorem size_idlePage : idlePage.size = pageSize := by
  rw [idlePage, Memory.size_ofPages, Nat.one_mul]

theorem valid_idle : Validation.validate? .sandbox idleModule.encode = some idleModule := by
  decide +kernel

/-- The name that the memory of the idle module is exported under. -/
theorem memoryExportName_idle (order : ExportOrder) :
    memoryExportName order idleSummary ⟨⟨1, none⟩, false, false⟩ = some "memory" := by
  have hexports : order.1 idleSummary.exports = [⟨"entry", .func, 0⟩] :=
    List.perm_singleton.1 (order.2 _)
  rw [memoryExportName, hexports]
  rfl

/-- What is made of the idle module at a price: what it is metered to, and what that is once it can
unwind. -/
structure IdleAt (cost : UInt32) (rules : Rules) : Prop where
  metered : meterModule? (.of idleSummary rules (some "memory")) idleModule =
    some (idleMetered cost)
  lengths : fitsLengths (idleMetered cost) = true
  decoded : Module.decode? .full (idleMetered cost).encode = some (idleMetered cost)
  unwound : Suspension.unwinding ⟨.level0, .level0, false⟩ (idleMetered cost).encode =
    .ok (idleUnwound cost).encode
  exports : Instrument.checkExports .standard (idleUnwound cost).encode = .ok ()
  valid : Validation.validate? .engine (idleUnwound cost).encode = some (idleUnwound cost)

theorem idleAt_ten : IdleAt 10 (.constant 10) := by
  constructor <;> decide +kernel

theorem idleAt_one : IdleAt 1 Options.standard.costs.rules := by
  constructor <;> decide +kernel

section
variable {cost : UInt32} {rules : Rules} (h : IdleAt cost rules)
include h

/-- An executor of the idle module. -/
theorem IdleAt.create {fuel : Nat} {r : Runtime} {imports : Imports} {block : ControlBlock}
    (hfits : block.requiredMemory ≤ pageSize) :
    Executor.create fuel r (idleArtifact cost block) imports 256 =
      some (.ok (idle cost r block), []) := by
  have hp : instantiate? (idleArtifact cost block) imports 256 (Executor.hardware r)
      (idleUnwound cost) = some ⟨idleUnwound cost,
        { idleInstance cost (Executor.hardware r) block with controls := none },
        idleStorage idlePage 0 0⟩ := rfl
  refine Executor.create_of_valid h.valid rfl rfl hp rfl rfl ?_ rfl rfl
  change block.requiredMemory ≤ idlePage.size
  rwa [size_idlePage]

/-- The idle module is instrumented, with any control block and under any ceiling that allows a
page. -/
theorem IdleAt.instrumented {pass : Suspension.Pass} {ceiling : UInt64} {block : ControlBlock}
    (order : ExportOrder)
    (hcheck : Metering.check { Options.standard with
      controlBlock := block, memoryMaxPages := ceiling } idleSummary =
        .ok ⟨⟨1, none⟩, false, false⟩)
    (hpass : pass (Instrument.request .standard) (idleMetered cost).encode =
      .ok (idleUnwound cost).encode) :
    Instrumented pass order { Options.standard with
        controlBlock := block, memoryMaxPages := ceiling }
      rules idleModule.encode idleSummary idleModule (idleMetered cost)
      (idleArtifact cost block) where
  summary := by decide +kernel
  check := hcheck
  valid := valid_idle
  metered := by
    have hadded : Instrument.addedMemoryExport order idleSummary ⟨⟨1, none⟩, false, false⟩ =
        some "memory" := memoryExportName_idle order
    change meterModule? (.of _ _ (Instrument.addedMemoryExport order idleSummary
      ⟨⟨1, none⟩, false, false⟩)) _ = _
    rw [hadded, h.metered]
  lengths := h.lengths
  captured := hpass
  exports := h.exports
  memoryExport := (memoryExportName_idle order).symm
  entry := rfl
  controlBlock := rfl

/-- What the pass makes of the idle module does not depend on how hard it tries. -/
theorem IdleAt.unwinding (request : Suspension.Request) :
    Suspension.unwinding request (idleMetered cost).encode = .ok (idleUnwound cost).encode :=
  h.unwound

end

theorem exports_idle (cost : UInt32) :
    (idleUnwound cost).exports = (idleMetered cost).exports ++
      List.zipWith (fun f index => ⟨f.name, .func, index⟩) (Suspension.added idleGlobals)
        [2, 3, 4, 5, 6] := rfl

/-- What can be linked of the idle module is still there when it can unwind. -/
theorem kept_idle (cost : UInt32) : Suspension.Kept (idleMetered cost) (idleUnwound cost) where
  imports := .cons ⟨rfl, rfl, fun h => nomatch h⟩ .nil
  exports := by
    intro e he
    refine ⟨e, exports_idle cost ▸ List.mem_append_left _ he, rfl, rfl, fun hkind => ?_⟩
    rcases List.mem_cons.1 he with rfl | he
    · rfl
    · obtain rfl := List.mem_singleton.1 he
      cases hkind
  controls := by
    intro c hc
    simp only [Suspension.controlTypes, List.mem_cons, List.not_mem_nil, or_false] at hc
    rw [exports_idle]
    obtain rfl | rfl | rfl | rfl := hc
    · exact ⟨⟨_, .func, 2⟩, List.mem_append_right _ (.head _), rfl, rfl, rfl⟩
    · exact ⟨⟨_, .func, 3⟩, List.mem_append_right _ (.tail _ (.head _)), rfl, rfl, rfl⟩
    · exact ⟨⟨_, .func, 4⟩, List.mem_append_right _ (.tail _ (.tail _ (.head _))), rfl, rfl, rfl⟩
    · exact ⟨⟨_, .func, 5⟩, List.mem_append_right _ (.tail _ (.tail _ (.tail _ (.head _)))), rfl,
        rfl, rfl⟩
  memory provided ceiling := by
    change ((([⟨⟨1, none⟩, false, false, none⟩] : List MemoryType).mapM
      (definedMemory? ceiling)).bind _).bind _ = ((([⟨⟨1, none⟩, false, false, none⟩] :
        List MemoryType).mapM (definedMemory? ceiling)).bind _).bind _
    cases ([⟨⟨1, none⟩, false, false, none⟩] : List MemoryType).mapM (definedMemory? ceiling) with
    | none => rfl
    | some defined => rfl
  starts _ := rfl

/-- A pass for the idle module at one price alone. -/
def idlePass (cost : UInt32) : Suspension.Pass :=
  Suspension.unwinding.only (idleMetered cost).encode

section
variable {cost : UInt32} {rules : Rules} (h : IdleAt cost rules) (request : Suspension.Request)
include h

theorem IdleAt.idlePass_metered :
    idlePass cost request (idleMetered cost).encode = .ok (idleUnwound cost).encode :=
  Suspension.Pass.only_self.trans (h.unwinding request)

theorem IdleAt.keeps_idlePass : (idlePass cost).Keeps request :=
  Suspension.Pass.keeps_only h.decoded (h.unwinding request) h.valid (kept_idle cost)

end

theorem toBinary_idle : Instrument.toBinary? idleModule.encode = some idleModule.encode := by
  decide +kernel

end MeteredWasm
