import MeteredWasm.Proofs.Codec.Bounds
import MeteredWasm.Proofs.Machine.Filled
import MeteredWasm.Proofs.Session.Bounds
import MeteredWasm.Proofs.Validation.Constant

/-!
# The reserved range starts blank

A fresh executor has nothing but zeros where the control block and its region are, whatever segments
its module has (`reserved_blank`).

The checks look only at segments whose offset begins with an `i32.const`. These are all that are
ever copied: arithmetic is not allowed in an offset, and no global can be imported, so there is
nothing else that an offset could be (`Instrumented.datas_off`). What is not written to is as it was
laid out, and memory is laid out with zeros (`Instrumented.filled`). Of the pass nothing is asked but
that it leaves what is laid out.
-/

set_option autoImplicit false

namespace MeteredWasm

open Wasm Machine Metering Simulation Linking

/-! ## Segments -/

/-- Where the checks find nothing, no byte of the segment is reserved. -/
theorem not_reserved_of_overlaps {block : ControlBlock} {start : UInt32} {bytes : Bytes}
    (hlength : bytes.length < 2 ^ 32)
    (h : overlaps block ⟨start, bytes.length.toUInt32⟩ = false) (address : Nat)
    (hreserved : block.Reserves address) :
    ¬(start.toNat ≤ address ∧ address < start.toNat + bytes.length) := by
  have hword : bytes.length.toUInt32.toNat = bytes.length := by
    rw [Nat.toUInt32_eq, UInt32.toNat_ofNat', Nat.mod_eq_of_lt hlength]
  simp only [overlaps, hword, Bool.and_eq_false_iff, decide_eq_false_iff_not] at h
  obtain ⟨hstart, hend⟩ := hreserved
  omega

/-- An instance has no imported globals: nobody provides them. -/
theorem importedGlobals_of_agrees {m : Module} {provided : Option Memory}
    (h : m.imports.all (agrees m provided) = true) : m.importedGlobals = [] := by
  refine List.filterMap_eq_nil_iff.2 fun i hi => ?_
  have hagrees := List.all_eq_true.1 h i hi
  unfold agrees at hagrees
  cases htype : i.type
  case global => simp [htype] at hagrees
  all_goals rfl

section
variable {pass : Suspension.Pass} {order : ExportOrder} {options : Options} {rules : Rules}
  {binary : Bytes} {s : Summary} {m m' m'' : Module} {a : Artifact}
  (hm : Instrumented pass order options rules binary s m m' a)
include hm

theorem Instrumented.datas_off {provided : Option Memory}
    (hagrees : m.imports.all (agrees m provided) = true) :
    ∀ d ∈ m.datas, d.StaysOff a.controlBlock.Reserves := by
  have hdecode := (Validation.validate_eq_some hm.valid).1
  obtain ⟨c, hc, hdeclarations⟩ := Validation.declarations_of_validate hm.valid
  obtain ⟨hfeatures, hglobals⟩ := Validation.const_of_context hc
  have hplain : c.features.extendedConst = false := by rw [hfeatures]; rfl
  obtain ⟨-, hnarrow⟩ := hdeclarations.narrow (by rw [hfeatures]; rfl)
  rw [importedGlobals_of_agrees hagrees] at hglobals
  have hdata := summary_data hm.summary (decode_full_of_core hdecode)
  intro d hd memory offset hmode
  have hoffset := List.all_eq_true.1 hdeclarations.datas d hd
  simp only [Validation.dataOffsetOk, hmode, Option.any_eq_true] at hoffset
  obtain ⟨address, haddress, hoffset⟩ := hoffset
  obtain ⟨type, htype, rfl⟩ := Option.map_eq_some_iff.1 haddress
  rw [Validation.Context.memory?, Validation.memories_of_context hc, List.getElem?_toArray] at htype
  rw [hnarrow type (List.mem_of_getElem? htype)] at hoffset
  obtain ⟨start, rfl⟩ := Validation.offset_of_const hplain hglobals hoffset
  refine ⟨start, rfl, ?_⟩
  have hrange : (⟨start, d.bytes.length.toUInt32⟩ : DataRange) ∈ s.data := by
    rw [hdata]
    exact List.mem_filterMap.2 ⟨d, hd, by simp [Summary.DataRange.of?, hmode]⟩
  have hclear := (checked_of_check hm.check).clear _ hrange
  rw [← hm.controlBlock] at hclear
  exact not_reserved_of_overlaps (length_data_of_decode hdecode d hd) hclear

/-- What is laid out in either case is as large as the module says. -/
theorem Instrumented.first_memory_size {ceiling : UInt64} {st : Storage}
    (hst : emptyStorage? m (providedMemory a.memory ceiling) ceiling = some st) :
    ∃ maxPages is64, st.memories =
      [.ofPages a.memory.limits.min.toNat maxPages a.memory.isShared is64] := by
  rcases hm.laid_out hst with ⟨himported, hmemories⟩ |
    ⟨-, type, memory, htype, hshared, hdefined, hmemories⟩
  · rw [providedMemory, if_pos himported] at hmemories
    exact ⟨_, _, hmemories⟩
  · simp only [definedMemory?, htype, hshared, Option.ite_none_right_eq_some,
      Option.some.injEq] at hdefined
    obtain ⟨-, rfl⟩ := hdefined
    exact ⟨_, _, hmemories⟩

/-- The one memory of an instance that has been made is as large as the module says, and blank where
the control block and its region are. -/
theorem Instrumented.filled {imports : Imports} {ceiling : UInt64} {hardware : Hardware}
    {p : Prepared} (hkept : Suspension.Kept m' m'')
    (hp : instantiate? a imports ceiling hardware m'' = some p) :
    ∃ memory, p.storage.memories = [memory] ∧ memory.size = a.memory.limits.minBytes ∧
      memory.shared = a.memory.isShared ∧
      ∀ address, a.controlBlock.Reserves address → address < memory.size →
        memory.byte? address = some 0 := by
  obtain ⟨hagrees, st₀, st, hst₀, hfill, hsame⟩ := hm.memory_made hkept hp
  obtain ⟨c, -, hdeclarations⟩ := Validation.declarations_of_validate hm.valid
  obtain ⟨maxPages, is64, hfirst⟩ := hm.first_memory_size hst₀
  have hspares := fill_spares hdeclarations (hm.datas_off hagrees)
  obtain ⟨memory, hmemory, hspared⟩ := hspares.related st₀ _ hfirst
  rw [hfill] at hmemory
  have hsize := @Memory.size_ofPages a.memory.limits.min.toNat maxPages a.memory.isShared is64
  refine ⟨memory, hsame.symm.trans hmemory, hspared.size.trans hsize, hspared.shared,
    fun address hreserved hlt => ?_⟩
  rw [hspared.byte address hreserved]
  exact Memory.byte_ofPages (hspared.size ▸ hlt)

/-- The memory of a fresh executor, which is the only one. -/
theorem Instrumented.fresh_memory (hkeeps : pass.Keeps (Instrument.request options))
    {imports : Imports} {ceiling : UInt64} {r : Runtime} {fuel : Nat} {e : Executor}
    {calls : List HostCall} (h : Executor.create fuel r a imports ceiling = some (.ok e, calls)) :
    e.sandbox.storage.memories = [e.memory] ∧ e.memorySize = a.memory.limits.minBytes ∧
      e.memory.shared = a.memory.isShared ∧
      ∀ address, a.controlBlock.Reserves address → e.memory.byte? address = some 0 := by
  obtain ⟨_, p, controls, -, hkept, -, hp, -, -, he, hrequired⟩ := hm.created hkeeps h
  obtain ⟨memory, hmemory, hsize, hshared, hblank⟩ := hm.filled hkept hp
  have hmemories : e.sandbox.storage.memories = [memory] := by rw [he]; exact hmemory
  have hsame : e.memory = memory := by
    have hzero : e.instance_.blockMemory = 0 := by rw [he]; rfl
    rw [Executor.memory, Executor.memoryOf, hmemories, hzero]
    rfl
  rw [Executor.memorySize, hsame] at hrequired ⊢
  exact ⟨hmemories, hsize, hshared, fun address hreserved =>
    hblank address hreserved (Nat.lt_of_lt_of_le hreserved.2 hrequired)⟩

end

namespace Executor

end Executor

/-! ## Data on both sides of the block -/

/-- Data that ends where the control block starts, and data that starts where its region ends. -/
def seeds : List Data :=
  [⟨.active 0 [.i32Const 8], List.replicate 8 0xFF⟩, ⟨.active 0 [.i32Const 1024], [1, 2, 3]⟩]

/-- A module with one more section of data. -/
def Wasm.Module.withData (m : Module) (datas : List Data) : Module := ⟨m.sections ++ [.data datas]⟩

/-- The idle module with this data. -/
def seededModule : Module := idleModule.withData seeds

def seededMetered : Module := (idleMetered 10).withData seeds

def seededUnwound : Module := (idleUnwound 10).withData seeds

def seededArtifact : Artifact :=
  { idleArtifact 10 .standard with wasm := seededUnwound.encode }

/-- A pass for the seeded module alone. -/
def seededPass : Suspension.Pass := Suspension.unwinding.only seededMetered.encode

/-- Memory with the data below the block. -/
def seededBelow : Memory := idlePage.write 8 (List.replicate 8 0xFF)

def seededMemory : Memory := seededBelow.write 1024 [1, 2, 3]

def seeded : Executor :=
  { idle 10 shallow .standard with
    sandbox := ⟨⟨[seededMemory], [], [.i32 0, .i32 0], [], [[], []]⟩, 0, false, [], []⟩ }

/-- There is room for the data. -/
theorem fits_below : 8 + (List.replicate 8 (0xFF : UInt8)).length ≤ idlePage.size := by
  rw [size_idlePage]
  decide

theorem size_seededBelow : seededBelow.size = pageSize := by
  rw [seededBelow, Memory.size_write _ fits_below, size_idlePage]

theorem fits_above : 1024 + [(1 : UInt8), 2, 3].length ≤ seededBelow.size := by
  rw [size_seededBelow]
  decide

theorem size_seededMemory : seededMemory.size = pageSize := by
  rw [seededMemory, Memory.size_write _ fits_above, size_seededBelow]

theorem addData_of_holds {memories : List Memory} {start : UInt32} {bytes : Bytes}
    (globals : List Value) (datas : List Bytes)
    (h : Action.memoryHolds 0 start.toNat bytes.length ⟨memories, [], [], [], []⟩ = true) :
    addData ⟨.active 0 [.i32Const start], bytes⟩ ⟨memories, [], globals, [], datas⟩ =
      .ok () ⟨memories.modify 0 (·.write start.toNat bytes), [], globals, [], datas ++ [[]]⟩ := by
  have hwrite : Action.writeMemory 0 start.toNat bytes ⟨memories, [], globals, [], datas⟩ =
      .ok () ⟨memories.modify 0 (·.write start.toNat bytes), [], globals, [], datas⟩ := if_pos h
  rw [addData_active]
  exact bind_of_ok hwrite

theorem addData_of_lacks {memories : List Memory} {start : UInt32} {bytes : Bytes}
    (globals : List Value) (datas : List Bytes)
    (h : ¬Action.memoryHolds 0 start.toNat bytes.length ⟨memories, [], [], [], []⟩ = true) :
    addData ⟨.active 0 [.i32Const start], bytes⟩ ⟨memories, [], globals, [], datas⟩ =
      .error .memoryOutOfBounds ⟨memories, [], globals, [], datas⟩ := by
  have hwrite : Action.writeMemory 0 start.toNat bytes ⟨memories, [], globals, [], datas⟩ =
      .error .memoryOutOfBounds ⟨memories, [], globals, [], datas⟩ := if_neg h
  rw [addData_active]
  exact bind_of_error hwrite

theorem addData_of_fits {m : Memory} {start : UInt32} {bytes : Bytes} (globals : List Value)
    (datas : List Bytes) (h : start.toNat + bytes.length ≤ m.size) :
    addData ⟨.active 0 [.i32Const start], bytes⟩ ⟨[m], [], globals, [], datas⟩ =
      .ok () ⟨[m.write start.toNat bytes], [], globals, [], datas ++ [[]]⟩ :=
  addData_of_holds globals datas (decide_eq_true h)

theorem forM_seeds (st : Storage) : seeds.forM addData st = (do
    addData ⟨.active 0 [.i32Const 8], List.replicate 8 0xFF⟩
    addData ⟨.active 0 [.i32Const 1024], [1, 2, 3]⟩
    pure () : Action Unit) st := rfl

theorem fill_seededUnwound (memories : List Memory) :
    fill seededUnwound ⟨memories, [], [], [], []⟩ =
      seeds.forM addData ⟨memories, [], [.i32 0, .i32 0], [], []⟩ := rfl

theorem fill_seeded : fill seededUnwound ⟨[idlePage], [], [], [], []⟩ =
    .ok () seeded.sandbox.storage := by
  have hbelow := @addData_of_fits idlePage 8 _ [.i32 0, .i32 0] [] fits_below
  have habove := @addData_of_fits seededBelow 1024 _ [.i32 0, .i32 0] [[]] fits_above
  rw [fill_seededUnwound, forM_seeds, bind_of_ok hbelow]
  exact (bind_of_ok habove).trans rfl

theorem create_seeded :
    Executor.create 1 shallow seededArtifact .empty 256 = some (.ok seeded, []) := by
  have hvalid : Validation.validate? .engine seededArtifact.wasm = some seededUnwound := by
    decide +kernel
  have hp : instantiate? seededArtifact .empty 256 (Executor.hardware shallow) seededUnwound =
      some ⟨seededUnwound,
        { idleInstance 10 (Executor.hardware shallow) .standard with controls := none },
        seeded.sandbox.storage⟩ :=
    instantiate_eq_some.2 ⟨_, _, _, _, rfl, rfl, rfl, rfl, fill_seeded, rfl⟩
  refine Executor.create_of_valid hvalid rfl rfl hp rfl rfl ?_ rfl rfl
  change ControlBlock.requiredMemory .standard ≤ seededMemory.size
  rw [size_seededMemory]
  decide

theorem byte_seededMemory :
    seededMemory.byte? 15 = some 0xFF ∧ seededMemory.byte? 1024 = some 1 := by
  have hbelow := Memory.byte_write _ fits_below
  have habove := Memory.byte_write _ fits_above
  rw [seededMemory, habove, habove, if_neg (by decide), if_pos (by decide), seededBelow, hbelow,
    if_pos (by decide)]
  exact ⟨rfl, rfl⟩

theorem unwinding_seeded (request : Suspension.Request) :
    Suspension.unwinding request seededMetered.encode = .ok seededUnwound.encode := by
  change Suspension.unwinding ⟨.level0, .level0, false⟩ _ = _
  decide +kernel

/-- The data goes to the same place, whatever globals there are. -/
theorem memories_of_seeds (memories : List Memory) (globals : List Value) :
    (match seeds.forM addData ⟨memories, [], globals, [], []⟩ with
      | .ok _ st => some st.memories
      | .error _ _ => none) =
    match seeds.forM addData ⟨memories, [], [], [], []⟩ with
      | .ok _ st => some st.memories
      | .error _ _ => none := by
  rw [forM_seeds, forM_seeds]
  by_cases hbelow : Action.memoryHolds 0 8 8 ⟨memories, [], [], [], []⟩ = true
  · have hfirst (globals : List Value) :=
      @addData_of_holds memories 8 (List.replicate 8 0xFF) globals [] hbelow
    rw [bind_of_ok (hfirst globals), bind_of_ok (hfirst [])]
    by_cases habove : Action.memoryHolds 0 1024 3
        ⟨memories.modify 0 (·.write (8 : UInt32).toNat (List.replicate 8 0xFF)), [], [], [], []⟩ =
          true
    · have hsecond (globals : List Value) :=
        @addData_of_holds _ 1024 [1, 2, 3] globals ([] ++ [[]]) habove
      rw [bind_of_ok (hsecond globals), bind_of_ok (hsecond [])]
      rfl
    · have hsecond (globals : List Value) :=
        @addData_of_lacks _ 1024 [1, 2, 3] globals ([] ++ [[]]) habove
      rw [bind_of_error (hsecond globals), bind_of_error (hsecond [])]
  · have hfirst (globals : List Value) :=
      @addData_of_lacks memories 8 (List.replicate 8 0xFF) globals [] hbelow
    rw [bind_of_error (hfirst globals), bind_of_error (hfirst [])]

theorem kept_seeded : Suspension.Kept seededMetered seededUnwound where
  imports := .cons ⟨rfl, rfl, fun h => nomatch h⟩ .nil
  exports e he := by
    obtain ⟨e', he', hsame⟩ := (kept_idle 10).exports e he
    exact ⟨e', he', hsame.name, hsame.kind, hsame.type⟩
  controls c hc := by
    obtain ⟨e, he, hcontrol⟩ := (kept_idle 10).controls c hc
    exact ⟨e, he, hcontrol⟩
  memory provided ceiling := by
    change ((([⟨⟨1, none⟩, false, false, none⟩] : List MemoryType).mapM
      (definedMemory? ceiling)).bind _).bind _ = ((([⟨⟨1, none⟩, false, false, none⟩] :
        List MemoryType).mapM (definedMemory? ceiling)).bind _).bind _
    cases ([⟨⟨1, none⟩, false, false, none⟩] : List MemoryType).mapM (definedMemory? ceiling) with
    | none => rfl
    | some defined => exact memories_of_seeds (defined ++ provided.toList) [.i32 0, .i32 0]
  starts _ := rfl

theorem keeps_seededPass (request : Suspension.Request) : seededPass.Keeps request :=
  Suspension.Pass.keeps_only (by decide +kernel) (unwinding_seeded request) (by decide +kernel)
    kept_seeded

end MeteredWasm
