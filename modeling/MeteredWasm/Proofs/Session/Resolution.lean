import MeteredWasm.Proofs.Machine.Fits
import MeteredWasm.Proofs.Session.Drivable

/-!
# Imports are resolved or refused

Where the names of a module decide what it imports and its segments fit, it is linked exactly if the
host provides all that it imports; otherwise the first import that is not provided is refused, for a
reason of its own (`Resolves`, `imports_resolved`). That takes a pass that keeps what is linked, and
puts out a module that the machine can run.

Where names do not decide, an import with the name of another one, of the hook or of `env.memory` is
not looked at, whatever it is. It is left to the machine, which does not tell which import it is
that does not fit (`overlooked_imports`).
-/

set_option autoImplicit false

namespace MeteredWasm

open Wasm Machine Metering Simulation Linking

/-! ## Laying out what is provided -/

/-- Nobody provides tables. -/
theorem importedTables_of_agrees {m : Module} {provided : Option Memory}
    (h : m.imports.all (agrees m provided) = true) : m.importedTables = [] := by
  refine List.filterMap_eq_nil_iff.2 fun i hi => ?_
  have hagrees := List.all_eq_true.1 h i hi
  unfold agrees at hagrees
  cases htype : i.type
  case table => simp [htype] at hagrees
  all_goals rfl

/-- A memory of the size that is asked for, which does not grow past what is declared. -/
theorem memoryFits_ofPages {type : MemoryType} {most : Nat}
    (h : ∀ max, type.limits.max = some max → most ≤ max.toNat) (hnarrow : type.is64 = false) :
    memoryFits (.ofPages type.limits.min.toNat most type.shared false) type = true := by
  have hpages := Memory.pages_ofPages type.limits.min.toNat most type.shared false
  have hmost : (type.limits.max.all fun max => decide (most ≤ max.toNat)) = true := by
    simpa [Option.all_eq_true] using h
  simp only [memoryFits, hpages, Nat.le_refl, decide_true, Bool.and_true, Bool.and_eq_true,
    decide_eq_true_eq]
  exact ⟨⟨rfl, hnarrow.symm⟩, hmost⟩

theorem exists_imported {m : Module} {imports : Imports} (hnames : NamesDecide m)
    (h : ∀ i ∈ m.imports, Provided m imports i) :
    ∃ imported, imported? m imports = some imported := by
  refine exists_mapM fun (i, type) hi => ?_
  obtain ⟨i', hi', hsome⟩ := List.mem_filterMap.1 hi
  obtain ⟨htype, rfl⟩ : funcType? m i' = some type ∧ i' = i := by
    rw [Option.map_eq_some_iff] at hsome
    obtain ⟨_, htype, hpair⟩ := hsome
    obtain ⟨rfl, rfl⟩ := Prod.mk.inj hpair
    exact ⟨htype, rfl⟩
  have hhook := hnames.hook i' hi'
  cases h i' hi' with
  | hook name => exact absurd name hhook
  | memory _ kind => simp [funcType?, kind] at htype
  | print name => exact ⟨_, by simp only [hostFunction?, if_neg hhook, if_pos name]; rfl⟩
  | function other there =>
    exact ⟨_, by simp only [hostFunction?, if_neg hhook, if_neg other.2, there]; rfl⟩

section
variable {pass : Suspension.Pass} {order : ExportOrder} {options : Options} {rules : Rules}
  {binary : Bytes} {s : Summary} {m m' m'' : Module} {a : Artifact}
  (hm : Instrumented pass order options rules binary s m m' a)
include hm

/-- The host provides the memory that the module imports. -/
theorem Instrumented.providedMemory_fits {i : Import} (hi : i ∈ m.imports) {type : MemoryType}
    (hkind : i.type = .memory type) (ceiling : UInt64) :
    (providedMemory a.memory ceiling).any (memoryFits · type) = true := by
  have hfull := decode_full_of_core (Validation.validate_eq_some hm.valid).1
  obtain ⟨hsummary, -⟩ := summary_memories_filter hm.summary hfull
  rw [(checked_of_check hm.check).memories] at hsummary
  have himported : type ∈ m.importedMemories := List.mem_filterMap.2 ⟨i, hi, by rw [hkind]⟩
  have hinfo : a.memory = ⟨type.limits, type.shared, true⟩ := by
    have hmem : (⟨type.limits, type.shared, true⟩ : MemoryInfo) ∈
        [a.memory].filter (·.isImported) := hsummary ▸ List.mem_map_of_mem himported
    exact (List.mem_singleton.1 (List.mem_of_mem_filter hmem)).symm
  have hcapped := toNat_capped type.limits ceiling
  obtain ⟨c, hc, hdeclarations⟩ := Validation.declarations_of_validate hm.valid
  have hnarrow := (hdeclarations.narrow (by rw [(Validation.const_of_context hc).1]; rfl)).2 type
    (List.mem_append_left _ himported)
  rw [hinfo]
  refine memoryFits_ofPages (fun max hmax => ?_) hnarrow
  rw [hcapped, hmax, Option.getD_some]
  exact Nat.min_le_left ..

/-- Storage is laid out: the module's own memory starts under the ceiling. -/
theorem Instrumented.exists_emptyStorage {ceiling : UInt64}
    (hlimits : checkLimits a.memory ceiling = .ok ()) : ∃ st,
      emptyStorage? m (providedMemory a.memory ceiling) ceiling = some st := by
  obtain ⟨type, htypes, hsame, -⟩ := hm.memory_type
  obtain ⟨hmin, -⟩ := of_checkLimits hlimits
  have hceiling : type.limits.min.toNat ≤ ceilingPages ceiling := by
    have hcapped := toNat_capped a.memory.limits ceiling
    rw [hsame]
    omega
  have hown : ∀ own ∈ m.memories, ∃ memory, definedMemory? ceiling own = some memory := by
    intro own hown
    obtain rfl : own = type := by
      have hmem : own ∈ m.memoryTypes := List.mem_append_right _ hown
      rwa [htypes, List.mem_singleton] at hmem
    exact ⟨_, by rw [definedMemory?, if_pos hceiling]⟩
  obtain ⟨defined, hdefined⟩ := exists_mapM hown
  exact ⟨_, by rw [emptyStorage?, hdefined]; rfl⟩

/-- What is laid out has the shape that the module declares, if it has no table from outside. -/
theorem Instrumented.shaped {ceiling : UInt64} {st : Storage} {type : MemoryType}
    (hst : emptyStorage? m (providedMemory a.memory ceiling) ceiling = some st)
    (hsame : type.limits = a.memory.limits) (htables : m.importedTables = []) :
    Shaped type m.tableTypes st := by
  obtain ⟨most, is64, hmemory⟩ := hm.first_memory_size hst
  have hsize := Memory.size_ofPages a.memory.limits.min.toNat most a.memory.isShared is64
  refine ⟨⟨_, hmemory, hsame ▸ hsize⟩, ?_⟩
  simp only [emptyStorage?, Option.bind_eq_bind, Option.bind_eq_some_iff, Option.pure_def,
    Option.some.injEq] at hst
  obtain ⟨_, -, rfl⟩ := hst
  simp [Module.tableTypes, htables, definedTable, Function.comp_def]

/-! ## Linking -/

/-- What is provided is all that is missing: what the pass has made can be linked, too. -/
theorem Instrumented.exists_instance (hkept : Suspension.Kept m' m'') (hnamed : Named m'')
    {imports : Imports} {ceiling : UInt64}
    (hlimits : checkLimits a.memory ceiling = .ok ()) (hfits : SegmentsFit m)
    (hnames : NamesDecide m) (hprovided : ∀ i ∈ m.imports, Provided m imports i)
    (hardware : Hardware) :
    ∃ p, instantiate? a imports ceiling hardware m'' = some p := by
  obtain ⟨_, hmeterable, hcarries, -, -⟩ := hm.carries
  obtain ⟨type, htypes, hsame, -⟩ := hm.memory_type
  obtain ⟨c, hc, hdeclarations⟩ := Validation.declarations_of_validate hm.valid
  have hagrees : m.imports.all (agrees m (providedMemory a.memory ceiling)) = true :=
    List.all_eq_true.2 fun i hi => agrees_of_provided hnames hi (hprovided i hi)
      fun _ hkind => hm.providedMemory_fits hi hkind ceiling
  obtain ⟨imported, himported⟩ := exists_imported hnames hprovided
  obtain ⟨defined, hdefined⟩ := Suspension.exists_defined hmeterable.named
  obtain ⟨st₀, hst₀⟩ := hm.exists_emptyStorage hlimits
  have hcompletes := fill_completes rfl rfl hc hdeclarations htypes
    (importedGlobals_of_agrees hagrees) hfits
  obtain ⟨_, st, hfill, -, -⟩ := hcompletes.completed st₀
    (hm.shaped hst₀ hsame (importedTables_of_agrees hagrees))
  obtain ⟨p, hp, -⟩ := hcarries.exists_linked hmeterable <|
    instantiate_eq_some.2 ⟨imported, defined, st₀, st, hagrees, himported, hdefined, hst₀, hfill, rfl⟩
  exact hkept.exists_instance hnamed hp

/-- The machine links only where names decide. -/
theorem Instrumented.namesDecide (hkept : Suspension.Kept m' m'') {imports : Imports}
    {ceiling : UInt64} {hardware : Hardware} {p : Prepared}
    (hp : instantiate? a imports ceiling hardware m'' = some p) :
    NamesDecide m := by
  obtain ⟨_, hmeterable, hcarries, -, -⟩ := hm.carries
  obtain ⟨_, _, _, _, hagrees, -⟩ := instantiate_eq_some.1 hp
  rw [hkept.all_agrees, hcarries.all_agrees hmeterable] at hagrees
  exact namesDecide_of_agrees hmeterable.reserved hagrees

end

namespace Executor

/-- How the imports of a module decide what is made of its artifact. -/
structure Resolves (m : Module) (a : Artifact) (imports : Imports)
    (made : Except InstantiationError Executor) : Prop where
  /-- Where all that is imported is provided, only the size of the memory can be wrong. -/
  linked : NamesDecide m → SegmentsFit m → (∀ i ∈ m.imports, Provided m imports i) →
    (a.controlBlock.requiredMemory ≤ a.memory.limits.minBytes → ∃ e, made = .ok e) ∧
      (a.memory.limits.minBytes < a.controlBlock.requiredMemory →
        made = .error (.memoryTooSmall a.memory.limits.minBytes a.controlBlock.requiredMemory))
  /-- The first import that is not provided is refused. -/
  refused : NamesDecide m → ∀ before i after, m.imports = before ++ i :: after →
    (∀ j ∈ before, Provided m imports j) → ¬Provided m imports i →
      ∃ err, made = .error err ∧ Refused m imports i err
  /-- Where names do not decide, the first import that is looked at and not provided is refused. -/
  examined : ∀ before i after, m.imports = before ++ i :: after → AllExamined m imports before →
    Examined before i → ¬Provided m imports i → ∃ err, made = .error err ∧ Refused m imports i err
  /-- If there is no such import, the machine does not link the module. -/
  clash : ¬NamesDecide m → AllExamined m imports m.imports → ∃ reason, made = .error (.link reason)

section
variable {m : Module} {a : Artifact} {imports : Imports} {made : Except InstantiationError Executor}

/-- Where names decide, an import behind provided ones that is not provided is looked at, and so is
nothing before it that is not provided. -/
theorem examined_of_provided {before after : List Import} {i : Import} (hnames : NamesDecide m)
    (himports : m.imports = before ++ i :: after) (hbefore : ∀ j ∈ before, Provided m imports j)
    (hmissing : ¬Provided m imports i) : AllExamined m imports before ∧ Examined before i := by
  refine ⟨fun front j rest hitems _ => hbefore j ?_, hnames.examined himports hbefore hmissing⟩
  simp [hitems]

/-- The imports are let through: what is left to decide is the machine's part. -/
theorem resolves_of_checked (h : checkImports m imports [] m.imports = .ok ())
    (hlinked : NamesDecide m → SegmentsFit m → (∀ i ∈ m.imports, Provided m imports i) →
      (a.controlBlock.requiredMemory ≤ a.memory.limits.minBytes → ∃ e, made = .ok e) ∧
        (a.memory.limits.minBytes < a.controlBlock.requiredMemory →
          made = .error (.memoryTooSmall a.memory.limits.minBytes a.controlBlock.requiredMemory)))
    (hclash : ¬NamesDecide m → ∃ reason, made = .error (.link reason)) :
    Resolves m a imports made := by
  have hexamined {before after : List Import} {i : Import}
      (himports : m.imports = before ++ i :: after) (hbefore : AllExamined m imports before)
      (hi : Examined before i) : Provided m imports i := by
    by_contra hmissing
    obtain ⟨err, herr, -⟩ := checkImports_error_of after hbefore hi hmissing
    rw [himports, herr] at h
    cases h
  refine ⟨hlinked, fun hnames before i after himports hbefore hmissing => ?_,
    fun before i after himports hbefore hi hmissing => ?_, fun hnames _ => hclash hnames⟩
  · obtain ⟨hall, hi⟩ := examined_of_provided hnames himports hbefore hmissing
    exact absurd (hexamined himports hall hi) hmissing
  · exact absurd (hexamined himports hbefore hi) hmissing

/-- An import is refused: it is the first that is looked at and not provided. -/
theorem resolves_of_refused {err : InstantiationError}
    (h : checkImports m imports [] m.imports = .error err) : Resolves m a imports (.error err) := by
  have hall : ¬AllExamined m imports m.imports := fun hall => by
    rw [checkImports_ok hall] at h
    cases h
  have hexamined {before after : List Import} {i : Import}
      (himports : m.imports = before ++ i :: after) (hbefore : AllExamined m imports before)
      (hi : Examined before i) (hmissing : ¬Provided m imports i) : Refused m imports i err := by
    obtain ⟨err', herr, hrefused⟩ := checkImports_error_of after hbefore hi hmissing
    rw [himports, herr] at h
    cases h
    exact hrefused
  refine ⟨fun _ _ hprovided => absurd (fun before i after himports _ => hprovided i ?_) hall,
    fun hnames before i after himports hbefore hmissing => ?_,
    fun before i after himports hbefore hi hmissing =>
      ⟨err, rfl, hexamined himports hbefore hi hmissing⟩, fun _ h => absurd h hall⟩
  · simp [himports]
  · obtain ⟨hall', hi⟩ := examined_of_provided hnames himports hbefore hmissing
    exact ⟨err, rfl, hexamined himports hall' hi hmissing⟩

/-- If an artifact cannot be linked, no executor of it is made. -/
theorem create_of_error {fuel : Nat} {r : Runtime} {ceiling : UInt64} {err : InstantiationError}
    (h : Linking.prepare a imports ceiling (hardware r) = .error err) :
    create fuel r a imports ceiling = some (.error err, []) := by
  simp only [create, h]

end

section
variable {pass : Suspension.Pass} {order : ExportOrder} {options : Options} {rules : Rules}
  {binary : Bytes} {s : Summary} {m m' m'' : Module} {a : Artifact}
  (hm : Instrumented pass order options rules binary s m m' a)
include hm

theorem resolves_of_valid (hkeeps : pass.Keeps (Instrument.request options)) {ceiling : UInt64}
    {imports : Imports} (r : Runtime) (fuel : Nat) (hlimits : checkLimits a.memory ceiling = .ok ())
    (hvalid : Validation.validate? .engine a.wasm = some m'') :
    ∃ made, create fuel r a imports ceiling = some (made, []) ∧ Resolves m a imports made := by
  have hkept := hm.kept hkeeps hvalid
  have himports := hm.checkImports_eq hkept imports
  cases hchecked : checkImports m imports [] m.imports with
  | error err =>
    refine ⟨.error err, create_of_error ?_, resolves_of_refused hchecked⟩
    simp only [Linking.prepare, hlimits, hvalid, himports, hchecked, except_ok_bind]
    rfl
  | ok _ =>
    cases hp : instantiate? a imports ceiling (hardware r) m'' with
    | none =>
      have hprepare : Linking.prepare a imports ceiling (hardware r) =
          .error (.link "an import or a segment does not fit") := by
        simp only [Linking.prepare, hlimits, hvalid, himports, hchecked, hp, except_ok_bind]
        rfl
      refine ⟨_, create_of_error hprepare, resolves_of_checked hchecked
        (fun hnames hfits hprovided => ?_) fun _ => ⟨_, rfl⟩⟩
      obtain ⟨p, hsome⟩ := hm.exists_instance hkept (Validation.named_of_validate hvalid) hlimits
        hfits hnames hprovided _
      rw [hsome] at hp
      cases hp
    | some p =>
      have hnames := hm.namesDecide hkept hp
      have hprepare := prepare_eq_ok.2 ⟨hlimits, _, hvalid, himports.trans hchecked, hp⟩
      obtain ⟨hholds, hsmall⟩ := hm.made_of_linked hkeeps fuel hprepare
      rcases Nat.lt_or_ge a.memory.limits.minBytes a.controlBlock.requiredMemory with hlt | hle
      · exact ⟨_, hsmall hlt, resolves_of_checked hchecked
          (fun _ _ _ => ⟨fun hle => absurd hlt (Nat.not_lt.2 hle), fun _ => rfl⟩)
          fun hclash => absurd hnames hclash⟩
      · obtain ⟨e, he⟩ := hholds hle
        exact ⟨_, he, resolves_of_checked hchecked
          (fun _ _ _ => ⟨fun _ => ⟨e, rfl⟩, fun hlt => absurd hlt (Nat.not_lt.2 hle)⟩)
          fun hclash => absurd hnames hclash⟩

end

/-- A module that imports functions and does not call them: it has an entry that does nothing. -/
def importing (imports : List Import) : Module :=
  ⟨[.types [.plain ⟨[], []⟩, .plain ⟨[.i32], []⟩], .imports imports, .functions [0],
    .memories [⟨⟨1, none⟩, false, false, none⟩],
    .exports [⟨"entry", .func, imports.length.toUInt32⟩], .code [⟨[], [.endMark]⟩]]⟩

/-- The same, metered. -/
def importingMetered (imports : List Import) : Module :=
  ⟨[.types [.plain ⟨[], []⟩, .plain ⟨[.i32], []⟩, hookTypeEntry],
    .imports (imports ++ [⟨hookModule, hookName, .func 2⟩]), .functions [0],
    .memories [⟨⟨1, none⟩, false, false, none⟩],
    .exports [⟨"entry", .func, (imports.length + 1).toUInt32⟩, ⟨"memory", .memory, 0⟩],
    .code [⟨[], [.i32Const 10, .call imports.length.toUInt32, .endMark]⟩]]⟩

/-- The same, able to unwind: it does as the idle module does. -/
def importingUnwound (imports : List Import) : Module :=
  let count := imports.length
  let functions := Suspension.added idleGlobals
  ⟨[.types ([.plain ⟨[], []⟩, .plain ⟨[.i32], []⟩, hookTypeEntry] ++
      functions.map fun f => .plain f.type),
    .imports (imports ++ [⟨hookModule, hookName, .func 2⟩]), .functions [0, 3, 4, 5, 6, 7],
    .memories [⟨⟨1, none⟩, false, false, none⟩],
    .globals (List.replicate 2 ⟨⟨.i32, true, false⟩, [.i32Const 0]⟩),
    .exports ([⟨"entry", .func, (count + 1).toUInt32⟩, ⟨"memory", .memory, 0⟩] ++
      functions.zipIdx.map fun (f, k) => ⟨f.name, .func, (count + 2 + k).toUInt32⟩),
    .code (⟨[(1, .i32), (1, .i32)], (idleCode 10).map (.mapFunc fun _ => count.toUInt32)⟩ ::
      functions.map fun f => ⟨[], f.code⟩)]⟩

def importingArtifact (imports : List Import) : Artifact :=
  { idleArtifact 10 .standard with wasm := (importingUnwound imports).encode }

/-- A function that prints, and another one twice. -/
def someImports : List Import :=
  [⟨"env", "print", .func 1⟩, ⟨"host", "tick", .func 0⟩, ⟨"host", "tick", .func 0⟩]

/-- A host that prints, and that has a function `host.tick` with these parameters. -/
def ticking (params : List ValType) : Imports :=
  ⟨true, [⟨"host", "tick", params, [], fun _ _ => .ok []⟩]⟩

/-- A pass for this module alone. -/
def importingPass : Suspension.Pass :=
  Suspension.unwinding.only (importingMetered someImports).encode

theorem unwinding_importing (request : Suspension.Request) :
    Suspension.unwinding request (importingMetered someImports).encode =
      .ok (importingUnwound someImports).encode := by
  change Suspension.unwinding ⟨.level0, .level0, false⟩ _ = _
  decide +kernel

theorem valid_importingUnwound :
    Validation.validate? .engine (importingUnwound someImports).encode =
      some (importingUnwound someImports) := by
  decide +kernel

theorem kept_importing :
    Suspension.Kept (importingMetered someImports) (importingUnwound someImports) where
  imports := by decide
  exports := by decide
  controls := by decide
  memory provided ceiling := by
    change ((([⟨⟨1, none⟩, false, false, none⟩] : List MemoryType).mapM
      (definedMemory? ceiling)).bind _).bind _ = ((([⟨⟨1, none⟩, false, false, none⟩] :
        List MemoryType).mapM (definedMemory? ceiling)).bind _).bind _
    cases ([⟨⟨1, none⟩, false, false, none⟩] : List MemoryType).mapM (definedMemory? ceiling) with
    | none => rfl
    | some defined => rfl
  starts _ := rfl

theorem keeps_importingPass (request : Suspension.Request) : importingPass.Keeps request :=
  Suspension.Pass.keeps_only (by decide +kernel) (unwinding_importing request)
    valid_importingUnwound kept_importing

theorem instrument_importing : instrumentWith importingPass .written .standard (.constant 10)
    (importing someImports).encode = .ok (importingArtifact someImports) := by
  decide +kernel

theorem namesDecide_importing : NamesDecide (importing someImports) where
  memory i hi name := by
    have hother : ∀ i ∈ (importing someImports).imports, key i ≠ memoryImport := by decide
    exact absurd name (hother i hi)
  hook := by decide
  same := by decide

theorem segmentsFit_importing (imports : List Import) : SegmentsFit (importing imports) :=
  ⟨List.forall_mem_nil _, List.forall_mem_nil _⟩

/-- What becomes of the module with these imports. -/
theorem resolves_importing {imports : Imports} (h : ∃ binary m made,
      Instrument.toBinary? (importing someImports).encode = some binary ∧
      Validation.validate? .sandbox binary = some m ∧
      create 1 shallow (importingArtifact someImports) imports 256 = some (made, []) ∧
      Resolves m (importingArtifact someImports) imports made) :
    ∃ made, create 1 shallow (importingArtifact someImports) imports 256 = some (made, []) ∧
      Resolves (importing someImports) (importingArtifact someImports) imports made := by
  obtain ⟨binary, m, made, hbinary, hvalid, hcreate, hresolves⟩ := h
  have hsame : binary = (importing someImports).encode :=
    Option.some.inj (hbinary.symm.trans (by decide +kernel))
  subst hsame
  have hmodule : m = importing someImports := Option.some.inj (hvalid.symm.trans (by decide +kernel))
  subst hmodule
  exact ⟨made, hcreate, hresolves⟩

theorem provided_print (params : List ValType) :
    Provided (importing someImports) (ticking params) ⟨"env", "print", .func 1⟩ :=
  .print rfl rfl rfl rfl

theorem provided_tick : Provided (importing someImports) (ticking []) ⟨"host", "tick", .func 0⟩ :=
  .function (by decide) rfl rfl

/-- Where there is no host, nothing prints. -/
theorem refused_print {err : InstantiationError}
    (h : Refused (importing someImports) .empty ⟨"env", "print", .func 1⟩ err) :
    err = .missingImport "env" "print" := by
  cases h with
  | otherKind | noPrint | unknown => rfl
  | printResults _ _ there => cases there
  | otherType _ _ there => cases there

/-- A function with a parameter is not one without. -/
theorem refused_tick {err : InstantiationError}
    (h : Refused (importing someImports) (ticking [.i32]) ⟨"host", "tick", .func 0⟩ err) :
    err = .incompatibleImport "host" "tick" := by
  cases h with
  | otherKind kind => cases kind
  | noPrint _ name => exact absurd name (by decide)
  | unknown _ _ absent => cases absent
  | printResults | otherType => rfl

/-- Names do not decide here: a function has the name of the host's memory. -/
def misnamed : List Import := [⟨"env", "memory", .func 0⟩]

/-- Nor here: one name stands for functions of two types. -/
def twice : List Import := [⟨"env", "print", .func 0⟩, ⟨"env", "print", .func 1⟩]

theorem create_importing_link {asked : List Import} {imports : Imports}
    (hvalid : Validation.validate? .engine (importingArtifact asked).wasm =
      some (importingUnwound asked))
    (hchecked : checkImports (importingUnwound asked) imports []
      (importingUnwound asked).imports = .ok ())
    (hunlinked : instantiate? (importingArtifact asked) imports 256 (hardware shallow)
      (importingUnwound asked) = none) :
    create 1 shallow (importingArtifact asked) imports 256 =
      some (.error (.link "an import or a segment does not fit"), []) := by
  have hlimits : checkLimits (importingArtifact asked).memory 256 = .ok () := rfl
  refine create_of_error ?_
  simp only [Linking.prepare, hlimits, hvalid, hchecked, hunlinked, except_ok_bind]
  rfl

end Executor

end MeteredWasm
