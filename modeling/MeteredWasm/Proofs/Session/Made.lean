import MeteredWasm.Proofs.Session.Fresh
import MeteredWasm.Proofs.Session.Original

/-!
# Executors that have just been made

An artifact has been made of a source (`Sourced`). A fresh executor of it stands at its entry, beside
the original machine at its own (`Sourced.exists_making`).
-/

set_option autoImplicit false

namespace MeteredWasm

open Wasm Machine Metering Simulation Linking Suspension

section
variable {a : Artifact} {imports : Imports} {ceiling : UInt64} {hardware : Hardware} {m : Module}
  {p : Prepared} (h : instantiate? a imports ceiling hardware m = some p)
include h

/-- Linking leaves open where the control block is. -/
theorem Linking.blockMemory_of_instantiate : p.instance_.blockMemory = 0 := by
  obtain ⟨_, _, _, _, -, -, -, -, -, rfl⟩ := instantiate_eq_some.1 h
  rfl

theorem Linking.controlBlock_of_instantiate : p.instance_.controlBlock = a.controlBlock := by
  obtain ⟨_, _, _, _, -, -, -, -, -, rfl⟩ := instantiate_eq_some.1 h
  rfl

/-- Linking leaves open what unwinds the instance. -/
theorem Linking.controls_of_instantiate : p.instance_.controls = none := by
  obtain ⟨_, _, _, _, -, -, -, -, -, rfl⟩ := instantiate_eq_some.1 h
  rfl

end

namespace Executor

/-- The artifact has been made of a source that holds the module `m`. As it is, that module is linked
as `p`, and its entry is the function `entry`. -/
inductive Sourced (pass : Pass) (options : Options) (rules : Rules) (a : Artifact) (imports : Imports)
    (ceiling : UInt64) (relaxed : RelaxedResults) (m : Module) (p : Prepared) (entry : UInt32) : Prop
  | of {order : ExportOrder} {source binary : Bytes} {depth : Nat}
      (translated : Instrument.toBinary? source = some binary)
      (valid : Validation.validate? .sandbox binary = some m)
      (exported : exportedFunc? m options.entry = some entry)
      (instrument : instrumentWith pass order options rules source = .ok a)
      (linked : instantiate? a imports ceiling ⟨depth, relaxed⟩ m = some p)

/-- The executor stands at its entry, and nothing has happened. -/
structure Making.Begins (M : Making) (s : State) (e : Executor) : Prop where
  stands : M.Stands nothing s e
  thread : s.thread = .call M.entry []
  gas : e.gas = 0
  paused : e.isPaused = false
  calls : e.sandbox.calls = []
  memories : e.sandbox.storage.memories.length = 1

/-- What agrees with nothing hidden agrees with something hidden. -/
theorem agrees_hide {g : UInt32 → UInt32} {st st' : Storage} (h : st.Agrees g nothing st')
    (hidden : Nat → Nat → Prop) : st.Agrees g hidden st' where
  memoryCount := h.memoryCount
  memories k m m' hm hm' := by
    obtain ⟨hsize, hmaxPages, hshared, his64, hbyte⟩ := h.memories k m m' hm hm'
    exact ⟨hsize, hmaxPages, hshared, his64, fun address _ => hbyte address id⟩
  tables := h.tables
  globals := h.globals
  elements := h.elements
  datas := h.datas

theorem Making.Stands.hide {M : Making} {s : State} {e : Executor} (h : M.Stands nothing s e)
    (hidden : Nat → Nat → Prop) : M.Stands hidden s e := by
  obtain ⟨hd, hs, ⟨s₀, left, hmirrors, hsandboxes, hstage⟩, hopen⟩ := h
  exact ⟨hd, hs, ⟨s₀, left, hmirrors, ⟨agrees_hide hsandboxes.storage hidden, hsandboxes.calls⟩,
    hstage⟩, hopen⟩

theorem findEntry_eq_ok {a : Artifact} {p : Prepared} {entry : UInt32} :
    findEntry a p = .ok entry ↔ exportedFunc? p.module a.entry = some entry ∧
      requireType p.instance_ a.entry entry ⟨[], []⟩ = .ok () := by
  unfold findEntry requireFunc
  cases exportedFunc? p.module a.entry with
  | none => simp
  | some func =>
    simp only [except_bind_eq_ok]
    constructor
    · rintro ⟨_, hfunc, _, htype, h⟩
      cases hfunc
      cases h
      exact ⟨rfl, htype⟩
    · rintro ⟨hfunc, htype⟩
      cases hfunc
      exact ⟨_, rfl, (), htype, rfl⟩

/-- The control functions are found by their names. -/
theorem controls_unique {p p' : Prepared} {controls controls' : Controls}
    (hmodule : p'.module = p.module) (h : findControls p = .ok controls)
    (h' : findControls p' = .ok controls') : controls' = controls := by
  unfold findControls at h h'
  rw [hmodule] at h'
  simp only [except_bind_eq_ok] at h h'
  obtain ⟨_, h₁, _, h₂, _, h₃, _, h₄, _, -, _, -, _, -, _, -, h⟩ := h
  obtain ⟨_, h₁', _, h₂', _, h₃', _, h₄', _, -, _, -, _, -, _, -, h'⟩ := h'
  cases h₁.symm.trans h₁'
  cases h₂.symm.trans h₂'
  cases h₃.symm.trans h₃'
  cases h₄.symm.trans h₄'
  cases h
  cases h'
  rfl

section
variable {pass : Pass} {options : Options} {rules : Rules} {a : Artifact} {imports : Imports}
  {ceiling : UInt64} {relaxed : RelaxedResults} {m : Module} {p : Prepared} {entry : UInt32}
  {own : Bytes → Nat × Nat} (h : Sourced pass options rules a imports ceiling relaxed m p entry)
  (hkeeps : pass.Keeps (Instrument.request options))
  (hcaptures : pass.Captures (Instrument.request options) options.controlBlock own)
  (hhosts : imports.Opaque)
include h hkeeps hcaptures hhosts

/-- Fresh executors of one artifact have been made alike, and stand beside one original machine. -/
theorem Sourced.exists_making {fuel : Nat} {r : Runtime} {e : Executor} {calls : List HostCall}
    (he : create fuel r a imports ceiling = some (.ok e, calls)) :
    ∃ M : Making, M.plan.rules = rules ∧ M.original = p.instance_ ∧ M.entry = entry ∧
      M.own = own a.wasm ∧ ∀ {fuel : Nat} {r : Runtime} {e : Executor} {calls : List HostCall},
        r.relaxed = relaxed → create fuel r a imports ceiling = some (.ok e, calls) →
        M.Begins (startState p entry 0) e := by
  obtain ⟨htranslated, hvalid, hexported, hinstrument, hlinked⟩ := h
  obtain ⟨s, m', hm⟩ := instrumented_of_valid htranslated hvalid hinstrument
  obtain ⟨memoryExport, hmeterable, hcarries, hmoved, -⟩ := hm.carries
  obtain ⟨p₁, hlinked₁, hshift⟩ := hcarries.exists_linked hmeterable hlinked
  obtain ⟨m'', p₂, controls, hvalid₂, hkept, -, hlinked₂, hcontrols, hentry, -⟩ :=
    hm.created hkeeps he
  have hexported₁ : exportedFunc? m' options.entry = some (shift s.hookIndex entry) := by
    rw [hmoved, hexported]
    rfl
  obtain ⟨hexported₂, -⟩ := findEntry_eq_ok.1 hentry
  rw [hm.entry, module_of_instantiate hlinked₂] at hexported₂
  obtain ⟨C, hC⟩ := hcaptures _ _ _ _ hm.decoded hm.captured hvalid₂ a imports ceiling relaxed
    controls options.entry _ _ hm.controlBlock hhosts hexported₁ hexported₂
  refine ⟨⟨.of s rules memoryExport, funcCount m, p.instance_, p₁.instance_, C, own a.wasm,
    p₂.instance_.reserved, controls, entry⟩, rfl, rfl, rfl, rfl, fun {fuel' r' e' calls'} hr' he' => ?_⟩
  -- the other executor finds the same functions in the same module
  obtain ⟨m₃, p₃, controls₃, hvalid₃, -, -, hlinked₃, hcontrols₃, hentry₃, hattached, -⟩ :=
    hm.created hkeeps he'
  cases hvalid₂.symm.trans hvalid₃
  have hmodule := (module_of_instantiate hlinked₃).trans (module_of_instantiate hlinked₂).symm
  obtain rfl := controls_unique hmodule hcontrols hcontrols₃
  obtain ⟨hexported₃, htype₃⟩ := findEntry_eq_ok.1 hentry₃
  rw [hm.entry, module_of_instantiate hlinked₃, hexported₂] at hexported₃
  have hentries := Option.some.inj hexported₃
  rw [hm.entry] at htype₃
  have hlinked₃ : instantiate? a imports ceiling ⟨r'.options.maxWasmStack.toNat / frameSize, relaxed⟩
      m'' = some p₃ := hr' ▸ hlinked₃
  have hone := hm.one_memory hkept hlinked₃
  obtain ⟨hcaptured, hready⟩ := hC _ _ _ _ hlinked₁ hlinked₃ hone hcontrols₃ (hentries ▸ htype₃)
  obtain ⟨entry₀, hexported₀, hlt⟩ := exists_entry hm.summary hm.check hvalid
  cases hexported.symm.trans hexported₀
  obtain ⟨hblock, hplain⟩ : p₃.instance_.blockMemory = 0 ∧ p₁.instance_.controls = none :=
    ⟨blockMemory_of_instantiate hlinked₃, controls_of_instantiate hlinked₁⟩
  have hreserved : p₃.instance_.reserved = p₂.instance_.reserved := by
    unfold Instance.reserved
    simp only [controlBlock_of_instantiate hlinked₃, controlBlock_of_instantiate hlinked₂, hblock,
      blockMemory_of_instantiate hlinked₂]
  rw [hattached]
  refine ⟨⟨⟨⟨closed_of_instantiate hmeterable hhosts hlinked, ?_, hshift.hook, hplain⟩, ?_, rfl, ?_,
    ?_⟩, ?_, ?_, rfl⟩, rfl, rfl, rfl, rfl, hone⟩
  · rw [hmeterable.toNat_funcCount]
    exact hshift.instances
  · rw [attached, ← hblock, ← hentries]
    exact hcaptured
  · rw [attached, ← hblock]
    exact hreserved
  · exact (cycle_eq_self_iff hmeterable.funcCount_ne_last).2 (hmeterable.toNat_funcCount.symm ▸ hlt)
  · exact scoped_call hmeterable _ (storage_scoped hmeterable hlinked) (by simp) hlt
  · exact ⟨⟨⟨p₁.storage, 0, false, [], []⟩, .call (shift s.hookIndex entry) []⟩, 0,
      ⟨.entry rfl hready, rfl, rfl⟩, ⟨hshift.storage, rfl⟩, .paid (.call entry [])⟩

end

end Executor

end MeteredWasm
