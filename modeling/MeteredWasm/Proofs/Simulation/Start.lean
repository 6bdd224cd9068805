import MeteredWasm.Proofs.Simulation.Linked
import MeteredWasm.Proofs.Simulation.Scope

/-!
# Where instances start

An instance of a valid module is closed: its code names nothing that it does not have
(`closed_of_instantiate`). Its storage refers to its own functions only, so a call of one of them
starts in scope (`scoped_call`).
-/

set_option autoImplicit false

namespace MeteredWasm.Linking

open Wasm Machine Metering Simulation

/-- How many functions a module has. -/
def funcCount (m : Module) : UInt32 := m.funcTypes.length.toUInt32

section
variable {plan : Plan} {m : Module} {a : Artifact} {imports : Imports} {ceiling : UInt64}
  {hardware : Hardware} {p : Prepared} (hm : Meterable plan m)

theorem Meterable.toNat_funcCount (hm : Meterable plan m) :
    (funcCount m).toNat = m.funcTypes.length := Named.toNat_toUInt32 hm.named.funcs

theorem Meterable.funcCount_ne_last (hm : Meterable plan m) : funcCount m ≠ 0xFFFFFFFF := by
  intro h
  have hcount := hm.toNat_funcCount
  have hfuncs : m.funcTypes.length ≤ 1000000 := hm.named.funcs
  rw [h] at hcount
  simp only [UInt32.reduceToNat] at hcount
  omega

/-- An imported function is one of the host. -/
theorem imported_cases (hm : Meterable plan m) {P : HostBehaviour → Prop}
    (hhosts : ∀ f ∈ imports.functions, P f.behaviour) (hprint : P printBehaviour)
    {imported : List Function} (h : imported? m imports = some imported) {f : Function}
    (hf : f ∈ imported) : ∃ module name type behaviour,
      f = .host module name type behaviour ∧ P behaviour := by
  obtain ⟨⟨i, type⟩, hi, hf⟩ := mem_of_mapM h hf
  obtain ⟨i', hmem, hi⟩ := List.mem_filterMap.1 hi
  rw [Option.map_eq_some_iff] at hi
  obtain ⟨type', htype, heq⟩ := hi
  cases heq
  have hfunction : i.function?.isSome := by
    unfold funcType? at htype
    unfold Import.function?
    cases ht : i.type <;> simp_all
  have hkey := hm.reserved i hmem hfunction
  dsimp only [hostFunction?] at hf
  rw [if_neg hkey] at hf
  split at hf
  · cases hf
    exact ⟨_, _, _, _, rfl, hprint⟩
  · split at hf
    · rename_i f' hfind
      cases hf
      exact ⟨_, _, _, _, rfl, hhosts f' (List.mem_of_find?_eq_some hfind)⟩
    · cases hf

/-- A defined function has the code of its body. -/
theorem defined_cases {defined : List Function} (h : defined? m = some defined) {k : Nat}
    {f : Function} (hf : defined[k]? = some f) : ∃ type locals body,
      m.bodies[k]? = some body ∧ f = .code type locals body.code := by
  obtain ⟨⟨index, body⟩, hk, hf⟩ := getElem_of_mapM h hf
  simp only [define?, Option.bind_eq_bind, Option.bind_eq_some_iff, Option.pure_def,
    Option.some.injEq] at hf
  obtain ⟨entry, -, rfl⟩ := hf
  exact ⟨_, _, body, (List.getElem?_zip_eq_some.1 hk).2, rfl⟩

theorem printBehaviour_opaque : printBehaviour.Opaque := fun _ _ _ _ => rfl

include hm

/-- A function of an instance is one of the host or has the code of its body. -/
theorem function_cases {P : HostBehaviour → Prop} (hhosts : ∀ f ∈ imports.functions, P f.behaviour)
    (hprint : P printBehaviour) (h : instantiate? a imports ceiling hardware m = some p)
    {func : UInt32} {f : Function} (hf : p.instance_.function? func = some f) :
    (∃ module name type behaviour, f = .host module name type behaviour ∧ P behaviour) ∨
      ∃ type locals body, m.bodies[func.toNat - m.importedFuncs.length]? = some body ∧
        f = .code type locals body.code := by
  obtain ⟨imported, defined, st₀, st, -, himported, hdefined, -, -, rfl⟩ :=
    instantiate_eq_some.1 h
  have hlength : imported.length = m.importedFuncs.length :=
    (length_of_mapM himported).trans (length_importedTypes hm.named)
  change (imported ++ defined).toArray[func.toNat]? = _ at hf
  rw [List.getElem?_toArray, List.getElem?_append, hlength] at hf
  split at hf
  · exact .inl (imported_cases hm hhosts hprint himported (List.mem_of_getElem? hf))
  · exact .inr (defined_cases hdefined hf)

theorem closed_of_instantiate (hhosts : imports.Opaque)
    (h : instantiate? a imports ceiling hardware m = some p) :
    Closed (funcCount m) p.instance_ := by
  have hcases {func : UInt32} {f : Function} (hf : p.instance_.function? func = some f) :=
    function_cases hm hhosts printBehaviour_opaque h hf
  refine ⟨hm.funcCount_ne_last, fun func type locals body hf op hop => ?_, fun func hf => ?_,
    fun func module name type behaviour hf => ?_⟩
  · rcases hcases hf with ⟨_, _, _, _, heq, -⟩ | ⟨_, _, b, hb, heq⟩
    · cases heq
    · cases heq
      obtain ⟨hfunc, htype⟩ := hm.named.code b (List.mem_of_getElem? hb) op hop
      refine ⟨fun f hf => hm.toNat_funcCount ▸ hfunc f hf, fun t ht => ?_⟩
      obtain ⟨_, _, _, _, -, -, -, -, -, rfl⟩ := instantiate_eq_some.1 h
      change (m.types.map TypeEntry.type).toArray[t.toNat]?.isSome
      rw [List.getElem?_toArray, List.getElem?_map, Option.isSome_map]
      simpa using htype t ht
  · rcases hcases hf with ⟨_, _, _, _, heq, -⟩ | ⟨_, _, b, hb, heq⟩ <;> cases heq
  · rcases hcases hf with ⟨_, _, _, _, heq, hop⟩ | ⟨_, _, b, hb, heq⟩
    · cases heq
      exact hop
    · cases heq

/-- Storage that has been laid out refers to functions of the module only. -/
theorem storage_scoped (h : instantiate? a imports ceiling hardware m = some p) :
    p.storage.Agrees (cycle (funcCount m)) nothing p.storage := by
  obtain ⟨imported, defined, st₀, st, -, -, -, hst₀, hfill, rfl⟩ := instantiate_eq_some.1 h
  have hfix (func : UInt32) (hfunc : func.toNat < m.funcTypes.length) :
      cycle (funcCount m) func = func :=
    (cycle_eq_self_iff hm.funcCount_ne_last).2 (hm.toNat_funcCount.symm ▸ hfunc)
  have halike := fill_agrees (empty_agrees hst₀ (cycle (funcCount m)))
    (hm.named.globals_mapFunc hfix).symm (hm.named.elements_mapFunc hfix).symm
    (hm.named.datas_mapFunc hfix).symm
  rw [hfill] at halike
  cases halike with
  | ok _ hst => exact hst

/-- A call of a function of the module starts in scope. -/
theorem scoped_call (i : Instance) {sb : Sandbox}
    (hst : sb.storage.Agrees (cycle (funcCount m)) nothing sb.storage)
    (hcalls : ∀ c ∈ sb.calls, ∀ v ∈ c.args, Below m.funcTypes.length v) {func : UInt32}
    (hfunc : func.toNat < m.funcTypes.length) :
    Scoped (funcCount m) i ⟨sb, .call func []⟩ := by
  have hfix : cycle (funcCount m) func = func :=
    (cycle_eq_self_iff hm.funcCount_ne_last).2 (hm.toNat_funcCount.symm ▸ hfunc)
  refine ⟨?_, ⟨hst, ?_⟩, ⟨fun a ha => (nomatch ha), fun frame hf => (nomatch hf)⟩⟩
  · simp [Thread.call, Translation.thread, Translation.control, Translation.rename, hfix,
      Translation.values]
  · refine ((calls_below_iff hm.funcCount_ne_last).2 ?_).symm
    rwa [hm.toNat_funcCount]

end

end MeteredWasm.Linking
