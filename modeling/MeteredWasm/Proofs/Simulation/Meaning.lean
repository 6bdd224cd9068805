import MeteredWasm.Machine.Relaxed
import MeteredWasm.Proofs.Module.Dialect
import MeteredWasm.Proofs.Simulation.Metered
import MeteredWasm.Proofs.Simulation.Start

/-!
# Metering preserves meaning

A module that can be metered and its metered form behave alike as long as there is gas
(`metering_preserves_meaning`): they call the same host functions with the same arguments in the
same order, end with the same results, trap or host error, and leave the same memories, globals
and tables, with functions moved to where the metered module has them. This holds of runs that
end and, state by state, of those that do not.
-/

set_option autoImplicit false

namespace MeteredWasm.Simulation

open Wasm Machine Metering Linking

/-! ## What can be seen -/

/-- The sandbox `sb'` shows what `sb` does, with functions renamed by `g`. -/
structure Shows (g : UInt32 → UInt32) (sb sb' : Sandbox) : Prop where
  calls : sb'.calls = sb.calls.map (HostCall.mapFunc g)
  memories : sb'.storage.memories = sb.storage.memories
  globals : sb'.storage.globals = sb.storage.globals.map (Value.mapFunc g)
  tables : sb'.storage.tables = sb.storage.tables.map (RefTable.mapFunc g)

/-- The outcomes are of one kind and show the same. -/
inductive ShowsSame (g : UInt32 → UInt32) : Outcome → Outcome → Prop
  | finished {results : List Value} {sb sb' : Sandbox} (h : Shows g sb sb') :
      ShowsSame g (.finished results sb) (.finished (results.map (Value.mapFunc g)) sb')
  | failed {e : ExecutionError} {sb sb' : Sandbox} (h : Shows g sb sb') :
      ShowsSame g (.failed e sb) (.failed e sb')

/-- A run of `i` from `s` on and those of `i'` from `s'`, which are given gas, behave alike. -/
structure SameBehaviour (g : UInt32 → UInt32) (i i' : Instance) (s : State) (s' : Int → State) :
    Prop where
  /-- However the one ends, the other ends alike once it is given enough gas. -/
  ends : ∀ o, Ends i s o → ∃ cost : Nat, ∀ gas : Int, cost ≤ gas → ∃ o', Ends i' (s' gas) o' ∧
    ShowsSame g o o' ∧ (outcomeSandbox o').gas = gas - cost
  /-- An end without debts is one that the other has. -/
  ended : ∀ (gas : Int) (o' : Outcome), 0 ≤ gas → Ends i' (s' gas) o' →
    0 ≤ (outcomeSandbox o').gas → ∃ o, Ends i s o ∧ ShowsSame g o o'
  /-- However far the one gets, the other gets there once it is given enough gas. -/
  reaches : ∀ s₁, Reaches i s s₁ → ∃ cost : Nat, ∀ gas : Int, cost ≤ gas → ∃ s₁',
    Reaches i' (s' gas) s₁' ∧ Shows g s₁.sandbox s₁'.sandbox
  /-- And it does not get anywhere else, whatever it is given. -/
  reached : ∀ (gas : Int) (s₁' : State), 0 ≤ gas → Reaches i' (s' gas) s₁' → ∃ s₁,
    Reaches i s s₁ ∧ Shows g s₁.sandbox s₁'.sandbox

/-- A call from outside of an instance that has just been made. -/
def startState (p : Prepared) (func : UInt32) (gas : Int) : State :=
  ⟨⟨p.storage, gas, false, [], []⟩, .call func []⟩

section
variable {plan : Plan}

theorem shows_of_sandboxes {sb sb' : Sandbox}
    (h : (metering plan).Sandboxes nothing sb sb') : Shows (shift plan.hook) sb sb' := by
  have hst := Storage.agrees_nothing_iff.1 h.storage
  exact ⟨h.calls, by rw [hst]; rfl, h.storage.globals, h.storage.tables⟩

theorem showsSame_of_sameEnd {o o' : Outcome} (h : SameEnd (metering plan) nothing o o') :
    ShowsSame (shift plan.hook) o o' := by
  cases h with
  | finished hs => exact .finished (shows_of_sandboxes hs)
  | failed hs => exact .failed (shows_of_sandboxes hs)

/-! ## Runs -/

variable {m : UInt32} {i i' : Instance} {s : State} {s' : Int → State}

theorem heeding_nothing (s : State) : Heeding nothing s :=
  fun a op _ _ _ => heeds_nothing s.sandbox.storage op a.operands

theorem Metered.sameBehaviour (hm : Metered plan m i i') (hs : Scoped m i s)
    (hb : ∀ gas, Beside plan nothing s 0 (s' gas)) (hgas : ∀ gas, (s' gas).sandbox.gas = gas) :
    SameBehaviour (shift plan.hook) i i' s s' where
  ends o ho := by
    obtain ⟨s₁, hreach, ho⟩ := ends_iff.1 ho
    obtain ⟨visited, htrail⟩ := hreach.exists_trail
    refine ⟨tolls plan i visited, fun gas hle => ?_⟩
    obtain ⟨sb', hreach', hs₁, hsb, -, -, hgas'⟩ := hm.follow hs (fun v _ => heeding_nothing v)
      (hb gas) htrail (by rw [hgas]; omega)
    obtain ⟨o', ho', hsame, hk⟩ := hm.ends hs₁ (heeding_nothing s₁) hsb ho
    refine ⟨o', ends_iff.2 ⟨_, hreach', ho'⟩, showsSame_of_sameEnd hsame, ?_⟩
    rw [hk.gas, hgas', hgas]
    omega
  ended gas o' hle ho' hpaid := by
    obtain ⟨s₁', hreach', ho'⟩ := ends_iff.1 ho'
    obtain ⟨visited, s₁, c, htrail, hs₁, hb₁, hgas₁, -, -⟩ := hm.trace_back hs
      (fun v _ => heeding_nothing v) (hb gas) (by rw [hgas]; exact hle) hreach'
    rcases hm.end_back hs₁ (heeding_nothing s₁) hb₁ ho' with
      ⟨-, o, ho, hsame, -⟩ | ⟨hlt, -, hhook, -⟩
    · exact ⟨o, ends_iff.2 ⟨s₁, htrail.reaches, ho⟩, showsSame_of_sameEnd hsame⟩
    · rw [hhook, stepHook_of_lt hm.controls hb₁.running hlt] at ho'
      cases ho'
      simp only [outcomeSandbox] at hpaid
      omega
  reaches s₁ hreach := by
    obtain ⟨visited, htrail⟩ := hreach.exists_trail
    refine ⟨tolls plan i visited, fun gas hle => ?_⟩
    obtain ⟨sb', hreach', -, hsb, -⟩ := hm.follow hs (fun v _ => heeding_nothing v) (hb gas)
      htrail (by rw [hgas]; omega)
    exact ⟨_, hreach', shows_of_sandboxes hsb⟩
  reached gas s₁' hle hreach' := by
    obtain ⟨visited, s₁, c, htrail, -, hb₁, -⟩ := hm.trace_back hs
      (fun v _ => heeding_nothing v) (hb gas) (by rw [hgas]; exact hle) hreach'
    exact ⟨s₁, htrail.reaches, shows_of_sandboxes hb₁.sandboxes⟩

end

/-! ## Modules -/

section
variable {options : Options} {binary : Bytes} {s : Summary} {memory : MemoryInfo} {m m' : Module}

theorem meterable_of_check (hs : Summary.of binary = .ok s) (hcheck : check options s = .ok memory)
    (hvalid : Validation.validate? .sandbox binary = some m) (rules : Rules)
    (memoryExport : Option String) : Meterable (.of s rules memoryExport) m := by
  have hnamed := Validation.named_of_validate hvalid
  have hfull := decode_full_of_core (Validation.validate_eq_some hvalid).1
  have himports := summary_functionImports hs hfull
  refine ⟨hnamed, ?_, ?_, fun i hi hf hkey => ?_⟩
  · rw [Plan.of, Summary.hookIndex, himports, Module.importedFuncs_eq, List.length_map]
  · rw [Plan.of, summary_types hs hfull, List.length_map]
  · obtain ⟨f, hf⟩ := Option.isSome_iff_exists.1 hf
    have hmem : f ∈ s.functionImports := himports ▸ List.mem_filterMap.2 ⟨i, hi, hf⟩
    refine (checked_of_check hcheck).reserved f hmem ?_
    simp only [key, hookImport, Prod.mk.injEq] at hkey
    unfold Import.function? at hf
    cases ht : i.type <;> simp only [ht, Option.some.injEq, reduceCtorEq] at hf <;> subst hf <;>
      exact hkey

theorem carries_of_items {plan : Plan} (h : MeteredItems plan m m') : Carries plan m m' [] where
  types := ⟨[], h.types⟩
  imports := h.imports
  functions := ⟨[], [], by simp [h.functions], by simp [h.bodies], rfl⟩
  tables := h.tables
  memories := h.memories
  globals := h.globals
  elements := h.elements
  datas := h.datas

/-- An exported function is exported under the same name, where it has moved to. -/
theorem exportedFunc_of_items {plan : Plan} (h : MeteredItems plan m m') (name : String) :
    exportedFunc? m' name = (exportedFunc? m name).map (shift plan.hook) := by
  have hadded : plan.addedExports.find? (fun e => e.name = name && e.kind = .func) = none := by
    rw [List.find?_eq_none]
    intro e he
    obtain ⟨_, -, rfl⟩ := List.mem_map.1 he
    simp
  have hsame (e : Export) : ((e.mapFunc (shift plan.hook)).name = name &&
      (e.mapFunc (shift plan.hook)).kind = .func) = (e.name = name && e.kind = .func) := by
    unfold Export.mapFunc
    split <;> rfl
  unfold exportedFunc?
  rw [h.exports, List.find?_append, hadded, Option.or_none, List.find?_map]
  simp only [Function.comp_def, hsame]
  cases hfind : m.exports.find? (fun e => e.name = name && e.kind = .func) with
  | none => rfl
  | some e =>
    have hkind := List.find?_some hfind
    simp only [Bool.and_eq_true, decide_eq_true_eq] at hkind
    simp [Export.mapFunc, hkind.2]

/-- The entry that has been checked is one of the module's functions. -/
theorem exists_entry (hs : Summary.of binary = .ok s) (hcheck : check options s = .ok memory)
    (hvalid : Validation.validate? .sandbox binary = some m) :
    ∃ entry, exportedFunc? m options.entry = some entry ∧ entry.toNat < m.funcTypes.length := by
  have hfull := decode_full_of_core (Validation.validate_eq_some hvalid).1
  have hentry := (checked_of_check hcheck).entry
  unfold checkEntry at hentry
  split at hentry
  · rename_i name index hexport
    have hmem := mem_exports_of_summary hs hfull _ (List.mem_of_find?_eq_some hexport)
    have hname := List.find?_some hexport
    cases hfind : m.exports.find? (fun e => e.name = options.entry && e.kind = .func) with
    | none =>
      have hno := List.find?_eq_none.1 hfind _ hmem
      simp_all
    | some e =>
      have hkind := List.find?_some hfind
      simp only [Bool.and_eq_true, decide_eq_true_eq] at hkind
      exact ⟨e.index, by simp [exportedFunc?, hfind],
        (Validation.named_of_validate hvalid).exports e (List.mem_of_find?_eq_some hfind) hkind.2⟩
  · cases hentry

variable {rules : Rules} {memoryExport : Option String} {a : Artifact} {imports : Imports}
  {ceiling : UInt64} {hardware : Hardware} {p : Prepared}

/-- The entry of a module behaves as it does once the module is metered, for every table of costs
and all host functions that treat functions as names. -/
theorem metering_preserves_meaning (hs : Summary.of binary = .ok s)
    (hcheck : check options s = .ok memory)
    (hvalid : Validation.validate? .sandbox binary = some m)
    (hmeter : meter? s rules memoryExport binary = some m') (hhosts : imports.Opaque)
    (hp : instantiate? a imports ceiling hardware m = some p) :
    ∃ entry p', exportedFunc? m options.entry = some entry ∧
      exportedFunc? m' options.entry = some (shift s.hookIndex entry) ∧
      instantiate? a imports ceiling hardware m' = some p' ∧
      SameBehaviour (shift s.hookIndex) p.instance_ p'.instance_ (startState p entry 0)
        (startState p' (shift s.hookIndex entry)) := by
  obtain ⟨entry, hentry, hlt⟩ := exists_entry hs hcheck hvalid
  have hmeterable := meterable_of_check hs hcheck hvalid rules memoryExport
  have hfull := decode_full_of_core (Validation.validate_eq_some hvalid).1
  simp only [meter?, hfull, Option.bind_eq_bind, Option.bind_some] at hmeter
  have hitems := items_of_meter (ordered_of_decode hfull) hmeter
  have hcarries := carries_of_items hitems
  obtain ⟨p', hp', hlinked⟩ := hcarries.exists_linked hmeterable hp
  refine ⟨entry, p', hentry, ?_, hp', ?_⟩
  · rw [exportedFunc_of_items hitems, hentry]
    rfl
  · have hcontrols : p'.instance_.controls = none := by
      obtain ⟨_, _, _, _, -, -, -, -, -, rfl⟩ := instantiate_eq_some.1 hp'
      rfl
    have hmetered : Metered (.of s rules memoryExport) (funcCount m) p.instance_ p'.instance_ :=
      ⟨closed_of_instantiate hmeterable hhosts hp, hmeterable.toNat_funcCount ▸ hlinked.instances,
        hlinked.hook, hcontrols⟩
    have hscoped : Scoped (funcCount m) p.instance_ (startState p entry 0) :=
      scoped_call hmeterable p.instance_ (storage_scoped hmeterable hp) (by simp) hlt
    refine hmetered.sameBehaviour hscoped (fun gas => ⟨⟨hlinked.storage, rfl⟩, ⟨0, ?_⟩, rfl⟩)
      fun gas => rfl
    exact .paid (.call entry [])

end

/-- A module whose entry calls the host once. -/
def callsHost : Module :=
  ⟨[.types [.plain ⟨[], []⟩], .imports [⟨"env", "tick", .func 0⟩], .functions [0],
    .memories [⟨⟨0, none⟩, false, false, none⟩], .exports [⟨"entry", .func, 1⟩],
    .code [⟨[], [.call 0, .endMark]⟩]]⟩

/-- A host with one function, which has nothing to answer. -/
def tickingHost : Imports := Imports.withFunction .empty ⟨"env", "tick", [], [], fun _ _ => .ok []⟩

def callsHostArtifact : Artifact :=
  ⟨[], "entry", ⟨⟨0, none⟩, false, false⟩, none, .standard⟩

theorem metering_preserves_callsHost :
    ∃ s m' p entry p', Summary.of callsHost.encode = .ok s ∧
      meter? s (.constant 1) none callsHost.encode = some m' ∧
      instantiate? callsHostArtifact tickingHost 0 ⟨10, strictResults⟩ callsHost = some p ∧
      instantiate? callsHostArtifact tickingHost 0 ⟨10, strictResults⟩ m' = some p' ∧
      SameBehaviour (shift s.hookIndex) p.instance_ p'.instance_ (startState p entry 0)
        (startState p' (shift s.hookIndex entry)) := by
  let s : Summary := ⟨[⟨[], []⟩], [⟨"env", "tick", 0⟩], [0, 0], [⟨"entry", .func, 1⟩],
    [⟨⟨0, none⟩, false, false⟩], false, [], none⟩
  have hs : Summary.of callsHost.encode = .ok s := by decide +kernel
  have hcheck : check .standard s = .ok ⟨⟨0, none⟩, false, false⟩ := by decide +kernel
  have hvalid : Validation.validate? .sandbox callsHost.encode = some callsHost := by
    decide +kernel
  obtain ⟨m', hmeter⟩ := Option.isSome_iff_exists.1
    (show (meter? s (.constant 1) none callsHost.encode).isSome by decide +kernel)
  have hhosts : tickingHost.Opaque := by
    intro f hf g _ calls args
    rw [show tickingHost.functions = [⟨"env", "tick", [], [], fun _ _ => .ok []⟩] by rfl,
      List.mem_singleton] at hf
    subst hf
    rfl
  obtain ⟨p, hp⟩ := Option.isSome_iff_exists.1
    (show (instantiate? callsHostArtifact tickingHost 0 ⟨10, strictResults⟩ callsHost).isSome by decide +kernel)
  obtain ⟨entry, p', -, -, hp', hsame⟩ :=
    metering_preserves_meaning hs hcheck hvalid hmeter hhosts hp
  exact ⟨s, m', p, entry, p', hs, hmeter, hp, hp', hsame⟩

end MeteredWasm.Simulation
