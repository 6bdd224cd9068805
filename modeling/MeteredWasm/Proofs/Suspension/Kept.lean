import MeteredWasm.Proofs.Simulation.Linked
import MeteredWasm.Suspension.Pass

/-!
# What a stack-capture pass keeps

A pass may do what it likes to the code of a module. What is linked it leaves alone (`Kept`): the
module has the imports that it had, in their order, lays out the memory that it did, exports what it
did, and the four control functions besides. Of a pass no more than that is asked for here
(`Pass.Keeps`).

So what is made of imports does not depend on the pass (`Kept.checkImports_eq`, `Kept.all_agrees`),
and the module that comes out of it is linked where the one that went in is
(`Kept.exists_instance`).
-/

set_option autoImplicit false

namespace MeteredWasm.Suspension

open Wasm Machine Linking

/-! ## The contract -/

/-- The types that the control functions are called with. -/
def controlTypes : List (String × FuncType) :=
  [(startUnwind, ⟨[.i32], []⟩), (stopUnwind, ⟨[], []⟩), (startRewind, ⟨[.i32], []⟩),
    (stopRewind, ⟨[], []⟩)]

def exportedType? (m : Module) (e : Export) : Option FuncType :=
  (m.funcTypes[e.index.toNat]?).bind (indexedType? m)

/-- The same is asked of the host: types of functions may have moved. -/
structure SameImport (m m' : Module) (i i' : Import) : Prop where
  key : key i' = key i
  type : funcType? m' i' = funcType? m i
  other : funcType? m i = none → i'.type = i.type

structure SameExport (m m' : Module) (e e' : Export) : Prop where
  name : e'.name = e.name
  kind : e'.kind = e.kind
  type : e.kind = .func → exportedType? m' e' = exportedType? m e

instance (m m' : Module) (i i' : Import) : Decidable (SameImport m m' i i') :=
  decidable_of_iff (Linking.key i' = Linking.key i ∧ funcType? m' i' = funcType? m i ∧
      (funcType? m i = none → i'.type = i.type))
    ⟨fun ⟨key, type, other⟩ => ⟨key, type, other⟩, fun h => ⟨h.key, h.type, h.other⟩⟩

instance (m m' : Module) (e e' : Export) : Decidable (SameExport m m' e e') :=
  decidable_of_iff (e'.name = e.name ∧ e'.kind = e.kind ∧
      (e.kind = .func → exportedType? m' e' = exportedType? m e))
    ⟨fun ⟨name, kind, type⟩ => ⟨name, kind, type⟩, fun h => ⟨h.name, h.kind, h.type⟩⟩

/-- The memories of an instance, once the segments of the module have been copied into them. -/
def laidOut? (m : Module) (provided : Option Memory) (ceiling : UInt64) : Option (List Memory) := do
  match fill m (← emptyStorage? m provided ceiling) with
  | .ok _ st => some st.memories
  | .error _ _ => none

/-- What is linked of `m` is there in `m'`, and the control functions are. -/
structure Kept (m m' : Module) : Prop where
  imports : List.Forall₂ (SameImport m m') m.imports m'.imports
  exports : ∀ e ∈ m.exports, ∃ e' ∈ m'.exports, SameExport m m' e e'
  controls : ∀ c ∈ controlTypes, ∃ e ∈ m'.exports,
    e.name = c.1 ∧ e.kind = .func ∧ exportedType? m' e = some c.2
  memory : ∀ provided ceiling, laidOut? m' provided ceiling = laidOut? m provided ceiling
  starts : m.starts = [] → m'.starts = []

/-- Whatever a pass makes of a module has what is to be kept of it, if it can be run at all. -/
def Pass.Keeps (pass : Pass) (request : Request) : Prop :=
  ∀ binary m wasm m', Module.decode? .full binary = some m → pass request binary = .ok wasm →
    Validation.validate? .engine wasm = some m' → Kept m m'

/-- The pass, when it refuses all modules but one. -/
def Pass.only (pass : Pass) (binary : Bytes) : Pass := fun request given =>
  if given = binary then pass request given else .error "another module"

section
variable {pass : Pass} {request : Request} {binary wasm : Bytes}

theorem Pass.only_self : pass.only binary request binary = pass request binary := if_pos rfl

/-- What a pass for one module alone gives out it makes of that one. -/
theorem Pass.eq_of_only {given wasm₁ : Bytes} {m m₁ m' m₂ : Module}
    (hdecode : Module.decode? .full binary = some m) (hpass : pass request binary = .ok wasm)
    (hvalid : Validation.validate? .engine wasm = some m')
    (hdecode₁ : Module.decode? .full given = some m₁)
    (hpass₁ : pass.only binary request given = .ok wasm₁)
    (hvalid₁ : Validation.validate? .engine wasm₁ = some m₂) : m₁ = m ∧ wasm₁ = wasm ∧ m₂ = m' := by
  unfold Pass.only at hpass₁
  split at hpass₁
  · rename_i hsame
    subst hsame
    obtain rfl := Except.ok.inj (hpass.symm.trans hpass₁)
    exact ⟨Option.some.inj (hdecode₁.symm.trans hdecode), rfl,
      Option.some.inj (hvalid₁.symm.trans hvalid)⟩
  · cases hpass₁

/-- What a pass keeps of one module it keeps of all, if it refuses the others. -/
theorem Pass.keeps_only {m m' : Module} (hdecode : Module.decode? .full binary = some m)
    (hpass : pass request binary = .ok wasm) (hvalid : Validation.validate? .engine wasm = some m')
    (hkept : Kept m m') : (pass.only binary).Keeps request := by
  intro given m₁ wasm₁ m₂ hdecode₁ hpass₁ hvalid₁
  obtain ⟨rfl, rfl, rfl⟩ := Pass.eq_of_only hdecode hpass hvalid hdecode₁ hpass₁ hvalid₁
  exact hkept

end

/-! ## Imports -/

section
variable {m m' : Module} {i i' : Import}

theorem SameImport.checkImport_eq (h : SameImport m m' i i') (imports : Imports) :
    checkImport m' imports i' = checkImport m imports i := by
  obtain ⟨hmodule, hname⟩ := Prod.mk.inj h.key
  simp only [checkImport, h.type, h.key, hmodule, hname]

theorem SameImport.hostFunction_eq (h : SameImport m m' i i') (imports : Imports)
    (type : FuncType) : hostFunction? imports i' type = hostFunction? imports i type := by
  obtain ⟨hmodule, hname⟩ := Prod.mk.inj h.key
  simp only [hostFunction?, h.key, hmodule, hname]

/-- Whether a function fits depends on its name, and on what is provided under it. -/
theorem agrees_of_funcType {type : FuncType} (h : funcType? m i = some type)
    (provided : Option Memory) : agrees m provided i = (decide (key i ≠ memoryImport) &&
      if key i = hookImport then decide (some type = some Function.hookType)
      else decide (some type = providedType? m i)) := by
  unfold agrees
  cases hkind : i.type
  case func | funcPrecisely => simp only [h]
  all_goals simp [funcType?, hkind] at h

theorem SameImport.agrees_eq (h : SameImport m m' i i')
    (hprovided : providedType? m' i' = providedType? m i) (provided : Option Memory) :
    agrees m' provided i' = agrees m provided i := by
  cases htype : funcType? m i with
  | none =>
    have htype' := h.type.trans htype
    simp only [agrees, h.other htype, h.key, htype, htype', hprovided]
  | some type =>
    rw [agrees_of_funcType htype, agrees_of_funcType (h.type.trans htype), h.key, hprovided]

end

section
variable {m m' : Module} {items items' : List Import}

theorem find_sameImport (h : List.Forall₂ (SameImport m m') items items') (k : String × String) :
    (items'.find? (key · = k)).bind (funcType? m') = (items.find? (key · = k)).bind (funcType? m) := by
  induction h with
  | nil => rfl
  | @cons i i' items items' hi _ ih =>
    rw [List.find?_cons, List.find?_cons, hi.key]
    split
    · exact hi.type
    · exact ih

theorem checkImports_sameImport (h : List.Forall₂ (SameImport m m') items items')
    (imports : Imports) (seen : List (String × String)) :
    checkImports m' imports seen items' = checkImports m imports seen items := by
  induction h generalizing seen with
  | nil => rfl
  | cons hi _ ih => simp only [checkImports, hi.key, hi.checkImport_eq, ih]

theorem importedTypes_sameImport (h : List.Forall₂ (SameImport m m') items items')
    (imports : Imports) :
    ((items'.filterMap fun i => (funcType? m' i).map (i, ·)).mapM
      fun (i, type) => hostFunction? imports i type) =
    (items.filterMap fun i => (funcType? m i).map (i, ·)).mapM
      fun (i, type) => hostFunction? imports i type := by
  induction h with
  | nil => rfl
  | @cons i i' items items' hi _ ih =>
    rw [List.filterMap_cons, List.filterMap_cons, hi.type]
    cases funcType? m i with
    | none => exact ih
    | some type => simp only [Option.map_some, List.mapM_cons, ih, hi.hostFunction_eq]

end

namespace Kept

variable {m m' : Module} (h : Kept m m')
include h

/-- The imports are let through or refused as they were. -/
theorem checkImports_eq (imports : Imports) :
    checkImports m' imports [] m'.imports = checkImports m imports [] m.imports :=
  checkImports_sameImport h.imports imports []

theorem all_agrees (provided : Option Memory) :
    m'.imports.all (agrees m' provided) = m.imports.all (agrees m provided) := by
  have hprovided {i i' : Import} (hi : SameImport m m' i i') :
      providedType? m' i' = providedType? m i := by
    rw [providedType?, providedType?, hi.key]
    exact find_sameImport h.imports (key i)
  have hall {items items' : List Import} (hitems : List.Forall₂ (SameImport m m') items items') :
      items'.all (agrees m' provided) = items.all (agrees m provided) := by
    induction hitems with
    | nil => rfl
    | cons hi _ ih => rw [List.all_cons, List.all_cons, ih, hi.agrees_eq (hprovided hi)]
  exact hall h.imports

theorem imported_eq (imports : Imports) : imported? m' imports = imported? m imports :=
  importedTypes_sameImport h.imports imports

end Kept

/-! ## Linking -/

section
variable {m m' : Module} {provided : Option Memory} {ceiling : UInt64}

theorem laidOut_eq_some {memories : List Memory} : laidOut? m provided ceiling = some memories ↔
    ∃ st₀ st, emptyStorage? m provided ceiling = some st₀ ∧ fill m st₀ = .ok () st ∧
      st.memories = memories := by
  unfold laidOut?
  simp only [Option.bind_eq_bind, Option.bind_eq_some_iff]
  constructor
  · rintro ⟨st₀, hst₀, h⟩
    cases hfill : fill m st₀ with
    | error t st => simp [hfill] at h
    | ok _ st =>
      rw [hfill] at h
      exact ⟨st₀, st, hst₀, hfill, Option.some.inj h⟩
  · rintro ⟨st₀, st, hst₀, hfill, rfl⟩
    exact ⟨st₀, hst₀, by rw [hfill]⟩

theorem exists_defined (h : Named m) : ∃ defined, defined? m = some defined := by
  refine exists_mapM fun (index, body) hmem => ?_
  have hlt := h.typed index (List.mem_append_right _ (List.of_mem_zip hmem).1)
  exact ⟨_, by simp only [define?, List.getElem?_eq_getElem hlt]; rfl⟩

variable {a : Artifact} {imports : Imports} {hardware : Hardware}

/-- What is linked of a module has the memories that are laid out for it. -/
theorem laidOut_of_instantiate {p : Prepared}
    (hp : instantiate? a imports ceiling hardware m = some p) :
    laidOut? m (providedMemory a.memory ceiling) ceiling = some p.storage.memories := by
  obtain ⟨_, _, st₀, st, -, -, -, hst₀, hfill, rfl⟩ := instantiate_eq_some.1 hp
  exact laidOut_eq_some.2 ⟨st₀, st, hst₀, hfill, rfl⟩

/-- Metering leaves memory as it is laid out. -/
theorem laidOut_of_carries {plan : Metering.Plan} {extra : List Function}
    (hc : Carries plan m m' extra) (provided : Option Memory) (ceiling : UInt64) :
    laidOut? m' provided ceiling = laidOut? m provided ceiling := by
  unfold laidOut?
  rw [hc.emptyStorage_eq]
  cases hst₀ : emptyStorage? m provided ceiling with
  | none => rfl
  | some st₀ =>
    have halike := hc.fill_alike hst₀
    simp only [Option.bind_eq_bind, Option.bind_some]
    cases hfill : fill m st₀ with
    | error t st =>
      rw [hfill] at halike
      cases hfill' : fill m' st₀ with
      | error t' st' => rfl
      | ok _ st' => rw [hfill'] at halike; cases halike
    | ok _ st =>
      rw [hfill] at halike
      cases hfill' : fill m' st₀ with
      | error t' st' => rw [hfill'] at halike; cases halike
      | ok _ st' =>
        rw [hfill'] at halike
        cases halike with
        | ok _ hst => rw [Storage.agrees_nothing_iff.1 hst]; rfl

/-- What can be linked can still be linked. -/
theorem Kept.exists_instance (h : Kept m m') (hnamed : Named m') {p : Prepared}
    (hp : instantiate? a imports ceiling hardware m = some p) :
    ∃ p', instantiate? a imports ceiling hardware m' = some p' := by
  have hlaid := (h.memory _ _).trans (laidOut_of_instantiate hp)
  obtain ⟨imported, _, _, _, hagrees, himported, -, -, -, -⟩ := instantiate_eq_some.1 hp
  obtain ⟨defined, hdefined⟩ := exists_defined hnamed
  obtain ⟨st₀, st, hst₀, hfill, -⟩ := laidOut_eq_some.1 hlaid
  exact ⟨_, instantiate_eq_some.2 ⟨imported, defined, st₀, st, (h.all_agrees _).trans hagrees,
    (h.imported_eq imports).trans himported, hdefined, hst₀, hfill, rfl⟩⟩

end

end MeteredWasm.Suspension
