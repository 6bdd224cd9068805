import MeteredWasm.Proofs.Session.Fresh

/-!
# What is made of imports

The host provides the hook, `env.memory`, `env.print` without results where printing is allowed, and
the functions that have been registered, with exactly their types (`Provided`); what it does not
provide is refused for a reason (`Refused`). Imports are examined in the order in which the module
declares them, but one of a name, and none of the hook or of `env.memory`: the first of those that is
not provided is reported (`checkImports_error_of`). If names decide what is imported
(`NamesDecide`), this is the first import of all that is not provided (`NamesDecide.examined`), and
what the machine is given agrees with what is asked for (`agrees_of_provided`). Otherwise it does not
(`namesDecide_of_agrees`).
-/

set_option autoImplicit false

namespace MeteredWasm.Linking

open Wasm Machine Metering

/-! ## Provided imports -/

/-- The host provides an import. -/
inductive Provided (m : Module) (imports : Imports) (i : Import) : Prop
  | hook (name : key i = hookImport) (type : funcType? m i = some Function.hookType)
  | memory {type : MemoryType} (name : key i = memoryImport) (kind : i.type = .memory type)
  | print {type : FuncType} (name : key i = printImport) (kind : funcType? m i = some type)
    (noResults : type.results = []) (there : imports.print = true)
  | function {f : HostFunction} (other : key i ≠ hookImport ∧ key i ≠ printImport)
    (there : imports.function? i.module i.name = some f) (kind : funcType? m i = some f.type)

/-- Why the host does not provide an import. -/
inductive Refused (m : Module) (imports : Imports) (i : Import) : InstantiationError → Prop
  | otherKind (kind : funcType? m i = none) :
    Refused m imports i (.missingImport i.module i.name)
  | noPrint (function : (funcType? m i).isSome = true) (name : key i = printImport)
    (absent : imports.print = false) : Refused m imports i (.missingImport i.module i.name)
  | unknown (function : (funcType? m i).isSome = true) (name : key i ≠ printImport)
    (absent : imports.function? i.module i.name = none) :
    Refused m imports i (.missingImport i.module i.name)
  | printResults {type : FuncType} (name : key i = printImport) (kind : funcType? m i = some type)
    (there : imports.print = true) (results : type.results ≠ []) :
    Refused m imports i (.incompatibleImport i.module i.name)
  | otherType {type : FuncType} {f : HostFunction} (name : key i ≠ printImport)
    (kind : funcType? m i = some type) (there : imports.function? i.module i.name = some f)
    (different : f.type ≠ type) : Refused m imports i (.incompatibleImport i.module i.name)

section
variable {m : Module} {imports : Imports} {i : Import}

theorem refused_of_checkImport {err : InstantiationError}
    (h : checkImport m imports i = .error err) : Refused m imports i err := by
  unfold checkImport at h
  split at h
  · rename_i hkind
    cases h
    exact .otherKind hkind
  · rename_i type hkind
    split at h
    · rename_i hname
      split at h
      · rename_i habsent
        cases h
        exact .noPrint (hkind ▸ rfl) hname (by simpa using habsent)
      · rename_i hthere
        split at h
        · rename_i hresults
          cases h
          exact .printResults hname hkind (by simpa using hthere) hresults
        · cases h
    · rename_i hname
      split at h
      · rename_i habsent
        cases h
        exact .unknown (hkind ▸ rfl) hname habsent
      · rename_i f hthere
        split at h
        · cases h
        · rename_i hdifferent
          cases h
          exact .otherType hname hkind hthere hdifferent

/-- What is examined is provided exactly if it is let through. -/
theorem checkImport_eq_ok_iff (hhook : key i ≠ hookImport) (hmemory : key i ≠ memoryImport) :
    checkImport m imports i = .ok () ↔ Provided m imports i := by
  constructor
  · intro h
    unfold checkImport at h
    split at h
    · cases h
    · rename_i type hkind
      split at h
      · rename_i hname
        split at h
        · cases h
        · rename_i hthere
          split at h
          · cases h
          · rename_i hresults
            exact .print hname hkind (by simpa using hresults) (by simpa using hthere)
      · rename_i hname
        split at h
        · cases h
        · rename_i f hthere
          split at h
          · rename_i hsame
            exact .function ⟨hhook, hname⟩ hthere (hsame ▸ hkind)
          · cases h
  · intro h
    cases h with
    | hook name => exact absurd name hhook
    | memory name => exact absurd name hmemory
    | print name kind noResults there => simp [checkImport, kind, name, noResults, there]
    | function other there kind => simp [checkImport, kind, other.2, there]

/-- A memory is provided under its name only. -/
theorem Provided.memory_name {type : MemoryType} (h : Provided m imports i)
    (hkind : i.type = .memory type) : key i = memoryImport := by
  have hnone : funcType? m i = none := by simp [funcType?, hkind]
  cases h with
  | memory name => exact name
  | hook _ kind => simp [hnone] at kind
  | print _ kind => simp [hnone] at kind
  | function _ _ kind => simp [hnone] at kind

/-- What is provided is a memory or a function. -/
theorem Provided.kind (h : Provided m imports i) :
    (∃ type, i.type = .memory type) ∨ (funcType? m i).isSome = true := by
  cases h with
  | memory _ kind => exact .inl ⟨_, kind⟩
  | hook _ kind => exact .inr (kind ▸ rfl)
  | print _ kind => exact .inr (kind ▸ rfl)
  | function _ _ kind => exact .inr (kind ▸ rfl)

end

/-! ## Imports in order -/

/-- The import is looked at: its name is not reserved, and no import before it has the name. -/
structure Examined (before : List Import) (i : Import) : Prop where
  hook : key i ≠ hookImport
  memory : key i ≠ memoryImport
  first : ∀ j ∈ before, key j ≠ key i

/-- Everything that is looked at in a list is provided. -/
def AllExamined (m : Module) (imports : Imports) (items : List Import) : Prop :=
  ∀ before i after, items = before ++ i :: after → Examined before i → Provided m imports i

section
variable {m : Module} {imports : Imports}

/-- Past imports of which all that are looked at are provided, their names have been seen. -/
theorem checkImports_append (seen : List (String × String)) {front : List Import}
    (rest : List Import)
    (h : ∀ before i after, front = before ++ i :: after → Examined before i → key i ∉ seen →
      Provided m imports i) :
    ∃ seen', checkImports m imports seen (front ++ rest) = checkImports m imports seen' rest ∧
      ∀ k ∈ seen', k ∈ seen ∨ ∃ j ∈ front, key j = k := by
  induction front generalizing seen with
  | nil => exact ⟨seen, rfl, fun k hk => .inl hk⟩
  | cons j front ih =>
    rw [List.cons_append, checkImports]
    split
    · rename_i hskipped
      obtain ⟨seen', hrest, hseen⟩ := ih seen <| by
        intro before i after hfront hi hunseen
        refine h (j :: before) i after (congrArg (j :: ·) hfront)
          ⟨hi.hook, hi.memory, List.forall_mem_cons.2 ⟨fun hkey => ?_, hi.first⟩⟩ hunseen
        rw [hkey] at hskipped
        exact hskipped.elim hi.hook fun h => h.elim hi.memory hunseen
      refine ⟨seen', hrest, fun k hk => (hseen k hk).imp_right fun hfound => ?_⟩
      obtain ⟨j', hj', hk⟩ := hfound
      exact ⟨j', List.mem_cons_of_mem _ hj', hk⟩
    · rename_i hexamined
      obtain ⟨hhook, hmemory, hnew⟩ : key j ≠ hookImport ∧ key j ≠ memoryImport ∧ key j ∉ seen := by
        simpa only [not_or] using hexamined
      have hj := h [] j front rfl ⟨hhook, hmemory, List.forall_mem_nil _⟩ hnew
      rw [(checkImport_eq_ok_iff hhook hmemory).2 hj, except_ok_bind]
      obtain ⟨seen', hrest, hseen⟩ := ih (key j :: seen) fun before i after hfront hi hunseen =>
        h (j :: before) i after (congrArg (j :: ·) hfront)
          ⟨hi.hook, hi.memory, List.forall_mem_cons.2
            ⟨fun hkey => hunseen (hkey ▸ List.mem_cons_self ..), hi.first⟩⟩
          fun hmem => hunseen (List.mem_cons_of_mem _ hmem)
      refine ⟨seen', hrest, fun k hk => ?_⟩
      rcases hseen k hk with hk | ⟨j', hj', hk⟩
      · rcases List.mem_cons.1 hk with rfl | hk
        · exact .inr ⟨j, List.mem_cons_self .., rfl⟩
        · exact .inl hk
      · exact .inr ⟨j', List.mem_cons_of_mem _ hj', hk⟩

theorem checkImports_ok {items : List Import} (h : AllExamined m imports items) :
    checkImports m imports [] items = .ok () := by
  obtain ⟨seen', hrest, -⟩ := checkImports_append [] [] fun before i after hitems hi _ =>
    h before i after hitems hi
  rw [List.append_nil] at hrest
  rw [hrest]
  rfl

/-- The first import that is looked at and not provided is reported. -/
theorem checkImports_error_of {before : List Import} (after : List Import) {i : Import}
    (hbefore : AllExamined m imports before) (hi : Examined before i)
    (hmissing : ¬Provided m imports i) :
    ∃ err, checkImports m imports [] (before ++ i :: after) = .error err ∧
      Refused m imports i err := by
  obtain ⟨seen', hrest, hseen⟩ := checkImports_append [] (i :: after) fun b j a hitems hj _ =>
    hbefore b j a hitems hj
  have hunseen : key i ∉ seen' := by
    intro hmem
    rcases hseen _ hmem with hmem | ⟨j, hj, hkey⟩
    · cases hmem
    · exact hi.first j hj hkey
  cases hchecked : checkImport m imports i with
  | ok _ => exact absurd ((checkImport_eq_ok_iff hi.hook hi.memory).1 hchecked) hmissing
  | error err =>
    refine ⟨err, ?_, refused_of_checkImport hchecked⟩
    rw [hrest, checkImports, if_neg (by simp [hi.hook, hi.memory, hunseen]), hchecked]
    rfl

/-- Only the types of functions matter, and not those of an import of the hook. -/
theorem checkImports_congr {m' : Module} {items : List Import}
    (h : ∀ i ∈ items, funcType? m' i = funcType? m i) (seen : List (String × String)) {hook : Import}
    (hhook : key hook = hookImport) :
    checkImports m' imports seen (items ++ [hook]) = checkImports m imports seen items := by
  induction items generalizing seen with
  | nil => simp [checkImports, hhook]
  | cons i items ih =>
    obtain ⟨hi, hitems⟩ := List.forall_mem_cons.1 h
    have hchecked : checkImport m' imports i = checkImport m imports i := by
      rw [checkImport, checkImport, hi]
    rw [List.cons_append, checkImports, checkImports, hchecked, ih hitems seen,
      ih hitems (key i :: seen)]

end

/-! ## Names that decide -/

/-- The name of an import decides what it stands for: `env.memory` for a memory, the name of the hook
for nothing that the module imports, and any other name for functions of one type, or for none. -/
structure NamesDecide (m : Module) : Prop where
  memory : ∀ i ∈ m.imports, key i = memoryImport → ∃ type, i.type = .memory type
  hook : ∀ i ∈ m.imports, key i ≠ hookImport
  same : ∀ i ∈ m.imports, ∀ j ∈ m.imports, key i = key j → funcType? m i = funcType? m j

section
variable {m : Module} {imports : Imports} {i : Import}

/-- What one import of a name is provided with, all are. -/
theorem NamesDecide.provided (h : NamesDecide m) {j : Import} (hi : i ∈ m.imports)
    (hj : j ∈ m.imports) (hkey : key j = key i) (hprovided : Provided m imports j) :
    Provided m imports i := by
  have hsame := h.same j hj i hi hkey
  cases hprovided with
  | hook name => exact absurd name (h.hook j hj)
  | memory name =>
    obtain ⟨type, htype⟩ := h.memory i hi (hkey ▸ name)
    exact .memory (hkey ▸ name) htype
  | print name kind noResults there =>
    exact .print (hkey ▸ name) (hsame ▸ kind) noResults there
  | function other there kind =>
    obtain ⟨hmodule, hname⟩ := Prod.mk.inj hkey
    exact .function (hkey ▸ other) (hmodule ▸ hname ▸ there) (hsame ▸ kind)

/-- The first import that is not provided is looked at. -/
theorem NamesDecide.examined (h : NamesDecide m) {before after : List Import}
    (himports : m.imports = before ++ i :: after) (hbefore : ∀ j ∈ before, Provided m imports j)
    (hmissing : ¬Provided m imports i) : Examined before i := by
  have hi : i ∈ m.imports := by simp [himports]
  refine ⟨h.hook i hi, fun hname => ?_, fun j hj hkey => hmissing ?_⟩
  · obtain ⟨type, htype⟩ := h.memory i hi hname
    exact hmissing (.memory hname htype)
  · have hmem : j ∈ m.imports := by simp [himports, hj]
    exact h.provided hi hmem hkey (hbefore j hj)

/-- Where names decide, what is provided agrees with what is asked for, if the memory does. -/
theorem agrees_of_provided (h : NamesDecide m) (hi : i ∈ m.imports)
    (hprovided : Provided m imports i) {provided : Option Memory}
    (hmemory : ∀ type, i.type = .memory type → provided.any (memoryFits · type) = true) :
    agrees m provided i = true := by
  have hfunc (hkind : ∀ type, i.type ≠ .memory type) :
      key i ≠ memoryImport ∧ key i ≠ hookImport ∧ funcType? m i = providedType? m i := by
    refine ⟨fun hname => ?_, h.hook i hi, ?_⟩
    · obtain ⟨type, htype⟩ := h.memory i hi hname
      exact hkind type htype
    · unfold providedType?
      cases hfind : m.imports.find? (key · = key i) with
      | none =>
        have hnone := List.find?_eq_none.1 hfind i hi
        simp at hnone
      | some j =>
        have hkey : key j = key i := by simpa using List.find?_some hfind
        exact h.same i hi j (List.mem_of_find?_eq_some hfind) hkey.symm
  unfold agrees
  cases hkind : i.type
  case memory type => simp [hprovided.memory_name hkind, hmemory type hkind]
  case func | funcPrecisely =>
    obtain ⟨hname, hhook, htype⟩ := hfunc (by simp [hkind])
    simp [hname, hhook, ← htype]
  all_goals
    rcases hprovided.kind with ⟨type, htype⟩ | hsome
    · simp [hkind] at htype
    · simp [funcType?, hkind] at hsome

/-- Only where names decide does all that is provided agree with what is asked for. -/
theorem namesDecide_of_agrees {provided : Option Memory}
    (hhook : ∀ i ∈ m.imports, i.function?.isSome → key i ≠ hookImport)
    (h : m.imports.all (agrees m provided) = true) : NamesDecide m := by
  have hcases (i : Import) (hi : i ∈ m.imports) :
      (key i = memoryImport ∧ ∃ type, i.type = .memory type) ∨
        (key i ≠ memoryImport ∧ key i ≠ hookImport ∧ funcType? m i = providedType? m i) := by
    have hagrees := List.all_eq_true.1 h i hi
    have hreserved := hhook i hi
    unfold agrees at hagrees
    unfold Import.function? at hreserved
    cases hkind : i.type
    case memory type =>
      simp only [hkind, Bool.and_eq_true, decide_eq_true_eq] at hagrees
      exact .inl ⟨hagrees.1, type, rfl⟩
    case func | funcPrecisely =>
      simp only [hkind, Option.isSome_some, forall_const] at hreserved
      simp only [hkind, Bool.and_eq_true, decide_eq_true_eq, if_neg hreserved] at hagrees
      exact .inr ⟨hagrees.1, hreserved, hagrees.2⟩
    all_goals simp [hkind] at hagrees
  refine ⟨fun i hi hname => ?_, fun i hi hname => ?_, fun i hi j hj hkey => ?_⟩
  · exact (hcases i hi).elim And.right fun h => absurd hname h.1
  · rcases hcases i hi with ⟨hmemory, -⟩ | ⟨-, hother, -⟩
    · exact absurd (hname.symm.trans hmemory) (by decide)
    · exact hother hname
  · rcases hcases i hi with ⟨hmemory, type, htype⟩ | ⟨hmemory, -, htype⟩ <;>
      rcases hcases j hj with ⟨hmemory', type', htype'⟩ | ⟨hmemory', -, htype'⟩
    · simp [funcType?, htype, htype']
    · exact absurd (hkey ▸ hmemory) hmemory'
    · exact absurd (hkey ▸ hmemory') hmemory
    · rw [htype, htype', providedType?, providedType?, hkey]

end

end MeteredWasm.Linking

namespace MeteredWasm

open Wasm Machine Metering Simulation Linking

/-- The imports of what the pass has made are let through or refused as those of the module are. -/
theorem Instrumented.checkImports_eq {pass : Suspension.Pass} {order : ExportOrder}
    {options : Options} {rules : Rules} {binary : Bytes} {s : Summary} {m m' m'' : Module}
    {a : Artifact} (hm : Instrumented pass order options rules binary s m m' a)
    (hkept : Suspension.Kept m' m'') (imports : Imports) :
    checkImports m'' imports [] m''.imports = checkImports m imports [] m.imports := by
  obtain ⟨_, hmeterable, hcarries, -, -⟩ := hm.carries
  rw [hkept.checkImports_eq, hcarries.imports]
  exact checkImports_congr (fun i hi => hcarries.funcType_of_mem hmeterable hi) [] rfl

end MeteredWasm
