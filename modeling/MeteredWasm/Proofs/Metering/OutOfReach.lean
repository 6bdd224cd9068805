import Mathlib.Data.List.Forall2
import MeteredWasm.Proofs.Metering.Shift
import MeteredWasm.Proofs.Module.Metered
import MeteredWasm.Proofs.Module.Names
import MeteredWasm.Proofs.Module.References
import MeteredWasm.Proofs.Module.Sized

/-!
# The hook is out of reach

In a metered module the hook is one more imported function, behind those of the module, and nothing
but the charges refers to it: every reference of the module has moved past it, in its place, and
denotes the function that it did (`hook_out_of_reach`).

The module need not be valid. Its references may name functions that it does not have, as long as
none is the last index that there could be, which has nowhere to move.
-/

set_option autoImplicit false

namespace MeteredWasm.Metering

open Wasm

/-! ## Charges -/

/-- The operators, with charges put in between. -/
inductive Charged (hook : UInt32) : List Operator → List Operator → Prop
  | nil : Charged hook [] []
  | operator {ops code : List Operator} (op : Operator) (rest : Charged hook ops code) :
      Charged hook (op :: ops) (op :: code)
  | charge {ops code : List Operator} (cost : UInt32) (rest : Charged hook ops code) :
      Charged hook ops (.i32Const cost :: .call hook :: code)

section
variable {hook : UInt32} {ops ops' code code' : List Operator}

theorem Charged.refl (hook : UInt32) (ops : List Operator) : Charged hook ops ops := by
  induction ops with
  | nil => exact .nil
  | cons op ops ih => exact .operator op ih

theorem Charged.append (h : Charged hook ops code) (h' : Charged hook ops' code') :
    Charged hook (ops ++ ops') (code ++ code') := by
  induction h with
  | nil => exact h'
  | operator op _ ih => exact .operator op ih
  | charge cost _ ih => exact .charge cost ih

theorem charged_meterSegment (plan : Plan) (segment : List Operator) :
    Charged plan.hook (segment.map (Operator.mapFunc (shift plan.hook)))
      (meterSegment plan segment) := by
  unfold meterSegment chargeOps
  dsimp only
  split
  · exact .refl _ _
  · exact .charge _ (.refl _ _)

/-- Metering puts charges into the code, and moves functions. -/
theorem charged_meterCode (plan : Plan) (code : List Operator) :
    Charged plan.hook (code.map (Operator.mapFunc (shift plan.hook))) (meterCode plan code) := by
  conv => lhs; rw [← flatten_split code]
  unfold meterCode
  induction split code with
  | nil => exact .nil
  | cons segment segments ih =>
    rw [List.flatten_cons, List.map_append, List.flatMap_cons]
    exact (charged_meterSegment plan segment).append ih

end

/-! ## Custom sections -/

/-- A custom section, with the functions moved that it names. -/
def meterCustom? (plan : Plan) (custom : String × Bytes) : Option (String × Bytes) :=
  if custom.1 = nameSection then (meterNames? plan custom.2).map (custom.1, ·) else some custom

/-- The functions that a custom section names, if it is a name section that can be read. -/
def customFuncs (custom : String × Bytes) : List UInt32 :=
  if custom.1 = nameSection then
    ((NameSubsection.all? custom.2).getD []).flatMap NameSubsection.funcs
  else []

/-- The custom sections in a row of sections. -/
def customsOf (sections : List Section) : List (String × Bytes) :=
  sections.flatMap fun | .custom name contents => [(name, contents)] | _ => []

theorem customsOf_due (owed : Owed) (plan : Plan) (before : Option SectionKind) :
    customsOf (owed.due plan before) = [] := by
  simp only [customsOf, Owed.due, List.flatMap_append, flatMap_ite_singleton, ite_self,
    List.append_nil]

theorem customsOf_append (sections more : List Section) :
    customsOf (sections ++ more) = customsOf sections ++ customsOf more :=
  List.flatMap_append

theorem customsOf_cons (s : Section) (sections : List Section) :
    customsOf (s :: sections) = customsOf [s] ++ customsOf sections :=
  customsOf_append [s] sections

theorem customsOf_of_kind {s : Section} {kind : SectionKind} (h : s.kind? = some kind) :
    customsOf [s] = [] := by
  cases s <;> cases h <;> rfl

/-- Every custom section is metered in its place. -/
theorem customs_of_meter {plan : Plan} {owed : Owed} {sections sections' : List Section}
    (h : meterSections? plan owed sections = some sections') :
    List.Forall₂ (fun custom custom' => meterCustom? plan custom = some custom')
      (customsOf sections) (customsOf sections') := by
  replace h := row_of_meterSections h
  induction h with
  | done owed =>
    rw [customsOf_due]
    exact .nil
  | @custom owed s s' rest rest' hk hmetered _ ih =>
    cases s <;> cases hk
    rename_i name contents
    have hone : ∃ contents', s' = .custom name contents' ∧
        meterCustom? plan (name, contents) = some (name, contents') := by
      simp only [meterSection?] at hmetered
      unfold meterCustom?
      split at hmetered
      · rename_i hname
        obtain ⟨contents', hcontents, rfl⟩ := Option.map_eq_some_iff.1 hmetered
        exact ⟨contents', rfl, by rw [if_pos hname, hcontents]; rfl⟩
      · rename_i hname
        cases hmetered
        exact ⟨contents, rfl, if_neg hname⟩
    obtain ⟨contents', rfl, hcustom⟩ := hone
    exact .cons hcustom ih
  | @known owed s s' rest rest' k hk hmetered _ ih =>
    rw [customsOf_append, customsOf_due, List.nil_append, customsOf_cons s, customsOf_cons s',
      customsOf_of_kind hk, customsOf_of_kind ((kind_of_meterSection hmetered).trans hk)]
    exact ih

/-- A name section that has been metered names the functions that have moved, if it can be read. -/
theorem customFuncs_of_meter {plan : Plan} {custom custom' : String × Bytes}
    (h : meterCustom? plan custom = some custom') :
    customFuncs custom' = [] ∨
      customFuncs custom' = (customFuncs custom).map (shift plan.hook) := by
  obtain ⟨name, contents⟩ := custom
  unfold meterCustom? at h
  by_cases hname : name = nameSection
  · rw [if_pos hname] at h
    obtain ⟨contents', hcontents, rfl⟩ := Option.map_eq_some_iff.1 h
    simp only [meterNames?, Option.bind_eq_bind, Option.bind_eq_some_iff, Option.pure_def,
      Option.some.injEq] at hcontents
    obtain ⟨subsections, hall, rfl⟩ := hcontents
    simp only [customFuncs, hname, if_true, hall, Option.getD_some]
    generalize hread : NameSubsection.all? _ = read
    cases read with
    | none => exact .inl rfl
    | some read =>
      refine .inr ?_
      rw [NameSubsection.eq_of_upTo hread, Option.getD_some, NameSubsection.flatMap_funcs_filter,
        List.flatMap_map, List.map_flatMap]
      exact List.flatMap_congr fun s _ => NameSubsection.funcs_mapFunc _ s
  · rw [if_neg hname] at h
    cases h
    exact .inl (if_neg hname)

/-! ## Where references go -/

/-- The functions that the name sections of a module name. -/
def nameFuncs (m : Module) : List UInt32 := m.customs.flatMap customFuncs

/-- The items of a metered module stand in their places, and refer to functions that have moved. -/
structure Relocated (plan : Plan) (m m' : Module) : Prop where
  code : List.Forall₂ (fun body body' => body'.locals = body.locals ∧
    Charged plan.hook (body.code.map (Operator.mapFunc (shift plan.hook))) body'.code)
    m.bodies m'.bodies
  tables : m'.tables = m.tables.map (Table.mapFunc (shift plan.hook))
  globals : m'.globals = m.globals.map (Global.mapFunc (shift plan.hook))
  exports : ∃ added : List Export, m'.exports = m.exports.map (Export.mapFunc (shift plan.hook)) ++
    added ∧ ∀ e ∈ added, e.kind = .memory
  starts : m'.starts = m.starts.map (shift plan.hook)
  elements : m'.elements = m.elements.map (Element.mapFunc (shift plan.hook))
  datas : m'.datas = m.datas.map (Data.mapFunc (shift plan.hook))
  customs : List.Forall₂ (fun custom custom' => meterCustom? plan custom = some custom')
    m.customs m'.customs

/-- Nothing but the charges refers to the hook. -/
structure Unreferenced (plan : Plan) (m m' : Module) : Prop where
  items : plan.hook ∉ m'.itemFuncs
  names : plan.hook ∉ nameFuncs m'
  code : ∀ body ∈ m.bodies, plan.hook ∉ (body.mapFunc (shift plan.hook)).funcs

/-- The function of a metered module. -/
def meterDecl (plan : Plan) : FuncDecl → FuncDecl
  | .imported i => .imported i
  | .defined type body => .defined type (meterBody plan body)

/-- The hook is the function behind the imported ones of the module, and the only import of its
name. -/
structure HookImported (plan : Plan) (m m' : Module) : Prop where
  index : plan.hook.toNat = m.funcImports.length
  decl : m'.funcDecls[plan.hook.toNat]? = some (.imported plan.hookImport)
  type : m'.types[plan.hookType.toNat]? = some hookTypeEntry
  unique : ∀ (j : Nat) (i : Import), m'.funcDecls[j]? = some (.imported i) → i.module = hookModule →
    i.name = hookName → j = plan.hook.toNat

/-- The indices move past the hook, and denote what they did. -/
structure Denotes (plan : Plan) (m m' : Module) : Prop where
  moved : ∀ func : UInt32, func ≠ 0xFFFFFFFF → (shift plan.hook func).toNat =
    if func.toNat < plan.hook.toNat then func.toNat else func.toNat + 1
  decl : ∀ func : UInt32, func ≠ 0xFFFFFFFF → func.toNat < m.funcTypes.length →
    ∃ f, m.funcDecls[func.toNat]? = some f ∧
      m'.funcDecls[(shift plan.hook func).toNat]? = some (meterDecl plan f)
  /-- Types keep their indices; the first one that there was none for has the hook's type now. -/
  type : ∀ f ∈ m.funcDecls, m'.declType? (meterDecl plan f) =
    if f.typeIndex?.any (·.toNat = m.types.length) then some hookTypeEntry else m.declType? f
  injective : ∀ func func' : UInt32, func ≠ 0xFFFFFFFF → func' ≠ 0xFFFFFFFF →
    shift plan.hook func = shift plan.hook func' → func = func'
  onto : ∀ func' : UInt32, func' ≠ plan.hook → func'.toNat < m'.funcTypes.length →
    ∃ func : UInt32, func ≠ 0xFFFFFFFF ∧ func.toNat < m.funcTypes.length ∧
      shift plan.hook func = func'

section
variable {plan : Plan} {m m' : Module}

theorem exists_of_forall₂ {α β : Type} {R : α → β → Prop} {xs : List α} {ys : List β}
    (h : List.Forall₂ R xs ys) {y : β} (hy : y ∈ ys) : ∃ x ∈ xs, R x y := by
  induction h with
  | nil => cases hy
  | cons hxy _ ih =>
    rcases List.mem_cons.1 hy with rfl | hy
    · exact ⟨_, by simp, hxy⟩
    · obtain ⟨x, hx, hR⟩ := ih hy
      exact ⟨x, by simp [hx], hR⟩

theorem not_mem_map_shift {funcs : List UInt32} {hook : UInt32}
    (h : ∀ func ∈ funcs, func ≠ 0xFFFFFFFF) : hook ∉ funcs.map (shift hook) := by
  intro hmem
  obtain ⟨func, hfunc, hshift⟩ := List.mem_map.1 hmem
  exact shift_ne_hook (h func hfunc) hook hshift

theorem itemFuncs_of_items (h : MeteredItems plan m m') :
    m'.itemFuncs = m.itemFuncs.map (shift plan.hook) := by
  have hadded : plan.addedExports.flatMap Export.funcs = [] := by
    unfold Plan.addedExports
    cases plan.memoryExport <;> rfl
  simp only [Module.itemFuncs, h.tables, h.globals, h.exports, h.starts, h.elements, h.datas,
    List.flatMap_append, hadded, List.append_nil, List.flatMap_map, List.map_append,
    List.map_flatMap, Table.funcs_mapFunc, Global.funcs_mapFunc, Export.funcs_mapFunc,
    Element.funcs_mapFunc, Data.funcs_mapFunc]

theorem funcDecls_of_items (h : MeteredItems plan m m') :
    m'.funcDecls = m.funcImports.map .imported ++ .imported plan.hookImport ::
      (List.zipWith .defined m.functions m.bodies).map (meterDecl plan) := by
  have himports : m'.funcImports = m.funcImports ++ [plan.hookImport] := by
    rw [Module.funcImports, h.imports, List.filter_append, Module.funcImports]
    rfl
  have hbodies : List.zipWith FuncDecl.defined m.functions (m.bodies.map (meterBody plan)) =
      (List.zipWith .defined m.functions m.bodies).map (meterDecl plan) := by
    rw [List.zipWith_map_right, List.map_zipWith]
    rfl
  rw [Module.funcDecls, himports, h.functions, h.bodies, hbodies, List.map_append,
    List.append_assoc]
  rfl

theorem hookImported_of_items (h : MeteredItems plan m m')
    (hindex : plan.hook.toNat = m.funcImports.length)
    (htype : plan.hookType.toNat = m.types.length)
    (hreserved : ∀ i ∈ m.funcImports, ¬(i.module = hookModule ∧ i.name = hookName)) :
    HookImported plan m m' where
  index := hindex
  decl := by
    rw [funcDecls_of_items h, hindex, List.getElem?_append_right (by simp)]
    simp
  type := by
    rw [h.types, htype]
    simp
  unique j i hj hmodule hname := by
    rw [funcDecls_of_items h] at hj
    rw [hindex]
    by_cases hlt : j < m.funcImports.length
    · rw [List.getElem?_append_left (by simpa using hlt), List.getElem?_map,
        Option.map_eq_some_iff] at hj
      obtain ⟨i', hi', heq⟩ := hj
      cases heq
      exact absurd ⟨hmodule, hname⟩ (hreserved i (List.mem_of_getElem? hi'))
    · rw [List.getElem?_append_right (by simpa using hlt), List.length_map] at hj
      cases hk : j - m.funcImports.length with
      | zero => omega
      | succ k =>
        -- behind the imports there are defined functions only
        rw [hk, List.getElem?_cons_succ, List.getElem?_map, Option.map_eq_some_iff] at hj
        obtain ⟨f, hf, heq⟩ := hj
        obtain ⟨type, body, -, -, rfl⟩ := List.getElem?_zipWith_eq_some.1 hf
        cases heq

theorem typeIndex_meterDecl (plan : Plan) (f : FuncDecl) :
    (meterDecl plan f).typeIndex? = f.typeIndex? := by
  cases f <;> rfl

theorem declType_of_items (h : MeteredItems plan m m') (f : FuncDecl) :
    m'.declType? (meterDecl plan f) =
      if f.typeIndex?.any (·.toNat = m.types.length) then some hookTypeEntry
      else m.declType? f := by
  rw [Module.declType?, Module.declType?, typeIndex_meterDecl, h.types]
  cases f.typeIndex? with
  | none => rfl
  | some t =>
    simp only [Option.bind_some, Option.any_some, decide_eq_true_eq]
    rcases Nat.lt_trichotomy t.toNat m.types.length with hlt | heq | hgt
    · rw [if_neg (Nat.ne_of_lt hlt), List.getElem?_append_left hlt]
    · rw [if_pos heq, heq, List.getElem?_append_right (Nat.le_refl _), Nat.sub_self]
      rfl
    · -- behind the hook's type there is none, neither before nor after
      rw [if_neg (Nat.ne_of_gt hgt), List.getElem?_eq_none (Nat.le_of_lt hgt),
        List.getElem?_eq_none (by simpa using Nat.succ_le_of_lt hgt)]

theorem denotes_of_items (h : MeteredItems plan m m')
    (hindex : plan.hook.toNat = m.funcImports.length)
    (hbodies : m.bodies.length = m.functions.length) : Denotes plan m m' where
  moved func hfunc := by
    rw [toNat_shift hfunc]
    split <;> split <;> omega
  decl func hfunc hlt := by
    rw [← m.length_funcDecls hbodies] at hlt
    refine ⟨m.funcDecls[func.toNat], List.getElem?_eq_getElem hlt, ?_⟩
    have hf := List.getElem?_eq_getElem hlt
    generalize m.funcDecls[func.toNat] = f at hf ⊢
    rw [funcDecls_of_items h, toNat_shift hfunc, hindex]
    rw [Module.funcDecls] at hf
    split
    · rename_i hle
      rw [List.getElem?_append_right (by simpa using hle), List.length_map] at hf
      rw [List.getElem?_append_right (by simp; omega), List.length_map,
        show func.toNat + 1 - m.funcImports.length = func.toNat - m.funcImports.length + 1 by omega,
        List.getElem?_cons_succ, List.getElem?_map, hf]
      rfl
    · rename_i hlt
      rw [List.getElem?_append_left (by simp; omega)] at hf ⊢
      rw [hf]
      rw [List.getElem?_map, Option.map_eq_some_iff] at hf
      obtain ⟨i, -, rfl⟩ := hf
      rfl
  type f _ := declType_of_items h f
  injective func func' hfunc hfunc' heq := by
    rw [← unshift_shift hfunc plan.hook, heq, unshift_shift hfunc']
  onto func' hne hlt := by
    have hlength : m'.funcTypes.length = m.funcTypes.length + 1 := by
      simp [Module.funcTypes, Module.importedFuncs, h.imports, h.functions, Plan.hookImport]
      omega
    have himported : m.funcImports.length ≤ m.funcTypes.length := by
      simp [Module.funcTypes, Module.length_funcImports]
    have hdifferent : func'.toNat ≠ plan.hook.toNat := fun e => hne (UInt32.toNat_inj.1 e)
    have hlast : (0xFFFFFFFF : UInt32).toNat = 0xFFFFFFFF := rfl
    have hbound := func'.toNat_lt
    have hback : (unshift plan.hook func').toNat =
        if plan.hook.toNat < func'.toNat then func'.toNat - 1 else func'.toNat := by
      unfold unshift
      simp only [UInt32.lt_iff_toNat_lt]
      split
      · rw [UInt32.toNat_sub_of_le _ _ (by rw [UInt32.le_iff_toNat_le, UInt32.toNat_one]; omega),
          UInt32.toNat_one]
      · rfl
    have hfunc : unshift plan.hook func' ≠ 0xFFFFFFFF := by
      intro e
      rw [e, hlast] at hback
      have hhook := plan.hook.toNat_lt
      split at hback <;> omega
    refine ⟨unshift plan.hook func', hfunc, ?_, UInt32.toNat_inj.1 ?_⟩
    · split at hback <;> omega
    · rw [toNat_shift hfunc, hback]
      split <;> split <;> omega

end

/-- In a metered module nothing but the charges refers to the hook, and every other reference has
moved, in its place, to where the function now is that it means. -/
theorem hook_out_of_reach {options : Options} {rules : Rules} {memoryExport : Option String}
    {binary : Bytes} {s : Summary} {memory : MemoryInfo} {m m' : Module}
    (hs : Summary.of binary = .ok s) (hcheck : check options s = .ok memory)
    (hm : Module.decode? .full binary = some m)
    (hmeter : meter? s rules memoryExport binary = some m')
    (hlast : ∀ func ∈ m.itemFuncs ++ m.codeFuncs ++ nameFuncs m, func ≠ 0xFFFFFFFF) :
    HookImported (.of s rules memoryExport) m m' ∧ Unreferenced (.of s rules memoryExport) m m' ∧
      Relocated (.of s rules memoryExport) m m' ∧ Denotes (.of s rules memoryExport) m m' := by
  simp only [meter?, hm, Option.bind_eq_bind, Option.bind_some] at hmeter
  have hitems := items_of_meter (ordered_of_decode hm) hmeter
  have hcustoms : List.Forall₂ (fun custom custom' =>
      meterCustom? (.of s rules memoryExport) custom = some custom') m.customs m'.customs := by
    simp only [meterModule?, Option.bind_eq_bind, Option.bind_eq_some_iff, Option.pure_def,
      Option.some.injEq] at hmeter
    obtain ⟨sections, hsections, rfl⟩ := hmeter
    exact customs_of_meter hsections
  have hfunctions := summary_functionImports hs hm
  have hindex : (Plan.of s rules memoryExport).hook.toNat = m.funcImports.length :=
    (hookIndex_of_summary hs hm).trans m.length_funcImports.symm
  have htype : (Plan.of s rules memoryExport).hookType.toNat = m.types.length :=
    typeIndex_of_summary hs hm
  have hreserved : ∀ i ∈ m.funcImports, ¬(i.module = hookModule ∧ i.name = hookName) := by
    intro i hi hname
    obtain ⟨himport, hfunction⟩ := List.mem_filter.1 hi
    obtain ⟨f, hf⟩ := Option.isSome_iff_exists.1 hfunction
    have hmem : f ∈ s.functionImports := hfunctions ▸ List.mem_filterMap.2 ⟨i, himport, hf⟩
    have hsame : f.module = i.module ∧ f.name = i.name := by
      unfold Import.function? at hf
      split at hf <;> cases hf <;> exact ⟨rfl, rfl⟩
    exact (checked_of_check hcheck).reserved f hmem (by rw [hsame.1, hsame.2]; exact hname)
  refine ⟨hookImported_of_items hitems hindex htype hreserved, ⟨?_, ?_, ?_⟩, ⟨?_, hitems.tables,
    hitems.globals, ⟨_, hitems.exports, ?_⟩, hitems.starts, hitems.elements, hitems.datas, hcustoms⟩,
    denotes_of_items hitems hindex (length_bodies hm)⟩
  · rw [itemFuncs_of_items hitems]
    exact not_mem_map_shift fun func hfunc => hlast func (by simp [hfunc])
  · intro hmem
    obtain ⟨custom', hcustom', hfunc⟩ := List.mem_flatMap.1 hmem
    obtain ⟨custom, hcustom, hmetered⟩ := exists_of_forall₂ hcustoms hcustom'
    rcases customFuncs_of_meter hmetered with hnone | hmoved
    · rw [hnone] at hfunc
      cases hfunc
    · rw [hmoved] at hfunc
      refine not_mem_map_shift (fun func hf => hlast func ?_) hfunc
      exact List.mem_append_right _ (List.mem_flatMap.2 ⟨custom, hcustom, hf⟩)
  · intro body hbody
    rw [Body.funcs, Body.mapFunc, filterMap_func_mapFunc]
    refine not_mem_map_shift fun func hfunc => hlast func ?_
    exact List.mem_append_left _ (List.mem_append_right _ (List.mem_flatMap.2 ⟨body, hbody, hfunc⟩))
  · rw [hitems.bodies, List.forall₂_map_right_iff, List.forall₂_same]
    exact fun body _ => ⟨rfl, charged_meterCode _ body.code⟩
  · intro e he
    obtain ⟨name, -, rfl⟩ := List.mem_map.1 he
    rfl

/-- A module whose entry calls the host and itself, and names itself in a segment, in an export and
in a name section. -/
def relay : Module :=
  ⟨[.types [.plain ⟨[], []⟩], .imports [⟨"env", "print", .func 0⟩], .functions [0],
    .memories [⟨⟨1, none⟩, false, false, none⟩], .exports [⟨"entry", .func, 1⟩],
    .elements [⟨.declared, .functions [0, 1]⟩], .code [⟨[], [.call 0, .call 1, .endMark]⟩],
    .custom nameSection (NameSubsection.functions [(1, "entry")]).write]⟩

def relaySummary : Summary :=
  ⟨[⟨[], []⟩], [⟨"env", "print", 0⟩], [0, 0], [⟨"entry", .func, 1⟩], [⟨⟨1, none⟩, false, false⟩],
    false, [], none⟩

theorem hook_out_of_reach_relay : ∃ m', meter? relaySummary (.constant 1) none relay.encode = some m' ∧
    HookImported (.of relaySummary (.constant 1) none) relay m' ∧
    Unreferenced (.of relaySummary (.constant 1) none) relay m' ∧
    Relocated (.of relaySummary (.constant 1) none) relay m' ∧
    Denotes (.of relaySummary (.constant 1) none) relay m' := by
  have hs : Summary.of relay.encode = .ok relaySummary := by decide +kernel
  have hcheck : check .standard relaySummary = .ok ⟨⟨1, none⟩, false, false⟩ := by decide +kernel
  have hm : Module.decode? .full relay.encode = some relay := by decide +kernel
  have hsome : (meter? relaySummary (.constant 1) none relay.encode).isSome = true := by
    decide +kernel
  have hlast : 0xFFFFFFFF ∉ relay.itemFuncs ++ relay.codeFuncs ++ nameFuncs relay := by
    decide +kernel
  obtain ⟨m', hmeter⟩ := Option.isSome_iff_exists.1 hsome
  exact ⟨m', hmeter, hook_out_of_reach hs hcheck hm hmeter fun _ hfunc =>
    ne_of_mem_of_not_mem hfunc hlast⟩

/-- A module that is accepted, with a function of the first type that there is not. -/
def askew : Module :=
  ⟨[.types [.plain ⟨[], []⟩], .functions [0, 1], .memories [⟨⟨1, none⟩, false, false, none⟩],
    .exports [⟨"entry", .func, 0⟩], .code [⟨[], [.endMark]⟩, ⟨[], [.endMark]⟩]]⟩

def askewSummary : Summary :=
  ⟨[⟨[], []⟩], [], [0, 1], [⟨"entry", .func, 0⟩], [⟨⟨1, none⟩, false, false⟩], false, [], none⟩

/-- A function without a type gets that of the hook. -/
theorem hookType_for_untyped : ∃ m', Summary.of askew.encode = .ok askewSummary ∧
    check .standard askewSummary = .ok ⟨⟨1, none⟩, false, false⟩ ∧
    (0xFFFFFFFF : UInt32) ∉ askew.itemFuncs ++ askew.codeFuncs ++ nameFuncs askew ∧
    meter? askewSummary (.constant 1) none askew.encode = some m' ∧
    askew.funcDecls[1]?.bind askew.declType? = none ∧
    (m'.funcDecls[2]?.bind m'.declType?).map TypeEntry.type = some ⟨[.i32], []⟩ := by
  have hs : Summary.of askew.encode = .ok askewSummary := by decide +kernel
  have hcheck : check .standard askewSummary = .ok ⟨⟨1, none⟩, false, false⟩ := by decide +kernel
  have hlast : (0xFFFFFFFF : UInt32) ∉ askew.itemFuncs ++ askew.codeFuncs ++ nameFuncs askew := by
    decide +kernel
  have hsome : (meter? askewSummary (.constant 1) none askew.encode).isSome = true := by
    decide +kernel
  have htyped : ∀ m' ∈ meter? askewSummary (.constant 1) none askew.encode,
      (m'.funcDecls[2]?.bind m'.declType?).map TypeEntry.type = some ⟨[.i32], []⟩ := by
    decide +kernel
  obtain ⟨m', hmeter⟩ := Option.isSome_iff_exists.1 hsome
  exact ⟨m', hs, hcheck, hlast, hmeter, by decide +kernel, htyped m' hmeter⟩

end MeteredWasm.Metering
