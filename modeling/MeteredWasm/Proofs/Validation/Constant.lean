import MeteredWasm.Wasm.Validation.Code

/-!
# Constant expressions without arithmetic

Every operator that may stand in a constant expression pushes one value and takes none, unless
arithmetic is allowed there. A valid expression leaves one value, so without arithmetic it is a
single operator (`const_single`). The offset of a segment is then an `i32.const`, unless a global is
imported (`offset_of_const`).
-/

set_option autoImplicit false

namespace MeteredWasm.Wasm.Validation

/-! ## Operands of a frame that can be reached -/

namespace Frame

variable {f f' : Frame}

theorem pop_of_reachable {type : ValType} (hreach : f.unreachable = false)
    (h : f.pop? type = some f') :
    ∃ found, f.operands = found :: f'.operands ∧ f'.unreachable = false := by
  obtain ⟨opener, params, results, operands, unreachable⟩ := f
  cases hreach
  cases operands with
  | nil => cases h
  | cons found operands =>
    cases found with
    | none =>
      cases h
      exact ⟨none, rfl, rfl⟩
    | some t =>
      change (if t = type then _ else none) = _ at h
      simp only [Option.ite_none_right_eq_some, Option.some.injEq] at h
      obtain ⟨rfl, rfl⟩ := h
      exact ⟨some t, rfl, rfl⟩

theorem popAll_of_reachable {types : List ValType} (hreach : f.unreachable = false)
    (h : f.popAll? types = some f') : f.operands.length = types.length + f'.operands.length := by
  unfold popAll? at h
  have hlength : types.reverse.length = types.length := List.length_reverse
  rw [← hlength]
  generalize types.reverse = types at h ⊢
  induction types generalizing f with
  | nil =>
    cases h
    simp
  | cons type types ih =>
    simp only [List.foldlM_cons, Option.bind_eq_bind, Option.bind_eq_some_iff] at h
    obtain ⟨g, hpop, h⟩ := h
    obtain ⟨found, hoperands, hreach'⟩ := pop_of_reachable hreach hpop
    have hrest := ih hreach' h
    rw [hoperands, List.length_cons, List.length_cons, hrest]
    omega

/-- A frame that can be reached closes with as many operands as it has results. -/
theorem length_of_closes (hreach : f.unreachable = false) (h : f.closes = true) :
    f.operands.length = f.results.length := by
  unfold closes at h
  split at h
  · rename_i f' hpop
    have hlength := popAll_of_reachable hreach hpop
    rw [List.isEmpty_iff] at h
    simpa [h] using hlength
  · cases h

end Frame

/-! ## Constant expressions -/

theorem closes_of_codeOk {c : Context} {locals : Array ValType} {results : List ValType} {f : Frame}
    (h : codeOk c locals results [.endMark] [f] = true) : f.closes = true := by
  rw [codeOk] at h
  split at h
  · rename_i hstep
    simp only [step?, Option.ite_none_right_eq_some] at hstep
    exact hstep.1.1
  · cases h

section
variable {c : Context} (hplain : c.features.extendedConst = false)
include hplain

section
variable {op : Operator} (hop : constOperator c op = true) {locals : Array ValType}
include hop

/-- A constant operator that does not compute takes nothing and leaves one value. -/
theorem signature_const {references : List UInt32} {s : Signature}
    (h : signature? { c with references } locals op = some s) : ∃ type, s = ([], [type]) := by
  cases op
  case i32Const | i64Const | f32Const | f64Const | v128Const =>
    cases h
    exact ⟨_, rfl⟩
  case refNull | refFunc =>
    simp only [signature?, given, Option.ite_none_right_eq_some, Option.some.injEq] at h
    exact ⟨_, h.2.symm⟩
  case globalGet =>
    simp only [signature?, Option.bind_eq_bind, Option.bind_eq_some_iff, Option.pure_def,
      Option.some.injEq] at h
    obtain ⟨type, -, rfl⟩ := h
    exact ⟨_, rfl⟩
  case numeric op =>
    cases op
    case intBinary => simp [constOperator, hplain] at hop
    all_goals cases hop
  all_goals cases hop

theorem step_const {references : List UInt32} {results : List ValType} {f : Frame}
    {outer frames : List Frame}
    (h : step? { c with references } locals results op (f :: outer) = some frames) :
    ∃ type, signature? { c with references } locals op = some ([], [type]) ∧
      frames = f.push [type] :: outer := by
  have hsignature : ∃ s, signature? { c with references } locals op = some s ∧
      (f.consume? s).map (· :: outer) = some frames := by
    cases op
    case i32Const | i64Const | f32Const | f64Const | v128Const | refNull | refFunc | globalGet
        | numeric =>
      simp only [step?, Option.bind_eq_bind, Option.bind_eq_some_iff, Option.pure_def,
        Option.some.injEq] at h
      obtain ⟨s, hs, g, hg, rfl⟩ := h
      exact ⟨s, hs, by rw [hg]; rfl⟩
    all_goals cases hop
  obtain ⟨s, hs, hframes⟩ := hsignature
  obtain ⟨type, rfl⟩ := signature_const hplain hop hs
  cases hframes
  exact ⟨type, hs, rfl⟩

end

/-- As many values as there are operators are pushed, and as many as there are results are left. -/
theorem length_const {e : ConstExpr} (hconst : ∀ op ∈ e, constOperator c op = true)
    {references : List UInt32} {locals : Array ValType} {results : List ValType} {f : Frame}
    (hreach : f.unreachable = false)
    (h : codeOk { c with references } locals results (e ++ [.endMark]) [f] = true) :
    f.operands.length + e.length = f.results.length := by
  induction e generalizing f with
  | nil => exact Frame.length_of_closes hreach (closes_of_codeOk h)
  | cons op e ih =>
    rw [List.cons_append, codeOk] at h
    split at h
    · rename_i frames hstep
      obtain ⟨type, -, rfl⟩ := step_const hplain (hconst op (List.mem_cons_self ..)) hstep
      have hconst' := fun op' hop' => hconst op' (List.mem_cons_of_mem op hop')
      have hrest := ih (f := f.push [type]) hconst' hreach h
      simp only [Frame.push, List.map_cons, List.map_nil, List.reverse_singleton,
        List.singleton_append, List.length_cons] at hrest ⊢
      omega
    · cases h

/-- A constant expression that does not compute is a single operator, of the type it is checked
against. -/
theorem const_single {type : ValType} {e : ConstExpr} (h : constOk c type e = true) :
    ∃ op references, e = [op] ∧ constOperator c op = true ∧
      signature? { c with references } #[] op = some ([], [type]) := by
  simp only [constOk, Bool.and_eq_true] at h
  obtain ⟨hconst, hcode⟩ := h
  have hconst := List.all_eq_true.1 hconst
  have hlength := length_const hplain hconst (f := .enter .body [] [type]) rfl hcode
  obtain ⟨op, rfl⟩ := List.length_eq_one_iff.1 ((Nat.zero_add _).symm.trans hlength)
  have hop := hconst op (List.mem_singleton_self op)
  rw [List.singleton_append, codeOk] at hcode
  split at hcode
  · rename_i frames hstep
    obtain ⟨pushed, hsignature, rfl⟩ := step_const hplain hop hstep
    -- The frame closes with the one value that has been pushed.
    have hpushed : pushed = type := by
      have hcloses := closes_of_codeOk hcode
      refine Decidable.byContradiction fun hne => ?_
      simp [Frame.closes, Frame.popAll?, Frame.pop?, Frame.popAny?, Frame.push, Frame.enter,
        hne] at hcloses
    exact ⟨op, _, rfl, hop, hpushed ▸ hsignature⟩
  · cases hcode

/-- Where no global is imported, an offset is a number that stands in the module. -/
theorem offset_of_const (hglobals : c.importedGlobals = 0) {e : ConstExpr}
    (h : constOk c .i32 e = true) : ∃ offset, e = [.i32Const offset] := by
  obtain ⟨op, _, rfl, hop, hsignature⟩ := const_single hplain h
  cases op
  case i32Const offset => exact ⟨offset, rfl⟩
  case globalGet => simp [constOperator, hglobals] at hop
  case numeric op => cases op <;> simp [constOperator, hplain] at hop
  case refNull | refFunc => simp [signature?, given, ValType.funcref] at hsignature
  case i64Const | f32Const | f64Const | v128Const => cases hsignature
  all_goals cases hop

end

end MeteredWasm.Wasm.Validation
