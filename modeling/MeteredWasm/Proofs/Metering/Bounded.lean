import MeteredWasm.Proofs.Codec.Encode
import MeteredWasm.Proofs.Metering.Position
import MeteredWasm.Proofs.Module.Order

/-!
# A metered module is read again

Metering keeps what is in a section within the bounds of a dialect, the frames that code opens and
closes, and the numbers that the outline keeps of a row. So the binary form of a metered module is
read (`decode_of_meter`), as long as its sections are not too long for their length to be written.
-/

set_option autoImplicit false

namespace MeteredWasm.Wasm

/-! ## Renaming functions -/

section
variable (f : UInt32 → UInt32)

theorem Operator.Within.mapFunc {dialect : Dialect} {op : Operator} (h : op.Within dialect) :
    (op.mapFunc f).Within dialect := by
  cases op <;> exact h

theorem Operator.nest_mapFunc (op : Operator) (frames : List Operator.Frame) :
    (op.mapFunc f).nest? frames = op.nest? frames := by
  cases op <;> cases frames <;> rfl

theorem Operator.nestAll_map (frames : List Operator.Frame) (ops : List Operator) :
    nestAll? frames (ops.map (Operator.mapFunc f)) = nestAll? frames ops := by
  induction ops generalizing frames with
  | nil => rfl
  | cons op ops ih =>
    rw [List.map_cons, nestAll_cons, nestAll_cons, nest_mapFunc]
    simp only [ih]

theorem Operator.mapFunc_ne_endMark {op : Operator} (h : op ≠ .endMark) :
    op.mapFunc f ≠ .endMark := by
  intro he
  cases op <;> cases he
  exact h rfl

variable {dialect : Dialect}

theorem Operator.ConstWithin.mapFunc {frames : List Operator.Frame} {e : ConstExpr}
    (h : Operator.ConstWithin dialect frames e) :
    Operator.ConstWithin dialect frames (ConstExpr.mapFunc f e) := by
  refine ⟨List.forall_mem_map.2 fun op hop => (h.within op hop).mapFunc f,
    List.forall_mem_map.2 fun op hop => mapFunc_ne_endMark f (h.inner op hop), ?_⟩
  have hmap : ConstExpr.mapFunc f e ++ [Operator.endMark] =
      (e ++ [Operator.endMark]).map (Operator.mapFunc f) := by
    rw [List.map_append]
    rfl
  rw [hmap, Operator.nestAll_map]
  exact h.nested

theorem Table.Within.mapFunc {t : Table} (h : t.Within dialect) : (t.mapFunc f).Within dialect := by
  refine ⟨h.type, fun init' hi => ?_⟩
  obtain ⟨init, hinit, rfl⟩ := Option.map_eq_some_iff.1 hi
  exact (h.init init hinit).mapFunc f

theorem Global.Within.mapFunc {g : Global} (h : g.Within dialect) : (g.mapFunc f).Within dialect :=
  ⟨h.type, h.init.mapFunc f⟩

theorem Element.Within.mapFunc {e : Element} (h : e.Within dialect) :
    (e.mapFunc f).Within dialect := by
  obtain ⟨mode, items⟩ := e
  have hplain : (items.mapFunc f).plain = items.plain := by cases items <;> rfl
  refine ⟨?_, fun table offset hmode => ?_, fun offset hmode => ?_⟩
  · have hitems := h.items
    cases items with
    | functions indices =>
      change (indices.map f).length < 2 ^ 32
      rw [List.length_map]
      exact hitems
    | expressions type items =>
      obtain ⟨htype, hlength, hconst⟩ := hitems
      exact ⟨htype, by simpa using hlength,
        List.forall_mem_map.2 fun item hi => (hconst item hi).mapFunc f⟩
  · cases mode <;> cases hmode
    exact (h.offset _ _ rfl).mapFunc f
  · cases mode <;> cases hmode
    exact hplain.trans (h.plain _ rfl)

theorem Data.Within.mapFunc {d : Data} (h : d.Within dialect) : (d.mapFunc f).Within dialect := by
  obtain ⟨mode, bytes⟩ := d
  refine ⟨fun memory offset hmode => ?_, h.bytes⟩
  cases mode <;> cases hmode
  exact (h.offset _ _ rfl).mapFunc f

end

end MeteredWasm.Wasm

namespace MeteredWasm.Metering

open Wasm

variable {plan : Plan}

/-! ## Code -/

theorem within_meterCode {dialect : Dialect} (code : List Operator)
    (h : ∀ op ∈ code, op.Within dialect) : ∀ op ∈ meterCode plan code, op.Within dialect := by
  revert h
  refine meterCode_induction code id (fun op ops code ih h => ?_) fun op ops code cost ih h => ?_
  · obtain ⟨hop, hops⟩ := List.forall_mem_cons.1 h
    exact List.forall_mem_cons.2 ⟨hop.mapFunc _, ih hops⟩
  · exact List.forall_mem_cons.2 ⟨trivial, List.forall_mem_cons.2 ⟨trivial, ih h⟩⟩

/-- Charges open and close nothing. As an operator follows them, there is a frame that is open. -/
theorem nestAll_meterCode {frames' : List Operator.Frame} (code : List Operator)
    (frames : List Operator.Frame) (h : Operator.nestAll? frames code = some frames') :
    Operator.nestAll? frames (meterCode plan code) = some frames' := by
  revert frames
  refine meterCode_induction code (fun _ => id) (fun op ops code ih frames h => ?_)
    fun op ops code cost ih frames h => ?_
  · rw [Operator.nestAll_cons, Option.bind_eq_some_iff] at h ⊢
    obtain ⟨fs, hfs, h⟩ := h
    exact ⟨fs, (Operator.nest_mapFunc _ op frames).trans hfs, ih fs h⟩
  · cases frames with
    | nil =>
      rw [Operator.nestAll_cons, Option.bind_eq_some_iff] at h
      obtain ⟨fs, hfs, -⟩ := h
      cases op <;> cases hfs
    | cons f frames => exact ih _ h

theorem within_meterBody {dialect : Dialect} {b : Body} (h : b.Within dialect) :
    (meterBody plan b).Within dialect := by
  refine ⟨h.groups, h.locals, h.count, within_meterCode b.code h.code, ?_⟩
  obtain ⟨frames, hframes⟩ := Option.isSome_iff_exists.1 h.nested
  exact Option.isSome_iff_exists.2 ⟨frames, nestAll_meterCode b.code _ hframes⟩

/-! ## Sections -/

/-- What is put in somewhere is owed at the end as well, if nothing is put in before. -/
theorem due_subset_none (plan : Plan) (owed : Owed) (before : Option SectionKind) :
    owed.due plan before ⊆ owed.due plan none := by
  intro s hs
  obtain ⟨kind, howes, -, hs⟩ := mem_due.1 hs
  exact mem_due.2 ⟨kind, howes, by cases kind <;> decide, hs⟩

/-- Past a section nothing is owed that was not owed in front of it. -/
theorem due_past_subset (plan : Plan) (owed : Owed) (kind : SectionKind)
    (before : Option SectionKind) : (owed.past kind).due plan before ⊆ owed.due plan before := by
  intro s hs
  obtain ⟨kind', howes, hlt, hs⟩ := mem_due.1 hs
  rw [Owed.owes_past, Bool.and_eq_true] at howes
  exact mem_due.2 ⟨kind', howes.1, hlt, hs⟩

/-- A section of the metered row is one of the row, metered, or has been put in. -/
theorem mem_of_row {owed : Owed} {sections sections' : List Section}
    (hrow : MeteredRow plan owed sections sections') {s' : Section} (hmem : s' ∈ sections') :
    (∃ s ∈ sections, meterSection? plan s = some s') ∨ s' ∈ owed.due plan none := by
  induction hrow with
  | done owed => exact .inr hmem
  | @custom owed s _ _ _ _ hmetered _ ih =>
    rcases List.mem_cons.1 hmem with rfl | hmem
    · exact .inl ⟨s, List.mem_cons_self .., hmetered⟩
    · exact (ih hmem).imp_left fun ⟨t, ht, h⟩ => ⟨t, List.mem_cons_of_mem _ ht, h⟩
  | @known owed s _ _ _ k _ hmetered _ ih =>
    rcases List.mem_append.1 hmem with hdue | hmem
    · exact .inr (due_subset_none plan owed _ hdue)
    · rcases List.mem_cons.1 hmem with rfl | hmem
      · exact .inl ⟨s, List.mem_cons_self .., hmetered⟩
      · exact (ih hmem).imp (fun ⟨t, ht, h⟩ => ⟨t, List.mem_cons_of_mem _ ht, h⟩)
          fun h => due_past_subset plan owed k none h

/-- What holds of the sections that are owed, and is kept by what is done to a section. -/
theorem forall_of_row {P : Section → Prop}
    (added : P (.types [hookTypeEntry]) ∧ P (.imports [plan.hookImport]) ∧
      P (.exports plan.addedExports))
    (step : ∀ s s', meterSection? plan s = some s' → P s → P s') {owed : Owed}
    {sections sections' : List Section} (h : ∀ s ∈ sections, P s)
    (hrow : MeteredRow plan owed sections sections') : ∀ s ∈ sections', P s := by
  intro s' hmem
  rcases mem_of_row hrow hmem with ⟨s, hmem, hmetered⟩ | hdue
  · exact step s s' hmetered (h s hmem)
  · obtain ⟨kind, -, -, hs⟩ := mem_due.1 hdue
    cases kind <;> cases hs
    · exact added.1
    · exact added.2.1
    · exact added.2.2

theorem bounded_addedExports (h : ∀ name ∈ plan.memoryExport, NameFits name) :
    ∀ e ∈ plan.addedExports, NameFits e.name := by
  intro e he
  obtain ⟨name, hname, rfl⟩ := List.mem_map.1 he
  exact h name (Option.mem_toList.1 hname)

theorem bounded_hookType : hookTypeEntry.Bounded := by
  refine ⟨⟨⟨by decide, fun type htype => ?_⟩, by decide, fun type htype => (nomatch htype)⟩,
    fun _ h => (nomatch h), fun _ h => (nomatch h)⟩
  cases List.mem_singleton.1 htype
  trivial

theorem within_hookImport (plan : Plan) (dialect : Dialect) : plan.hookImport.Within dialect :=
  ⟨show hookModule.utf8ByteSize ≤ maxNameLength by decide +kernel,
    show hookName.utf8ByteSize ≤ maxNameLength by decide +kernel, trivial⟩

theorem forall_mem_map {α : Type} {P : α → Prop} {f : α → α} (hf : ∀ x, P x → P (f x))
    {items : List α} (h : ∀ x ∈ items, P x) : ∀ x ∈ items.map f, P x :=
  List.forall_mem_map.2 fun x hx => hf x (h x hx)

section
variable {dialect : Dialect}

theorem within_of_meterSection (hname : ∀ name ∈ plan.memoryExport, NameFits name)
    {s s' : Section} (hs : meterSection? plan s = some s') (h : s.Within dialect) :
    s'.Within dialect := by
  cases s
  case custom name contents =>
    simp only [meterSection?] at hs
    split at hs
    · obtain ⟨contents', -, rfl⟩ := Option.map_eq_some_iff.1 hs
      exact h
    · cases hs
      exact h
  all_goals cases hs
  case types => exact List.forall_mem_append.2 ⟨h, List.forall_mem_singleton.2 bounded_hookType⟩
  case imports =>
    exact List.forall_mem_append.2 ⟨h, List.forall_mem_singleton.2 (within_hookImport plan dialect)⟩
  case exports =>
    refine List.forall_mem_append.2 ⟨forall_mem_map (fun e he => ?_) h, bounded_addedExports hname⟩
    obtain ⟨name, kind, index⟩ := e
    cases kind <;> exact he
  case tables => exact forall_mem_map (fun _ ht => ht.mapFunc _) h
  case globals => exact forall_mem_map (fun _ hg => hg.mapFunc _) h
  case elements => exact forall_mem_map (fun _ he => he.mapFunc _) h
  case code => exact forall_mem_map (fun _ hb => within_meterBody hb) h
  case data => exact forall_mem_map (fun _ hd => hd.mapFunc _) h
  all_goals exact h

/-- Metering keeps what is in sections within bounds. -/
theorem within_of_meter {m m' : Module} (hname : ∀ name ∈ plan.memoryExport, NameFits name)
    (hm : meterModule? plan m = some m') (h : ∀ s ∈ m.sections, s.Within dialect) :
    ∀ s ∈ m'.sections, s.Within dialect := by
  refine forall_of_row ⟨?_, ?_, bounded_addedExports hname⟩
    (fun _ _ => within_of_meterSection hname) h (row_of_meter hm)
  · exact List.forall_mem_singleton.2 bounded_hookType
  · exact List.forall_mem_singleton.2 (within_hookImport plan dialect)

end

/-! ## Numbers of the row -/

theorem number_of_meterSection {s s' : Section} (hs : meterSection? plan s = some s')
    (kind : SectionKind) : s'.number? kind = s.number? kind := by
  cases s
  case custom name contents =>
    have hkind := kind_of_meterSection hs
    cases s' <;> cases hkind
    cases kind <;> rfl
  all_goals
    cases hs
    cases kind <;> simp [Section.number?]

/-- Sections that are put in have no number that has to agree with another. -/
theorem number_of_due (owed : Owed) (before : Option SectionKind) (kind : SectionKind) :
    (owed.due plan before).findSome? (Section.number? kind) = none := by
  refine List.findSome?_eq_none_iff.2 fun s hs => ?_
  obtain ⟨kind', -, -, hs⟩ := mem_due.1 hs
  cases kind' <;> cases hs <;> cases kind <;> rfl

theorem number_of_row {owed : Owed} {sections sections' : List Section}
    (hrow : MeteredRow plan owed sections sections') (kind : SectionKind) :
    sections'.findSome? (Section.number? kind) = sections.findSome? (Section.number? kind) := by
  induction hrow with
  | done owed => exact number_of_due owed none kind
  | custom _ hmetered _ ih =>
    rw [List.findSome?_cons, List.findSome?_cons, number_of_meterSection hmetered kind, ih]
  | known _ hmetered _ ih =>
    rw [List.findSome?_append, number_of_due, Option.none_or, List.findSome?_cons,
      List.findSome?_cons, number_of_meterSection hmetered kind, ih]

theorem rowNumbers_of_meter {m m' : Module} (hm : meterModule? plan m = some m') :
    rowNumbers m'.sections = rowNumbers m.sections :=
  funext fun kind => number_of_row (row_of_meter hm) kind

/-- The binary form of a metered module is read, if its sections are not too long. -/
theorem decode_of_meter {dialect : Dialect} {binary : Bytes} {m m' : Module}
    (hdecode : Module.decode? dialect binary = some m) (hm : meterModule? plan m = some m')
    (hname : ∀ name ∈ plan.memoryExport, NameFits name)
    (hlength : ∀ s ∈ m'.sections, s.contents.length < 2 ^ 32) :
    Module.decode? dialect m'.encode = some m' := by
  have hwithin := within_of_meter hname hm (within_of_decode hdecode)
  refine decode_encode (fun s hs => ⟨hwithin s hs, hlength s hs⟩)
    (ordered_of_meter (ordered_of_decode hdecode) hm) ?_
  rw [rowNumbers_of_meter hm]
  exact agrees_of_decode hdecode

end MeteredWasm.Metering
