import Mathlib.Data.List.Nodup
import MeteredWasm.Proofs.Metering.Bounded
import MeteredWasm.Proofs.Metering.OutOfReach

/-!
# The rest of a module stays in place

Apart from the charges in its code, a metered module is the module that it was: every section is
still there, in its place, with the same items in the same order. What the pass adds comes last in
its section, or in a section of its own where there was none (`sections_in_place`). All of this is
about the sections that the binary form of the metered module is decoded to.
-/

set_option autoImplicit false

namespace MeteredWasm.Wasm

/-! ## Ids -/

/-- The ids of the sections of a module, in order. -/
def Module.ids (m : Module) : List UInt8 := m.sections.map Section.id

theorem Section.id_eq_iff {s : Section} {kind : SectionKind} :
    s.id = kind.id ↔ s.kind? = some kind := by
  unfold Section.id
  cases hk : s.kind? with
  | none => simpa using kind.id_ne_zero.symm
  | some k =>
    simp only [Option.elim_some, Option.some.injEq]
    refine ⟨fun h => ?_, fun h => h ▸ rfl⟩
    have hid := k.ofId?_id
    rw [h, kind.ofId?_id] at hid
    exact (Option.some.inj hid).symm

theorem mem_ids_iff {m : Module} {kind : SectionKind} :
    kind.id ∈ m.ids ↔ ∃ s ∈ m.sections, s.kind? = some kind := by
  simp only [Module.ids, List.mem_map, Section.id_eq_iff]

/-- In an ordered row there is one section of a kind at most. -/
theorem count_ids_le {m : Module} (hord : Ordered m.sections) (kind : SectionKind) :
    m.ids.count kind.id ≤ 1 := by
  have hcount : m.ids.count kind.id = (m.sections.filterMap Section.kind?).count kind := by
    rw [Module.ids, List.count, List.countP_map, List.count_filterMap]
    refine List.countP_congr fun s _ => ?_
    simp only [Function.comp_apply, beq_iff_eq]
    exact Section.id_eq_iff
  rw [hcount]
  refine List.nodup_iff_count_le_one.1 (List.Pairwise.imp (fun {a b} h => ?_) hord) kind
  rintro rfl
  exact Nat.lt_irrefl _ h

theorem count_ids_eq_one {m : Module} (hord : Ordered m.sections) {kind : SectionKind}
    (h : ∃ s ∈ m.sections, s.kind? = some kind) : m.ids.count kind.id = 1 :=
  Nat.le_antisymm (count_ids_le hord kind) (List.count_pos_iff.2 (mem_ids_iff.2 h))

end MeteredWasm.Wasm

namespace MeteredWasm.Metering

open Wasm

variable {plan : Plan}

/-! ## Where sections come from -/

theorem id_of_meterSection {s s' : Section} (h : meterSection? plan s = some s') :
    s'.id = s.id := by
  rw [Section.id, kind_of_meterSection h, Section.id]

/-- The sections whose ids are in the module are the metered ones of the module, in order: a section
is put in only for a kind that the module has no section of. -/
theorem aligned_of_row {ids : List UInt8} {owed : Owed} {sections sections' : List Section}
    (hord : Ordered sections) (hids : ∀ s ∈ sections, s.id ∈ ids)
    (howed : ∀ kind, owed.owes kind = true → kind.id ∈ ids → ∃ s ∈ sections, s.kind? = some kind)
    (hrow : MeteredRow plan owed sections sections') :
    List.Forall₂ (fun s s' => meterSection? plan s = some s') sections
      (sections'.filter (·.id ∈ ids)) := by
  induction hrow with
  | done owed =>
    rw [List.filter_eq_nil_iff.2]
    · exact .nil
    · intro s hs hid
      obtain ⟨kind, howes, -, hs⟩ := mem_due.1 hs
      rw [decide_eq_true_eq, Section.id_eq_iff.2 (Plan.kind_section hs)] at hid
      obtain ⟨_, hmem, -⟩ := howed kind howes hid
      cases hmem
  | @custom owed s s' rest rest' hk hmetered _ ih =>
    obtain ⟨hid, hids⟩ := List.forall_mem_cons.1 hids
    have hid' : s'.id ∈ ids := id_of_meterSection hmetered ▸ hid
    rw [List.filter_cons_of_pos (by simpa using hid')]
    refine .cons hmetered (ih (ordered_cons.1 hord).2 hids fun kind howes hmem => ?_)
    obtain ⟨t, ht, hkt⟩ := howed kind howes hmem
    rcases List.mem_cons.1 ht with rfl | ht
    · rw [hk] at hkt
      cases hkt
    · exact ⟨t, ht, hkt⟩
  | @known owed s s' rest rest' k hk hmetered _ ih =>
    obtain ⟨hid, hids⟩ := List.forall_mem_cons.1 hids
    obtain ⟨hbehind, hord⟩ := ordered_cons.1 hord
    have hid' : s'.id ∈ ids := id_of_meterSection hmetered ▸ hid
    -- Sections behind this one are of later kinds, and what is put in front of it is not.
    have hnone : (owed.due plan (some k)).filter (·.id ∈ ids) = [] := by
      refine List.filter_eq_nil_iff.2 fun t ht hmem => ?_
      obtain ⟨kind, howes, hlt, ht⟩ := mem_due.1 ht
      rw [decide_eq_true_eq, Section.id_eq_iff.2 (Plan.kind_section ht)] at hmem
      rw [Option.elim_some] at hlt
      obtain ⟨u, hu, hku⟩ := howed kind howes hmem
      rcases List.mem_cons.1 hu with rfl | hu
      · rw [hk] at hku
        cases hku
        omega
      · have := hbehind k hk u hu kind hku
        omega
    rw [List.filter_append, hnone, List.nil_append, List.filter_cons_of_pos (by simpa using hid')]
    refine .cons hmetered (ih hord hids fun kind howes hmem => ?_)
    rw [Owed.owes_past, Bool.and_eq_true, decide_eq_true_eq] at howes
    obtain ⟨t, ht, hkt⟩ := howed kind howes.1 hmem
    rcases List.mem_cons.1 ht with rfl | ht
    · rw [hk] at hkt
      cases hkt
      omega
    · exact ⟨t, ht, hkt⟩

/-! ## Sections that are kept -/

/-- A section and what metering makes of it: the same items in the same order, up to the functions
that they refer to, with what is added behind them. -/
inductive Kept (plan : Plan) : Section → Section → Prop
  | custom {name : String} (contents : Bytes) (h : name ≠ nameSection) :
    Kept plan (.custom name contents) (.custom name contents)
  /-- Of a name section all subsections are kept but those that are passed over. -/
  | names {contents contents' : Bytes} {subsections : List NameSubsection}
    (read : NameSubsection.all? contents = some subsections)
    (kept : NameSubsection.all? contents' = some
      ((subsections.filter fun s => !s.isSkipped).map (NameSubsection.mapFunc (shift plan.hook)))) :
    Kept plan (.custom nameSection contents) (.custom nameSection contents')
  | types (items : List TypeEntry) : Kept plan (.types items) (.types (items ++ [hookTypeEntry]))
  | imports (items : List Import) :
    Kept plan (.imports items) (.imports (items ++ [plan.hookImport]))
  | functions (types : List UInt32) : Kept plan (.functions types) (.functions types)
  | tables (items : List Table) :
    Kept plan (.tables items) (.tables (items.map (Table.mapFunc (shift plan.hook))))
  | memories (items : List MemoryType) : Kept plan (.memories items) (.memories items)
  | tags (types : List UInt32) : Kept plan (.tags types) (.tags types)
  | globals (items : List Global) :
    Kept plan (.globals items) (.globals (items.map (Global.mapFunc (shift plan.hook))))
  | exports (items : List Export) : Kept plan (.exports items)
    (.exports (items.map (Export.mapFunc (shift plan.hook)) ++ plan.addedExports))
  | start (func : UInt32) : Kept plan (.start func) (.start (shift plan.hook func))
  | elements (items : List Element) :
    Kept plan (.elements items) (.elements (items.map (Element.mapFunc (shift plan.hook))))
  | dataCount (count : UInt32) : Kept plan (.dataCount count) (.dataCount count)
  /-- Bodies have charges put in. -/
  | code {bodies bodies' : List Body} (charged : List.Forall₂ (fun body body' =>
      body'.locals = body.locals ∧
      Charged plan.hook (body.code.map (Operator.mapFunc (shift plan.hook))) body'.code)
      bodies bodies') :
    Kept plan (.code bodies) (.code bodies')
  | data (items : List Data) :
    Kept plan (.data items) (.data (items.map (Data.mapFunc (shift plan.hook))))

theorem NameSubsection.isSkipped_mapFunc (f : UInt32 → UInt32) (s : NameSubsection) :
    (s.mapFunc f).isSkipped = s.isSkipped := by
  cases s <;> rfl

theorem kept_of_meterSection {s s' : Section} (h : meterSection? plan s = some s')
    (hlength : s'.contents.length < 2 ^ 32) : Kept plan s s' := by
  cases s
  case custom name contents =>
    simp only [meterSection?] at h
    split at h
    · rename_i hname
      subst hname
      obtain ⟨contents', hcontents, rfl⟩ := Option.map_eq_some_iff.1 h
      simp only [meterNames?, Option.bind_eq_bind, Option.bind_eq_some_iff, Option.pure_def,
        Option.some.injEq] at hcontents
      obtain ⟨subsections, hread, rfl⟩ := hcontents
      refine .names hread ?_
      rw [NameSubsection.all_flatMap_write hread]
      · rw [List.filter_map]
        simp only [Function.comp_def, NameSubsection.isSkipped_mapFunc]
      · simp only [Section.contents, List.length_append] at hlength
        omega
    · rename_i hname
      cases h
      exact .custom contents hname
  all_goals cases h
  case code bodies =>
    refine .code (List.forall₂_map_right_iff.2 (List.forall₂_same.2 fun body _ => ⟨rfl, ?_⟩))
    exact charged_meterCode plan body.code
  all_goals constructor

/-! ## The row of sections -/

/-- What metering leaves of a module. -/
structure InPlace (plan : Plan) (m m' : Module) : Prop where
  /-- The hook comes behind the functions that the module imports. -/
  hook : plan.hook.toNat = m.importedFuncs.length
  /-- The type of the hook comes behind those of the module. -/
  hookType : plan.hookType.toNat = m.types.length
  ordered : Ordered m'.sections
  once : ∀ kind : SectionKind, m'.ids.count kind.id ≤ 1
  types : m'.ids.count SectionKind.types.id = 1
  imports : m'.ids.count SectionKind.imports.id = 1
  exports : plan.memoryExport.isSome → m'.ids.count SectionKind.exports.id = 1
  /-- Sections of kinds that the module has none of hold what is added, and nothing else. -/
  added : ∀ s ∈ m'.sections, s.id ∉ m.ids → s = .types [hookTypeEntry] ∨
    s = .imports [plan.hookImport] ∨ plan.memoryExport.isSome ∧ s = .exports plan.addedExports
  ids : m'.ids.filter (· ∈ m.ids) = m.ids
  kept : List.Forall₂ (Kept plan) m.sections (m'.sections.filter (·.id ∈ m.ids))

section
variable {m m' : Module}

/-- Items of a kind stand in a section of that kind. -/
theorem exists_of_mem_flatMap {α : Type} {get : Section → List α} {kind : SectionKind}
    {sections : List Section} (other : ∀ s, s.kind? ≠ some kind → get s = []) {x : α}
    (hx : x ∈ sections.flatMap get) : ∃ s ∈ sections, s.kind? = some kind := by
  obtain ⟨s, hs, hx⟩ := List.mem_flatMap.1 hx
  refine ⟨s, hs, not_ne_iff.1 fun hne => ?_⟩
  rw [other s hne] at hx
  cases hx

theorem inPlace_of_meter (hord : Ordered m.sections) (hm : meterModule? plan m = some m')
    (hhook : plan.hook.toNat = m.importedFuncs.length)
    (htype : plan.hookType.toNat = m.types.length)
    (hlength : ∀ s ∈ m'.sections, s.contents.length < 2 ^ 32) : InPlace plan m m' := by
  have hitems := items_of_meter hord hm
  have hord' := ordered_of_meter hord hm
  have hrow := row_of_meter hm
  have haligned : List.Forall₂ (fun s s' => meterSection? plan s = some s') m.sections
      (m'.sections.filter (·.id ∈ m.ids)) :=
    aligned_of_row hord (fun s hs => List.mem_map_of_mem hs)
      (fun kind _ hmem => mem_ids_iff.1 hmem) hrow
  refine ⟨hhook, htype, hord', count_ids_le hord', count_ids_eq_one hord' ?_,
    count_ids_eq_one hord' ?_, fun hsome => count_ids_eq_one hord' ?_, fun s hs hnew => ?_, ?_, ?_⟩
  · exact exists_of_mem_flatMap (treats_types plan).other
      (show hookTypeEntry ∈ m'.types by simp [hitems.types])
  · exact exists_of_mem_flatMap (treats_imports plan).other
      (show plan.hookImport ∈ m'.imports by simp [hitems.imports])
  · obtain ⟨name, hname⟩ := Option.isSome_iff_exists.1 hsome
    exact exists_of_mem_flatMap (treats_exports plan).other
      (show ⟨name, .memory, 0⟩ ∈ m'.exports by
        simp [hitems.exports, Plan.addedExports, hname])
  · rcases mem_of_row hrow hs with ⟨t, ht, hmetered⟩ | hdue
    · exact absurd (id_of_meterSection hmetered ▸ List.mem_map_of_mem ht) hnew
    · obtain ⟨kind, howes, -, hs⟩ := mem_due.1 hdue
      cases kind <;> cases hs
      · exact .inl rfl
      · exact .inr (.inl rfl)
      · exact .inr (.inr ⟨howes, rfl⟩)
  · have hsame : m.sections.map Section.id =
        (m'.sections.filter (·.id ∈ m.ids)).map Section.id := by
      rw [← List.forall₂_eq_eq_eq, List.forall₂_map_left_iff, List.forall₂_map_right_iff]
      exact haligned.imp fun s s' h => (id_of_meterSection h).symm
    exact List.filter_map.trans hsame.symm
  · refine List.forall₂_iff_zip.2 ⟨haligned.length_eq, fun hmem => ?_⟩
    refine kept_of_meterSection (List.forall₂_zip haligned hmem) (hlength _ ?_)
    exact (List.mem_filter.1 (List.of_mem_zip hmem).2).1

end

/-- Metering leaves everything but the code of a module in place. The binary form of the metered
module is decoded to the sections of the module, each with its items, and to what is added. The
length of a section has to fit the 32 bits that it is written in. -/
theorem sections_in_place {rules : Rules} {memoryExport : Option String} {binary : Bytes}
    {s : Summary} {m' : Module} (hs : Summary.of binary = .ok s)
    (hmeter : meter? s rules memoryExport binary = some m')
    (hname : ∀ name ∈ memoryExport, NameFits name)
    (hlength : ∀ sec ∈ m'.sections, sec.contents.length < 2 ^ 32) :
    ∃ m, Module.decode? .full binary = some m ∧ Module.decode? .full m'.encode = some m' ∧
      InPlace (.of s rules memoryExport) m m' := by
  simp only [meter?, Option.bind_eq_bind, Option.bind_eq_some_iff] at hmeter
  obtain ⟨m, hm, hmeter⟩ := hmeter
  exact ⟨m, hm, decode_of_meter hm hmeter hname hlength,
    inPlace_of_meter (ordered_of_decode hm) hmeter (hookIndex_of_summary hs hm)
      (typeIndex_of_summary hs hm) hlength⟩

/-- A private memory with a segment, between custom sections: one with a name for the module, names
of labels and a name for a function that there is not. There are no types, imports and exports. -/
def scattered : Module :=
  ⟨[.custom "front" [1, 2, 3], .memories [⟨⟨1, none⟩, false, false, none⟩],
    .custom nameSection (NameSubsection.write (.module "scattered") ++ [3, 1, 0] ++
      NameSubsection.write (.functions [(0, "nobody")])),
    .data [⟨.active 0 [.i32Const 8], [1]⟩], .custom "back" []]⟩

def scatteredSummary : Summary :=
  ⟨[], [], [], [], [⟨⟨1, none⟩, false, false⟩], false, [⟨8, 1⟩], none⟩

theorem sections_in_place_scattered :
    ∃ m', meter? scatteredSummary (.constant 1) (some "memory") scattered.encode = some m' ∧
      ∃ m, Module.decode? .full scattered.encode = some m ∧
        Module.decode? .full m'.encode = some m' ∧
        InPlace (.of scatteredSummary (.constant 1) (some "memory")) m m' := by
  have hs : Summary.of scattered.encode = .ok scatteredSummary := by decide +kernel
  have hsome : (meter? scatteredSummary (.constant 1) (some "memory") scattered.encode).isSome =
      true := by decide +kernel
  obtain ⟨m', hmeter⟩ := Option.isSome_iff_exists.1 hsome
  have hlengths : ∀ m' ∈ meter? scatteredSummary (.constant 1) (some "memory") scattered.encode,
      ∀ sec ∈ m'.sections, sec.contents.length < 2 ^ 32 := by decide +kernel
  have hname : ∀ name ∈ some "memory", NameFits name := by
    unfold NameFits
    decide +kernel
  exact ⟨m', hmeter, sections_in_place hs hmeter hname (hlengths m' hmeter)⟩

/-! ## What is not left as it was -/

/-- What is gone past is added. -/
theorem exists_of_foldlM_addRaw {raws : List RawSection} {s t : Summary}
    (h : raws.foldlM Summary.addRaw s = .ok t) {raw : RawSection} (hraw : raw ∈ raws) :
    ∃ a b, Summary.addRaw a raw = .ok b := by
  induction raws generalizing s with
  | nil => cases hraw
  | cons first raws ih =>
    rw [List.foldlM_cons, except_bind_eq_ok] at h
    obtain ⟨b, hfirst, h⟩ := h
    rcases List.mem_cons.1 hraw with rfl | hraw
    · exact ⟨s, b, hfirst⟩
    · exact ih h hraw

/-- A module with an export whose name is too long has no summary. -/
theorem nameFits_of_summary {m : Module} {s : Summary} (hs : Summary.of m.encode = .ok s) :
    ∀ e ∈ m.exports, NameFits e.name := by
  intro e he
  obtain ⟨sec, hsec, he⟩ := List.mem_flatMap.1 he
  cases sec
  case exports items =>
    unfold Summary.of at hs
    split at hs
    · cases hs
    · rename_i outline houtline
      obtain ⟨t, hfold, hs⟩ := except_bind_eq_ok.1 hs
      split at hs
      · rename_i hcomplete
        cases outline_encode houtline hcomplete
        obtain ⟨a, b, hadd⟩ := exists_of_foldlM_addRaw hfold (List.mem_map_of_mem hsec)
        have hanswers : Reader.Answers False
            (Section.ofContents? .full .exports (Section.exports items).contents)
            (.exports items) := Section.ofContents_answers trivial False.elim rfl
        have hraw : (Section.exports items).raw =
            .known .exports (Section.exports items).contents := Section.raw_of_kind rfl
        rw [hraw] at hadd
        simp only [Summary.addRaw, Summary.summarizes, if_true] at hadd
        split at hadd
        · rename_i sec hread
          cases hanswers.unique hread
          exact Section.within_of_ofContents hread e he
        · cases hadd
      · cases hs
  all_goals cases he

/-- A name of this many bytes. -/
def nameOfLength : Nat → String
  | 0 => ""
  | n + 1 => (nameOfLength n).push 'm'

theorem utf8ByteSize_nameOfLength (n : Nat) : (nameOfLength n).utf8ByteSize = n := by
  induction n with
  | zero => rfl
  | succ n ih =>
    rw [nameOfLength, String.utf8ByteSize_push, ih]
    rfl

theorem not_nameFits_of_lt {n : Nat} (h : maxNameLength < n) : ¬NameFits (nameOfLength n) := by
  rw [NameFits, utf8ByteSize_nameOfLength]
  omega

/-- The metered module of one without sections. -/
def meteredEmpty (name : String) : Module :=
  ⟨[.types [hookTypeEntry], .imports [⟨hookModule, hookName, .func 0⟩],
    .exports [⟨name, .memory, 0⟩]]⟩

/-- It has no summary, if the name is too long. -/
theorem summary_meteredEmpty {name : String} (hlong : ¬NameFits name) (s : Summary) :
    Summary.of (meteredEmpty name).encode ≠ .ok s := fun hs =>
  have hmem : (⟨name, .memory, 0⟩ : Export) ∈ (meteredEmpty name).exports :=
    List.mem_singleton_self _
  hlong (nameFits_of_summary hs _ hmem)

/-- A custom section whose name stands behind a length of two bytes, where one would do. -/
def padded : Bytes := Header.module.bytes ++ [0x00, 0x04, 0x81, 0x00, 0x78, 0x07]

/-- Lengths are written in the shortest form, so a custom section can change in front of its
contents; bodies are charged for; and a name of any length is given to the memory, while one that is
too long is not read. -/
theorem not_left_as_it_was :
    (∃ m', meter? .empty (.constant 1) none padded = some m' ∧
      Header.module.bytes ++ [0x00, 0x03, 0x01, 0x78, 0x07] <+: m'.encode) ∧
    (∃ m m', Module.decode? .full relay.encode = some m ∧
      meter? relaySummary (.constant 1) none relay.encode = some m' ∧
      m'.bodies ≠ m.bodies.map (Body.mapFunc (shift relaySummary.hookIndex))) ∧
    ∃ name m', meter? .empty (.constant 1) (some name) Header.module.bytes = some m' ∧
      Module.decode? .full m'.encode = none := by
  refine ⟨?_, ?_, nameOfLength (maxNameLength + 1), meteredEmpty _, rfl, ?_⟩
  · have hprefix : ∀ m' ∈ meter? .empty (.constant 1) none padded,
        Header.module.bytes ++ [0x00, 0x03, 0x01, 0x78, 0x07] <+: m'.encode := by decide +kernel
    have hsome : (meter? .empty (.constant 1) none padded).isSome = true := by decide +kernel
    obtain ⟨m', hmeter⟩ := Option.isSome_iff_exists.1 hsome
    exact ⟨m', hmeter, hprefix m' hmeter⟩
  · have hm : Module.decode? .full relay.encode = some relay := by decide +kernel
    have hne : ∀ m' ∈ meter? relaySummary (.constant 1) none relay.encode,
        m'.bodies ≠ relay.bodies.map (Body.mapFunc (shift relaySummary.hookIndex)) := by
      decide +kernel
    have hsome : (meter? relaySummary (.constant 1) none relay.encode).isSome = true := by
      decide +kernel
    obtain ⟨m', hmeter⟩ := Option.isSome_iff_exists.1 hsome
    exact ⟨relay, m', hm, hmeter, hne m' hmeter⟩
  · refine Option.eq_none_iff_forall_ne_some.2 fun m hm => ?_
    exact summary_meteredEmpty (not_nameFits_of_lt (Nat.lt_succ_self maxNameLength)) _
      (Summary.of_decode hm)

end MeteredWasm.Metering
