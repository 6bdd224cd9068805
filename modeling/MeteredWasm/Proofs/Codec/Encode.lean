import MeteredWasm.Proofs.Codec.Bounds

/-!
# Written modules are read

A module whose sections are within the bounds of a dialect and stand in a row that the outline
accepts is read from its binary form (`decode_encode`). Whether a row is accepted is a matter of the
order of its sections and of four numbers in them (`admitsAll_iff`).
-/

set_option autoImplicit false

namespace MeteredWasm.Wasm

open Leb128 Reader

/-! ## Progress past decoded sections -/

/-- The number that the outline keeps of a section of this kind. -/
def Section.number? : SectionKind → Section → Option Nat
  | .functions, .functions indices => some indices.length
  | .code, .code bodies => some bodies.length
  | .dataCount, .dataCount count => some count.toNat
  | .data, .data items => some items.length
  | _, _ => none

theorem Section.kind_of_number {kind : SectionKind} {s : Section} {n : Nat}
    (h : s.number? kind = some n) : s.kind? = some kind := by
  unfold Section.number? at h
  split at h <;> first | rfl | cases h

namespace Progress

/-- The number that was kept of a section of this kind. -/
def kept? (p : Progress) : SectionKind → Option Nat
  | .functions => p.functions
  | .code => p.bodies
  | .dataCount => p.dataCount
  | .data => p.segments
  | _ => none

/-- The progress behind a section, wherever it stands. -/
def past (p : Progress) (s : Section) : Progress where
  rank := s.kind?.elim p.rank SectionKind.rank
  functions := (s.number? .functions).or p.functions
  bodies := (s.number? .code).or p.bodies
  dataCount := (s.number? .dataCount).or p.dataCount
  segments := (s.number? .data).or p.segments

theorem kept_past (p : Progress) (s : Section) (kind : SectionKind) :
    (p.past s).kept? kind = (s.number? kind).or (p.kept? kind) := by
  cases kind <;> rfl

/-- Whether a section may stand here. -/
structure Admits (p : Progress) (s : Section) : Prop where
  behind : behindRank p.rank s
  bodies : ∀ n ∈ s.number? .code, p.functions.getD 0 = n
  segments : ∀ n ∈ s.number? .data, p.dataCount.getD n = n

/-- Whether a row of sections may stand here, and the module may end behind it. -/
def AdmitsAll : Progress → List Section → Prop
  | p, [] => p.complete = true
  | p, s :: rest => p.Admits s ∧ (p.past s).AdmitsAll rest

end Progress

theorem next_eq_some_iff {p q : Progress} {s : Section} {kind : SectionKind} {contents : Bytes}
    {n : Nat} (hkind : s.kind? = some kind) (hcount : kind.count? contents = some n)
    (hn : ∀ k ∈ s.number? kind, k = n) :
    p.next? (.known kind contents) = some q ↔ p.Admits s ∧ p.past s = q := by
  unfold Progress.next?
  simp only [hcount]
  by_cases hrank : kind.rank ≤ p.rank
  · rw [if_pos hrank]
    simp only [reduceCtorEq, false_iff, not_and]
    intro hadmits
    have := hadmits.behind kind hkind
    omega
  · have hadmits : p.Admits s ↔ (∀ k ∈ s.number? .code, p.functions.getD 0 = k) ∧
        ∀ k ∈ s.number? .data, p.dataCount.getD k = k := by
      refine ⟨fun h => ⟨h.bodies, h.segments⟩, fun h => ⟨fun k hk => ?_, h.1, h.2⟩⟩
      rw [hkind] at hk
      cases hk
      omega
    rw [if_neg hrank, hadmits]
    cases s <;> cases hkind <;>
      simp_all [Progress.past, Section.number?, Section.kind?]

/-! ## Rows that are accepted -/

/-- The number that is kept of a section of this kind behind a row. -/
def Progress.final? (p : Progress) (sections : List Section) (kind : SectionKind) : Option Nat :=
  (p.kept? kind).or (sections.findSome? (Section.number? kind))

/-- The numbers of a row agree: there are as many bodies as functions, and as many segments as were
announced, if any were. -/
structure Agrees (numbers : SectionKind → Option Nat) : Prop where
  paired : (numbers .functions).getD 0 = (numbers .code).getD 0
  counted : ∀ n ∈ numbers .dataCount, n = (numbers .data).getD 0

/-- An ordered row behind all that has been kept, and what has been compared so far agrees. -/
structure Progress.Fronts (p : Progress) (sections : List Section) : Prop where
  ordered : Ordered sections
  behind : ∀ s ∈ sections, behindRank p.rank s
  kept : ∀ kind, (p.kept? kind).isSome → kind.rank ≤ p.rank
  bodies : ∀ n ∈ p.bodies, p.functions.getD 0 = n
  segments : ∀ n ∈ p.segments, p.dataCount.getD n = n

namespace Progress.Fronts

variable {p : Progress} {s : Section} {rest : List Section}

/-- A section gives a number in the place of none. -/
theorem kept_eq_none (h : p.Fronts (s :: rest)) {kind : SectionKind} {n : Nat}
    (hn : s.number? kind = some n) : p.kept? kind = none := by
  have hrank := h.behind s (List.mem_cons_self ..) kind (Section.kind_of_number hn)
  cases hkept : p.kept? kind with
  | none => rfl
  | some k =>
    have := h.kept kind (by rw [hkept]; rfl)
    omega

/-- Behind a section of some kind there are no numbers of the kinds in front of it. -/
theorem findSome_eq_none (h : p.Fronts (s :: rest)) {kind : SectionKind} {n : Nat}
    (hn : s.number? kind = some n) (kind' : SectionKind) (hlt : kind'.rank < kind.rank) :
    (s :: rest).findSome? (Section.number? kind') = none := by
  rw [List.findSome?_eq_none_iff]
  intro t ht
  cases hk : t.number? kind' with
  | none => rfl
  | some k =>
    have hkind := Section.kind_of_number hn
    have hkind' := Section.kind_of_number hk
    have hord := h.ordered
    unfold Ordered at hord
    rw [List.filterMap_cons_some hkind, List.pairwise_cons] at hord
    rcases List.mem_cons.1 ht with rfl | ht
    · rw [hkind] at hkind'
      cases hkind'
      omega
    · have := hord.1 kind' (List.mem_filterMap.2 ⟨t, ht, hkind'⟩)
      omega

theorem final_past (h : p.Fronts (s :: rest)) :
    (p.past s).final? rest = p.final? (s :: rest) := by
  funext kind
  unfold final?
  rw [kept_past, List.findSome?_cons]
  cases hn : s.number? kind with
  | none => rw [Option.none_or]
  | some n => rw [h.kept_eq_none hn]; rfl

theorem admits_of_agrees (h : p.Fronts (s :: rest)) (hagrees : Agrees (p.final? (s :: rest))) :
    p.Admits s := by
  refine ⟨h.behind s (List.mem_cons_self ..), fun n hn => ?_, fun n hn => ?_⟩
  · have hpaired := hagrees.paired
    have hfunctions := h.findSome_eq_none hn .functions (by decide)
    have hbodies : p.bodies = none := h.kept_eq_none hn
    rw [final?, final?, hfunctions, List.findSome?_cons, hn] at hpaired
    simpa [kept?, hbodies] using hpaired
  · have hcounted := hagrees.counted
    have hannounced := h.findSome_eq_none hn .dataCount (by decide)
    have hsegments : p.segments = none := h.kept_eq_none hn
    rw [final?, final?, hannounced, List.findSome?_cons, hn] at hcounted
    cases hcount : p.dataCount with
    | none => rfl
    | some k =>
      have := hcounted k (by simp [kept?, hcount])
      simpa [kept?, hsegments] using this

/-- Once a number of one kind is kept, none of a kind in front of it comes any more. -/
theorem number_eq_none (h : p.Fronts (s :: rest)) {kind kind' : SectionKind}
    (hsome : ((p.past s).kept? kind).isSome) (hlt : kind'.rank < kind.rank) :
    s.number? kind' = none := by
  cases hn' : s.number? kind' with
  | none => rfl
  | some n' =>
    have hkind' := Section.kind_of_number hn'
    have hrank := h.behind s (List.mem_cons_self ..) kind' hkind'
    rw [Progress.kept_past] at hsome
    cases hn : s.number? kind with
    | some n =>
      have hkind := Section.kind_of_number hn
      rw [hkind'] at hkind
      cases hkind
      omega
    | none =>
      rw [hn, Option.none_or] at hsome
      have := h.kept kind hsome
      omega

theorem past (h : p.Fronts (s :: rest)) (hadmits : p.Admits s) : (p.past s).Fronts rest := by
  have hord : Ordered rest := by
    have := h.ordered
    unfold Ordered at this ⊢
    exact this.sublist ((List.sublist_cons_self s rest).filterMap _)
  have hmono : p.rank ≤ (p.past s).rank := by
    cases hkind : s.kind? with
    | none => simp [Progress.past, hkind]
    | some kind =>
      have := hadmits.behind kind hkind
      simp only [Progress.past, hkind, Option.elim_some]
      omega
  refine ⟨hord, fun t ht kind hkind => ?_, fun kind hsome => ?_, fun n hn => ?_, fun n hn => ?_⟩
  · cases hs : s.kind? with
    | none =>
      simp only [Progress.past, hs, Option.elim_none]
      exact h.behind t (List.mem_cons_of_mem _ ht) kind hkind
    | some k =>
      have hordered := h.ordered
      unfold Ordered at hordered
      rw [List.filterMap_cons_some hs, List.pairwise_cons] at hordered
      simp only [Progress.past, hs, Option.elim_some]
      exact hordered.1 kind (List.mem_filterMap.2 ⟨t, ht, hkind⟩)
  · rw [kept_past] at hsome
    cases hn : s.number? kind with
    | none =>
      rw [hn, Option.none_or] at hsome
      exact Nat.le_trans (h.kept kind hsome) hmono
    | some n => simp [Progress.past, Section.kind_of_number hn]
  · have hnone : s.number? .functions = none :=
      h.number_eq_none (by rw [show (p.past s).kept? .code = some n from hn]; rfl)
        (show SectionKind.functions.rank < SectionKind.code.rank by decide)
    simp only [Progress.past, hnone, Option.none_or, Option.mem_def, Option.or_eq_some_iff] at hn ⊢
    rcases hn with hn | ⟨-, hn⟩
    · exact hadmits.bodies n hn
    · exact h.bodies n hn
  · have hnone : s.number? .dataCount = none :=
      h.number_eq_none (by rw [show (p.past s).kept? .data = some n from hn]; rfl)
        (show SectionKind.dataCount.rank < SectionKind.data.rank by decide)
    simp only [Progress.past, hnone, Option.none_or, Option.mem_def, Option.or_eq_some_iff] at hn ⊢
    rcases hn with hn | ⟨-, hn⟩
    · exact hadmits.segments n hn
    · exact h.segments n hn

end Progress.Fronts

/-- An ordered row is accepted if, and only if, what is kept of it agrees. -/
theorem Progress.admitsAll_iff {p : Progress} {sections : List Section} (h : p.Fronts sections) :
    p.AdmitsAll sections ↔ Agrees (p.final? sections) := by
  induction sections generalizing p with
  | nil =>
    have hbodies := h.bodies
    have hsegments := h.segments
    have hfinal : p.final? [] = p.kept? := by
      funext kind
      rw [final?, List.findSome?_nil, Option.or_none]
    have hagrees : Agrees p.kept? ↔ p.functions.getD 0 = p.bodies.getD 0 ∧
        ∀ n ∈ p.dataCount, n = p.segments.getD 0 :=
      ⟨fun h => ⟨h.paired, h.counted⟩, fun h => ⟨h.1, h.2⟩⟩
    rw [hfinal, hagrees, AdmitsAll, complete, Bool.and_eq_true]
    refine and_congr ?_ ?_
    · cases hb : p.bodies with
      | none => simp
      | some n => simp [hbodies n hb]
    · cases hs : p.segments with
      | none => cases p.dataCount <;> simp
      | some n =>
        have := hsegments n hs
        cases hd : p.dataCount <;> simp_all
  | cons s rest ih =>
    constructor
    · rintro ⟨hadmits, hrest⟩
      rw [← h.final_past]
      exact (ih (h.past hadmits)).1 hrest
    · intro hagrees
      have hadmits := h.admits_of_agrees hagrees
      rw [← h.final_past] at hagrees
      exact ⟨hadmits, (ih (h.past hadmits)).2 hagrees⟩

theorem Progress.fronts_start {sections : List Section} (h : Ordered sections) :
    Progress.start.Fronts sections := by
  refine ⟨h, fun s _ kind _ => ?_, fun kind hsome => ?_, fun n hn => (nomatch hn),
    fun n hn => (nomatch hn)⟩
  · cases kind <;> decide
  · cases kind <;> cases hsome

/-- The numbers that the outline keeps of a whole row. -/
def rowNumbers (sections : List Section) (kind : SectionKind) : Option Nat :=
  sections.findSome? (Section.number? kind)

theorem Progress.final_start (sections : List Section) :
    Progress.start.final? sections = rowNumbers sections := by
  funext kind
  cases kind <;> rfl

/-! ## Decoded rows -/

theorem count_of_ofContents {dialect : Dialect} {kind : SectionKind} {contents : Bytes} {s : Section}
    (h : Section.ofContents? dialect kind contents = some s) :
    ∃ n, kind.count? contents = some n ∧ ∀ k ∈ s.number? kind, k = n := by
  have hitems {α : Type} {item : Reader α} {items : List α}
      (hread : Reader.whole (readVec item) contents = some items) :
      ((readUnsigned 32).run contents).map Prod.fst = some items.length :=
    readUnsigned_of_readVec (whole_eq_some.1 hread)
  have hword {n : UInt32} (hread : Reader.whole readU32 contents = some n) :
      Reader.whole (readUnsigned 32) contents = some n.toNat := by
    rw [whole_eq_some] at hread ⊢
    simp only [readU32, bind_apply, pure_apply, Option.bind_eq_some_iff, Prod.exists,
      Option.some.injEq, Prod.mk.injEq] at hread
    obtain ⟨k, left, hk, rfl, rfl⟩ := hread
    rw [hk, Nat.toUInt32_eq, UInt32.toNat_ofNat', Nat.mod_eq_of_lt (readUnsigned_lt hk)]
  cases kind <;> simp only [Section.ofContents?, Option.map_eq_some_iff] at h <;>
    obtain ⟨items, hread, rfl⟩ := h
  case start | dataCount => exact ⟨_, hword hread, by simp [Section.number?]⟩
  case code =>
    simp only [Section.bodies?, Option.bind_eq_bind, Option.bind_eq_some_iff] at hread
    obtain ⟨raws, hraws, hbodies⟩ := hread
    refine ⟨raws.length, by simp [SectionKind.count?, hraws], ?_⟩
    simp [Section.number?, length_of_mapM hbodies]
  all_goals exact ⟨_, hitems hread, by simp [Section.number?]⟩

theorem admitsAll_of_passed {dialect : Dialect} {sections : List Section} {p q : Progress}
    (h : Passed dialect p sections q) (hq : q.complete = true) : p.AdmitsAll sections := by
  induction h with
  | nil => exact hq
  | @cons p p' q raw s rest hraw hsec _ ih =>
    have hstep : p.Admits s ∧ p.past s = p' := by
      cases raw with
      | custom name contents =>
        cases hsec
        cases hraw
        exact ⟨⟨fun _ h => (nomatch h), fun _ h => (nomatch h), fun _ h => (nomatch h)⟩, rfl⟩
      | unknown id => cases hsec
      | known kind contents =>
        obtain ⟨n, hcount, hnumber⟩ := count_of_ofContents hsec
        exact (next_eq_some_iff (Section.kind_of_ofContents hsec) hcount hnumber).1 hraw
    obtain ⟨hadmits, rfl⟩ := hstep
    exact ⟨hadmits, ih hq⟩

/-- The numbers in the row of a decoded module agree. -/
theorem agrees_of_decode {dialect : Dialect} {binary : Bytes} {m : Module}
    (h : Module.decode? dialect binary = some m) : Agrees (rowNumbers m.sections) := by
  obtain ⟨raws, q, hn, hq, hs⟩ := decode_eq_some h
  rw [← Progress.final_start]
  exact (Progress.admitsAll_iff (Progress.fronts_start (ordered_of_decode h))).1
    (admitsAll_of_passed (passed_of_mapM hn hs) hq)

/-! ## Written rows -/

/-- Sections that are read again once they are written. -/
structure Section.Encodable (dialect : Dialect) (s : Section) : Prop where
  within : s.Within dialect
  length : s.contents.length < 2 ^ 32

section
variable {dialect : Dialect}

theorem Section.Encodable.ofRaw {s : Section} (h : s.Encodable dialect) :
    Section.ofRaw? dialect s.raw = some s :=
  (Section.ofRaw_answers h.within.writable fun _ => ⟨h.within, h.length⟩).eq_some

theorem Section.Encodable.next {s : Section} (h : s.Encodable dialect) {p : Progress}
    (hp : p.Admits s) : p.next? s.raw = some (p.past s) := by
  have hraw := h.ofRaw
  cases hkind : s.kind? with
  | none =>
    cases s <;> cases hkind
    rfl
  | some kind =>
    rw [Section.raw_of_kind hkind] at hraw ⊢
    obtain ⟨n, hcount, hnumber⟩ := count_of_ofContents hraw
    exact (next_eq_some_iff hkind hcount hnumber).2 ⟨hp, rfl⟩

theorem outlineFrom_flatMap {n : Nat} {p : Progress} {sections : List Section}
    (h : ∀ s ∈ sections, s.Encodable dialect) (hp : p.AdmitsAll sections)
    (hn : (sections.flatMap Section.write).length ≤ n) :
    outlineFrom .module n p (sections.flatMap Section.write) = (sections.map Section.raw, true) := by
  induction sections generalizing n p with
  | nil =>
    have hp : p.complete = true := hp
    cases n <;> simp [outlineFrom, hp]
  | cons s sections ih =>
    obtain ⟨hs, hrest⟩ := List.forall_mem_cons.1 h
    obtain ⟨hadmits, hp⟩ := hp
    have hread : RawSection.read .module (s.write ++ sections.flatMap Section.write) =
        some (s.raw, sections.flatMap Section.write) :=
      (RawSection.read_gives fun _ => ⟨hs.within.raw, hs.length⟩).takes _
    rw [List.flatMap_cons] at hn ⊢
    rw [Section.write, List.cons_append] at hn hread ⊢
    cases n with
    | zero => simp at hn
    | succ n =>
      have hlength : (sections.flatMap Section.write).length ≤ n := by
        simp only [List.length_cons, List.length_append] at hn
        omega
      simp only [outlineFrom, hread, hs.next hadmits, ih hrest hp hlength, List.map_cons]

/-- A written module is read. -/
theorem decode_encode {m : Module} (h : ∀ s ∈ m.sections, s.Encodable dialect)
    (hord : Ordered m.sections) (hagrees : Agrees (rowNumbers m.sections)) :
    Module.decode? dialect m.encode = some m := by
  have hheader : Header.read m.encode = some (.module, m.sections.flatMap Section.write) := rfl
  have hadmits : Progress.start.AdmitsAll m.sections := by
    rw [Progress.admitsAll_iff (Progress.fronts_start hord), Progress.final_start]
    exact hagrees
  have hsections : (m.sections.map Section.raw).mapM (Section.ofRaw? dialect) = some m.sections :=
    (Answers.mapM fun s hs => .inl ((h s hs).ofRaw)).eq_some
  simp only [Module.decode?, Outline.of?, hheader,
    outlineFrom_flatMap h hadmits (Nat.le_refl _), hsections, Option.map_some]

end

end MeteredWasm.Wasm
