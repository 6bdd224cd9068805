import MeteredWasm.Proofs.Codec.Bounds
import MeteredWasm.Proofs.Module.References

/-!
# Name sections are read back

What is read back of a written name section are the subsections that are written, in order
(`NameSubsection.eq_of_upTo`). It is read if they have been read before, whatever function the names
are given to (`NameSubsection.all_flatMap_write`).
-/

set_option autoImplicit false

namespace MeteredWasm.Wasm

open Leb128 Reader

variable {sure : Prop}

/-! ## Maps -/

/-- Text whose length can be written. -/
def TextFits (s : String) : Prop := s.utf8ByteSize < 2 ^ 32

theorem readText_yields : readText.Yields TextFits := by
  refine (readUnsigned_yields 32).bind fun n hn => (Yields.take n).bind fun bs hbs =>
    .ofOption fun s hs => ?_
  unfold Utf8.decode? String.fromUTF8? at hs
  split at hs
  · cases hs
    change bs.length < 2 ^ 32
    omega
  · cases hs

/-- A map that is not refused, if the names in it fit. -/
structure NameMap.Bounded (Fits : String → Prop) (names : NameMap) : Prop where
  length : names.length < 2 ^ 32
  names : ∀ entry ∈ names, Fits entry.2

structure IndirectNameMap.Bounded (names : IndirectNameMap) : Prop where
  length : names.length < 2 ^ 32
  inner : ∀ entry ∈ names, NameMap.Bounded NameFits entry.2

theorem NameMap.read_gives {name : Reader String} {Fits : String → Prop}
    (h : ∀ s, (sure → Fits s) → name.Gives sure (writeName s) s) (names : NameMap)
    (hs : sure → names.Bounded Fits) : (NameMap.read name).Gives sure names.write names :=
  readVec_gives (fun h => (hs h).length) fun (index, s) hmem => (readU32_gives index).bind
    ((h s fun h => (hs h).names _ hmem).bind_pure (.pure _))

theorem IndirectNameMap.read_gives (names : IndirectNameMap) (hs : sure → names.Bounded) :
    IndirectNameMap.read.Gives sure names.write names :=
  readVec_gives (fun h => (hs h).length) fun (index, inner) hmem => (readU32_gives index).bind
    ((NameMap.read_gives readName_gives inner fun h => (hs h).inner _ hmem).bind_pure (.pure _))

theorem NameMap.read_yields {name : Reader String} {Fits : String → Prop} (h : name.Yields Fits) :
    (NameMap.read name).Yields (NameMap.Bounded Fits) := by
  have hentry : (do
      let index ← readU32
      return (index, ← name) : Reader (UInt32 × String)).Yields fun entry => Fits entry.2 :=
    .behind fun _ => h.bind fun _ hs => .pure hs
  intro input names rest hread
  obtain ⟨hlength, hnames⟩ := readVec_yields hentry input names rest hread
  exact ⟨hlength, hnames⟩

theorem IndirectNameMap.read_yields : IndirectNameMap.read.Yields Bounded := by
  have hentry : (do
      let index ← readU32
      return (index, ← NameMap.read readName) : Reader (UInt32 × NameMap)).Yields
        fun entry => NameMap.Bounded NameFits entry.2 :=
    .behind fun _ => (NameMap.read_yields readName_yields).bind fun _ hs => .pure hs
  intro input names rest hread
  obtain ⟨hlength, hinner⟩ := readVec_yields hentry input names rest hread
  exact ⟨hlength, hinner⟩

/-! ## Subsections -/

namespace NameSubsection

/-- Whether it is left out when it is written. -/
def isSkipped : NameSubsection → Bool
  | .skipped _ => true
  | _ => false

/-- What is in a subsection is within bounds. -/
def Bounded : NameSubsection → Prop
  | .module name => TextFits name
  | .functions names | .space _ names => names.Bounded TextFits
  | .locals names | .fields names => names.Bounded
  | .skipped _ => True

theorem Bounded.mapFunc {s : NameSubsection} (h : s.Bounded) (f : UInt32 → UInt32) :
    (s.mapFunc f).Bounded := by
  cases s
  case functions names =>
    have h : names.Bounded TextFits := h
    exact ⟨by simpa using h.length, List.forall_mem_map.2 h.names⟩
  case locals names =>
    have h : names.Bounded := h
    exact ⟨by simpa using h.length, List.forall_mem_map.2 h.inner⟩
  all_goals exact h

theorem ofContents_bounded {id : UInt8} {contents : Bytes} {s : NameSubsection}
    (h : ofContents? id contents = some s) : s.Bounded := by
  have hnames : (NameMap.read readText).Yields (NameMap.Bounded TextFits) :=
    NameMap.read_yields readText_yields
  unfold ofContents? at h
  split at h
  case h_1 =>
    obtain ⟨name, hname, rfl⟩ := Option.map_eq_some_iff.1 h
    exact readText_yields.whole hname
  case h_2 =>
    obtain ⟨names, hread, rfl⟩ := Option.map_eq_some_iff.1 h
    exact hnames.whole hread
  case h_3 | h_4 =>
    obtain ⟨names, hread, rfl⟩ := Option.map_eq_some_iff.1 h
    exact IndirectNameMap.read_yields.whole hread
  case h_5 | h_6 =>
    obtain ⟨n, hread, rfl⟩ := Option.map_eq_some_iff.1 h
    trivial
  case h_7 =>
    split at h
    · obtain ⟨names, hread, rfl⟩ := Option.map_eq_some_iff.1 h
      exact hnames.whole hread
    · cases h
      trivial

theorem read_yields : read.Yields Bounded :=
  .behind fun _ => .ofOption fun _ h => ofContents_bounded h

theorem bounded_of_upTo {n : Nat} {input : Bytes} {found : List NameSubsection}
    (h : Reader.upTo n read input = some found) : ∀ s ∈ found, s.Bounded := by
  induction n generalizing input found with
  | zero =>
    cases input <;> cases h
    exact fun _ h => nomatch h
  | succ n ih =>
    cases input with
    | nil =>
      cases h
      exact fun _ h => nomatch h
    | cons b input =>
      rw [Reader.upTo] at h
      split at h
      · cases h
      · rename_i s rest hread
        obtain ⟨found, hfound, rfl⟩ := Option.map_eq_some_iff.1 h
        exact List.forall_mem_cons.2 ⟨read_yields _ _ _ hread, ih hfound⟩

theorem read_gives {s : NameSubsection} (h : s.isSkipped = false)
    (hs : sure → s.Bounded ∧ s.write.length < 2 ^ 32) : read.Gives sure s.write s := by
  have hframe {id : UInt8} {contents : Bytes} (hid : id < 0x80)
      (hlength : sure → (id :: writeBlob contents).length < 2 ^ 32)
      (hcontents : Answers sure (ofContents? id contents) s) :
      read.Gives sure (id :: writeBlob contents) s := by
    refine (readFrame_gives id contents hid fun h => ?_).bind_pure (.ofOption hcontents)
    have := hlength h
    simp only [writeBlob, List.length_cons, List.length_append] at this
    omega
  have hnames (names : NameMap) (hn : sure → names.Bounded TextFits) :
      Answers sure (Reader.whole (NameMap.read readText) names.write) names :=
    (NameMap.read_gives readText_gives names hn).whole
  have hlength (h : sure) := (hs h).2
  have hbounded (h : sure) := (hs h).1
  cases s
  case skipped => cases h
  case module name =>
    exact hframe (by decide) hlength ((readText_gives name hbounded).whole.map module)
  case functions names =>
    exact hframe (by decide) hlength ((hnames names hbounded).map functions)
  case space which names =>
    cases which <;> exact hframe (by decide) hlength ((hnames names hbounded).map (space _))
  case locals names =>
    exact hframe (by decide) hlength ((IndirectNameMap.read_gives names hbounded).whole.map locals)
  case fields names =>
    exact hframe (by decide) hlength ((IndirectNameMap.read_gives names hbounded).whole.map fields)

theorem write_ne_nil {s : NameSubsection} (h : s.isSkipped = false) : s.write ≠ [] := by
  cases s
  case skipped => cases h
  all_goals exact List.cons_ne_nil _ _

/-- The subsections that are written are read, one behind the other. -/
theorem upTo_answers {n : Nat} {subsections : List NameSubsection}
    (hs : sure → (∀ s ∈ subsections, s.Bounded) ∧
      (subsections.flatMap write).length ≤ n ∧ (subsections.flatMap write).length < 2 ^ 32) :
    Answers sure (Reader.upTo n read (subsections.flatMap write))
      (subsections.filter fun s => !s.isSkipped) := by
  induction subsections generalizing n with
  | nil => cases n <;> exact .inl rfl
  | cons s subsections ih =>
    rw [List.flatMap_cons] at hs ⊢
    cases hskip : s.isSkipped with
    | true =>
      have hnil : s.write = [] := by cases s <;> first | rfl | cases hskip
      rw [hnil, List.nil_append] at hs ⊢
      rw [List.filter_cons_of_neg (by simp [hskip])]
      exact ih fun h => ⟨fun t ht => (hs h).1 t (List.mem_cons_of_mem _ ht), (hs h).2⟩
    | false =>
      rw [List.filter_cons_of_pos (by simp [hskip])]
      have hlength (h : sure) : s.write.length < 2 ^ 32 := by
        have hlt := (hs h).2.2
        rw [List.length_append] at hlt
        omega
      have hgives : read.Gives sure s.write s :=
        read_gives hskip fun h => ⟨(hs h).1 s (List.mem_cons_self ..), hlength h⟩
      have hread := hgives (subsections.flatMap write)
      obtain ⟨b, bs, hwrite⟩ := List.exists_cons_of_ne_nil (write_ne_nil hskip)
      rw [hwrite, List.cons_append] at hs hread ⊢
      cases n with
      | zero => exact .inr ⟨fun h => absurd (hs h).2.1 (by simp), rfl⟩
      | succ n =>
        rw [Reader.upTo]
        have hrest (h : sure) := hs h
        simp only [List.length_cons, List.length_append] at hrest
        rcases hread with hread | ⟨hsure, hread⟩ <;> rw [hread]
        · refine (ih fun h => ⟨fun t ht => (hs h).1 t (List.mem_cons_of_mem _ ht), ?_⟩).map (s :: ·)
          have := (hrest h).2
          omega
        · exact .inr ⟨hsure, rfl⟩

/-- What is read of written subsections are those that are written. -/
theorem eq_of_upTo {n : Nat} {subsections found : List NameSubsection}
    (h : Reader.upTo n read (subsections.flatMap write) = some found) :
    found = subsections.filter fun s => !s.isSkipped :=
  (upTo_answers False.elim).unique h

/-- A name section that has been read is read again once the names are given to other functions. -/
theorem all_flatMap_write {contents : Bytes} {subsections : List NameSubsection}
    (h : all? contents = some subsections) (f : UInt32 → UInt32)
    (hlength : ((subsections.map (mapFunc f)).flatMap write).length < 2 ^ 32) :
    all? ((subsections.map (mapFunc f)).flatMap write) =
      some ((subsections.map (mapFunc f)).filter fun s => !s.isSkipped) := by
  have hbounded : ∀ s ∈ subsections.map (mapFunc f), s.Bounded :=
    List.forall_mem_map.2 fun s hs => (bounded_of_upTo h s hs).mapFunc f
  exact (upTo_answers fun _ => ⟨hbounded, Nat.le_refl _, hlength⟩).eq_some

/-- What is left out when it is written names no function. -/
theorem flatMap_funcs_filter (items : List NameSubsection) :
    (items.filter fun s => !s.isSkipped).flatMap funcs = items.flatMap funcs := by
  induction items with
  | nil => rfl
  | cons s items ih =>
    cases hs : s.isSkipped with
    | true =>
      have hnone : s.funcs = [] := by cases s <;> first | rfl | cases hs
      rw [List.filter_cons_of_neg (by simp [hs]), List.flatMap_cons, hnone, ih, List.nil_append]
    | false => rw [List.filter_cons_of_pos (by simp [hs]), List.flatMap_cons, List.flatMap_cons, ih]

end NameSubsection

end MeteredWasm.Wasm
