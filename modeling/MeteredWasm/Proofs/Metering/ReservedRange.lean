import MeteredWasm.Proofs.Module.Summary
import MeteredWasm.Proofs.Session.Idle

/-!
# Data in the reserved range

A module that fulfils every other condition is refused exactly if a segment trespasses, and the
first one that does is named (`reserved_range_checked`). A segment trespasses if one of its bytes
would be written to a reserved address.

So does a segment without any bytes whose offset lies behind the first reserved address and in the
range (`Trespasses.empty`): the check compares the ends of two ranges, and does not ask whether
there is anything between them (`empty_segment_refused`).
-/

set_option autoImplicit false

namespace MeteredWasm

open Wasm

/-- Whether a byte of the segment goes to this address. -/
def Wasm.DataRange.Covers (d : DataRange) (address : Nat) : Prop :=
  d.offset.toNat ≤ address ∧ address < d.offset.toNat + d.length.toNat

/-- What the range is, where the block itself does not reach past the last address. -/
theorem ControlBlock.requiredMemory_eq {block : ControlBlock}
    (h : block.address.toNat + 8 < 2 ^ 32) :
    block.requiredMemory = max block.stackEnd.toNat (block.address.toNat + 8) := by
  have hstart : block.stackStart.toNat = block.address.toNat + 8 := by
    have hadd := UInt32.toNat_add block.address ControlBlock.size
    rw [show ControlBlock.size.toNat = 8 from rfl, Nat.mod_eq_of_lt h] at hadd
    exact hadd
  rw [← hstart]
  show (if block.stackEnd ≤ block.stackStart then block.stackStart else block.stackEnd).toNat = _
  by_cases hle : block.stackEnd ≤ block.stackStart
  · rw [if_pos hle, Nat.max_eq_right (UInt32.le_iff_toNat_le.1 hle)]
  · have hge : block.stackStart.toNat ≤ block.stackEnd.toNat := by
      rw [UInt32.le_iff_toNat_le] at hle
      omega
    rw [if_neg hle, Nat.max_eq_left hge]

theorem ControlBlock.reserves_iff {block : ControlBlock} (h : block.address.toNat + 8 < 2 ^ 32)
    (address : Nat) : block.Reserves address ↔ block.address.toNat ≤ address ∧
      address < max block.stackEnd.toNat (block.address.toNat + 8) := by
  rw [Reserves, requiredMemory_eq h]

namespace Metering

/-- Why a segment is refused. -/
inductive Trespasses (block : ControlBlock) (d : DataRange) : Prop
  /-- One of its bytes goes to a reserved address. -/
  | byte (address : Nat) (covers : d.Covers address) (reserved : block.Reserves address)
  /-- It has no bytes, and the range reaches from before its offset to behind it. -/
  | empty (length : d.length = 0) (behind : block.address < d.offset)
      (reserved : block.Reserves d.offset.toNat)

section
variable {block : ControlBlock} {d : DataRange}

theorem overlaps_iff (hblock : block.address.toNat + 8 < 2 ^ 32) :
    overlaps block d = true ↔ Trespasses block d := by
  have hlength : d.length = 0 ↔ d.length.toNat = 0 := by
    rw [← UInt32.toNat_inj, UInt32.toNat_zero]
  have hrequired := ControlBlock.requiredMemory_eq hblock
  simp only [overlaps, Bool.and_eq_true, decide_eq_true_eq]
  constructor
  · rintro ⟨hstart, hend⟩
    by_cases hempty : d.length.toNat = 0
    · rw [hempty] at hend
      exact .empty (hlength.2 hempty) (UInt32.lt_iff_toNat_lt.2 hend) ⟨Nat.le_of_lt hend, hstart⟩
    · -- The later of the two starts is an address of both ranges.
      refine .byte (max d.offset.toNat block.address.toNat) ⟨?_, ?_⟩ ⟨?_, ?_⟩
      all_goals omega
  · intro h
    cases h with
    | byte address covers reserved =>
      obtain ⟨hfirst, hlast⟩ := covers
      obtain ⟨hstart, hend⟩ := reserved
      omega
    | empty length behind reserved =>
      have hbehind := UInt32.lt_iff_toNat_lt.1 behind
      exact ⟨reserved.2, by omega⟩

/-! ## The check -/

section
variable {options : Options} {s : Summary} {memory : MemoryInfo}

/-- Data is all that is left to look at. -/
theorem Suitable.check_eq (h : Suitable options s memory) : check options s =
    (s.data.find? (overlaps options.controlBlock)).elim (.ok memory)
      fun d => .error (.reservedRangeOverlap d.offset d.length) := by
  have hmemory : checkMemory s = .ok memory := by rw [checkMemory, h.memories]
  have hlimits : ¬memory.limits.min > memory.limits.capped options.memoryMaxPages :=
    UInt64.not_lt.2 h.limits
  have hreserved : ¬(s.functionImports.any fun i => i.module = hookModule ∧ i.name = hookName) := by
    simpa using h.reserved
  simp only [check, h.entry, h.start, h.memory64, hmemory, hlimits, hreserved, except_ok_bind,
    Option.isSome_none, Bool.false_eq_true, if_false]
  cases s.data.find? (overlaps options.controlBlock) <;> rfl

/-- The first segment that trespasses. -/
def FirstTrespass (block : ControlBlock) (data : List DataRange) (d : DataRange) : Prop :=
  ∃ before after, data = before ++ d :: after ∧ Trespasses block d ∧
    ∀ d' ∈ before, ¬Trespasses block d'

theorem find_overlaps_iff {data : List DataRange} (hblock : block.address.toNat + 8 < 2 ^ 32) :
    data.find? (overlaps block) = some d ↔ FirstTrespass block data d := by
  rw [List.find?_eq_some_iff_append, overlaps_iff hblock]
  constructor
  · rintro ⟨hd, before, after, hdata, hbefore⟩
    refine ⟨before, after, hdata, hd, fun d' hd' h => ?_⟩
    have hclear := hbefore d' hd'
    rw [(overlaps_iff hblock).2 h] at hclear
    cases hclear
  · rintro ⟨before, after, hdata, hd, hbefore⟩
    refine ⟨hd, before, after, hdata, fun d' hd' => ?_⟩
    by_contra hoverlaps
    exact hbefore d' hd' ((overlaps_iff hblock).1 (by simpa using hoverlaps))

/-- Where all else is as it should be, the data decides: a module is refused exactly if a segment
trespasses on the reserved range, for the first one that does, and is let through otherwise. -/
theorem reserved_range_checked (h : Suitable options s memory)
    (hblock : options.controlBlock.address.toNat + 8 < 2 ^ 32) :
    (∀ address, options.controlBlock.Reserves address ↔
      options.controlBlock.address.toNat ≤ address ∧ address <
        max options.controlBlock.stackEnd.toNat (options.controlBlock.address.toNat + 8)) ∧
    (∀ error, check options s = .error error ↔
      ∃ d, FirstTrespass options.controlBlock s.data d ∧
        error = .reservedRangeOverlap d.offset d.length) ∧
    ∀ memory', check options s = .ok memory' ↔
      memory' = memory ∧ ∀ d ∈ s.data, ¬Trespasses options.controlBlock d := by
  refine ⟨ControlBlock.reserves_iff hblock, fun error => ?_, fun memory' => ?_⟩
  · simp only [h.check_eq, ← find_overlaps_iff hblock]
    cases s.data.find? (overlaps options.controlBlock) with
    | none => simp
    | some d => simp [eq_comm]
  · rw [h.check_eq]
    cases hfind : s.data.find? (overlaps options.controlBlock) with
    | none =>
      refine ⟨fun hok => ⟨(Except.ok.inj hok).symm, fun d hd htrespass => ?_⟩, fun hok => ?_⟩
      · exact List.find?_eq_none.1 hfind d hd ((overlaps_iff hblock).2 htrespass)
      · rw [hok.1]
        rfl
    | some d =>
      obtain ⟨before, after, hdata, hd, -⟩ := (find_overlaps_iff hblock).1 hfind
      refine ⟨fun hok => ?_, fun hok => absurd hd (hok.2 d ?_)⟩
      · cases hok
      · simp [hdata]

end

end

/-! ## Segments around a block -/

/-- What the idle module would be summarized to with data. -/
def summaryWith (data : List DataRange) : Summary := { idleSummary with data }

/-- Options with a block whose stack region ends before it starts. -/
def narrowOptions : Options := { Options.standard with controlBlock := ⟨100, 50⟩ }

theorem suitable_summaryWith (options : Options) (data : List DataRange)
    (hentry : options.entry = "entry") (hlimit : options.memoryMaxPages = 256) :
    Suitable options (summaryWith data) ⟨⟨1, none⟩, false, false⟩ where
  entry := by rw [hentry]; rfl
  start := rfl
  memories := rfl
  memory64 := rfl
  limits := by rw [hlimit]; decide
  reserved i hi := absurd hi List.not_mem_nil

/-- Eight bytes are reserved: the data that ends where they start is let through, and so is what
has no bytes there; the data that starts at the last of them is named, and the data behind that,
which fills the range, is not. -/
theorem reserved_range_checked_narrow :
    Suitable narrowOptions (summaryWith [⟨90, 10⟩, ⟨100, 0⟩, ⟨107, 5⟩, ⟨100, 8⟩])
      ⟨⟨1, none⟩, false, false⟩ ∧ narrowOptions.controlBlock.address.toNat + 8 < 2 ^ 32 ∧
    check narrowOptions (summaryWith [⟨90, 10⟩, ⟨100, 0⟩, ⟨107, 5⟩, ⟨100, 8⟩]) =
      .error (.reservedRangeOverlap 107 5) := by
  have hsuitable := suitable_summaryWith narrowOptions [⟨90, 10⟩, ⟨100, 0⟩, ⟨107, 5⟩, ⟨100, 8⟩]
    rfl rfl
  have hblock : narrowOptions.controlBlock.address.toNat + 8 < 2 ^ 32 := by decide
  refine ⟨hsuitable, hblock, ((reserved_range_checked hsuitable hblock).2.1 _).2
    ⟨⟨107, 5⟩, ⟨[⟨90, 10⟩, ⟨100, 0⟩], [⟨100, 8⟩], rfl, ?_, fun d hd htrespass => ?_⟩, rfl⟩⟩
  · exact .byte 107 ⟨by decide, by decide⟩ ⟨by decide, by decide⟩
  · have hclear : ∀ d ∈ [(⟨90, 10⟩ : DataRange), ⟨100, 0⟩],
        overlaps narrowOptions.controlBlock d = false := by decide
    have hoverlaps := (overlaps_iff hblock).2 htrespass
    rw [hclear d hd] at hoverlaps
    cases hoverlaps

/-- A segment without bytes in the middle of the reserved range. -/
def hollowModule : Module :=
  ⟨idleModule.sections ++ [.data [⟨.active 0 [.i32Const 100], []⟩]]⟩

/-- No byte of it goes anywhere, but it is refused. -/
theorem empty_segment_refused :
    Summary.of hollowModule.encode = .ok (summaryWith [⟨100, 0⟩]) ∧
    Suitable .standard (summaryWith [⟨100, 0⟩]) ⟨⟨1, none⟩, false, false⟩ ∧
    (∀ d ∈ (summaryWith [⟨100, 0⟩]).data, ∀ address, ¬d.Covers address) ∧
    check .standard (summaryWith [⟨100, 0⟩]) = .error (.reservedRangeOverlap 100 0) := by
  refine ⟨by decide +kernel, suitable_summaryWith .standard _ rfl rfl, fun d hd address => ?_, rfl⟩
  obtain rfl := List.mem_singleton.1 hd
  rintro ⟨hfirst, hlast⟩
  exact Nat.lt_irrefl _ (Nat.lt_of_lt_of_le hlast hfirst)

end Metering

end MeteredWasm
