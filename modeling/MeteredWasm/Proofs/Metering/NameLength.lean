import Mathlib.Algebra.Order.BigOperators.Group.List
import Mathlib.Algebra.Order.Ring.Nat
import Mathlib.Tactic.Ring
import MeteredWasm.Proofs.Metering.Bounded
import MeteredWasm.Proofs.Metering.MemoryName

/-!
# The length of a new name

The parser does not read names that are too long. The one that is added for the memory is not: the
exports that take all shorter ones would not fit the length of a section together
(`nameFits_added`).
-/

set_option autoImplicit false

namespace MeteredWasm.Metering

open Wasm

/-- The names of the exports stand in a section. -/
theorem sum_names_lt {m : Module} (hord : Ordered m.sections)
    (hlength : ∀ sec ∈ m.sections, sec.contents.length < 2 ^ 32) :
    ((m.exports.map Export.name).map String.utf8ByteSize).sum < 2 ^ 32 := by
  refine items_of_ordered
    (fun items => ((items.map Export.name).map String.utf8ByteSize).sum < 2 ^ 32)
    (fun sec (hkind : sec.kind? ≠ some .exports) => ?_) hord (Nat.two_pow_pos 32)
    fun sec hsec hkind => ?_
  · cases sec <;> first | rfl | exact absurd rfl hkind
  · cases sec <;> cases hkind
    rename_i items
    have hwrite : ∀ e ∈ items, e.name.utf8ByteSize ≤ e.write.length := by
      intro e _
      simp only [Export.write, writeName, Leb128.writeBlob, List.length_append, Utf8.length_encode]
      omega
    have hsum := List.sum_le_sum hwrite
    have hlt := hlength _ hsec
    rw [Section.contents, Leb128.writeVec, List.length_append, List.length_flatMap] at hlt
    rw [List.map_map]
    exact Nat.lt_of_le_of_lt (Nat.le_trans hsum (Nat.le_add_left _ _)) hlt

/-- The sum of consecutive numbers is half a square at least. -/
theorem sq_le_two_mul_sum (b n : Nat) :
    n * n ≤ 2 * ((List.range n).map (b + ·)).sum + n := by
  induction n with
  | zero => exact Nat.le_refl 0
  | succ n ih =>
    have hsq : (n + 1) * (n + 1) = n * n + 2 * n + 1 := by ring
    rw [List.range_succ, List.map_append, List.sum_append, List.map_singleton, List.sum_singleton]
    omega

/-- Names that are taken up to one that is too long do not fit a section together. -/
theorem nameFits_of_taken {names : List String} {k : Nat}
    (hsum : (names.map String.utf8ByteSize).sum < 2 ^ 32)
    (htaken : ∀ j < k, underscored "memory" j ∈ names) : NameFits (underscored "memory" k) := by
  have hsubset : (List.range k).map (underscored "memory") ⊆ names := by
    intro name hname
    obtain ⟨j, hj, rfl⟩ := List.mem_map.1 hname
    exact htaken j (List.mem_range.1 hj)
  -- They are distinct, so their lengths add up to no more than those of all names.
  obtain ⟨tried, hperm, hsublist⟩ := List.subperm_of_subset (nodup_underscored "memory" k) hsubset
  have hsizes : ((List.range k).map (underscored "memory")).map String.utf8ByteSize =
      (List.range k).map (6 + ·) := by
    rw [List.map_map]
    exact List.map_congr_left fun j _ => utf8ByteSize_underscored "memory" j
  have hle : ((List.range k).map (6 + ·)).sum ≤ (names.map String.utf8ByteSize).sum := by
    rw [← hsizes, ← (hperm.map _).sum_eq]
    exact (hsublist.map _).sum_le_sum fun _ _ => Nat.zero_le _
  rw [NameFits, utf8ByteSize_underscored, show maxNameLength = 100000 from rfl,
    show "memory".utf8ByteSize = 6 from rfl]
  by_contra hlong
  have hsq := sq_le_two_mul_sum 6 k
  have hmul : 99995 * k ≤ k * k := Nat.mul_le_mul_right k (by omega)
  omega

/-- The name that is added is not too long to be read again. -/
theorem nameFits_added {order : ExportOrder} {binary : Bytes} {s : Summary} {memory : MemoryInfo}
    {rules : Rules} {m m' : Module} (hs : Summary.of binary = .ok s) (hm : Module.decode? .full binary = some m)
    (hmeter : meterModule? (.of s rules (Instrument.addedMemoryExport order s memory)) m = some m')
    (hlength : ∀ sec ∈ m'.sections, sec.contents.length < 2 ^ 32) :
    ∀ name ∈ Instrument.addedMemoryExport order s memory, NameFits name := by
  intro name hname
  obtain ⟨k, -, hsearch⟩ := nameSearch_freeMemoryName s "memory"
  obtain ⟨hfound, -, hleast⟩ := nameSearch_iff.1 hsearch
  rw [(Instrument.addedMemoryExport_eq hname).2, hfound]
  refine nameFits_of_taken (sum_names_lt (ordered_of_meter (ordered_of_decode hm) hmeter) hlength)
    fun j hj => ?_
  have htaken : s.export? (underscored "memory" j) ≠ none := fun hfree =>
    absurd (hleast hfree) (Nat.not_le.2 hj)
  obtain ⟨e, he, hsame⟩ := List.mem_map.1 (name_of_export (Option.isSome_iff_ne_none.2 htaken))
  rw [← hsame, ← Export.name_mapFunc (shift s.hookIndex) e, exports_of_meter hm hmeter]
  exact List.mem_map_of_mem (List.mem_append_left _
    (List.mem_map_of_mem (mem_exports_of_summary hs hm e he)))

end MeteredWasm.Metering
