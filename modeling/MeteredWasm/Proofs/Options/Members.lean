import Mathlib.Data.List.Nodup
import MeteredWasm.Options.Json

/-!
# Members and fields

What is read in the place of a record hangs on the members that a value stands for, and of those on
the known ones, each of which is given once or not at all (`member?_perm`, `member?_filter`). An
object stands for its members, an array for the first of the fields in order (`member?_zip`), so
that whatever holds of members holds of both forms.
-/

set_option autoImplicit false

namespace MeteredWasm

namespace Json

/-! ## Members -/

section
variable {members xs ys before after : List (String × Json)} {key key' : String} {j j' : Json}

theorem mem_valuesOf : j ∈ valuesOf members key ↔ (key, j) ∈ members := by
  simp [valuesOf]

theorem valuesOf_append :
    valuesOf (xs ++ ys) key = valuesOf xs key ++ valuesOf ys key := by
  simp [valuesOf]

@[simp] theorem valuesOf_cons_self :
    valuesOf ((key, j) :: members) key = j :: valuesOf members key := by
  simp [valuesOf]

theorem valuesOf_cons_of_ne (h : key' ≠ key) :
    valuesOf ((key', j) :: members) key = valuesOf members key := by
  simp [valuesOf, h]

theorem valuesOf_eq_nil (h : key ∉ members.map Prod.fst) : valuesOf members key = [] := by
  refine List.eq_nil_iff_forall_not_mem.2 fun j hj => h ?_
  exact List.mem_map.2 ⟨(key, j), mem_valuesOf.1 hj, rfl⟩

theorem member?_of_nil (h : valuesOf members key = []) : member? members key = some none := by
  rw [member?, h]

theorem member?_of_single (h : valuesOf members key = [j]) :
    member? members key = some (some j) := by
  rw [member?, h]

theorem member?_of_two_le (h : 2 ≤ (valuesOf members key).length) :
    member? members key = none := by
  unfold member?
  split <;> simp_all

/-- What is given for a field is its value, unless it is not the only one. -/
theorem member?_of_mem (h : (key, j) ∈ members) :
    member? members key = some (some j) ∨ member? members key = none := by
  have hmem : j ∈ valuesOf members key := mem_valuesOf.2 h
  by_cases hlength : 2 ≤ (valuesOf members key).length
  · exact .inr (member?_of_two_le hlength)
  · obtain ⟨value, hvalue⟩ := List.length_eq_one_iff.1
      (Nat.le_antisymm (by omega) (List.length_pos_of_mem hmem))
    rw [hvalue, List.mem_singleton] at hmem
    exact .inl (member?_of_single (hmem ▸ hvalue))

/-- The order of the values only matters where there are two, and those are refused. -/
theorem member?_perm (h : (valuesOf xs key).Perm (valuesOf ys key)) :
    member? xs key = member? ys key := by
  by_cases hlength : 2 ≤ (valuesOf xs key).length
  · rw [member?_of_two_le hlength, member?_of_two_le (h.length_eq ▸ hlength)]
  · have hsame : valuesOf xs key = valuesOf ys key := by
      cases hvalues : valuesOf xs key with
      | nil => rw [hvalues] at h; exact h.nil_eq
      | cons j rest =>
        cases rest with
        | nil => rw [hvalues] at h; exact h.singleton_eq
        | cons => simp [hvalues] at hlength
    rw [member?, member?, hsame]

theorem member?_filter (keep : String → Bool) : member? (members.filter (keep ·.1)) key =
    if keep key then member? members key else some none := by
  have hvalues : valuesOf (members.filter (keep ·.1)) key =
      if keep key then valuesOf members key else [] := by
    rw [valuesOf, List.filter_filter]
    by_cases hkeep : keep key = true
    · rw [if_pos hkeep]
      refine congrArg _ (List.filter_congr fun m _ => ?_)
      by_cases hm : m.1 = key <;> simp [hm, hkeep]
    · rw [if_neg hkeep, List.map_eq_nil_iff, List.filter_eq_nil_iff]
      intro m _ hm
      simp only [Bool.and_eq_true, decide_eq_true_eq] at hm
      exact hkeep (hm.1 ▸ hm.2)
  by_cases hkeep : keep key = true
  · rw [if_pos hkeep] at hvalues ⊢
    rw [member?, member?, hvalues]
  · rw [if_neg hkeep] at hvalues ⊢
    exact member?_of_nil hvalues

/-- In an array a field has the item at its place. -/
theorem member?_zip {fields : List String} (hnodup : fields.Nodup) {items : List Json} {i : Nat}
    (hi : fields[i]? = some key) : member? (fields.zip items) key = some items[i]? := by
  induction fields generalizing items i with
  | nil => simp at hi
  | cons field fields ih =>
    obtain ⟨hfresh, hnodup⟩ := List.nodup_cons.1 hnodup
    cases items with
    | nil => rfl
    | cons item items =>
      cases i with
      | zero =>
        obtain rfl : field = key := by simpa using hi
        have hrest : valuesOf (fields.zip items) field = [] := by
          refine valuesOf_eq_nil fun hmem => hfresh ?_
          obtain ⟨m, hm, rfl⟩ := List.mem_map.1 hmem
          exact (List.of_mem_zip hm).1
        exact member?_of_single (by rw [List.zip_cons_cons, valuesOf_cons_self, hrest])
      | succ i =>
        have hmem : key ∈ fields := List.mem_of_getElem? hi
        have hne : field ≠ key := fun h => hfresh (h ▸ hmem)
        rw [List.zip_cons_cons, member?, valuesOf_cons_of_ne hne]
        exact ih hnodup hi

end

/-! ## Fields -/

section
variable {α : Type} {read : Json → Option α} {standard a : α} {fields : List String}
  {members xs ys before after : List (String × Json)} {items : List Json} {key key' : String}
  {j j' : Json} {i : Nat}

theorem required?_zip (hnodup : fields.Nodup) (hi : fields[i]? = some key)
    (hj : items[i]? = some j) : required? read (fields.zip items) key = read j := by
  rw [required?, member?_zip hnodup hi, hj]
  rfl

/-- A field is refused if a value of it is. -/
theorem required?_of_mem (h : (key, j) ∈ members) (hj : read j = none) :
    required? read members key = none := by
  rcases member?_of_mem h with hmember | hmember
  · rw [required?, hmember]
    exact hj
  · rw [required?, hmember]
    rfl

theorem required?_of_not_mem (h : key ∉ members.map Prod.fst) :
    required? read members key = none := by
  rw [required?, member?_of_nil (valuesOf_eq_nil h)]
  rfl

theorem field?_of_mem (standard : α) (h : (key, j) ∈ members) (hj : read j = none) :
    field? read standard members key = none := by
  rcases member?_of_mem h with hmember | hmember
  · rw [field?, hmember]
    exact hj
  · rw [field?, hmember]
    rfl

theorem field?_kept (standard : α) {keep : String → Bool} (hj : read j = some a)
    (h : member? members key = some (if keep key then some j else none)) :
    field? read standard members key = some (if keep key then a else standard) := by
  rw [field?, h]
  by_cases hkeep : keep key = true
  · simp [hkeep, hj]
  · simp [hkeep]

/-- The same members of known names, in any order. -/
def SameFields (fields : List String) (xs ys : List (String × Json)) : Prop :=
  (xs.filter (·.1 ∈ fields)).Perm (ys.filter (·.1 ∈ fields))

theorem member?_of_sameFields (h : SameFields fields xs ys) (hkey : key ∈ fields) :
    member? xs key = member? ys key := by
  have hknown (members : List (String × Json)) :
      member? members key = member? (members.filter (·.1 ∈ fields)) key := by
    rw [member?_filter fun key => decide (key ∈ fields), if_pos (decide_eq_true hkey)]
  rw [hknown xs, hknown ys]
  exact member?_perm ((h.filter _).map _)

theorem required?_of_sameFields (h : SameFields fields xs ys) (hkey : key ∈ fields) :
    required? read xs key = required? read ys key := by
  rw [required?, required?, member?_of_sameFields h hkey]

theorem field?_of_sameFields (h : SameFields fields xs ys) (hkey : key ∈ fields) :
    field? read standard xs key = field? read standard ys key := by
  rw [field?, field?, member?_of_sameFields h hkey]

/-- A value may stand for another one that reads the same. -/
theorem field?_replace (h : key = key' → read j = read j') :
    field? read standard (before ++ (key, j) :: after) key' =
      field? read standard (before ++ (key, j') :: after) key' := by
  by_cases hkey : key = key'
  · subst hkey
    have hvalues (j : Json) : valuesOf (before ++ (key, j) :: after) key =
        valuesOf before key ++ j :: valuesOf after key := by
      rw [valuesOf_append, valuesOf_cons_self]
    by_cases hothers : valuesOf before key = [] ∧ valuesOf after key = []
    · have hsingle (j : Json) : member? (before ++ (key, j) :: after) key = some (some j) :=
        member?_of_single (by rw [hvalues, hothers.1, hothers.2, List.nil_append])
      rw [field?, field?, hsingle, hsingle]
      exact h rfl
    · have htwo (j : Json) : member? (before ++ (key, j) :: after) key = none := by
        refine member?_of_two_le ?_
        rw [hvalues, List.length_append, List.length_cons]
        by_contra hlength
        exact hothers ⟨List.eq_nil_of_length_eq_zero (by omega),
          List.eq_nil_of_length_eq_zero (by omega)⟩
      rw [field?, field?, htwo, htwo]
  · have hsame : valuesOf (before ++ (key, j) :: after) key' =
        valuesOf (before ++ (key, j') :: after) key' := by
      rw [valuesOf_append, valuesOf_append, valuesOf_cons_of_ne hkey, valuesOf_cons_of_ne hkey]
    rw [field?, field?, member?, member?, hsame]

end

/-! ## Numbers -/

theorem nat?_int {max n : Nat} (h : n ≤ max) : nat? max (.int n) = some n := by
  have hn : (0 : Int) ≤ n ∧ (n : Int) ≤ max := by omega
  rw [nat?, if_pos hn, Int.toNat_natCast]

theorem u8?_int (n : UInt8) : u8? (.int n.toNat) = some n := by
  have hn : n.toNat ≤ UInt8.size - 1 := Nat.le_pred_of_lt n.toNat_lt
  rw [u8?, nat?_int hn, Option.map_some, Nat.toUInt8_eq, UInt8.ofNat_toNat]

theorem u32?_int (n : UInt32) : u32? (.int n.toNat) = some n := by
  have hn : n.toNat ≤ UInt32.size - 1 := Nat.le_pred_of_lt n.toNat_lt
  rw [u32?, nat?_int hn, Option.map_some, Nat.toUInt32_eq, UInt32.ofNat_toNat]

theorem u64?_int (n : UInt64) : u64? (.int n.toNat) = some n := by
  have hn : n.toNat ≤ UInt64.size - 1 := Nat.le_pred_of_lt n.toNat_lt
  rw [u64?, nat?_int hn, Option.map_some, Nat.toUInt64_eq, UInt64.ofNat_toNat]

/-- A field of a record of words. -/
theorem required?_word {fields : List String} (items : List Json) (hnodup : fields.Nodup) (i : Nat)
    {key : String} {n : UInt32} (hi : fields[i]? = some key)
    (hn : items[i]? = some (.int n.toNat)) : required? u32? (fields.zip items) key = some n := by
  rw [required?_zip hnodup hi hn, u32?_int]

/-- Whether a value is anything but a number below `size`. -/
def Beyond (size : Nat) (j : Json) : Prop := ∀ n < size, j ≠ .int (n : Nat)

theorem nat?_of_beyond {size : Nat} {j : Json} (h : j.Beyond size) (hsize : 0 < size) :
    nat? (size - 1) j = none := by
  cases j with
  | int i =>
    refine if_neg fun hi => h i.toNat (by omega) ?_
    rw [Int.toNat_of_nonneg hi.1]
  | _ => rfl

/-! ## Records of words -/

/-- Whether a value is no spelling of a record with these fields, which are words. -/
inductive MisspellsWords (fields : List String) : Json → Prop
  | shape {j : Json} (object : ∀ members, j ≠ .object members) (array : ∀ items, j ≠ .array items) :
    MisspellsWords fields j
  /-- A field is missing. -/
  | missing {members : List (String × Json)} {key : String} (known : key ∈ fields)
      (absent : key ∉ members.map Prod.fst) : MisspellsWords fields (.object members)
  | member {members : List (String × Json)} {key : String} {j : Json} (known : key ∈ fields)
      (given : (key, j) ∈ members) (beyond : j.Beyond UInt32.size) :
    MisspellsWords fields (.object members)
  /-- Items are missing, or there are more than fields. -/
  | length {items : List Json} (length : items.length ≠ fields.length) :
    MisspellsWords fields (.array items)
  | item {items : List Json} {j : Json} (given : j ∈ items) (beyond : j.Beyond UInt32.size) :
    MisspellsWords fields (.array items)

/-- A value that is no spelling stands for no members at all, or a field cannot be read. -/
theorem MisspellsWords.refused {fields : List String} (hnodup : fields.Nodup) {j : Json}
    (h : MisspellsWords fields j) : j.members? fields = none ∨
      ∃ members key, j.members? fields = some members ∧ key ∈ fields ∧
        required? u32? members key = none := by
  have hbeyond {j : Json} (h : j.Beyond UInt32.size) : u32? j = none := by
    rw [u32?, nat?_of_beyond h (by decide)]
    rfl
  cases h with
  | shape object array =>
    cases j with
    | object members => exact absurd rfl (object members)
    | array items => exact absurd rfl (array items)
    | _ => exact .inl rfl
  | missing known absent => exact .inr ⟨_, _, rfl, known, required?_of_not_mem absent⟩
  | member known given beyond =>
    exact .inr ⟨_, _, rfl, known, required?_of_mem given (hbeyond beyond)⟩
  | @length items length =>
    by_cases hle : items.length ≤ fields.length
    · -- The first field without an item is the one that is missed.
      have hlt : items.length < fields.length := by omega
      refine .inr ⟨_, fields[items.length], if_pos hle, List.getElem_mem hlt, ?_⟩
      rw [required?, member?_zip hnodup (List.getElem?_eq_getElem hlt),
        List.getElem?_eq_none (Nat.le_refl _)]
      rfl
    · exact .inl (if_neg hle)
  | @item items j given beyond =>
    by_cases hle : items.length ≤ fields.length
    · obtain ⟨i, hi, rfl⟩ := List.getElem_of_mem given
      have hlt : i < fields.length := by omega
      refine .inr ⟨_, fields[i], if_pos hle, List.getElem_mem hlt, ?_⟩
      rw [required?_zip hnodup (List.getElem?_eq_getElem hlt) (List.getElem?_eq_getElem hi)]
      exact hbeyond beyond
    · exact .inl (if_neg hle)

end Json

end MeteredWasm
