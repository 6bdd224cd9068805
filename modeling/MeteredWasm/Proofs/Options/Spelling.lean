import MeteredWasm.Options.Basic
import MeteredWasm.Proofs.Options.Members

/-!
# Spellings of options

Options are read back from every spelling of them, and a part of one gives that part of the options
(`ofMembers?_of_kept`). Order and unknown names do not matter (`ofJson?_rearranged`), and a value
that is misspelled anywhere is refused as a whole (`ofJson?_misspelled`). All of it together is
`options_survive_json`.
-/

set_option autoImplicit false

namespace MeteredWasm

/-! ## Inner structures -/

namespace ControlBlock

/-- The values of the fields in order. -/
def values (block : ControlBlock) : List Json :=
  [.int block.address.toNat, .int block.stackEnd.toNat]

/-- Whether a value is the object of a block, or the array of it. -/
def Spelling (block : ControlBlock) (j : Json) : Prop :=
  j = block.toJson ∨ j = .array block.values

theorem ofJson?_of_spelling {block : ControlBlock} {j : Json} (h : block.Spelling j) :
    ofJson? j = some block := by
  have hmembers : j.members? fields = some (fields.zip block.values) := by
    rcases h with rfl | rfl <;> rfl
  have hnodup : fields.Nodup := by decide
  have haddress := Json.required?_word block.values hnodup (n := block.address) 0 rfl rfl
  have hstackEnd := Json.required?_word block.values hnodup (n := block.stackEnd) 1 rfl rfl
  simp only [ofJson?, hmembers, haddress, hstackEnd, Option.bind_eq_bind, Option.bind_some]
  rfl

theorem ofJson?_of_sameFields {xs ys : List (String × Json)} (h : Json.SameFields fields xs ys) :
    ofJson? (.object xs) = ofJson? (.object ys) := by
  have hfield {key : String} (hkey : key ∈ fields) :
      Json.required? Json.u32? xs key = Json.required? Json.u32? ys key :=
    Json.required?_of_sameFields h hkey
  have haddress := hfield (show "address" ∈ fields by decide)
  have hstackEnd := hfield (show "stack_end" ∈ fields by decide)
  simp only [ofJson?, Json.members?, haddress, hstackEnd, Option.bind_eq_bind, Option.bind_some]

theorem ofJson?_misspelled {j : Json} (h : j.MisspellsWords fields) : ofJson? j = none := by
  rcases h.refused (by decide) with hnone | ⟨members, key, hmembers, hkey, hrefused⟩
  · rw [ofJson?, hnone]
    rfl
  · simp only [fields, List.mem_cons, List.not_mem_nil, or_false] at hkey
    rcases hkey with rfl | rfl <;> simp [ofJson?, hmembers, hrefused]

end ControlBlock

namespace Metering.CostTable

/-- The values of the fields in order. -/
def values (costs : CostTable) : List Json :=
  [.int costs.control.toNat, .int costs.call.toNat, .int costs.memoryAccess.toNat,
    .int costs.memoryGrow.toNat, .int costs.other.toNat]

/-- Whether a value is the object of a table, or the array of it. -/
def Spelling (costs : CostTable) (j : Json) : Prop :=
  j = costs.toJson ∨ j = .array costs.values

theorem ofJson?_of_spelling {costs : CostTable} {j : Json} (h : costs.Spelling j) :
    ofJson? j = some costs := by
  have hmembers : j.members? fields = some (fields.zip costs.values) := by
    rcases h with rfl | rfl <;> rfl
  have hnodup : fields.Nodup := by decide
  have hcontrol := Json.required?_word costs.values hnodup (n := costs.control) 0 rfl rfl
  have hcall := Json.required?_word costs.values hnodup (n := costs.call) 1 rfl rfl
  have hmemoryAccess := Json.required?_word costs.values hnodup (n := costs.memoryAccess) 2 rfl rfl
  have hmemoryGrow := Json.required?_word costs.values hnodup (n := costs.memoryGrow) 3 rfl rfl
  have hother := Json.required?_word costs.values hnodup (n := costs.other) 4 rfl rfl
  simp only [ofJson?, hmembers, hcontrol, hcall, hmemoryAccess, hmemoryGrow, hother,
    Option.bind_eq_bind, Option.bind_some]
  rfl

theorem ofJson?_of_sameFields {xs ys : List (String × Json)} (h : Json.SameFields fields xs ys) :
    ofJson? (.object xs) = ofJson? (.object ys) := by
  have hfield {key : String} (hkey : key ∈ fields) :
      Json.required? Json.u32? xs key = Json.required? Json.u32? ys key :=
    Json.required?_of_sameFields h hkey
  have hcontrol := hfield (show "control" ∈ fields by decide)
  have hcall := hfield (show "call" ∈ fields by decide)
  have hmemoryAccess := hfield (show "memory_access" ∈ fields by decide)
  have hmemoryGrow := hfield (show "memory_grow" ∈ fields by decide)
  have hother := hfield (show "default" ∈ fields by decide)
  simp only [ofJson?, Json.members?, hcontrol, hcall, hmemoryAccess, hmemoryGrow, hother,
    Option.bind_eq_bind, Option.bind_some]

theorem ofJson?_misspelled {j : Json} (h : j.MisspellsWords fields) : ofJson? j = none := by
  rcases h.refused (by decide) with hnone | ⟨members, key, hmembers, hkey, hrefused⟩
  · rw [ofJson?, hnone]
    rfl
  · simp only [fields, List.mem_cons, List.not_mem_nil, or_false] at hkey
    rcases hkey with rfl | rfl | rfl | rfl | rfl <;> simp [ofJson?, hmembers, hrefused]

end Metering.CostTable

namespace Options

/-! ## Parts of options -/

/-- The values of the fields in order, with the inner structures as they are spelled. -/
def values (o : Options) (block costs : Json) : List Json :=
  [.string o.entry, .int o.memoryMaxPages.toNat, block, costs, .int o.optimizeLevel.toNat,
    .int o.shrinkLevel.toNat, .bool o.defaultPasses, .int o.maxWasmStack.toNat]

/-- The members of the object of options, with the inner structures as they are spelled. -/
def members (o : Options) (block costs : Json) : List (String × Json) :=
  fields.zip (o.values block costs)

/-- The options with standard values in all fields but those to keep. -/
def keeping (o : Options) (keep : String → Bool) : Options where
  entry := if keep "entry" then o.entry else standard.entry
  memoryMaxPages := if keep "memory_max_pages" then o.memoryMaxPages else standard.memoryMaxPages
  controlBlock := if keep "control_block" then o.controlBlock else standard.controlBlock
  costs := if keep "costs" then o.costs else standard.costs
  optimizeLevel := if keep "optimize_level" then o.optimizeLevel else standard.optimizeLevel
  shrinkLevel := if keep "shrink_level" then o.shrinkLevel else standard.shrinkLevel
  defaultPasses := if keep "default_passes" then o.defaultPasses else standard.defaultPasses
  maxWasmStack := if keep "max_wasm_stack" then o.maxWasmStack else standard.maxWasmStack

section
variable {o : Options} {block costs : Json} {keep : String → Bool}
  {members : List (String × Json)}

theorem nodup_fields : fields.Nodup := by decide

theorem keeping_all (o : Options) : o.keeping (fun _ => true) = o := rfl

theorem toJson_eq (o : Options) :
    o.toJson = .object (o.members o.controlBlock.toJson o.costs.toJson) := rfl

/-- Fields that are given as they are spelled are read back, and the others are standard. -/
theorem ofMembers?_of_kept (hblock : o.controlBlock.Spelling block) (hcosts : o.costs.Spelling costs)
    (h : ∀ (i : Nat) (key : String), fields[i]? = some key → Json.member? members key =
      some (if keep key then (o.values block costs)[i]? else none)) :
    ofMembers? members = some (o.keeping keep) := by
  have hentry := Json.field?_kept standard.entry
    (rfl : Json.string? (.string o.entry) = some o.entry) (h 0 _ rfl)
  have hpages := Json.field?_kept standard.memoryMaxPages (Json.u64?_int o.memoryMaxPages)
    (h 1 _ rfl)
  have hblock := Json.field?_kept standard.controlBlock (ControlBlock.ofJson?_of_spelling hblock)
    (h 2 _ rfl)
  have hcosts := Json.field?_kept standard.costs
    (Metering.CostTable.ofJson?_of_spelling hcosts) (h 3 _ rfl)
  have hoptimize := Json.field?_kept standard.optimizeLevel (Json.u8?_int o.optimizeLevel)
    (h 4 _ rfl)
  have hshrink := Json.field?_kept standard.shrinkLevel (Json.u8?_int o.shrinkLevel) (h 5 _ rfl)
  have hpasses := Json.field?_kept standard.defaultPasses
    (rfl : Json.bool? (.bool o.defaultPasses) = some o.defaultPasses) (h 6 _ rfl)
  have hstack := Json.field?_kept standard.maxWasmStack (Json.u64?_int o.maxWasmStack) (h 7 _ rfl)
  simp only [ofMembers?, hentry, hpages, hblock, hcosts, hoptimize, hshrink, hpasses, hstack,
    Option.bind_eq_bind, Option.bind_some]
  rfl

theorem ofJson?_filter (hblock : o.controlBlock.Spelling block) (hcosts : o.costs.Spelling costs)
    (keep : String → Bool) :
    ofJson? (.object ((o.members block costs).filter (keep ·.1))) = some (o.keeping keep) := by
  refine ofMembers?_of_kept hblock hcosts fun i key hi => ?_
  rw [Json.member?_filter, Options.members, Json.member?_zip nodup_fields hi]
  by_cases hkeep : keep key = true
  · rw [if_pos hkeep, if_pos hkeep]
  · rw [if_neg hkeep, if_neg hkeep]

theorem ofJson?_toJson (o : Options) : ofJson? o.toJson = some o := by
  have hall := ofJson?_filter (o := o) (.inl rfl) (.inl rfl) fun _ => true
  rwa [List.filter_true, keeping_all, ← toJson_eq] at hall

theorem mem_take_iff {i k : Nat} {key : String} (hi : fields[i]? = some key) :
    key ∈ fields.take k ↔ i < k := by
  constructor
  · intro hmem
    obtain ⟨j, hj⟩ := List.mem_iff_getElem?.1 hmem
    rw [List.getElem?_take] at hj
    by_cases hjk : j < k
    · rw [if_pos hjk] at hj
      obtain ⟨hlt, -⟩ := List.getElem?_eq_some_iff.1 hi
      rwa [(List.getElem?_inj hlt nodup_fields).1 (hi.trans hj.symm)]
    · simp [hjk] at hj
  · intro hk
    exact List.mem_of_getElem? (by rw [List.getElem?_take, if_pos hk, hi])

/-- An array gives the first fields in order. -/
theorem ofJson?_take (hblock : o.controlBlock.Spelling block) (hcosts : o.costs.Spelling costs)
    (k : Nat) : ofJson? (.array ((o.values block costs).take k)) =
      some (o.keeping fun key => key ∈ fields.take k) := by
  have hlength : ((o.values block costs).take k).length ≤ fields.length := by
    rw [List.length_take]
    exact Nat.min_le_right ..
  have hmembers : Json.members? fields (.array ((o.values block costs).take k)) =
      some (fields.zip ((o.values block costs).take k)) := if_pos hlength
  rw [ofJson?, hmembers]
  refine ofMembers?_of_kept hblock hcosts fun i key hi => ?_
  rw [Json.member?_zip nodup_fields hi, List.getElem?_take]
  by_cases hk : i < k
  · rw [if_pos hk, if_pos (decide_eq_true ((mem_take_iff hi).2 hk))]
  · rw [if_neg hk, if_neg]
    simpa [mem_take_iff hi] using hk

end

/-! ## Other orders and unknown names -/

/-- Two spellings of an inner structure that differ in the order of their members and in members of
unknown names. -/
inductive InnerRearranged : String → Json → Json → Prop
  | block {xs ys : List (String × Json)} (same : Json.SameFields ControlBlock.fields xs ys) :
    InnerRearranged "control_block" (.object xs) (.object ys)
  | costs {xs ys : List (String × Json)} (same : Json.SameFields Metering.CostTable.fields xs ys) :
    InnerRearranged "costs" (.object xs) (.object ys)

/-- Two spellings of options that differ so, at the top or in an inner structure. -/
inductive Rearranged : Json → Json → Prop
  | members {xs ys : List (String × Json)} (same : Json.SameFields fields xs ys) :
    Rearranged (.object xs) (.object ys)
  | member {before after : List (String × Json)} {key : String} {j j' : Json}
      (inner : InnerRearranged key j j') :
    Rearranged (.object (before ++ (key, j) :: after)) (.object (before ++ (key, j') :: after))
  | item {before after : List Json} {key : String} {j j' : Json}
      (place : fields[before.length]? = some key) (inner : InnerRearranged key j j') :
    Rearranged (.array (before ++ j :: after)) (.array (before ++ j' :: after))
  | trans {j j' j'' : Json} (first : Rearranged j j') (second : Rearranged j' j'') :
    Rearranged j j''

section
variable {xs ys before after : List (String × Json)} {key : String} {j j' : Json}

theorem ofMembers?_of_sameFields (h : Json.SameFields fields xs ys) :
    ofMembers? xs = ofMembers? ys := by
  have hfield {α : Type} (read : Json → Option α) (standard : α) {key : String}
      (hkey : key ∈ fields) :
      Json.field? read standard xs key = Json.field? read standard ys key :=
    Json.field?_of_sameFields h hkey
  rw [ofMembers?, hfield _ _ (by decide), hfield _ _ (by decide), hfield _ _ (by decide),
    hfield _ _ (by decide), hfield _ _ (by decide), hfield _ _ (by decide),
    hfield _ _ (by decide), hfield _ _ (by decide), ← ofMembers?]

theorem ofMembers?_replace (h : InnerRearranged key j j') :
    ofMembers? (before ++ (key, j) :: after) = ofMembers? (before ++ (key, j') :: after) := by
  have hscalar : Json.string? j = Json.string? j' ∧ Json.u64? j = Json.u64? j' ∧
      Json.u8? j = Json.u8? j' ∧ Json.bool? j = Json.bool? j' := by
    cases h <;> exact ⟨rfl, rfl, rfl, rfl⟩
  obtain ⟨hstring, hu64, hu8, hbool⟩ := hscalar
  have hblock : key = "control_block" → ControlBlock.ofJson? j = ControlBlock.ofJson? j' := by
    intro hkey
    cases h with
    | block same => exact ControlBlock.ofJson?_of_sameFields same
    | costs => exact absurd hkey (by decide)
  have hcosts : key = "costs" →
      Metering.CostTable.ofJson? j = Metering.CostTable.ofJson? j' := by
    intro hkey
    cases h with
    | block => exact absurd hkey (by decide)
    | costs same => exact Metering.CostTable.ofJson?_of_sameFields same
  have hfield {α : Type} {read : Json → Option α} (standard : α) (key' : String)
      (h : key = key' → read j = read j') :
      Json.field? read standard (before ++ (key, j) :: after) key' =
        Json.field? read standard (before ++ (key, j') :: after) key' :=
    Json.field?_replace h
  simp only [ofMembers?, hfield _ "entry" fun _ => hstring, hfield _ "memory_max_pages" fun _ => hu64,
    hfield _ _ hblock, hfield _ _ hcosts, hfield _ "optimize_level" fun _ => hu8,
    hfield _ "shrink_level" fun _ => hu8, hfield _ "default_passes" fun _ => hbool,
    hfield _ "max_wasm_stack" fun _ => hu64]

/-- The item at a place is the value of the field at that place. -/
theorem zip_place {before : List Json} (after : List Json)
    (h : fields[before.length]? = some key) :
    ∃ front back, ∀ j : Json,
      fields.zip (before ++ j :: after) = front ++ (key, j) :: back := by
  obtain ⟨hlt, hkey⟩ := List.getElem?_eq_some_iff.1 h
  refine ⟨(fields.take before.length).zip before, (fields.drop (before.length + 1)).zip after,
    fun j => ?_⟩
  have hfields : fields = fields.take before.length ++
      key :: fields.drop (before.length + 1) := by
    rw [← hkey, ← List.drop_eq_getElem_cons hlt, List.take_append_drop]
  have hlength : (fields.take before.length).length = before.length := by
    rw [List.length_take, Nat.min_eq_left (Nat.le_of_lt hlt)]
  conv_lhs => rw [hfields]
  rw [List.zip_append hlength, List.zip_cons_cons]

theorem ofJson?_rearranged (h : Rearranged j j') : ofJson? j = ofJson? j' := by
  induction h with
  | members same => exact ofMembers?_of_sameFields same
  | member inner => exact ofMembers?_replace inner
  | @item before after key j j' place inner =>
    have hlength : (before ++ j :: after).length = (before ++ j' :: after).length := by simp
    obtain ⟨front, back, hzip⟩ := zip_place after place
    rw [ofJson?, ofJson?, Json.members?, Json.members?, hlength, hzip, hzip]
    by_cases hlong : (before ++ j' :: after).length ≤ fields.length
    · rw [if_pos hlong, if_pos hlong]
      exact ofMembers?_replace inner
    · rw [if_neg hlong, if_neg hlong]
  | trans _ _ ih ih' => exact ih.trans ih'

end

/-! ## Misspelled options -/

/-- How many values the fields that are numbers have. -/
def numbers : List (String × Nat) :=
  [("memory_max_pages", UInt64.size), ("optimize_level", UInt8.size), ("shrink_level", UInt8.size),
    ("max_wasm_stack", UInt64.size)]

/-- The fields of the inner structures. -/
def records : List (String × List String) :=
  [("control_block", ControlBlock.fields), ("costs", Metering.CostTable.fields)]

/-- Whether a value is none that the field of this name can have. -/
inductive Unfit : String → Json → Prop
  | text {j : Json} (text : ∀ s, j ≠ .string s) : Unfit "entry" j
  | flag {j : Json} (flag : ∀ b, j ≠ .bool b) : Unfit "default_passes" j
  | number {key : String} {size : Nat} {j : Json} (number : (key, size) ∈ numbers)
      (beyond : j.Beyond size) : Unfit key j
  | record {key : String} {inner : List String} {j : Json} (record : (key, inner) ∈ records)
      (misspelled : j.MisspellsWords inner) : Unfit key j

/-- Whether a value is refused: an array longer than the declaration, or a value with an unfit one
in the place of a field. -/
inductive Misspelled : Json → Prop
  | long {items : List Json} (long : fields.length < items.length) : Misspelled (.array items)
  | member {members : List (String × Json)} {key : String} {j : Json}
      (given : (key, j) ∈ members) (unfit : Unfit key j) : Misspelled (.object members)
  | item {items : List Json} {key : String} {j : Json} (given : (key, j) ∈ fields.zip items)
      (unfit : Unfit key j) : Misspelled (.array items)

section
variable {members : List (String × Json)} {key : String} {j : Json}

/-- No field is ever null. -/
theorem unfit_null (h : key ∈ fields) : Unfit key .null := by
  have hbeyond (size : Nat) : Json.null.Beyond size := fun n _ hn => by cases hn
  have hwords (inner : List String) : Json.null.MisspellsWords inner :=
    .shape (fun _ h => by cases h) (fun _ h => by cases h)
  simp only [fields, List.mem_cons, List.not_mem_nil, or_false] at h
  rcases h with rfl | rfl | rfl | rfl | rfl | rfl | rfl | rfl
  · exact .text fun s h => by cases h
  · exact .number (show ("memory_max_pages", UInt64.size) ∈ numbers by decide) (hbeyond _)
  · exact .record (show ("control_block", ControlBlock.fields) ∈ records by decide) (hwords _)
  · exact .record (show ("costs", Metering.CostTable.fields) ∈ records by decide) (hwords _)
  · exact .number (show ("optimize_level", UInt8.size) ∈ numbers by decide) (hbeyond _)
  · exact .number (show ("shrink_level", UInt8.size) ∈ numbers by decide) (hbeyond _)
  · exact .flag fun b h => by cases h
  · exact .number (show ("max_wasm_stack", UInt64.size) ∈ numbers by decide) (hbeyond _)

theorem ofMembers?_of_unfit (hgiven : (key, j) ∈ members) (h : Unfit key j) :
    ofMembers? members = none := by
  cases h with
  | text text =>
    have hj : Json.string? j = none := by
      cases j with
      | string s => exact absurd rfl (text s)
      | _ => rfl
    simp [ofMembers?, Json.field?_of_mem standard.entry hgiven hj]
  | flag flag =>
    have hj : Json.bool? j = none := by
      cases j with
      | bool b => exact absurd rfl (flag b)
      | _ => rfl
    simp [ofMembers?, Json.field?_of_mem standard.defaultPasses hgiven hj]
  | number number beyond =>
    have hu8 (h : j.Beyond UInt8.size) : Json.u8? j = none := by
      rw [Json.u8?, Json.nat?_of_beyond h (by decide)]
      rfl
    have hu64 (h : j.Beyond UInt64.size) : Json.u64? j = none := by
      rw [Json.u64?, Json.nat?_of_beyond h (by decide)]
      rfl
    simp only [numbers, List.mem_cons, Prod.mk.injEq, List.not_mem_nil, or_false] at number
    rcases number with ⟨rfl, rfl⟩ | ⟨rfl, rfl⟩ | ⟨rfl, rfl⟩ | ⟨rfl, rfl⟩
    · simp [ofMembers?, Json.field?_of_mem standard.memoryMaxPages hgiven (hu64 beyond)]
    · simp [ofMembers?, Json.field?_of_mem standard.optimizeLevel hgiven (hu8 beyond)]
    · simp [ofMembers?, Json.field?_of_mem standard.shrinkLevel hgiven (hu8 beyond)]
    · simp [ofMembers?, Json.field?_of_mem standard.maxWasmStack hgiven (hu64 beyond)]
  | record record misspelled =>
    simp only [records, List.mem_cons, Prod.mk.injEq, List.not_mem_nil, or_false] at record
    rcases record with ⟨rfl, rfl⟩ | ⟨rfl, rfl⟩
    · have hj := ControlBlock.ofJson?_misspelled misspelled
      simp [ofMembers?, Json.field?_of_mem standard.controlBlock hgiven hj]
    · have hj := Metering.CostTable.ofJson?_misspelled misspelled
      simp [ofMembers?, Json.field?_of_mem standard.costs hgiven hj]

theorem ofJson?_misspelled (h : Misspelled j) : ofJson? j = none := by
  cases h with
  | long long =>
    rw [ofJson?, Json.members?, if_neg (Nat.not_le_of_lt long)]
    rfl
  | member given unfit => exact ofMembers?_of_unfit given unfit
  | @item items key j given unfit =>
    rw [ofJson?, Json.members?]
    by_cases hle : items.length ≤ fields.length
    · rw [if_pos hle]
      exact ofMembers?_of_unfit given unfit
    · rw [if_neg hle]
      rfl

end

/-! ## All spellings -/

/-- Options are read back from their own JSON, in whatever order it is written and whatever unknown
members stand between its own. Of a part of it the rest is standard, and so it is of an array of the
first values. What has been accepted once stays what it is. A value that no field can have is
refused, wherever it stands: null, a number out of range, an inner structure in part; and so is an
array that is too long. -/
theorem options_survive_json :
    (∀ o : Options, o.toJson = .object (o.members o.controlBlock.toJson o.costs.toJson) ∧
      ofJson? o.toJson = some o) ∧
    (∀ j j', Rearranged j j' → ofJson? j = ofJson? j') ∧
    (∀ (o : Options) (block costs : Json), o.controlBlock.Spelling block → o.costs.Spelling costs →
      (∀ keep : String → Bool, ofJson? (.object ((o.members block costs).filter (keep ·.1))) =
        some (o.keeping keep)) ∧
      ∀ k, ofJson? (.array ((o.values block costs).take k)) =
        some (o.keeping fun key => key ∈ fields.take k)) ∧
    (∀ j o, ofJson? j = some o → ofJson? o.toJson = some o) ∧
    (∀ key ∈ fields, Unfit key .null) ∧ ∀ j, Misspelled j → ofJson? j = none := by
  refine ⟨fun o => ⟨toJson_eq o, ofJson?_toJson o⟩, fun _ _ => ofJson?_rearranged,
    fun o block costs hblock hcosts => ⟨ofJson?_filter hblock hcosts, ofJson?_take hblock hcosts⟩,
    fun _ o _ => ofJson?_toJson o, fun _ => unfit_null, fun _ => ofJson?_misspelled⟩

/-- Options with nothing standard about them. -/
def unusual : Options where
  entry := "tick"
  memoryMaxPages := 18446744073709551615
  controlBlock := ⟨100, 50⟩
  costs := ⟨0, 1, 2, 3, 4294967295⟩
  optimizeLevel := 255
  shrinkLevel := 2
  defaultPasses := true
  maxWasmStack := 0

/-- Two of the fields, the other way round and with a stranger between them. -/
def unusualPart : Json :=
  .object [("shrink_level", .int 2), ("colour", .null), ("entry", .string "tick")]

theorem options_survive_json_unusual :
    (unusual.controlBlock.Spelling (.array [.int 100, .int 50]) ∧
      unusual.costs.Spelling unusual.costs.toJson ∧
      ofJson? (.array [.string "tick", .int 18446744073709551615, .array [.int 100, .int 50]]) =
        some { standard with
          entry := "tick"
          memoryMaxPages := 18446744073709551615
          controlBlock := ⟨100, 50⟩ }) ∧
    ofJson? unusualPart = some { standard with entry := "tick", shrinkLevel := 2 } ∧
    Misspelled (.array [.string "tick", .int 18446744073709551616]) ∧
    ofJson? (.array [.string "tick", .int 18446744073709551616]) = none := by
  obtain ⟨-, hrearranged, hparts, -, -, hmisspelled⟩ := options_survive_json
  have hblock : unusual.controlBlock.Spelling (.array [.int 100, .int 50]) := .inr rfl
  have hcosts : unusual.costs.Spelling unusual.costs.toJson := .inl rfl
  obtain ⟨hkept, htake⟩ := hparts unusual _ _ hblock hcosts
  have hpart : Rearranged unusualPart (.object ((unusual.members (.array [.int 100, .int 50])
      unusual.costs.toJson).filter fun m => m.1 = "entry" || m.1 = "shrink_level")) :=
    .members (.swap _ _ _)
  have hbeyond : Json.Beyond UInt64.size (.int 18446744073709551616) := fun n hn h => by
    have hn' := Json.int.inj h
    simp only [UInt64.size] at hn
    omega
  have hlong : Misspelled (.array [.string "tick", .int 18446744073709551616]) :=
    .item (.tail _ (.head _)) (.number (.head _) hbeyond)
  refine ⟨⟨hblock, hcosts, htake 3⟩, ?_, hlong, hmisspelled _ hlong⟩
  rw [hrearranged _ _ hpart]
  exact hkept fun key => key = "entry" || key = "shrink_level"

end Options

end MeteredWasm
