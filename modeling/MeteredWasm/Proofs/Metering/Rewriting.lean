import Mathlib.Data.List.Forall2
import MeteredWasm.Metering.Stream
import MeteredWasm.Proofs.Codec.Bounds
import MeteredWasm.Proofs.Metering.Bounded
import MeteredWasm.Proofs.Metering.Shift

/-!
# What metering makes of a body

Nothing of a body is lost, doubled or put elsewhere (`bodies_rewritten`): the metered code is the
code with its functions moved, cut in the one way that there is behind the operators that end a
segment, with the charge of each segment in front of it. The binary form of the metered body is
read as it, so the same holds of its bytes. Taking the charges out again and the functions back gives
the code that was metered.

One pass over the operators, which adds up costs in a word that can fill up, comes to the same
(`streamCode_eq`): a sum past the greatest charge is charged as that, whether it fits the word or not.
-/

set_option autoImplicit false

namespace MeteredWasm.Metering

open Wasm

/-! ## Cutting code -/

/-- The segments are the code, cut behind each operator that ends a segment and nowhere else. The
last segment may go on to the end of the code. -/
structure Cut (code : List Operator) (segments : List (List Operator)) : Prop where
  flatten : segments.flatten = code
  nonempty : ∀ segment ∈ segments, segment ≠ []
  inner : ∀ segment ∈ segments, ∀ op ∈ segment.dropLast, endsSegment op = false
  last : ∀ segment ∈ segments.dropLast, ∃ op ∈ segment.getLast?, endsSegment op = true

section
variable {code segment : List Operator} {segments : List (List Operator)} {op : Operator}

theorem Cut.tail (h : Cut code (segment :: segments)) : Cut segments.flatten segments where
  flatten := rfl
  nonempty s hs := h.nonempty s (List.mem_cons_of_mem _ hs)
  inner s hs := h.inner s (List.mem_cons_of_mem _ hs)
  last s hs := by
    refine h.last s ?_
    cases segments with
    | nil => cases hs
    | cons first rest => exact List.mem_cons_of_mem _ hs

/-- An operator that ends a segment is all that is left of it. -/
theorem Cut.eq_singleton (h : Cut code ((op :: segment) :: segments))
    (hop : endsSegment op = true) : segment = [] := by
  cases segment with
  | nil => rfl
  | cons next rest =>
    have hnot := h.inner _ (List.mem_cons_self ..) op (List.mem_cons_self ..)
    rw [hop] at hnot
    cases hnot

theorem Cut.cons_of_ends (h : Cut code segments) (hop : endsSegment op = true) :
    Cut (op :: code) ([op] :: segments) where
  flatten := by rw [List.flatten_cons, h.flatten]; rfl
  nonempty := List.forall_mem_cons.2 ⟨List.cons_ne_nil _ _, h.nonempty⟩
  inner := List.forall_mem_cons.2 ⟨fun _ hop => (nomatch hop), h.inner⟩
  last s hs := by
    cases segments with
    | nil => cases hs
    | cons first rest =>
      rcases List.mem_cons.1 hs with rfl | hs
      · exact ⟨op, rfl, hop⟩
      · exact h.last s hs

/-- An operator in front of the first segment. -/
theorem Cut.cons_of_not (h : Cut code (segment :: segments)) (hop : endsSegment op = false) :
    Cut (op :: code) ((op :: segment) :: segments) := by
  have hne : segment ≠ [] := h.nonempty _ (List.mem_cons_self ..)
  refine ⟨?_, ?_, ?_, fun s hs => ?_⟩
  · rw [List.flatten_cons, List.cons_append, ← List.flatten_cons, h.flatten]
  · exact List.forall_mem_cons.2 ⟨List.cons_ne_nil _ _, (List.forall_mem_cons.1 h.nonempty).2⟩
  · obtain ⟨hfirst, hrest⟩ := List.forall_mem_cons.1 h.inner
    refine List.forall_mem_cons.2 ⟨?_, hrest⟩
    rw [List.dropLast_cons_of_ne_nil hne]
    exact List.forall_mem_cons.2 ⟨hop, hfirst⟩
  · cases segments with
    | nil => cases hs
    | cons first rest =>
      rcases List.mem_cons.1 hs with rfl | hs
      · rw [List.getLast?_cons_of_ne_nil hne]
        exact h.last segment (List.mem_cons_self ..)
      · exact h.last s (List.mem_cons_of_mem _ hs)

/-- The first segment without its first operator, if that is not all of it. -/
theorem Cut.of_cons (h : Cut (op :: code) ((op :: segment) :: segments)) (hne : segment ≠ []) :
    Cut code (segment :: segments) := by
  refine ⟨?_, ?_, ?_, fun s hs => ?_⟩
  · have hflatten := h.flatten
    rw [List.flatten_cons, List.cons_append] at hflatten
    exact List.tail_eq_of_cons_eq hflatten
  · exact List.forall_mem_cons.2 ⟨hne, (List.forall_mem_cons.1 h.nonempty).2⟩
  · obtain ⟨hfirst, hrest⟩ := List.forall_mem_cons.1 h.inner
    rw [List.dropLast_cons_of_ne_nil hne] at hfirst
    exact List.forall_mem_cons.2 ⟨(List.forall_mem_cons.1 hfirst).2, hrest⟩
  · cases segments with
    | nil => cases hs
    | cons first rest =>
      rcases List.mem_cons.1 hs with rfl | hs
      · rw [← List.getLast?_cons_of_ne_nil (x := op) hne]
        exact h.last _ (List.mem_cons_self ..)
      · exact h.last s (List.mem_cons_of_mem _ hs)

theorem cut_nil : Cut [] [] :=
  ⟨rfl, fun _ h => (nomatch h), fun _ h => (nomatch h), fun _ h => (nomatch h)⟩

theorem cut_split (code : List Operator) : Cut code (split code) := by
  induction code with
  | nil => exact cut_nil
  | cons op ops ih =>
    cases hop : endsSegment op with
    | true =>
      rw [split_cons_of_ends hop]
      exact ih.cons_of_ends hop
    | false =>
      rw [split, if_neg (by rw [hop]; decide)]
      cases hsplit : split ops with
      | nil =>
        rw [hsplit] at ih
        cases ih.flatten
        exact ⟨rfl, by simp, by simp, by simp⟩
      | cons segment segments =>
        rw [hsplit] at ih
        exact ih.cons_of_not hop

/-- There is one way to cut code. -/
theorem Cut.eq_split (h : Cut code segments) : segments = split code := by
  induction code generalizing segments with
  | nil =>
    cases segments with
    | nil => rfl
    | cons segment segments =>
      have hne := h.nonempty _ (List.mem_cons_self ..)
      exact absurd (List.append_eq_nil_iff.1 h.flatten).1 hne
  | cons op ops ih =>
    obtain ⟨segment, rest, rfl⟩ : ∃ segment rest, segments = (op :: segment) :: rest := by
      cases segments with
      | nil => cases h.flatten
      | cons first rest =>
        cases first with
        | nil => exact absurd rfl (h.nonempty _ (List.mem_cons_self ..))
        | cons op' segment =>
          cases List.head_eq_of_cons_eq h.flatten
          exact ⟨segment, rest, rfl⟩
    cases hop : endsSegment op with
    | true =>
      obtain rfl := h.eq_singleton hop
      have hrest : rest.flatten = ops := List.tail_eq_of_cons_eq h.flatten
      rw [split_cons_of_ends hop, ← ih (hrest ▸ h.tail)]
    | false =>
      by_cases hne : segment = []
      · -- The segment ends with an operator that ends none, so it is the last.
        subst hne
        cases rest with
        | nil =>
          obtain rfl : [] = ops := List.tail_eq_of_cons_eq h.flatten
          simp [split, hop]
        | cons next rest =>
          obtain ⟨last, hlast, hends⟩ := h.last [op] (List.mem_cons_self ..)
          obtain rfl : op = last := Option.some.inj hlast
          rw [hop] at hends
          cases hends
      · have hsplit := ih (h.of_cons hne)
        rw [split_cons_of_not hop, segmentAt, ← hsplit]
        rfl

end

/-! ## Charges -/

/-- What is charged for a segment: nothing if it is free, else what it costs, as far as the hook's
parameter goes. -/
inductive ChargedFor (plan : Plan) (segment : List Operator) : List Operator → Prop
  | free (h : totalCost plan.rules segment = 0) : ChargedFor plan segment []
  | paid (cost : UInt32) (hcost : cost.toNat = min (totalCost plan.rules segment) (2 ^ 31 - 1))
      (hrange : 1 ≤ cost.toBitVec.toInt ∧ cost.toBitVec.toInt ≤ 2 ^ 31 - 1) :
      ChargedFor plan segment [.i32Const cost, .call plan.hook]

/-- The segments, each behind its charge and with its functions moved. -/
inductive Rewrites (plan : Plan) : List (List Operator) → List Operator → Prop
  | nil : Rewrites plan [] []
  | cons {segment charge code : List Operator} {segments : List (List Operator)}
      (hcharge : ChargedFor plan segment charge) (hrest : Rewrites plan segments code) :
      Rewrites plan (segment :: segments)
        (charge ++ segment.map (Operator.mapFunc (shift plan.hook)) ++ code)

theorem toNat_chargeWord (rules : Rules) (segment : List Operator) :
    (charge rules segment).toUInt32.toNat = charge rules segment := by
  have hle : charge rules segment ≤ 0x7FFFFFFF := Nat.min_le_right _ _
  rw [Nat.toUInt32_eq, UInt32.toNat_ofNat']
  omega

theorem chargedFor_chargeOps (plan : Plan) (segment : List Operator) :
    ChargedFor plan segment (chargeOps plan segment) := by
  have hword := toNat_chargeWord plan.rules segment
  have hle : charge plan.rules segment ≤ 0x7FFFFFFF := Nat.min_le_right _ _
  have hcharge : charge plan.rules segment = min (totalCost plan.rules segment) (2 ^ 31 - 1) := rfl
  unfold chargeOps
  dsimp only
  split
  · exact .free (by omega)
  · have hsigned : (charge plan.rules segment).toUInt32.toBitVec.toInt =
        charge plan.rules segment := by
      rw [BitVec.toInt_eq_toNat_of_lt (by rw [UInt32.toNat_toBitVec]; omega),
        UInt32.toNat_toBitVec, hword]
    refine .paid _ (hword.trans hcharge) ⟨?_, ?_⟩ <;> rw [hsigned] <;> omega

theorem rewrites_meterCode (plan : Plan) (segments : List (List Operator)) :
    Rewrites plan segments (segments.flatMap (meterSegment plan)) := by
  induction segments with
  | nil => exact .nil
  | cons segment segments ih => exact .cons (chargedFor_chargeOps plan segment) ih

/-! ## One pass -/

/-- What is pending of a segment whose first operators are `ops`. -/
structure Pending.Holds (plan : Plan) (ops : List Operator) (p : Pending) : Prop where
  operators : p.operators = ops.map (Operator.mapFunc (shift plan.hook))
  cost : p.cost.toNat = min (totalCost plan.rules ops) 0xFFFFFFFF

theorem toNat_saturatingAdd (a b : UInt32) :
    (saturatingAdd a b).toNat = min (a.toNat + b.toNat) 0xFFFFFFFF := by
  unfold saturatingAdd
  split
  · rename_i h
    change _ < 4294967296 at h
    rw [UInt32.toNat_add]
    omega
  · rename_i h
    change ¬_ < 4294967296 at h
    rw [Nat.min_eq_right (by omega)]
    rfl

namespace Pending.Holds

variable {plan : Plan} {ops : List Operator} {p : Pending}

theorem push (h : Holds plan ops p) (op : Operator) : Holds plan (ops ++ [op]) (p.push plan op) := by
  refine ⟨?_, ?_⟩
  · rw [Pending.push, h.operators, List.map_append]
    rfl
  · rw [Pending.push, toNat_saturatingAdd, h.cost, totalCost_append, totalCost_cons, totalCost_nil]
    omega

/-- A cost that has filled the word up is past the greatest charge. -/
theorem flush (h : Holds plan ops p) :
    p.flush plan = chargeOps plan ops ++ ops.map (Operator.mapFunc (shift plan.hook)) := by
  have hcost := h.cost
  have hcharge : charge plan.rules ops = min (totalCost plan.rules ops) 0x7FFFFFFF := rfl
  rw [Pending.flush, h.operators, chargeOps]
  congr 1
  by_cases hfree : charge plan.rules ops = 0
  · have hzero : ¬0 < p.cost := by
      rw [UInt32.lt_iff_toNat_lt, UInt32.toNat_zero]
      omega
    rw [if_neg hzero, if_pos hfree]
  · have hpositive : 0 < p.cost := by
      rw [UInt32.lt_iff_toNat_lt, UInt32.toNat_zero]
      omega
    have hclamped : (if p.cost ≤ 0x7FFFFFFF then p.cost else 0x7FFFFFFF) =
        (charge plan.rules ops).toUInt32 := by
      refine UInt32.toNat_inj.1 ?_
      rw [toNat_chargeWord, hcharge]
      simp only [UInt32.le_iff_toNat_le, UInt32.reduceToNat]
      split
      · omega
      · simp only [UInt32.reduceToNat]
        omega
    rw [if_pos hpositive, if_neg hfree, hclamped]

end Pending.Holds

theorem streamCode_of_holds {plan : Plan} {front : List Operator} {p : Pending}
    (h : p.Holds plan front) (ops : List Operator) :
    streamCode plan p ops = chargeOps plan (front ++ segmentAt ops) ++
      front.map (Operator.mapFunc (shift plan.hook)) ++ paidCode plan ops := by
  induction ops generalizing front p with
  | nil =>
    rw [streamCode, h.flush, segmentAt_nil, List.append_nil, paidCode_nil, List.append_nil]
  | cons op ops ih =>
    have hpush := h.push op
    have hempty : Pending.empty.Holds plan [] := ⟨rfl, rfl⟩
    rw [streamCode, segmentAt_cons, paidCode_cons]
    split
    · -- The segment ends here, and the next one starts with nothing pending.
      rw [hpush.flush, ih hempty, meterCode_eq]
      simp
    · rw [ih hpush]
      simp

/-- One pass over a body meters it. -/
theorem streamCode_eq (plan : Plan) (code : List Operator) :
    streamCode plan .empty code = meterCode plan code := by
  have hempty : Pending.empty.Holds plan [] := ⟨rfl, rfl⟩
  rw [streamCode_of_holds hempty, meterCode_eq]
  simp

/-! ## Taking charges out -/

/-- Code without the calls of the hook, and without the constant in front of each. -/
def uncharge (hook : UInt32) : List Operator → List Operator
  | .i32Const cost :: op :: code =>
    if op = .call hook then uncharge hook code
    else .i32Const cost :: uncharge hook (op :: code)
  | op :: code => op :: uncharge hook code
  | [] => []

theorem uncharge_charge (hook cost : UInt32) (code : List Operator) :
    uncharge hook (.i32Const cost :: .call hook :: code) = uncharge hook code := by
  rw [uncharge, if_pos rfl]

theorem uncharge_cons {hook : UInt32} {code : List Operator} (h : code.head? ≠ some (.call hook))
    (op : Operator) : uncharge hook (op :: code) = op :: uncharge hook code := by
  cases code with
  | nil => cases op <;> rfl
  | cons next code =>
    cases op
    case i32Const cost =>
      rw [uncharge, if_neg]
      rintro rfl
      exact h rfl
    all_goals rfl

/-- The charges are all that is taken out: no other operator calls the hook. -/
theorem uncharge_meterCode {plan : Plan} {code : List Operator} (h : ∀ op ∈ code, Movable op) :
    uncharge plan.hook (meterCode plan code) =
      code.map (Operator.mapFunc (shift plan.hook)) := by
  have hboth : (meterCode plan code).head? ≠ some (.call plan.hook) ∧
      uncharge plan.hook (meterCode plan code) =
        code.map (Operator.mapFunc (shift plan.hook)) := by
    revert h
    refine meterCode_induction code (fun _ => ⟨by simp, rfl⟩) (fun op ops code ih h => ?_)
      fun op ops code cost ih h => ?_
    · obtain ⟨hop, hops⟩ := List.forall_mem_cons.1 h
      obtain ⟨hhead, hrest⟩ := ih hops
      refine ⟨fun he => mapFunc_ne_call_hook hop (Option.some.inj he), ?_⟩
      rw [uncharge_cons hhead, hrest]
      rfl
    · refine ⟨nofun, ?_⟩
      rw [uncharge_charge, (ih h).2]
  exact hboth.2

/-! ## Bodies -/

/-- A body that has been metered.

The code is put together from the segments of the original code, which can be cut in one way only; the
bytes of the body are read as it; and one pass over the operators gives the same. Where no function is
the last that there could be, which has nowhere to move, taking the charges out and the functions
back gives the original code. -/
structure Rewritten (plan : Plan) (body body' : Body) : Prop where
  locals : body'.locals = body.locals
  code : ∃ segments, Cut body.code segments ∧ (∀ other, Cut body.code other → other = segments) ∧
    Rewrites plan segments body'.code
  read : Body.ofBytes? .full body'.write = some body'
  onePass : body'.code = streamCode plan .empty body.code
  undone : (∀ op ∈ body.code, Movable op) →
    (uncharge plan.hook body'.code).map (Operator.mapFunc (unshift plan.hook)) = body.code

theorem rewritten_meterBody (plan : Plan) {bytes : Bytes} {body : Body}
    (h : Body.ofBytes? .full bytes = some body) : Rewritten plan body (meterBody plan body) where
  locals := rfl
  code := ⟨split body.code, cut_split body.code, fun _ hother => hother.eq_split,
    rewrites_meterCode plan _⟩
  read := by
    have hwithin : (meterBody plan body).Within .full :=
      within_meterBody (Body.within_of_ofBytes h)
    exact (Body.ofBytes_answers hwithin.writable fun _ => hwithin).eq_some
  onePass := (streamCode_eq plan body.code).symm
  undone hmovable := by
    show (uncharge plan.hook (meterCode plan body.code)).map _ = body.code
    rw [uncharge_meterCode hmovable, map_unshift hmovable]

/-- The bodies of a decoded module have been read from bytes. -/
theorem exists_bytes_of_decode {dialect : Dialect} {binary : Bytes} {m : Module}
    (h : Module.decode? dialect binary = some m) :
    ∀ body ∈ m.bodies, ∃ bytes, Body.ofBytes? dialect bytes = some body := by
  intro body hbody
  obtain ⟨s, hs, hbody⟩ := List.mem_flatMap.1 hbody
  cases s
  case code bodies =>
    obtain ⟨contents, hcontents⟩ := contents_of_decode h hs rfl
    simp only [Section.ofContents?, Option.map_eq_some_iff, Section.code.injEq] at hcontents
    obtain ⟨_, hread, rfl⟩ := hcontents
    simp only [Section.bodies?, Option.bind_eq_bind, Option.bind_eq_some_iff] at hread
    obtain ⟨raws, -, hbodies⟩ := hread
    obtain ⟨bytes, -, hbytes⟩ := mem_of_mapM hbodies hbody
    exact ⟨bytes, hbytes⟩
  all_goals cases hbody

/-- A body with a dear segment, whose calls together cost more than a charge can say, and with
free ones around a branch on a reference and an access to a second memory. -/
def detour : Body :=
  ⟨[(1, .i64)], [.call 0, .call 1, .block .empty, .refNull (.abstract false .func),
    .proposal ⟨⟨none, 0xD5⟩, [.index 0], by decide⟩, .drop, .endMark, .i32Const 8,
    .load .i64 ⟨3, 0x100000000, 1⟩, .localSet 0, .endMark]⟩

def detourModule : Module :=
  ⟨[.types [.plain ⟨[], []⟩], .imports [⟨"env", "print", .func 0⟩], .functions [0],
    .code [detour]]⟩

def detourSummary : Summary := ⟨[⟨[], []⟩], [⟨"env", "print", 0⟩], [0, 0], [], [], false, [], none⟩

/-- A body that calls the last function that there could be. -/
def farthest : Body := ⟨[], [.i32Const 5, .call 0xFFFFFFFF, .endMark]⟩

def farthestModule : Module := ⟨[.types [.plain ⟨[], []⟩], .functions [0], .code [farthest]]⟩

def farthestSummary : Summary := ⟨[⟨[], []⟩], [], [0], [], [], false, [], none⟩

end MeteredWasm.Metering
