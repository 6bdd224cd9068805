import MeteredWasm.Proofs.Machine.Path
import MeteredWasm.Proofs.Metering.Position
import MeteredWasm.Proofs.Metering.Shift
import MeteredWasm.Proofs.Validation.Declared

/-!
# Charges along control paths

A path through a metered body passes charges: an `i32.const` right in front of a call of the hook.
`chargesIn` adds them up, and `ownOps` is what else the path passes. A `Counterpart` of a path is
one through the metered body that passes the same operators and ends behind the charge of the same
point.

The invariant along both is that charges and costs differ by what is `dueAt` the point reached: the
cost of the rest of its segment. It holds because every place that control arrives at other than
by running on starts a segment (`successors_metered`). Every path has a counterpart
(`exists_counterpart`), every path through the metered body belongs to a path (`unmetered`), and so
the charges of all counterparts are known (`Counterpart.charges`).
-/

set_option autoImplicit false

namespace MeteredWasm.Metering

open Wasm Machine

/-! ## Charges in a run of operators -/

section
variable (hook : UInt32)

/-- The charge that starts with `op`, if `next` comes behind it. -/
def chargeAt (op : Operator) (next : Option Operator) : Nat :=
  match op with
  | .i32Const cost => if next = some (.call hook) then cost.toNat else 0
  | _ => 0

/-- What the charges among these operators add up to. -/
def chargesIn : List Operator → Nat
  | [] => 0
  | op :: ops => chargeAt hook op ops.head? + chargesIn ops

/-- Whether `op` is part of a charge, if `next` comes behind it. -/
def inCharge (op : Operator) (next : Option Operator) : Bool :=
  match op with
  | .i32Const _ => next = some (.call hook)
  | .call func => func = hook
  | _ => false

/-- The operators that are no part of a charge. -/
def ownOps : List Operator → List Operator
  | [] => []
  | op :: ops => if inCharge hook op ops.head? then ownOps ops else op :: ownOps ops

variable {hook} {more : List Operator} (hm : more.head? ≠ some (.call hook))
include hm

theorem chargeAt_append (op : Operator) (ops : List Operator) :
    chargeAt hook op (ops ++ more).head? = chargeAt hook op ops.head? := by
  cases ops with
  | nil => cases op <;> simp [chargeAt, hm]
  | cons next ops => rfl

theorem inCharge_append (op : Operator) (ops : List Operator) :
    inCharge hook op (ops ++ more).head? = inCharge hook op ops.head? := by
  cases ops with
  | nil => cases op <;> simp [inCharge, hm]
  | cons next ops => rfl

/-- Charges add up where no charge is cut in two. -/
theorem chargesIn_append (ops : List Operator) :
    chargesIn hook (ops ++ more) = chargesIn hook ops + chargesIn hook more := by
  induction ops with
  | nil => simp [chargesIn]
  | cons op ops ih => rw [List.cons_append, chargesIn, chargesIn, chargeAt_append hm, ih]; omega

theorem ownOps_append (ops : List Operator) :
    ownOps hook (ops ++ more) = ownOps hook ops ++ ownOps hook more := by
  induction ops with
  | nil => rfl
  | cons op ops ih =>
    rw [List.cons_append, ownOps, ownOps, inCharge_append hm, ih]
    split <;> rfl

end

/-! ## Segments that can be charged for -/

/-- No segment costs more than can be charged. -/
def Fits (rules : Rules) (code : List Operator) : Prop :=
  ∀ segment ∈ split code, totalCost rules segment ≤ maxCharge

section
variable {rules : Rules}

theorem Fits.tail {op : Operator} {ops : List Operator} (h : Fits rules (op :: ops)) :
    Fits rules ops := by
  intro segment hs
  cases he : endsSegment op with
  | true => exact h segment (by rw [split_cons_of_ends he]; exact List.mem_cons_of_mem _ hs)
  | false =>
    rw [Fits, split_cons_of_not he] at h
    cases hsp : split ops with
    | nil => simp [hsp] at hs
    | cons first segments =>
      rw [hsp, List.mem_cons] at hs
      rcases hs with rfl | hs
      · have hfirst := h (op :: segment) (by simp [segmentAt, hsp])
        rw [totalCost_cons] at hfirst
        omega
      · exact h segment (by simp [hsp, hs])

theorem Fits.suffix {code rest : List Operator} (h : Fits rules code) (hs : rest <:+ code) :
    Fits rules rest := by
  obtain ⟨front, rfl⟩ := hs
  induction front with
  | nil => exact h
  | cons op front ih => exact ih h.tail

theorem Fits.due_le {code : List Operator} (h : Fits rules code) : due rules code ≤ maxCharge := by
  unfold due segmentAt
  cases hs : split code with
  | nil => simp
  | cons segment segments => exact h segment (by simp [hs])

/-- What is charged is what is due. -/
theorem Fits.charge {code : List Operator} (h : Fits rules code) :
    charge rules (segmentAt code) = due rules code := Nat.min_eq_left h.due_le

end

/-! ## Points of the metered body -/

/-- The point of the metered body in front of the charge. -/
def freshPoint (plan : Plan) (p : Point) : Point :=
  ⟨p.labels.map (Option.map (meterCode plan)), meterCode plan p.code⟩

/-- The point of the metered body behind the charge. -/
def paidPoint (plan : Plan) (p : Point) : Point :=
  ⟨p.labels.map (Option.map (meterCode plan)), paidCode plan p.code⟩

/-- Where control arrives in the metered body behind an operator: a segment starts there if the
operator ends one. -/
def arrival (plan : Plan) (op : Operator) : Point → Point :=
  if endsSegment op then freshPoint plan else paidPoint plan

/-- What is due at a point; nothing outside of the body. -/
def dueAt (rules : Rules) (q : Option Point) : Nat := q.elim 0 fun p => due rules p.code

section
variable (plan : Plan) (p : Point)

theorem branch_freshPoint (k : Nat) :
    (freshPoint plan p).branch k = (p.branch k).map (freshPoint plan) := by
  unfold Point.branch freshPoint
  rw [List.getElem?_map, skipEnd_meterCode]
  cases hk : p.labels[k]? with
  | none => rfl
  | some again => cases again <;> simp [List.map_drop]

/-- Only running on leads into the middle of a segment. -/
theorem successors_metered (op : Operator) :
    (arrival plan op p).successors (op.mapFunc (shift plan.hook)) =
      (p.successors op).map (Option.map (arrival plan op)) := by
  have hends (h : endsSegment op = true) : arrival plan op = freshPoint plan := by
    simp [arrival, h]
  cases op
  case block | loop | unreachable | ret | returnCall | returnCallIndirect =>
    rw [hends rfl]
    rfl
  case ifThen type =>
    rw [hends rfl]
    simp only [Operator.mapFunc, Point.successors, freshPoint, skipElse_meterCode]
    cases hs : skipElse 0 p.code with
    | mk turned code => cases turned <;> rfl
  case elseMark =>
    rw [hends rfl]
    simp [Operator.mapFunc, Point.successors, freshPoint, skipEnd_meterCode]
  case endMark =>
    rw [hends rfl]
    cases hl : p.labels <;> simp [Operator.mapFunc, Point.successors, freshPoint, hl]
  case br label =>
    simp only [Operator.mapFunc, Point.successors, hends rfl, branch_freshPoint, List.map_cons,
      List.map_nil]
  case brIf label =>
    simp only [Operator.mapFunc, Point.successors, hends rfl, branch_freshPoint, List.map_cons,
      List.map_nil, Option.map_some]
  case brTable labels fallback =>
    simp only [Operator.mapFunc, Point.successors, hends rfl, branch_freshPoint, List.map_map]
    rfl
  all_goals rfl

theorem paidPoint_cons (op : Operator) (labels : List (Option (List Operator)))
    (code : List Operator) : paidPoint plan ⟨labels, op :: code⟩ =
      ⟨(arrival plan op ⟨labels, code⟩).labels,
        op.mapFunc (shift plan.hook) :: (arrival plan op ⟨labels, code⟩).code⟩ := by
  unfold paidPoint arrival
  rw [paidCode_cons]
  split <;> rfl

/-- An operator inside of a segment just runs on. -/
theorem successors_of_not_ends {op : Operator} (h : endsSegment op = false) :
    p.successors op = [some p] := by
  cases op <;> first | rfl | simp [endsSegment] at h

end

/-! ## Both bodies at once -/

section
variable {plan : Plan} {code : List Operator}

theorem chargeOps_of_fits (h : Fits plan.rules code) :
    chargeOps plan (segmentAt code) =
      if due plan.rules code = 0 then []
      else [.i32Const (due plan.rules code).toUInt32, .call plan.hook] := by
  simp only [chargeOps, h.charge]

theorem toNat_due (h : Fits plan.rules code) :
    (due plan.rules code).toUInt32.toNat = due plan.rules code := by
  have hle : due plan.rules code ≤ 0x7FFFFFFF := h.due_le
  simp only [Nat.toUInt32_eq, UInt32.toNat_ofNat']
  omega

/-- A free segment has no charge to pass. -/
theorem freshPoint_of_free {p : Point} (h : due plan.rules p.code = 0) :
    freshPoint plan p = paidPoint plan p := by
  have hc : charge plan.rules (segmentAt p.code) = 0 := by
    rw [charge, ← due, h]
    rfl
  simp [freshPoint, paidPoint, meterCode_eq, chargeOps, hc]

theorem freshPoint_of_due {p : Point} (hf : Fits plan.rules p.code)
    (h : due plan.rules p.code ≠ 0) :
    freshPoint plan p = ⟨p.labels.map (Option.map (meterCode plan)),
      .i32Const (due plan.rules p.code).toUInt32 :: .call plan.hook :: paidCode plan p.code⟩ := by
  simp [freshPoint, meterCode_eq, chargeOps_of_fits hf, h]

/-- What passing a charge adds. -/
theorem measures_charge (plan : Plan) {code : List Operator} (h : Fits plan.rules code) (ops : List Operator) :
    ownOps plan.hook (ops ++ [.i32Const (due plan.rules code).toUInt32, .call plan.hook]) =
        ownOps plan.hook ops ∧
      chargesIn plan.hook (ops ++ [.i32Const (due plan.rules code).toUInt32, .call plan.hook]) =
        chargesIn plan.hook ops + due plan.rules code := by
  constructor
  · rw [ownOps_append (by simp)]
    simp [ownOps, inCharge]
  · rw [chargesIn_append (by simp)]
    simp [chargesIn, chargeAt, toNat_due h]

/-- What passing an operator of the body adds. -/
theorem measures_own (plan : Plan) {op : Operator} (h : Movable op) (ops : List Operator) :
    ownOps plan.hook (ops ++ [op.mapFunc (shift plan.hook)]) =
        ownOps plan.hook ops ++ [op.mapFunc (shift plan.hook)] ∧
      chargesIn plan.hook (ops ++ [op.mapFunc (shift plan.hook)]) = chargesIn plan.hook ops := by
  have hne : op.mapFunc (shift plan.hook) ≠ .call plan.hook := mapFunc_ne_call_hook h
  have hhead : [op.mapFunc (shift plan.hook)].head? ≠ some (.call plan.hook) := by simpa using hne
  constructor
  · rw [ownOps_append hhead]
    cases hop : op.mapFunc (shift plan.hook) <;> simp_all [ownOps, inCharge]
  · rw [chargesIn_append hhead]
    cases hop : op.mapFunc (shift plan.hook) <;> simp [chargesIn, chargeAt]

/-- The charge in front of a point can be passed. -/
theorem exists_path_paid {p x : Point} {ops : List Operator} (hf : Fits plan.rules x.code)
    (h : Path p ops (some (freshPoint plan x))) :
    ∃ more, Path p (ops ++ more) (some (paidPoint plan x)) ∧
      ownOps plan.hook (ops ++ more) = ownOps plan.hook ops ∧
      chargesIn plan.hook (ops ++ more) = chargesIn plan.hook ops + due plan.rules x.code := by
  by_cases hdue : due plan.rules x.code = 0
  · rw [freshPoint_of_free hdue] at h
    exact ⟨[], by simpa using h, by simp, by simp [hdue]⟩
  · rw [freshPoint_of_due hf hdue] at h
    have hcall := h.step (q := some ⟨_, _⟩) (List.mem_singleton_self _)
    have hpaid := hcall.step (q := some ⟨_, _⟩) (List.mem_singleton_self _)
    rw [List.append_assoc] at hpaid
    exact ⟨_, hpaid, measures_charge plan hf ops⟩

end

/-- A path through the metered body that passes the operators `ops` and ends behind the charge of
`q`. -/
structure Counterpart (plan : Plan) (code ops : List Operator) (q : Option Point)
    (ops' : List Operator) : Prop where
  path : Path (.start (meterCode plan code)) ops' (q.map (paidPoint plan))
  own : ownOps plan.hook ops' = ops.map (Operator.mapFunc (shift plan.hook))

/-- `Stands plan ops q ops' q'`: a path through the metered body has passed `ops'` and reached
`q'`, which belongs to the point `q` of a path that has passed `ops`. -/
inductive Stands (plan : Plan) (ops : List Operator) (q : Option Point) :
    List Operator → Option Point → Prop
  | behind {ops' : List Operator}
      (own : ownOps plan.hook ops' = ops.map (Operator.mapFunc (shift plan.hook)))
      (charged : chargesIn plan.hook ops' = totalCost plan.rules ops + dueAt plan.rules q) :
      Stands plan ops q ops' (q.map (paidPoint plan))
  | front {ops' : List Operator} {x : Point} (hq : q = some x)
      (hdue : due plan.rules x.code ≠ 0)
      (own : ownOps plan.hook ops' = ops.map (Operator.mapFunc (shift plan.hook)))
      (charged : chargesIn plan.hook ops' = totalCost plan.rules ops) :
      Stands plan ops q ops' (some (freshPoint plan x))
  | between {ops' : List Operator} {x : Point} (hq : q = some x)
      (hdue : due plan.rules x.code ≠ 0)
      (own : ownOps plan.hook ops' = ops.map (Operator.mapFunc (shift plan.hook)))
      (charged : chargesIn plan.hook ops' = totalCost plan.rules ops) :
      Stands plan ops q (ops' ++ [.i32Const (due plan.rules x.code).toUInt32])
        (some ⟨x.labels.map (Option.map (meterCode plan)),
          .call plan.hook :: paidCode plan x.code⟩)

section
variable {plan : Plan} {code : List Operator}

/-- Where control arrives with everything used up that has been charged. -/
theorem stands_fresh {ops ops' : List Operator} {q : Option Point}
    (own : ownOps plan.hook ops' = ops.map (Operator.mapFunc (shift plan.hook)))
    (charged : chargesIn plan.hook ops' = totalCost plan.rules ops) :
    Stands plan ops q ops' (q.map (freshPoint plan)) := by
  cases q with
  | none => exact .behind own (by simpa [dueAt] using charged)
  | some x =>
    by_cases hdue : due plan.rules x.code = 0
    · rw [Option.map_some, freshPoint_of_free hdue]
      exact .behind (q := some x) own (by simpa [dueAt, hdue] using charged)
    · exact .front rfl hdue own charged

/-- Passing an operator of the body uses up what has been charged for it. -/
theorem stands_step {ops ops' : List Operator} {labels : List (Option (List Operator))}
    {op : Operator} {rest : List Operator} {q : Option Point} (hop : Movable op)
    (own : ownOps plan.hook ops' = ops.map (Operator.mapFunc (shift plan.hook)))
    (charged : chargesIn plan.hook ops' =
      totalCost plan.rules ops + due plan.rules (op :: rest))
    (hq : q ∈ Point.successors ⟨labels, rest⟩ op) :
    Stands plan (ops ++ [op]) q (ops' ++ [op.mapFunc (shift plan.hook)])
      (q.map (arrival plan op)) := by
  obtain ⟨hown, hcharges⟩ := measures_own plan hop ops'
  have own' : ownOps plan.hook (ops' ++ [op.mapFunc (shift plan.hook)]) =
      (ops ++ [op]).map (Operator.mapFunc (shift plan.hook)) := by simp [hown, own]
  cases he : endsSegment op with
  | true =>
    have : arrival plan op = freshPoint plan := by simp [arrival, he]
    rw [this]
    refine stands_fresh own' ?_
    simp [hcharges, charged, due_cons, he]
  | false =>
    have : arrival plan op = paidPoint plan := by simp [arrival, he]
    rw [successors_of_not_ends _ he, List.mem_singleton] at hq
    rw [this]
    refine .behind own' ?_
    simp only [hcharges, charged, due_cons, he, hq, dueAt, totalCost_append, totalCost_cons,
      totalCost_nil, Option.elim_some, Bool.false_eq_true, if_false]
    omega

variable (hfit : Fits plan.rules code) (hmov : ∀ op ∈ code, Movable op)
include hfit hmov

/-- Whatever path is taken through the metered body belongs to a path through the body. -/
theorem unmetered {ops' : List Operator} {q' : Option Point}
    (h : Path (.start (meterCode plan code)) ops' q') :
    ∃ ops q, Path (.start code) ops q ∧ Stands plan ops q ops' q' := by
  induction h with
  | here => exact ⟨[], some (.start code), .here, stands_fresh (q := some (.start code)) rfl rfl⟩
  | @step ops' labels' op' code' q' before next ih =>
    obtain ⟨ops, q, hp, hs⟩ := ih
    have hin := (hp.inside (Point.inside_start code)).1
    generalize hat : some (Point.mk labels' (op' :: code')) = reached at hs
    cases hs with
    | behind own charged =>
      cases q with
      | none => cases hat
      | some x =>
        obtain ⟨labels, rest⟩ := x
        cases rest with
        | nil => simp [paidPoint] at hat
        | cons op rest =>
          have hop : Movable op := hmov op ((hin _ rfl).1.subset (List.mem_cons_self ..))
          rw [Option.map_some, paidPoint_cons, Option.some.injEq, Point.mk.injEq,
            List.cons.injEq] at hat
          obtain ⟨rfl, rfl, rfl⟩ := hat
          rw [successors_metered, List.mem_map] at next
          obtain ⟨q, hq, rfl⟩ := next
          exact ⟨ops ++ [op], q, hp.step hq, stands_step hop own charged hq⟩
    | @front _ x hq hdue own charged =>
      rw [freshPoint_of_due (hfit.suffix (hin x hq).1) hdue] at hat
      cases hat
      rw [List.mem_singleton.1 next]
      exact ⟨ops, q, hp, .between hq hdue own charged⟩
    | @between ops' x hq hdue own charged =>
      cases hat
      rw [List.mem_singleton.1 next, List.append_assoc]
      obtain ⟨hown, hcharges⟩ := measures_charge plan (hfit.suffix (hin x hq).1) ops'
      subst hq
      exact ⟨ops, some x, hp, .behind (q := some x) (by rw [← own]; exact hown)
        (by rw [← charged]; exact hcharges)⟩

/-- Every path through a body can be taken through the metered body. -/
theorem exists_counterpart {ops : List Operator} {q : Option Point}
    (h : Path (.start code) ops q) : ∃ ops', Counterpart plan code ops q ops' := by
  induction h with
  | here =>
    obtain ⟨more, hp, hown, -⟩ :=
      exists_path_paid hfit (.here : Path _ [] (some (freshPoint plan (.start code))))
    exact ⟨more, hp, by simpa [ownOps] using hown⟩
  | @step ops labels op rest q before next ih =>
    obtain ⟨ops', hp, own⟩ := ih
    have hin := (before.inside (Point.inside_start code)).1 _ rfl
    have hop : Movable op := hmov op (hin.1.subset (List.mem_cons_self ..))
    rw [Option.map_some, paidPoint_cons] at hp
    have hstep := hp.step (q := q.map (arrival plan op)) (by
      rw [successors_metered]
      exact List.mem_map_of_mem next)
    have own' : ownOps plan.hook (ops' ++ [op.mapFunc (shift plan.hook)]) =
        (ops ++ [op]).map (Operator.mapFunc (shift plan.hook)) := by
      simp [(measures_own plan hop ops').1, own]
    cases he : endsSegment op with
    | false =>
      have : arrival plan op = paidPoint plan := by simp [arrival, he]
      exact ⟨_, this ▸ hstep, own'⟩
    | true =>
      have : arrival plan op = freshPoint plan := by simp [arrival, he]
      rw [this] at hstep
      cases q with
      | none => exact ⟨_, hstep, own'⟩
      | some x =>
        have hx := ((before.step next).inside (Point.inside_start code)).1 x rfl
        obtain ⟨more, hpaid, hown, -⟩ := exists_path_paid (hfit.suffix hx.1) hstep
        exact ⟨_, hpaid, hown.trans own'⟩

end

/-! ## The charges of a counterpart -/

section
variable {plan : Plan} {code : List Operator} (hmov : ∀ op ∈ code, Movable op)

theorem ownOps_chargeOps_append (segment ops : List Operator) :
    ownOps plan.hook (chargeOps plan segment ++ ops) = ownOps plan.hook ops := by
  simp only [chargeOps]
  split <;> simp [ownOps, inCharge]

include hmov in
theorem head_paidCode_ne (plan : Plan) : (paidCode plan code).head? ≠ some (.call plan.hook) := by
  cases code with
  | nil => simp
  | cons op ops => simpa [paidCode_cons] using mapFunc_ne_call_hook (hmov op (by simp))

/-- No operator of the body is taken for a part of a charge, wherever it stands. -/
theorem inCharge_paidCode {op : Operator} {ops : List Operator}
    (hmov : ∀ x ∈ op :: ops, Movable x) (plan : Plan) :
    inCharge plan.hook (op.mapFunc (shift plan.hook))
      (if endsSegment op then meterCode plan ops else paidCode plan ops).head? = false := by
  have hne : op.mapFunc (shift plan.hook) ≠ .call plan.hook :=
    mapFunc_ne_call_hook (hmov op (by simp))
  cases he : endsSegment op with
  | false =>
    have hnext := head_paidCode_ne (fun x hx => hmov x (List.mem_cons_of_mem _ hx)) plan
    cases hop : op.mapFunc (shift plan.hook) <;> simp_all [inCharge]
  | true =>
    -- What ends a segment is no constant, so no charge can start with it.
    rw [← endsSegment_mapFunc (shift plan.hook)] at he
    cases hop : op.mapFunc (shift plan.hook) <;> simp_all [inCharge, endsSegment]

include hmov

/-- Without its charges, metered code is the original code, moved. -/
theorem ownOps_paidCode :
    ownOps plan.hook (paidCode plan code) = code.map (Operator.mapFunc (shift plan.hook)) := by
  induction code with
  | nil => rfl
  | cons op ops ih =>
    have hops : ∀ op ∈ ops, Movable op := fun op h => hmov op (by simp [h])
    rw [paidCode_cons, ownOps, inCharge_paidCode hmov plan]
    cases he : endsSegment op with
    | false =>
      rw [if_neg (by simp), if_neg (by simp), ih hops]
      rfl
    | true =>
      rw [if_neg (by simp), if_pos rfl, meterCode_eq, ownOps_chargeOps_append, ih hops]
      rfl

end

/-- Metered code tells what it was made of. -/
theorem paidCode_injective {plan : Plan} {code more : List Operator}
    (h : ∀ op ∈ code, Movable op) (h' : ∀ op ∈ more, Movable op)
    (he : paidCode plan code = paidCode plan more) : code = more := by
  have hown := congrArg (ownOps plan.hook) he
  rw [ownOps_paidCode h, ownOps_paidCode h'] at hown
  rw [← map_unshift h plan.hook, hown, map_unshift h' plan.hook]

section
variable {plan : Plan} {code ops : List Operator} {q : Option Point} {ops' : List Operator}
  (hfit : Fits plan.rules code) (hmov : ∀ op ∈ code, Movable op) (h : Path (.start code) ops q)
include hfit hmov h

/-- All counterparts of a path are charged what it costs and what is still due behind it. -/
theorem Counterpart.charges (hc : Counterpart plan code ops q ops') :
    chargesIn plan.hook ops' = totalCost plan.rules ops + dueAt plan.rules q := by
  obtain ⟨hp, hown⟩ := hc
  obtain ⟨ops₂, q₂, hp₂, hs⟩ := unmetered hfit hmov hp
  have hin := h.inside (Point.inside_start code)
  have hin₂ := hp₂.inside (Point.inside_start code)
  have hmovable : ∀ x : Point, x.Inside code → ∀ op ∈ x.code, Movable op :=
    fun x hx op hop => hmov op (hx.1.subset hop)
  generalize hat : q.map (paidPoint plan) = reached at hs
  cases hs with
  | behind own charged =>
    have hops : ops₂ = ops := by
      rw [← map_unshift (fun op hop => hmov op (hin₂.2 op hop)) plan.hook, ← own, hown,
        map_unshift (fun op hop => hmov op (hin.2 op hop)) plan.hook]
    have hdue : dueAt plan.rules q₂ = dueAt plan.rules q := by
      cases q <;> cases q₂ <;> simp only [Option.map_some, Option.map_none, reduceCtorEq] at hat
      · rfl
      · rename_i x y
        have hcode : x.code = y.code :=
          paidCode_injective (hmovable x (hin.1 x rfl)) (hmovable y (hin₂.1 y rfl))
            (congrArg Point.code (Option.some.inj hat))
        simp [dueAt, hcode]
    rw [charged, hops, hdue]
  | @front _ x hq hdue own charged =>
    cases q with
    | none => cases hat
    | some y =>
      have hcode := congrArg Point.code (Option.some.inj hat)
      rw [freshPoint_of_due (hfit.suffix (hin₂.1 x hq).1) hdue] at hcode
      simp only [paidPoint] at hcode
      have hown := congrArg (ownOps plan.hook) hcode
      rw [ownOps_paidCode (hmovable y (hin.1 y rfl))] at hown
      simp only [ownOps, inCharge, List.head?_cons, decide_true, if_true,
        ownOps_paidCode (hmovable x (hin₂.1 x hq))] at hown
      have hxy : y.code = x.code := by
        rw [← map_unshift (hmovable y (hin.1 y rfl)) plan.hook, hown,
          map_unshift (hmovable x (hin₂.1 x hq)) plan.hook]
      have hlength := congrArg List.length hcode
      simp only [hxy, List.length_cons] at hlength
      omega
  | @between _ x hq hdue own charged =>
    cases q with
    | none => cases hat
    | some y =>
      have hcode := congrArg Point.code (Option.some.inj hat)
      have hne := head_paidCode_ne (hmovable y (hin.1 y rfl)) plan
      simp only [paidPoint] at hcode
      simp [hcode] at hne

end

/-! ## Charges of valid code -/

theorem movable_of_declares {features : Validation.Features} {m : Module} {c : Validation.Context}
    (hc : Validation.Context.of? features m = some c) (hd : Validation.Declarations c m)
    {op : Operator} (h : Validation.Declares c op) : Movable op := by
  intro hlast
  obtain ⟨type, htype⟩ := Option.isSome_iff_exists.1 (h.func _ hlast)
  obtain ⟨hlt, -⟩ := Array.getElem?_eq_some_iff.1 htype
  have hsize := (Validation.sizes_of_context hc).1
  have hcount : m.funcTypes.length ≤ 1000000 := hd.lengths.2
  simp only [UInt32.reduceToNat, hsize] at hlt
  omega

theorem movable_of_validate {features : Validation.Features} {binary : Bytes} {m : Module}
    (hm : Validation.validate? features binary = some m) {body : Body} (hb : body ∈ m.bodies) :
    ∀ op ∈ body.code, Movable op := by
  obtain ⟨hdecode, hok⟩ := Validation.validate_eq_some hm
  obtain ⟨c, hc, hd, hbodies⟩ := Validation.context_of_moduleOk hok
  obtain ⟨type, hbody⟩ := Validation.bodyOk_of_mem hc hbodies (length_bodies hdecode) hb
  exact fun op hop => movable_of_declares hc (Validation.declarations_of_ok hd)
    (Validation.bodyOk_declares hbody op hop)

/-- Charges are exact along every control path through a body. -/
structure ChargedExactly (plan : Plan) (code : List Operator) : Prop where
  /-- Every path can be taken through the metered body. -/
  counterpart : ∀ ops q, Path (.start code) ops q → ∃ ops', Counterpart plan code ops q ops'
  /-- Every path through the metered body is such a path, up to the charge that it is in. -/
  belongs : ∀ ops' q', Path (.start (meterCode plan code)) ops' q' →
    ∃ ops q more, Path (.start code) ops q ∧ more.length ≤ 2 ∧
      Counterpart plan code ops q (ops' ++ more)
  /-- What has been charged but not been used is the cost of the rest of the segment. -/
  exact_ : ∀ ops q ops', Path (.start code) ops q → Counterpart plan code ops q ops' →
    chargesIn plan.hook ops' = totalCost plan.rules ops + dueAt plan.rules q
  /-- No operator is reached that has not been paid for. -/
  prepaid : ∀ ops labels op rest ops', Path (.start code) ops (some ⟨labels, op :: rest⟩) →
    Counterpart plan code ops (some ⟨labels, op :: rest⟩) ops' →
    totalCost plan.rules (ops ++ [op]) ≤ chargesIn plan.hook ops'
  /-- Nothing is charged for that has not run when the body is left. -/
  balanced : ∀ ops ops', Path (.start code) ops none → Counterpart plan code ops none ops' →
    chargesIn plan.hook ops' = totalCost plan.rules ops
  /-- Where every operator costs something, so does every way back to a point, by the number of
  operators on it at least. -/
  loops : (∀ op, 1 ≤ plan.rules op) → ∀ ops p more, Path (.start code) ops (some p) →
    Path p more (some p) → ∀ ops' ops'', Counterpart plan code ops (some p) ops' →
      Counterpart plan code (ops ++ more) (some p) ops'' →
      chargesIn plan.hook ops' + more.length ≤ chargesIn plan.hook ops''

theorem length_le_totalCost {rules : Rules} (h : ∀ op, 1 ≤ rules op) (ops : List Operator) :
    ops.length ≤ totalCost rules ops := by
  induction ops with
  | nil => simp
  | cons op ops ih =>
    have hop := UInt32.le_iff_toNat_le.1 (h op)
    rw [totalCost_cons, List.length_cons]
    simp only [UInt32.reduceToNat] at hop
    omega

section
variable {plan : Plan} {code : List Operator} (hfit : Fits plan.rules code)
  (hmov : ∀ op ∈ code, Movable op)
include hfit hmov

theorem belongs_to_counterpart {ops' : List Operator} {q' : Option Point}
    (h : Path (.start (meterCode plan code)) ops' q') :
    ∃ ops q more, Path (.start code) ops q ∧ more.length ≤ 2 ∧
      Counterpart plan code ops q (ops' ++ more) := by
  obtain ⟨ops, q, hp, hs⟩ := unmetered hfit hmov h
  have hin := (hp.inside (Point.inside_start code)).1
  cases hs with
  | behind own _ => exact ⟨ops, q, [], hp, by simp, by simpa using h, by simpa using own⟩
  | @front _ x hq hdue own _ =>
    have hx := hfit.suffix (hin x hq).1
    rw [freshPoint_of_due hx hdue] at h
    have hpaid := (h.step (q := some ⟨_, _⟩) (List.mem_singleton_self _)).step
      (q := some ⟨_, _⟩) (List.mem_singleton_self _)
    rw [List.append_assoc] at hpaid
    subst hq
    exact ⟨ops, some x, _, hp, by simp, hpaid, (measures_charge plan hx ops').1.trans own⟩
  | @between ops' x hq hdue own _ =>
    have hx := hfit.suffix (hin x hq).1
    have hpaid := h.step (q := some ⟨_, _⟩) (List.mem_singleton_self _)
    subst hq
    refine ⟨ops, some x, _, hp, by simp, hpaid, ?_⟩
    rw [List.append_assoc]
    exact (measures_charge plan hx ops').1.trans own

theorem chargedExactly_of_fits : ChargedExactly plan code where
  counterpart _ _ h := exists_counterpart hfit hmov h
  belongs _ _ h := belongs_to_counterpart hfit hmov h
  exact_ _ _ _ h hc := hc.charges hfit hmov h
  prepaid ops labels op rest ops' h hc := by
    rw [hc.charges hfit hmov h, totalCost_append, dueAt, Option.elim_some, due_cons,
      totalCost_cons, totalCost_nil]
    omega
  balanced ops ops' h hc := by
    rw [hc.charges hfit hmov h]
    rfl
  loops hrules ops p more h hm ops' ops'' hc hc' := by
    have hlength := length_le_totalCost hrules more
    rw [hc.charges hfit hmov h, hc'.charges hfit hmov (h.trans hm), totalCost_append]
    omega

end

/-- The bodies of a module that can be instrumented are charged for exactly, if no segment costs
more than a charge can say. -/
theorem charges_exact_along_paths {binary : Bytes} {m : Module}
    (hm : Validation.validate? .sandbox binary = some m) {body : Body} (hb : body ∈ m.bodies)
    (plan : Plan) (hfit : Fits plan.rules body.code) : ChargedExactly plan body.code :=
  chargedExactly_of_fits hfit (movable_of_validate hm hb)

/-- A module whose only function is an endless loop. -/
def endlessLoop : Module :=
  ⟨[.types [.plain ⟨[], []⟩], .functions [0],
    .code [⟨[], [.loop .empty, .br 0, .endMark, .endMark]⟩]]⟩

theorem charges_exact_along_endless_loop :
    Validation.validate? .sandbox endlessLoop.encode = some endlessLoop ∧
      ∃ body ∈ endlessLoop.bodies, Fits (Rules.constant 1) body.code ∧
        ChargedExactly ⟨.constant 1, 1, 0, none⟩ body.code := by
  have hm : Validation.validate? .sandbox endlessLoop.encode = some endlessLoop := by
    decide +kernel
  have hfit : Fits (Rules.constant 1) [.loop .empty, .br 0, .endMark, .endMark] := by
    unfold Fits
    decide
  exact ⟨hm, _, List.mem_singleton_self _, hfit,
    charges_exact_along_paths hm (List.mem_singleton_self _) ⟨.constant 1, 1, 0, none⟩ hfit⟩

end MeteredWasm.Metering
