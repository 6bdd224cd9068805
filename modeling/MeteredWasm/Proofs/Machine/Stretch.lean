import Mathlib.Data.List.Nodup
import MeteredWasm.Proofs.Machine.Hook
import MeteredWasm.Proofs.Metering.Runway

/-!
# Stretches between charges

What a machine runs between two calls of the hook has been paid for before. It is ahead of the
activations that are on the stack: each has the operators in front of its next charge to run, and
whoever is called has a charge in front of everything (`Thread.ahead`). A step takes the operator
that it runs off what is ahead, and adds nothing unless it leads to the hook (`ahead_step`); so what
a whole stretch runs was ahead at its beginning (`ahead_trail`).

An operator is known by its place in the text of its function (`Spot`). A text is the code of a
function before metering; `text` gives it by the index that the function had then. Functions that
have none are left out.
-/

set_option autoImplicit false

namespace MeteredWasm.Machine

open Wasm Metering Simulation

/-- An operator that an activation runs. -/
structure Spot where
  /-- How many frames are below the activation. -/
  height : Nat
  func : UInt32
  /-- How many operators stand before it in the text. -/
  position : Nat
  deriving Repr, DecidableEq

/-! ## What is ahead -/

/-- The activations among frames, each with how many frames are below it. -/
def standing : List Frame → List (Nat × Activation)
  | [] => []
  | .activation a :: frames => (frames.length, a) :: standing frames
  | .hook _ :: frames => standing frames

/-- The activations of a thread, each with how many frames are below it. -/
def Thread.stack (t : Thread) : List (Nat × Activation) :=
  match t.control with
  | .run a => (t.frames.length, a) :: standing t.frames
  | .invoke _ _ | .give _ => standing t.frames

section
variable (hook : UInt32) (text : UInt32 → Option (List Operator))

/-- The operator that an activation runs when it has run `k` more. -/
def spotAt (height : Nat) (a : Activation) (ops : List Operator) (k : Nat) : Spot :=
  ⟨height, unshift hook a.func, ops.length - (ownOps hook a.code).length + k⟩

/-- What an activation runs before it comes to a charge. -/
def spotsAhead (height : Nat) (a : Activation) : List Spot :=
  match text (unshift hook a.func) with
  | none => []
  | some ops => (List.range (runway hook a.code)).map (spotAt hook height a ops)

/-- What activations run before they come to charges. -/
def stackAhead (stack : List (Nat × Activation)) : List Spot :=
  stack.flatMap fun a => spotsAhead hook text a.1 a.2

/-- What all activations of a thread run before they come to charges. -/
def Thread.ahead (t : Thread) : List Spot := stackAhead hook text t.stack

/-- The operator that a thread runs next, if it has its place in a text. -/
def Thread.spot? (t : Thread) : Option Spot :=
  match t.control with
  | .run a =>
    match text (unshift hook a.func), ownOp? hook t with
    | some ops, some _ => some (spotAt hook t.frames.length a ops 0)
    | _, _ => none
  | .invoke _ _ | .give _ => none

/-- The operators of the texts that are run on the way through states. -/
def spots (visited : List State) : List Spot := visited.filterMap fun s => s.thread.spot? hook text

end

/-! ## Texts and activations -/

/-- Code that has been made of a text. -/
structure Meters (hook : UInt32) (ops body : List Operator) : Prop where
  segmented : Segmented hook body
  front : runway hook body = 0
  own : (ownOps hook body).map (Operator.mapFunc (unshift hook)) = ops

/-- The functions of the instance that have a text run it with charges. -/
structure Texts (hook : UInt32) (text : UInt32 → Option (List Operator)) (i : Instance) : Prop where
  enters : i.function? hook = some .hook
  code : ∀ func type locals body ops, i.function? func = some (.code type locals body) →
    text (unshift hook func) = some ops → Meters hook ops body

/-- An activation whose function has a text is at a place in the code that has been made of it. -/
def InText (hook : UInt32) (text : UInt32 → Option (List Operator)) (a : Activation) : Prop :=
  ∀ ops, text (unshift hook a.func) = some ops →
    ∃ body, Meters hook ops body ∧ LoopsCharged hook body a.point

/-- All activations of a thread are. -/
def Thread.InText (hook : UInt32) (text : UInt32 → Option (List Operator)) (t : Thread) : Prop :=
  ∀ a ∈ t.stack, Machine.InText hook text a.2

section
variable {hook : UInt32} {text : UInt32 → Option (List Operator)} {height : Nat} {a b : Activation}
  {ops code : List Operator} {op : Operator}

theorem stackAhead_cons (stack : List (Nat × Activation)) :
    stackAhead hook text ((height, a) :: stack) =
      spotsAhead hook text height a ++ stackAhead hook text stack := rfl

theorem spotsAhead_congr (hfunc : b.func = a.func) (hcode : b.code = a.code) :
    spotsAhead hook text height b = spotsAhead hook text height a := by
  have hspot (ops : List Operator) : spotAt hook height b ops = spotAt hook height a ops := by
    funext k
    simp only [spotAt, hfunc, hcode]
  simp only [spotsAhead, hspot, hfunc, hcode]

theorem spotsAhead_of_runway (h : runway hook a.code = 0) :
    spotsAhead hook text height a = [] := by
  unfold spotsAhead
  split
  · rfl
  · rw [h]
    rfl

/-- Running an operator takes it off what is ahead. -/
theorem spotsAhead_cons (htext : text (unshift hook a.func) = some ops)
    (hcode : a.code = op :: code) (hop : inCharge hook op code.head? = false)
    (hlength : (ownOps hook a.code).length ≤ ops.length) :
    spotsAhead hook text height a = spotAt hook height a ops 0 ::
      spotsAhead hook text height { a with code } := by
  have hown : (ownOps hook a.code).length = (ownOps hook code).length + 1 := by
    rw [hcode, ownOps, if_neg (by simp [hop]), List.length_cons]
  have hrunway : runway hook a.code = runway hook code + 1 := by
    rw [hcode, runway, if_neg (by simp [hop])]
  simp only [spotsAhead, htext, hrunway, List.range_succ_eq_map, List.map_cons, List.map_map]
  congr 1
  refine List.map_congr_left fun k _ => ?_
  simp only [Function.comp_apply, spotAt, Spot.mk.injEq, true_and]
  omega

/-- What is left to run is the end of the text. -/
theorem InText.own (h : InText hook text a) (htext : text (unshift hook a.func) = some ops) :
    (ownOps hook a.code).map (Operator.mapFunc (unshift hook)) <:+ ops := by
  obtain ⟨body, hmeters, hcharged⟩ := h ops htext
  rw [← hmeters.own]
  exact (ownOps_suffix hcharged.inside.1).map _

theorem InText.length_le (h : InText hook text a) (htext : text (unshift hook a.func) = some ops) :
    (ownOps hook a.code).length ≤ ops.length := by
  have hlength := (h.own htext).length_le
  rwa [List.length_map] at hlength

/-- An activation that goes on elsewhere in its body. -/
theorem InText.moved (h : InText hook text a) (hfunc : b.func = a.func)
    (hmoved : ∀ body, Segmented hook body → LoopsCharged hook body a.point →
      LoopsCharged hook body b.point) : InText hook text b := by
  intro ops hops
  rw [hfunc] at hops
  obtain ⟨body, hmeters, hcharged⟩ := h ops hops
  exact ⟨body, hmeters, hmoved body hmeters.segmented hcharged⟩

theorem InText.rest (h : InText hook text a) (hcode : a.code = op :: code) :
    InText hook text { a with code } :=
  h.moved rfl fun body _ hcharged => by
    have hrest : op :: code <:+ body := hcode ▸ hcharged.inside.1
    exact ⟨⟨(List.suffix_cons op code).trans hrest, hcharged.inside.2⟩, hcharged.again⟩

end

/-! ## Staying in the text -/

section
variable {hook : UInt32} {text : UInt32 → Option (List Operator)} {i : Instance} {s s' : State}

theorem inCharge_cases {op : Operator} {code : List Operator}
    (h : inCharge hook op code.head? = true) :
    op = .call hook ∨ ∃ cost rest, op = .i32Const cost ∧ code = .call hook :: rest := by
  cases op <;> simp only [inCharge, Bool.false_eq_true, decide_eq_true_eq] at h
  case i32Const cost =>
    obtain ⟨rest, hcode⟩ := List.head?_eq_some_iff.1 h
    exact .inr ⟨cost, rest, rfl, hcode⟩
  case call func => exact .inl (h ▸ rfl)

theorem standing_eq_stack (t : Thread) (h : ∀ a, t.control ≠ .run a) :
    t.stack = standing t.frames := by
  unfold Thread.stack
  split
  · exact absurd ‹_› (h _)
  · rfl
  · rfl

/-- An activation that control flow takes elsewhere stands in front of a charge. -/
theorem InText.jumped {a b : Activation} {op : Operator} {code : List Operator}
    (h : Machine.InText hook text a) (hcode : a.code = op :: code) (hends : endsSegment op = true)
    (hfunc : b.func = a.func)
    (hsuccessor : some b.point ∈ ({ a with code } : Activation).point.successors op) :
    Machine.InText hook text b ∧ ∀ height, spotsAhead hook text height b = [] := by
  have harrives (body : List Operator) (hbody : Segmented hook body)
      (hcharged : LoopsCharged hook body a.point) :
      LoopsCharged hook body b.point ∧ runway hook b.code = 0 := by
    have hin : op :: code <:+ body := hcode ▸ hcharged.inside.1
    have hrest : LoopsCharged hook body ({ a with code } : Activation).point :=
      ⟨⟨(List.suffix_cons op code).trans hin, hcharged.inside.2⟩, hcharged.again⟩
    exact successors_charged hbody hrest hin hends hsuccessor
  refine ⟨h.moved hfunc fun body hbody hcharged => (harrives body hbody hcharged).1,
    fun height => ?_⟩
  cases htext : text (unshift hook a.func) with
  | none => rw [spotsAhead, hfunc, htext]
  | some ops =>
    obtain ⟨body, hmeters, hcharged⟩ := h ops htext
    exact spotsAhead_of_runway (harrives body hmeters.segmented hcharged).2

/-- Behind an operator that ends a segment there is nothing in front of the next charge. -/
theorem InText.rest_charged {a : Activation} {op : Operator} {code : List Operator} {height : Nat}
    (h : Machine.InText hook text a) (hcode : a.code = op :: code)
    (hends : endsSegment op = true) : spotsAhead hook text height { a with code } = [] := by
  cases htext : text (unshift hook a.func) with
  | none => simp only [spotsAhead, htext]
  | some ops =>
    obtain ⟨body, hmeters, hcharged⟩ := h ops htext
    have hin : op :: code <:+ body := hcode ▸ hcharged.inside.1
    exact spotsAhead_of_runway ((hmeters.segmented.suffix hin).1 hends)

/-- A function that is entered stands in front of a charge. -/
theorem Texts.entered {func : UInt32} {type : FuncType} {locals : List ValType}
    {body : List Operator} (htexts : Texts hook text i)
    (hf : i.function? func = some (.code type locals body)) (args : List Value) :
    Machine.InText hook text (.start func type locals body args) ∧
      ∀ height, spotsAhead hook text height (.start func type locals body args) = [] := by
  refine ⟨fun ops hops => ⟨body, htexts.code _ _ _ _ _ hf hops, LoopsCharged.start hook body⟩,
    fun height => ?_⟩
  cases htext : text (unshift hook func) with
  | none => simp only [spotsAhead, Activation.start, htext]
  | some ops => exact spotsAhead_of_runway (htexts.code _ _ _ _ _ hf htext).front

/-- What the hook does leaves the activations alone. -/
theorem stack_of_hookStep {sb : Sandbox} {t : Thread} {cost : Int}
    (h : HookStep i sb t cost (.next s')) : s'.thread.stack = standing t.frames := by
  cases h <;> rfl

/-- Every activation stays in its text. -/
theorem Thread.InText.next (htexts : Texts hook text i) (hin : s.thread.InText hook text)
    (h : step i s = .next s') : s'.thread.InText hook text := by
  by_cases henter : EntersHook i s.thread
  · obtain ⟨func, args, hcontrol, -⟩ := id henter
    rcases step_of_enters henter with ⟨_, cost, -, -, hhook⟩ | hfailed
    · rw [h] at hhook
      rw [Thread.InText, stack_of_hookStep hhook,
        ← standing_eq_stack _ (by rw [hcontrol]; nofun)]
      exact hin
    · rw [h] at hfailed
      cases hfailed
  have hstep := threadStep henter h
  generalize s.thread = t at hin hstep
  generalize s'.thread = t' at hstep
  cases hstep with
  | @runs a op code frames depth _ next ran =>
    obtain ⟨ha, hframes⟩ := List.forall_mem_cons.1 hin
    cases ran with
    | leaves ends stay left =>
      rw [Thread.InText, standing_eq_stack _ left, stay]
      exact hframes
    | jumps ends stay control func successor =>
      rw [Thread.InText, Thread.stack, control, stay]
      exact List.forall_mem_cons.2 ⟨(ha.jumped next ends func successor).1, hframes⟩
    | calls | computes =>
      exact List.forall_mem_cons.2 ⟨(ha.rest next).moved rfl fun _ _ h => h, hframes⟩
  | runsOut => exact (List.forall_mem_cons.1 hin).2
  | answers | leavesHook => exact hin
  | enters code => exact List.forall_mem_cons.2 ⟨(htexts.entered code _).1, hin⟩
  | comesBack =>
    obtain ⟨ha, hframes⟩ := List.forall_mem_cons.1 hin
    exact List.forall_mem_cons.2 ⟨ha.moved rfl fun _ _ h => h, hframes⟩

/-! ## What a step does to what is ahead -/

theorem spotsAhead_run {a : Activation} {op : Operator} {code : List Operator} {frames : List Frame}
    {depth : Nat} (ha : Machine.InText hook text a) (hcode : a.code = op :: code)
    (hown : inCharge hook op code.head? = false) :
    spotsAhead hook text frames.length a =
      ((⟨.run a, frames, depth⟩ : Thread).spot? hook text).toList ++
        spotsAhead hook text frames.length { a with code } := by
  cases htext : text (unshift hook a.func) with
  | none => simp [spotsAhead, Thread.spot?, htext]
  | some ops =>
    rw [spotsAhead_cons htext hcode hown (ha.length_le htext)]
    simp [Thread.spot?, ownOp?, htext, hcode, hown]

theorem spot_of_inCharge {a : Activation} {op : Operator} {code : List Operator}
    {frames : List Frame} {depth : Nat} (hcode : a.code = op :: code)
    (hcharge : inCharge hook op code.head? = true) :
    (⟨.run a, frames, depth⟩ : Thread).spot? hook text = none := by
  unfold Thread.spot?
  cases htext : text (unshift hook a.func) <;> simp [ownOp?, hcode, hcharge]

/-- Passing a charge changes nothing until the hook is reached: neither here nor behind the constant
is there an operator in front of the charge. -/
theorem ahead_charge {a : Activation} {op : Operator} {code : List Operator} {frames : List Frame}
    {depth : Nat} {t' : Thread} (htexts : Texts hook text i) (hcode : a.code = op :: code)
    (hcharge : inCharge hook op code.head? = true)
    (h : CodeStep ⟨.run a, frames, depth⟩ a op code t') (henter : ¬EntersHook i t') :
    (⟨.run a, frames, depth⟩ : Thread).ahead hook text = t'.ahead hook text := by
  rcases inCharge_cases hcharge with rfl | ⟨cost, rest, rfl, rfl⟩
  · cases h with
    | leaves ends | jumps ends => cases ends
    | calls direct => exact absurd ⟨_, _, rfl, direct hook rfl ▸ htexts.enters⟩ henter
    | computes other => exact absurd rfl (other hook)
  · have hhere : spotsAhead hook text frames.length a = [] :=
      spotsAhead_of_runway (by simp [hcode, runway, inCharge])
    have hbehind (b : Activation) (hb : b.code = .call hook :: rest) :
        spotsAhead hook text frames.length b = [] :=
      spotsAhead_of_runway (by simp [hb, runway, inCharge])
    cases h with
    | leaves ends | jumps ends => cases ends
    | calls | computes =>
      exact congrArg (· ++ stackAhead hook text (standing frames)) (hhere.trans (hbehind _ rfl).symm)

/-- Behind an operator that is run, what was ahead of its activation still is, or nothing was and
control is elsewhere. -/
theorem ahead_own {a : Activation} {op : Operator} {code : List Operator} {frames : List Frame}
    {depth : Nat} {t' : Thread} (ha : Machine.InText hook text a) (hcode : a.code = op :: code)
    (h : CodeStep ⟨.run a, frames, depth⟩ a op code t') :
    spotsAhead hook text frames.length { a with code } ++ stackAhead hook text (standing frames) =
      t'.ahead hook text := by
  cases h with
  | leaves ends stay left =>
    rw [ha.rest_charged hcode ends, Thread.ahead, standing_eq_stack _ left, stay, List.nil_append]
  | jumps ends stay control func successor =>
    rw [ha.rest_charged hcode ends, Thread.ahead, Thread.stack, control, stay, stackAhead_cons,
      (ha.jumped hcode ends func successor).2]
  | calls | computes =>
    exact congrArg (· ++ stackAhead hook text (standing frames)) (spotsAhead_congr rfl rfl)

/-- A step takes the operator that it runs off what is ahead, and adds nothing, unless it leads to
the hook. -/
theorem ahead_step (htexts : Texts hook text i) (hin : s.thread.InText hook text)
    (henter : ¬EntersHook i s.thread) (h : step i s = .next s') :
    ∃ more, s.thread.ahead hook text = (s.thread.spot? hook text).toList ++ more ∧
      (¬EntersHook i s'.thread → more = s'.thread.ahead hook text) := by
  have hstep := threadStep henter h
  generalize s.thread = t at hin hstep ⊢
  generalize s'.thread = t' at hstep ⊢
  cases hstep with
  | @runs a op code frames depth _ next ran =>
    obtain ⟨ha, -⟩ := List.forall_mem_cons.1 hin
    cases hcharge : inCharge hook op code.head? with
    | true =>
      rw [spot_of_inCharge next hcharge]
      exact ⟨_, rfl, ahead_charge htexts next hcharge ran⟩
    | false =>
      refine ⟨_, ?_, fun _ => ahead_own ha next ran⟩
      rw [Thread.ahead, Thread.stack, stackAhead_cons, spotsAhead_run ha next hcharge,
        List.append_assoc]
  | @runsOut a results frames depth empty =>
    have hnone : spotsAhead hook text frames.length a = [] :=
      spotsAhead_of_runway (by rw [empty]; rfl)
    have hspot : (⟨.run a, frames, depth⟩ : Thread).spot? hook text = none := by
      unfold Thread.spot?
      cases htext : text (unshift hook a.func) <;> simp [ownOp?, empty]
    refine ⟨stackAhead hook text (standing frames), ?_, fun _ => rfl⟩
    rw [hspot, Thread.ahead, Thread.stack, stackAhead_cons, hnone]
    rfl
  | answers | leavesHook | comesBack => exact ⟨_, rfl, fun _ => rfl⟩
  | @enters func args type locals body frames depth code =>
    refine ⟨_, rfl, fun _ => ?_⟩
    have hfront := (htexts.entered code args).2 frames.length
    exact congrArg (· ++ stackAhead hook text (standing frames)) hfront.symm

/-- Without a call of the hook, what is run is what was ahead; and that is still ahead which has not
been run. -/
theorem ahead_trail {visited : List State} (htexts : Texts hook text i)
    (hin : s.thread.InText hook text) (h : Trail i s visited s')
    (hfree : ∀ v ∈ visited, ¬EntersHook i v.thread) :
    s'.thread.InText hook text ∧ ∃ more,
      s.thread.ahead hook text = spots hook text visited ++ more ∧
        (¬EntersHook i s'.thread → more = s'.thread.ahead hook text) := by
  induction h with
  | here => exact ⟨hin, _, rfl, fun _ => rfl⟩
  | @step visited s₁ s₂ _ hstep ih =>
    have hlast : ¬EntersHook i s₁.thread :=
      hfree s₁ (List.mem_append_right _ (List.mem_singleton_self _))
    obtain ⟨hin₁, rest, hahead, hrest⟩ := ih fun v hv => hfree v (List.mem_append_left _ hv)
    obtain ⟨more, hnext, hmore⟩ := ahead_step htexts hin₁ hlast hstep
    refine ⟨hin₁.next htexts hstep, more, ?_, hmore⟩
    rw [hahead, hrest hlast, hnext, ← List.append_assoc]
    congr 1
    cases hspot : s₁.thread.spot? hook text <;> simp [spots, hspot]

end

/-! ## What can be ahead -/

/-- Where in the texts the operator stands. -/
def Spot.occurrence (spot : Spot) : UInt32 × Nat := (spot.func, spot.position)

section
variable {hook : UInt32} {text : UInt32 → Option (List Operator)} {t : Thread} {height : Nat}
  {a : Activation} {spot : Spot}

/-- The operator that is run is the one that stands there. -/
theorem ownOp_of_spot (hin : t.InText hook text) (h : t.spot? hook text = some spot) :
    ∃ ops, text spot.func = some ops ∧ ops[spot.position]? = ownOp? hook t := by
  obtain ⟨control, frames, depth⟩ := t
  cases control with
  | invoke func args | give results => cases h
  | run a =>
    obtain ⟨ha, -⟩ := List.forall_mem_cons.1 hin
    unfold Thread.spot? at h
    cases htext : text (unshift hook a.func) with
    | none => simp [htext] at h
    | some ops =>
      cases hcode : a.code with
      | nil => simp [htext, ownOp?, hcode] at h
      | cons op code =>
        cases hcharge : inCharge hook op code.head? with
        | true => simp [htext, ownOp?, hcode, hcharge] at h
        | false =>
          simp only [htext, ownOp?, hcode, hcharge, Bool.false_eq_true, if_false,
            Option.some.injEq] at h
          subst h
          have hdrop := List.suffix_iff_eq_drop.1 (ha.own htext)
          rw [List.length_map] at hdrop
          refine ⟨ops, htext, ?_⟩
          change ops[ops.length - (ownOps hook a.code).length]? = _
          rw [← List.head?_drop, ← hdrop]
          simp [ownOp?, ownOps, hcode, hcharge]

theorem of_mem_spotsAhead (ha : Machine.InText hook text a)
    (h : spot ∈ spotsAhead hook text height a) :
    spot.height = height ∧ spot.func = unshift hook a.func ∧
      ∃ ops, text spot.func = some ops ∧ spot.position < ops.length := by
  unfold spotsAhead at h
  cases htext : text (unshift hook a.func) with
  | none => simp [htext] at h
  | some ops =>
    simp only [htext, List.mem_map, List.mem_range] at h
    obtain ⟨k, hk, rfl⟩ := h
    refine ⟨rfl, rfl, ops, htext, ?_⟩
    have hrunway := runway_le_ownOps hook a.code
    have hlength := ha.length_le htext
    change ops.length - (ownOps hook a.code).length + k < ops.length
    omega

/-- What is ahead belongs to an activation on the stack, and stands in its text. -/
theorem of_mem_ahead (hin : t.InText hook text) (h : spot ∈ t.ahead hook text) :
    (∃ a, (spot.height, a) ∈ t.stack ∧ spot.func = unshift hook a.func) ∧
      ∃ ops, text spot.func = some ops ∧ spot.position < ops.length := by
  obtain ⟨⟨height, a⟩, ha, hspot⟩ := List.mem_flatMap.1 h
  obtain ⟨rfl, hfunc, htext⟩ := of_mem_spotsAhead (hin _ ha) hspot
  exact ⟨⟨a, ha, hfunc⟩, htext⟩

theorem nodup_spotsAhead : ((spotsAhead hook text height a).map Spot.occurrence).Nodup := by
  unfold spotsAhead
  split
  · exact List.nodup_nil
  · rw [List.map_map]
    refine List.nodup_range.map (fun k l hkl => ?_)
    simp only [Function.comp_apply, Spot.occurrence, spotAt, Prod.mk.injEq, true_and] at hkl
    omega

theorem height_lt_of_standing {frames : List Frame} (h : (height, a) ∈ standing frames) :
    height < frames.length := by
  induction frames with
  | nil => cases h
  | cons frame frames ih =>
    rw [List.length_cons]
    cases frame with
    | hook stage => exact Nat.lt_succ_of_lt (ih h)
    | activation b =>
      rcases List.mem_cons.1 h with heq | h
      · cases heq
        exact Nat.lt_succ_self _
      · exact Nat.lt_succ_of_lt (ih h)

theorem pairwise_standing (frames : List Frame) :
    (standing frames).Pairwise fun a b => b.1 < a.1 := by
  induction frames with
  | nil => exact .nil
  | cons frame frames ih =>
    cases frame with
    | hook stage => exact ih
    | activation a => exact .cons (fun b hb => height_lt_of_standing hb) ih

/-- No two activations are at the same height. -/
theorem pairwise_stack (t : Thread) : t.stack.Pairwise fun a b => b.1 < a.1 := by
  unfold Thread.stack
  split
  · exact .cons (fun b hb => height_lt_of_standing hb) (pairwise_standing _)
  · exact pairwise_standing _
  · exact pairwise_standing _

/-- No operator is ahead of one activation twice. -/
theorem nodup_ahead (hin : t.InText hook text) : (t.ahead hook text).Nodup := by
  refine List.nodup_flatMap.2 ⟨fun a _ => nodup_spotsAhead.of_map _, ?_⟩
  refine (pairwise_stack t).imp_of_mem fun ha hb hlt spot hspot hspot' => ?_
  have hheight := (of_mem_spotsAhead (hin _ ha) hspot).1
  have hheight' := (of_mem_spotsAhead (hin _ hb) hspot').1
  omega

/-- Where no function has two activations, no operator is ahead twice. -/
theorem nodup_occurrences (hin : t.InText hook text)
    (honce : (t.stack.map fun a => unshift hook a.2.func).Nodup) :
    ((t.ahead hook text).map Spot.occurrence).Nodup := by
  rw [Thread.ahead, stackAhead, List.map_flatMap]
  refine List.nodup_flatMap.2 ⟨fun a _ => nodup_spotsAhead, ?_⟩
  refine (List.pairwise_map.1 honce).imp_of_mem fun ha hb hne occurrence hoccurs hoccurs' => hne ?_
  obtain ⟨spot, hspot, rfl⟩ := List.mem_map.1 hoccurs
  obtain ⟨spot', hspot', heq⟩ := List.mem_map.1 hoccurs'
  obtain ⟨-, hfunc, -⟩ := of_mem_spotsAhead (hin _ ha) hspot
  obtain ⟨-, hfunc', -⟩ := of_mem_spotsAhead (hin _ hb) hspot'
  exact hfunc.symm.trans ((congrArg Prod.fst heq).symm.trans hfunc')

theorem length_stackAhead_le {n : Nat} {stack : List (Nat × Activation)}
    (hin : ∀ a ∈ stack, Machine.InText hook text a.2)
    (hn : ∀ func ops, text func = some ops → ops.length ≤ n) :
    (stackAhead hook text stack).length ≤ stack.length * n := by
  induction stack with
  | nil => exact Nat.zero_le _
  | cons a stack ih =>
    obtain ⟨ha, hin⟩ := List.forall_mem_cons.1 hin
    have hrest := ih hin
    have hfirst : (spotsAhead hook text a.1 a.2).length ≤ n := by
      unfold spotsAhead
      cases htext : text (unshift hook a.2.func) with
      | none => exact Nat.zero_le _
      | some ops =>
        have hlength := ha.length_le htext
        have hrunway := runway_le_ownOps hook a.2.code
        have hops := hn _ _ htext
        simp only [List.length_map, List.length_range]
        omega
    rw [stackAhead_cons, List.length_append, List.length_cons, Nat.add_one_mul]
    omega

/-- Each activation has at most its text ahead. -/
theorem length_ahead_le {n : Nat} (hin : t.InText hook text)
    (hn : ∀ func ops, text func = some ops → ops.length ≤ n) :
    (t.ahead hook text).length ≤ t.stack.length * n := length_stackAhead_le hin hn

end

end MeteredWasm.Machine
