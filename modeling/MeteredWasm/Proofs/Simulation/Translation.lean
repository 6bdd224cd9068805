import MeteredWasm.Machine.Run
import MeteredWasm.Metering.Segment
import MeteredWasm.Proofs.Agreement.Compute
import MeteredWasm.Proofs.Basic
import MeteredWasm.Proofs.Simulation.Opaque
import MeteredWasm.Proofs.Validation.Declared

/-!
# Translations of states

A translation renames functions and rewrites code. What it makes of code depends on whether the
position starts a segment (`fresh`) or lies behind what was put in front of its segment (`paid`).
An operator is translated to itself, renamed; control that leaves it arrives at fresh code if it
ends its segment, and runs on in paid code if it does not.

States are translated with all that is in them. One of another instance is related if its thread is
the translated one, its storage agrees and it has seen the same calls of host functions.
-/

set_option autoImplicit false

namespace MeteredWasm.Simulation

open Wasm Machine Metering

structure Translation where
  func : UInt32 → UInt32
  /-- Code at the start of a segment. -/
  fresh : List Operator → List Operator
  /-- Code inside of a segment. -/
  paid : List Operator → List Operator
  paid_nil : paid [] = []
  paid_cons : ∀ op ops, paid (op :: ops) =
    op.mapFunc func :: (if endsSegment op then fresh ops else paid ops)
  skipEnd_fresh : ∀ k ops, skipEnd k (fresh ops) = fresh (skipEnd k ops)
  skipElse_fresh : ∀ k ops,
    skipElse k (fresh ops) = ((skipElse k ops).1, fresh (skipElse k ops).2)

namespace Translation

variable (T : Translation)

/-! ## Threads -/

def value (v : Value) : Value := v.mapFunc T.func

def values (vs : List Value) : List Value := vs.map (Value.mapFunc T.func)

/-- Code where control arrives behind an operator that ends its segment, or does not. -/
def arrive (ends : Bool) (code : List Operator) : List Operator :=
  if ends then T.fresh code else T.paid code

def label (l : Label) : Label where
  arity := l.arity
  below := T.values l.below
  again := l.again.map T.fresh

def activation (atFresh : Bool) (a : Activation) : Activation where
  func := T.func a.func
  arity := a.arity
  locals := T.values a.locals
  operands := T.values a.operands
  labels := a.labels.map T.label
  code := T.arrive atFresh a.code

/-- A caller goes on in the segment that it has called from. -/
def frame : Machine.Frame → Machine.Frame
  | .activation a => .activation (T.activation false a)
  | .hook stage => .hook stage

def control (atFresh : Bool) : Control → Control
  | .run a => .run (T.activation atFresh a)
  | .invoke func args => .invoke (T.func func) (T.values args)
  | .give results => .give (T.values results)

def thread (atFresh : Bool) (t : Thread) : Thread where
  control := T.control atFresh t.control
  frames := t.frames.map T.frame
  depth := t.depth

/-! ## Sandboxes -/

def call (c : HostCall) : HostCall := c.mapFunc T.func

/-- The sandboxes agree in what outlives a call; what the hook changes is left open. -/
structure Sandboxes (hidden : Nat → Nat → Prop) (sb sb' : Sandbox) : Prop where
  storage : sb.storage.Agrees T.func hidden sb'.storage
  calls : sb'.calls = sb.calls.map T.call

variable {T} in
/-- Gas is not compared. -/
theorem Sandboxes.regas {hidden : Nat → Nat → Prop} {sb sb' : Sandbox} {gas : Int}
    (h : T.Sandboxes hidden sb sb') : T.Sandboxes hidden sb { sb' with gas } :=
  ⟨h.storage, h.calls⟩

/-! ## Instances -/

def function : Function → Function
  | .code type locals body => .code type locals (T.fresh body)
  | .host module name type behaviour => .host module name type behaviour
  | .hook => .hook

/-- The instance `i'` runs what `i` runs, translated, as far as it is about the first `n`
functions. -/
structure Instances (n : Nat) (i i' : Instance) : Prop where
  function : ∀ func : UInt32, func.toNat < n →
    i'.function? (T.func func) = (i.function? func).map T.function
  type : ∀ index : UInt32, (i.type? index).isSome → i'.type? index = i.type? index
  relaxed : i'.relaxed = i.relaxed
  depth : i'.maxDepth = i.maxDepth

@[simp] theorem type_function (f : Function) : (T.function f).type = f.type := by cases f <;> rfl

end Translation

/-! ## Steps -/

/-- Nothing has happened to what only the hook changes. -/
structure Unhooked (sb sb' : Sandbox) : Prop where
  gas : sb'.gas = sb.gas
  paused : sb'.paused = sb.paused
  signals : sb'.signals = sb.signals

theorem Unhooked.refl (sb : Sandbox) : Unhooked sb sb := ⟨rfl, rfl, rfl⟩

/-- Two machines have taken the same step. -/
inductive Lockstep (T : Translation) (hidden : Nat → Nat → Prop) (ends : Bool)
    (sb sb' : Sandbox) : Step → Step → Prop
  | next {sb₁ sb₁' : Sandbox} {t : Thread} (hs : T.Sandboxes hidden sb₁ sb₁')
      (hk : Unhooked sb sb₁) (hk' : Unhooked sb' sb₁') :
      Lockstep T hidden ends sb sb' (.next ⟨sb₁, t⟩) (.next ⟨sb₁', T.thread ends t⟩)
  | finished {sb₁ sb₁' : Sandbox} {results : List Value} (hs : T.Sandboxes hidden sb₁ sb₁')
      (hk : Unhooked sb sb₁) (hk' : Unhooked sb' sb₁') :
      Lockstep T hidden ends sb sb' (.finished results sb₁) (.finished (T.values results) sb₁')
  | failed {sb₁ sb₁' : Sandbox} {e : ExecutionError} (hs : T.Sandboxes hidden sb₁ sb₁')
      (hk : Unhooked sb sb₁) (hk' : Unhooked sb' sb₁') :
      Lockstep T hidden ends sb sb' (.failed e sb₁) (.failed e sb₁')

namespace Lockstep

variable {T : Translation} {hidden : Nat → Nat → Prop} {ends : Bool} {sb sb' : Sandbox}
  {result : Step}

theorem of_next {s : State} (h : Lockstep T hidden ends sb sb' (.next s) result) :
    ∃ sb₁', result = .next ⟨sb₁', T.thread ends s.thread⟩ ∧ T.Sandboxes hidden s.sandbox sb₁' ∧
      Unhooked sb s.sandbox ∧ Unhooked sb' sb₁' := by
  cases h with
  | next hs hk hk' => exact ⟨_, rfl, hs, hk, hk'⟩

theorem of_finished {results : List Value} {sb₁ : Sandbox}
    (h : Lockstep T hidden ends sb sb' (.finished results sb₁) result) :
    ∃ sb₁', result = .finished (T.values results) sb₁' ∧ T.Sandboxes hidden sb₁ sb₁' ∧
      Unhooked sb sb₁ ∧ Unhooked sb' sb₁' := by
  cases h with
  | finished hs hk hk' => exact ⟨_, rfl, hs, hk, hk'⟩

end Lockstep

section
variable (T : Translation)

/-! ## Control flow -/

theorem enter_translated (a : Activation) (params results : Nat) (isLoop : Bool)
    (vs : List Value) (code : List Operator) :
    (T.activation true a).enter params results isLoop (T.values vs) (T.fresh code) =
      T.activation true (a.enter params results isLoop vs code) := by
  cases isLoop <;>
    simp [Activation.enter, Translation.activation, Translation.label, Translation.values,
      Translation.arrive, List.map_drop]

theorem jump_translated (a : Activation) (k : Nat) (vs : List Value) :
    (T.activation true a).jump k (T.values vs) = T.control true (a.jump k vs) := by
  unfold Activation.jump Activation.branch
  simp only [Translation.activation, List.getElem?_map]
  cases hl : a.labels[k]? with
  | none => simp [Translation.control, Translation.values, List.map_take, List.map_reverse]
  | some label =>
    cases hg : label.again <;>
      simp [hg, Translation.control, Translation.activation, Translation.label,
        Translation.values, Translation.arrive, List.map_take, List.map_drop, T.skipEnd_fresh]

theorem callFrom_translated (a : Activation) (t : Thread) (func : UInt32) (type : FuncType)
    (vs : List Value) (ends : Bool) :
    callFrom (T.activation false a) (T.thread false t) (T.func func) type (T.values vs) =
      T.thread ends (callFrom a t func type vs) := by
  simp [callFrom, takeArgs, Translation.thread, Translation.control, Translation.frame,
    Translation.activation, Translation.values, List.map_take, List.map_drop]

theorem tailCall_translated (t : Thread) (func : UInt32) (type : FuncType) (vs : List Value)
    (ends : Bool) : tailCall (T.thread false t) (T.func func) type (T.values vs) =
      T.thread ends (tailCall t func type vs) := by
  simp [tailCall, takeArgs, Translation.thread, Translation.control, Translation.values,
    List.map_take]

variable {T} {n : Nat} {hidden : Nat → Nat → Prop} {i i' : Instance} {st st' : Storage}

theorem blockArity_translated (hi : T.Instances n i i') {type : BlockType}
    (h : ∀ index, type = .func index → (i.type? index).isSome) :
    i'.blockArity type = i.blockArity type := by
  cases type with
  | func index => simp only [Instance.blockArity, hi.type index (h index rfl)]
  | _ => rfl

/-- Tables only refer to the first `n` functions. -/
def TablesBelow (n : Nat) (st : Storage) : Prop :=
  ∀ t ∈ st.tables, ∀ func : UInt32, some func ∈ t.items → func.toNat < n

theorem indirect_translated (hi : T.Instances n i i') (hst : st.Agrees T.func hidden st')
    (htables : TablesBelow n st) {type : UInt32} (htype : (i.type? type).isSome) (table : UInt32)
    (v : Value) : indirect i' st' type table (v.mapFunc T.func) =
      (fun r => (T.func r.1, r.2)) <$> indirect i st type table v := by
  unfold indirect
  simp only [Value.index_mapFunc, map_bind]
  cases hc : v.index with
  | error e => rfl
  | ok position =>
    simp only [except_ok_bind, hst.tables, List.getElem?_map]
    cases ht : st.tables[table.toNat]? with
    | none => rfl
    | some items =>
      simp only [Option.map_some, RefTable.mapFunc, Array.getElem?_map]
      cases hitem : items.items[position]? with
      | none => rfl
      | some item =>
        cases item with
        | none => rfl
        | some func =>
          have hfunc : func.toNat < n :=
            htables items (List.mem_of_getElem? ht) func (Array.mem_of_getElem? hitem)
          simp only [Option.map_some, hi.function func hfunc, hi.type type htype]
          cases hf : i.function? func with
          | none => rfl
          | some f =>
            cases i.type? type with
            | none => rfl
            | some type =>
              simp only [Option.map_some, Translation.type_function]
              split <;> rfl

theorem takeVectors_translated (T : Translation) (n : Nat) (vs : List Value) :
    takeVectors n (T.values vs) = (fun r => (r.1, T.values r.2)) <$> takeVectors n vs := by
  induction n generalizing vs with
  | zero => rfl
  | succ n ih =>
    cases vs with
    | nil => rfl
    | cons v vs =>
      simp only [Translation.values, List.map_cons, takeVectors, Value.vector_mapFunc, map_bind]
      refine congrArg _ (funext fun u => ?_)
      rw [show vs.map (Value.mapFunc T.func) = T.values vs from rfl, ih, bind_map_left]
      rfl

theorem relaxed_translated (hi : T.Instances n i i') (code arity : Nat) (vs : List Value) :
    relaxed i' code arity (T.values vs) = T.values <$> relaxed i code arity vs := by
  rw [relaxed, relaxed, takeVectors_translated, bind_map_left, map_bind, hi.relaxed]
  rfl

theorem operands_nil_translated (T : Translation) {a : Activation} (h : a.operands = [])
    (ends : Bool) : (T.activation ends a).operands = [] := by
  simp [Translation.activation, h, Translation.values]

theorem operands_cons_translated (T : Translation) {a : Activation} {v : Value} {vs : List Value}
    (h : a.operands = v :: vs) (ends : Bool) :
    (T.activation ends a).operands = v.mapFunc T.func :: T.values vs := by
  simp [Translation.activation, h, Translation.values]

/-- What an activation gives back when it ends. -/
theorem giveBack_translated (T : Translation) (ends : Bool) (a : Activation) :
    ((T.activation ends a).operands.take (T.activation ends a).arity).reverse =
      T.values (a.operands.take a.arity).reverse := by
  simp [Translation.activation, Translation.values, List.map_take, List.map_reverse]

theorem goes_translated (t : Thread) {ends : Bool} {c c' : Control} (h : c' = T.control ends c) :
    (Except.ok { T.thread false t with control := c' } : Except Trap Thread) =
      T.thread ends <$> Except.ok { t with control := c } := by
  subst h
  rfl

theorem goesInside_translated (hi : T.Instances n i i') (a : Activation) (t : Thread)
    {type : BlockType} (h : ∀ index, type = .func index → (i.type? index).isSome) (isLoop : Bool)
    (vs : List Value) (code : List Operator) :
    (Except.ok { T.thread false t with
        control := .run ((T.activation true a).enter (i'.blockArity type).1 (i'.blockArity type).2
          isLoop (T.values vs) (T.fresh code)) } : Except Trap Thread) =
      T.thread true <$> Except.ok { t with
        control := .run (a.enter (i.blockArity type).1 (i.blockArity type).2 isLoop vs code) } := by
  rw [blockArity_translated hi h]
  exact goes_translated t (congrArg Control.run (enter_translated T a _ _ _ _ _))

/-- A number is the same number translated, so what is chosen by it is chosen alike. -/
theorem chooses_translated {ends : Bool} (v : Value) {go go' : BitVec 32 → Except Trap Thread}
    (h : ∀ k, go' k = T.thread ends <$> go k) :
    (do go' (← (v.mapFunc T.func).int .w32)) = T.thread ends <$> (do go (← v.int .w32)) := by
  rw [Value.int_mapFunc, map_bind]
  exact congrArg _ (funext h)

/-- The operator turns the translated thread into what it turns the thread into, translated. -/
def FlowsAlike (T : Translation) (i i' : Instance) (st st' : Storage) (a : Activation) (t : Thread)
    (op : Operator) : Prop :=
  flow? i' st' (T.activation (endsSegment op) a) (T.thread false t) (op.mapFunc T.func) =
    (flow? i st a t op).map (T.thread (endsSegment op) <$> ·)

section
variable (a : Activation) (t : Thread)

theorem ifThen_translated (hi : T.Instances n i i') {type : BlockType}
    (htype : ∀ index, type = .func index → (i.type? index).isSome) :
    FlowsAlike T i i' st st' a t (.ifThen type) := by
  unfold FlowsAlike
  rcases hv : a.operands with _ | ⟨c, vs⟩
  · simp [flow?, hv, operands_nil_translated T hv, Operator.mapFunc]
  · simp only [flow?, hv, operands_cons_translated T hv, endsSegment, Operator.mapFunc]
    refine congrArg some (chooses_translated c fun k => ?_)
    split
    · exact goesInside_translated hi a t htype false vs a.code
    · have hcode : (T.activation true a).code = T.fresh a.code := rfl
      rw [hcode, T.skipElse_fresh]
      rcases skipElse 0 a.code with ⟨turned, code⟩
      cases turned with
      | false => exact goes_translated t rfl
      | true => exact goesInside_translated hi a t htype false vs code

theorem endMark_translated : FlowsAlike T i i' st st' a t .endMark := by
  unfold FlowsAlike flow?
  cases hl : a.labels with
  | nil =>
    simp only [Translation.activation, hl, List.map_nil, Operator.mapFunc]
    exact congrArg some (goes_translated t (congrArg Control.give (giveBack_translated T true a)))
  | cons label labels =>
    simp only [Translation.activation, hl, List.map_cons, Operator.mapFunc]
    exact congrArg some (goes_translated t rfl)

theorem brIf_translated (label : UInt32) : FlowsAlike T i i' st st' a t (.brIf label) := by
  unfold FlowsAlike
  rcases hv : a.operands with _ | ⟨c, vs⟩
  · simp [flow?, hv, operands_nil_translated T hv, Operator.mapFunc]
  · simp only [flow?, hv, operands_cons_translated T hv, endsSegment, Operator.mapFunc]
    refine congrArg some (chooses_translated c fun k => ?_)
    split
    · exact goes_translated t (jump_translated T a _ _)
    · exact goes_translated t rfl

theorem brTable_translated (labels : List UInt32) (fallback : UInt32) :
    FlowsAlike T i i' st st' a t (.brTable labels fallback) := by
  unfold FlowsAlike
  rcases hv : a.operands with _ | ⟨v, vs⟩
  · simp [flow?, hv, operands_nil_translated T hv, Operator.mapFunc]
  · simp only [flow?, hv, operands_cons_translated T hv, endsSegment, Operator.mapFunc]
    exact congrArg some (chooses_translated v fun k => goes_translated t (jump_translated T a _ _))

/-- Calls, of either kind: the callee is the translated one and has the same type. -/
theorem call_translated (hi : T.Instances n i i') {func : UInt32} (h : func.toNat < n) :
    FlowsAlike T i i' st st' a t (.call func) ∧
      FlowsAlike T i i' st st' a t (.returnCall func) := by
  simp only [FlowsAlike, flow?, endsSegment, Operator.mapFunc, hi.function func h]
  cases i.function? func with
  | none => exact ⟨rfl, rfl⟩
  | some f =>
    simp only [Option.map_some, Translation.type_function]
    exact ⟨congrArg (some ∘ Except.ok) (callFrom_translated T a t func f.type a.operands false),
      congrArg (some ∘ Except.ok) (tailCall_translated T t func f.type a.operands true)⟩

theorem callIndirect_translated (hi : T.Instances n i i') (hst : st.Agrees T.func hidden st')
    (htables : TablesBelow n st) {type : UInt32} (htype : (i.type? type).isSome) (table : UInt32) :
    FlowsAlike T i i' st st' a t (.callIndirect type table) ∧
      FlowsAlike T i i' st st' a t (.returnCallIndirect type table) := by
  unfold FlowsAlike
  rcases hv : a.operands with _ | ⟨v, vs⟩
  · simp [flow?, hv, operands_nil_translated T hv, Operator.mapFunc]
  · simp only [flow?, hv, operands_cons_translated T hv, endsSegment, Operator.mapFunc,
      Option.map_some, map_bind, indirect_translated hi hst htables htype, bind_map_left]
    cases indirect i st type table v with
    | error e => exact ⟨rfl, rfl⟩
    | ok r =>
      exact ⟨congrArg (some ∘ Except.ok) (callFrom_translated T a t r.1 r.2 vs false),
        congrArg (some ∘ Except.ok) (tailCall_translated T t r.1 r.2 vs true)⟩

/-- A relaxed vector operator runs on in its segment. -/
theorem endsSegment_of_relaxed {p : Proposal} {arity : Nat} (h : p.relaxedArity? = some arity) :
    endsSegment (.proposal p) = false := by
  have hpage : p.opcode.page = some 0xFD :=
    Decidable.byContradiction fun hother => by simp [Proposal.relaxedArity?, hother] at h
  have hending : ∀ opcode ∈ endingProposals, opcode.page ≠ some 0xFD := by decide
  simp only [endsSegment, List.contains_eq_mem, decide_eq_false_iff_not]
  exact fun hmem => hending _ hmem hpage

theorem proposal_translated (hi : T.Instances n i i') (p : Proposal) :
    FlowsAlike T i i' st st' a t (.proposal p) := by
  simp only [FlowsAlike, flow?, Operator.mapFunc, Option.map_map]
  cases hrelaxed : p.relaxedArity? with
  | none => rfl
  | some arity =>
    rw [endsSegment_of_relaxed hrelaxed]
    have hoperands : (T.activation false a).operands = T.values a.operands := rfl
    rw [Option.map_some, Option.map_some, hoperands, relaxed_translated hi, bind_map_left,
      Function.comp_apply, map_bind]
    rfl

end

/-- Control flow is translated control flow. -/
theorem flow_translated (hi : T.Instances n i i') (hst : st.Agrees T.func hidden st')
    (htables : TablesBelow n st) (a : Activation) (t : Thread) {op : Operator}
    (hfunc : ∀ func ∈ op.func?, func.toNat < n)
    (htype : ∀ type ∈ op.typeIndex?, (i.type? type).isSome) :
    FlowsAlike T i i' st st' a t op := by
  cases op
  case block type =>
    exact congrArg some (goesInside_translated hi a t
      (fun index h => htype index (by subst h; rfl)) false a.operands a.code)
  case loop type =>
    exact congrArg some (goesInside_translated hi a t
      (fun index h => htype index (by subst h; rfl)) true a.operands a.code)
  case ifThen type => exact ifThen_translated a t hi fun index h => htype index (by subst h; rfl)
  case elseMark =>
    refine congrArg some (goes_translated t (congrArg Control.run ?_))
    simp [Translation.activation, Translation.arrive, endsSegment, T.skipEnd_fresh]
  case endMark => exact endMark_translated a t
  case br label => exact congrArg some (goes_translated t (jump_translated T a _ _))
  case brIf label => exact brIf_translated a t label
  case brTable labels fallback => exact brTable_translated a t labels fallback
  case ret =>
    exact congrArg some (goes_translated t (congrArg Control.give (giveBack_translated T true a)))
  case call func => exact (call_translated a t hi (hfunc func rfl)).1
  case returnCall func => exact (call_translated a t hi (hfunc func rfl)).2
  case callIndirect type table =>
    exact (callIndirect_translated a t hi hst htables (htype type rfl) table).1
  case returnCallIndirect type table =>
    exact (callIndirect_translated a t hi hst htables (htype type rfl) table).2
  case proposal p => exact proposal_translated a t hi p
  all_goals rfl

end

end MeteredWasm.Simulation
