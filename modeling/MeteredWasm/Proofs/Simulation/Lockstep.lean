import MeteredWasm.Proofs.Simulation.Translation

/-!
# Translated machines step alike

One step of a machine and one of the translated machine, in paid code, end alike
(`step_lockstep`). What the machine is about to do has to be about functions and types that the
instance has, leave the hidden bytes alone, and not enter the hook (`Ready`); a host function has
to treat functions as names (`Natural`).
-/

set_option autoImplicit false

namespace MeteredWasm.Simulation

open Wasm Machine Metering

/-- What the machine is about to do stays inside of the instance. -/
structure Ready (n : Nat) (hidden : Nat → Nat → Prop) (i : Instance) (s : State) : Prop where
  tables : TablesBelow n s.sandbox.storage
  code : ∀ a op code, s.thread.control = .run a → a.code = op :: code →
    (∀ func ∈ op.func?, func.toNat < n) ∧ (∀ type ∈ op.typeIndex?, (i.type? type).isSome) ∧
      s.sandbox.storage.Heeds hidden op a.operands
  invoke : ∀ func args, s.thread.control = .invoke func args →
    func.toNat < n ∧ i.function? func ≠ some .hook
  frames : ∀ stage, .hook stage ∉ s.thread.frames

/-- A host function that is about to be called answers the translated call with the translated
answer. -/
def Natural (T : Translation) (i : Instance) (s : State) : Prop :=
  ∀ func args module name type behaviour, s.thread.control = .invoke func args →
    i.function? func = some (.host module name type behaviour) →
    behaviour (s.sandbox.calls.map T.call) (T.values args) =
      T.values <$> behaviour s.sandbox.calls args

/-- Whether control arrives at a new segment with the next step. -/
def arrivesFresh (t : Thread) : Bool :=
  match t.control with
  | .run a => a.code.head?.any endsSegment
  | .invoke _ _ => true
  | .give _ => false

section
variable {T : Translation} {n : Nat} {hidden : Nat → Nat → Prop} {i i' : Instance}
  {sb sb' : Sandbox}

theorem stepCode_lockstep (hi : T.Instances n i i') (hs : T.Sandboxes hidden sb sb') (t : Thread)
    {a : Activation} (h : Ready n hidden i ⟨sb, { t with control := .run a }⟩) :
    Lockstep T hidden (a.code.head?.any endsSegment) sb sb' (stepCode i sb t a)
      (stepCode i' sb' (T.thread false t) (T.activation false a)) := by
  unfold stepCode
  cases hc : a.code with
  | nil =>
    have hnil : (T.activation false a).code = [] := by
      simp [Translation.activation, Translation.arrive, hc, T.paid_nil]
    rw [hnil]
    simp only [giveBack_translated]
    exact .next (t := { t with control := .give (a.operands.take a.arity).reverse }) hs
      (.refl sb) (.refl sb')
  | cons op code =>
    have hcons : (T.activation false a).code =
        op.mapFunc T.func :: T.arrive (endsSegment op) code := by
      simp [Translation.activation, Translation.arrive, hc, T.paid_cons]
    obtain ⟨hfunc, htype, hheeds⟩ := h.code a op code rfl hc
    have hflow : FlowsAlike T i i' sb.storage sb'.storage { a with code } t op :=
      flow_translated hi hs.storage h.tables { a with code } t hfunc htype
    have hrest : { T.activation false a with code := T.arrive (endsSegment op) code } =
        T.activation (endsSegment op) { a with code } := rfl
    rw [hcons]
    unfold FlowsAlike at hflow
    simp only [List.head?_cons, Option.any_some, hrest, hflow]
    cases hf : flow? i sb.storage { a with code } t op with
    | some result =>
      cases result with
      | ok t₁ => exact .next hs (.refl sb) (.refl sb')
      | error e => exact .failed hs (.refl sb) (.refl sb')
    | none =>
      have hperform := @perform_agrees _ _ _ _ hs.storage _ a.locals _ hheeds
      obtain ⟨st, gas, paused, calls, signals⟩ := sb
      obtain ⟨st', gas', paused', calls', signals'⟩ := sb'
      obtain ⟨hst, hcalls⟩ := hs
      simp only [Option.map_none]
      rw [show (T.activation false a).locals = a.locals.map (Value.mapFunc T.func) from rfl,
        show (T.activation false a).operands = a.operands.map (Value.mapFunc T.func) from rfl]
      simp only at hperform
      generalize perform op a.locals a.operands st = result at hperform ⊢
      generalize perform (op.mapFunc T.func) (a.locals.map (Value.mapFunc T.func))
        (a.operands.map (Value.mapFunc T.func)) st' = result' at hperform ⊢
      cases hperform with
      | @ok r _ st₁ _ hr hst₁ =>
        subst hr
        exact .next (t := { t with control := .run { a with
          locals := r.1, operands := r.2, code } }) ⟨hst₁, hcalls⟩ ⟨rfl, rfl, rfl⟩ ⟨rfl, rfl, rfl⟩
      | trap hst₁ => exact .failed ⟨hst₁, hcalls⟩ ⟨rfl, rfl, rfl⟩ ⟨rfl, rfl, rfl⟩

theorem stepGive_lockstep (hs : T.Sandboxes hidden sb sb') (t : Thread)
    (hframes : ∀ stage, .hook stage ∉ t.frames) (results : List Value) :
    Lockstep T hidden false sb sb' (stepGive sb t results)
      (stepGive sb' (T.thread false t) (T.values results)) := by
  unfold stepGive
  cases hf : t.frames with
  | nil =>
    simp only [Translation.thread, hf, List.map_nil]
    exact .finished hs (.refl sb) (.refl sb')
  | cons frame frames =>
    cases frame with
    | hook stage => exact absurd (hf ▸ List.mem_cons_self ..) (hframes stage)
    | activation a =>
      simp only [Translation.thread, hf, List.map_cons, Translation.frame]
      have hops : T.values (results.reverse ++ a.operands) =
          (T.values results).reverse ++ T.values a.operands := by
        simp [Translation.values]
      have h : Lockstep T hidden false sb sb'
          (.next ⟨sb, ⟨.run { a with operands := results.reverse ++ a.operands }, frames,
            t.depth - 1⟩⟩) (.next ⟨sb', T.thread false _⟩) := .next hs (.refl sb) (.refl sb')
      simp only [Translation.thread, Translation.control, Translation.activation, hops] at h
      exact h

theorem start_translated (func : UInt32) (type : FuncType) (locals : List ValType)
    (body : List Operator) (args : List Value) :
    Activation.start (T.func func) type locals (T.fresh body) (T.values args) =
      T.activation true (.start func type locals body args) := by
  simp [Activation.start, Translation.activation, Translation.values, Translation.arrive]

theorem answersTo_translated (type : FuncType) (results : List Value) :
    answersTo type (T.values results) = answersTo type results := by
  have htypes : List.zipWith Value.hasType (T.values results) type.results =
      List.zipWith Value.hasType results type.results := by
    simp [Translation.values, List.zipWith_map_left]
  have hlength : (T.values results).length = results.length := by simp [Translation.values]
  unfold answersTo
  rw [htypes, hlength]

theorem stepInvoke_lockstep (hi : T.Instances n i i') (hs : T.Sandboxes hidden sb sb')
    (t : Thread) {func : UInt32} {args : List Value}
    (h : Ready n hidden i ⟨sb, { t with control := .invoke func args }⟩)
    (hnat : Natural T i ⟨sb, { t with control := .invoke func args }⟩) :
    Lockstep T hidden true sb sb' (stepInvoke i sb t func args)
      (stepInvoke i' sb' (T.thread false t) (T.func func) (T.values args)) := by
  obtain ⟨hfunc, hhook⟩ := h.invoke func args rfl
  unfold stepInvoke
  rw [hi.function func hfunc]
  cases hf : i.function? func with
  | none => exact .failed hs (.refl sb) (.refl sb')
  | some f =>
    cases f with
    | hook => exact absurd hf hhook
    | code type locals body =>
      simp only [Option.map_some, Translation.function, hi.depth]
      have hdepth : (T.thread false t).depth = t.depth := rfl
      rw [hdepth]
      split
      · rw [start_translated]
        exact .next (t := { t with control := .run (.start func type locals body args) }) hs
          (.refl sb) (.refl sb')
      · exact .failed hs (.refl sb) (.refl sb')
    | host module name type behaviour =>
      have hanswer := hnat func args module name type behaviour rfl hf
      simp only [Option.map_some, Translation.function, hs.calls]
      simp only at hanswer
      rw [hanswer]
      have hcalls : T.Sandboxes hidden { sb with calls := ⟨module, name, args⟩ :: sb.calls }
          { sb' with calls := ⟨module, name, T.values args⟩ :: sb.calls.map T.call } :=
        ⟨hs.storage, rfl⟩
      cases behaviour sb.calls args with
      | error e => exact .failed hcalls ⟨rfl, rfl, rfl⟩ ⟨rfl, rfl, rfl⟩
      | ok results =>
        simp only [Functor.map, Except.map, answersTo_translated]
        split
        · exact .next (t := { t with control := .give results }) hcalls ⟨rfl, rfl, rfl⟩
            ⟨rfl, rfl, rfl⟩
        · exact .failed hcalls ⟨rfl, rfl, rfl⟩ ⟨rfl, rfl, rfl⟩

/-- A machine and the translated machine step alike. -/
theorem step_lockstep (hi : T.Instances n i i') (hs : T.Sandboxes hidden sb sb') {t : Thread}
    (h : Ready n hidden i ⟨sb, t⟩) (hnat : Natural T i ⟨sb, t⟩) :
    Lockstep T hidden (arrivesFresh t) sb sb' (step i ⟨sb, t⟩)
      (step i' ⟨sb', T.thread false t⟩) := by
  obtain ⟨control, frames, depth⟩ := t
  cases control with
  | run a => exact stepCode_lockstep hi hs ⟨.run a, frames, depth⟩ h
  | invoke func args => exact stepInvoke_lockstep hi hs ⟨.invoke func args, frames, depth⟩ h hnat
  | give results => exact stepGive_lockstep hs ⟨.give results, frames, depth⟩ h.frames results

end

end MeteredWasm.Simulation
