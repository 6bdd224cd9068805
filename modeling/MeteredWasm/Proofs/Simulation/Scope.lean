import MeteredWasm.Proofs.Machine.Path
import MeteredWasm.Proofs.Simulation.Range

/-!
# Machines that stay in scope

A state is in scope of an instance if all functions that it names are functions of the instance,
and all activations run code of its functions (`Scoped`). A step does not lead out of scope
(`Scoped.next`), and in scope a machine is always ready to step alike with a translated one
(`Scoped.ready`, `Scoped.natural`).

That names stay in range is itself a case of stepping alike: a renaming that moves everything else
leaves the machine as it is, so it leaves its next state as it is.
-/

set_option autoImplicit false

namespace MeteredWasm.Simulation

open Wasm Machine Metering

/-! ## Renaming as a translation -/

theorem skipEnd_map (g : UInt32 → UInt32) (k : Nat) (ops : List Operator) :
    skipEnd k (ops.map (Operator.mapFunc g)) = (skipEnd k ops).map (Operator.mapFunc g) := by
  induction ops generalizing k with
  | nil => rfl
  | cons op ops ih =>
    cases hb : marksBlock op with
    | false =>
      rw [List.map_cons, skipEnd_cons_of_not hb,
        skipEnd_cons_of_not ((marksBlock_mapFunc g op).trans hb), ih]
    | true =>
      cases op <;> simp only [marksBlock, Bool.false_eq_true] at hb
      case endMark => cases k <;> simp [Operator.mapFunc, skipEnd, ih]
      all_goals simp [Operator.mapFunc, skipEnd, ih]

theorem skipElse_map (g : UInt32 → UInt32) (k : Nat) (ops : List Operator) :
    skipElse k (ops.map (Operator.mapFunc g)) =
      ((skipElse k ops).1, (skipElse k ops).2.map (Operator.mapFunc g)) := by
  induction ops generalizing k with
  | nil => rfl
  | cons op ops ih =>
    cases hb : marksBlock op with
    | false =>
      rw [List.map_cons, skipElse_cons_of_not hb,
        skipElse_cons_of_not ((marksBlock_mapFunc g op).trans hb), ih]
    | true =>
      cases op <;> simp only [marksBlock, Bool.false_eq_true] at hb
      case elseMark | endMark => cases k <;> simp [Operator.mapFunc, skipElse, ih]
      all_goals simp [Operator.mapFunc, skipElse, ih]

/-- Renames functions and leaves code as it is otherwise. -/
def Translation.rename (g : UInt32 → UInt32) : Translation where
  func := g
  fresh ops := ops.map (Operator.mapFunc g)
  paid ops := ops.map (Operator.mapFunc g)
  paid_nil := rfl
  paid_cons op ops := by simp
  skipEnd_fresh := skipEnd_map g
  skipElse_fresh := skipElse_map g

theorem Translation.rename_thread (g : UInt32 → UInt32) (ends ends' : Bool) (t : Thread) :
    (Translation.rename g).thread ends t = (Translation.rename g).thread ends' t := by
  have harrive (ends : Bool) (code : List Operator) :
      (Translation.rename g).arrive ends code = code.map (Operator.mapFunc g) := by
    cases ends <;> rfl
  obtain ⟨control, frames, depth⟩ := t
  cases control <;>
    simp [Translation.thread, Translation.control, Translation.activation, harrive]

/-! ## Scope -/

/-- An instance whose code only names what there is: its first `m` functions, and its types. It
does not charge for anything, and its host functions treat functions as names. -/
structure Closed (m : UInt32) (i : Instance) : Prop where
  last : m ≠ 0xFFFFFFFF
  code : ∀ func type locals body, i.function? func = some (.code type locals body) →
    ∀ op ∈ body, (∀ f ∈ op.func?, f.toNat < m.toNat) ∧
      (∀ t ∈ op.typeIndex?, (i.type? t).isSome)
  noHook : ∀ func, i.function? func ≠ some .hook
  hosts : ∀ func module name type behaviour,
    i.function? func = some (.host module name type behaviour) → behaviour.Opaque

/-- An activation runs code of a function of the instance. -/
def Runs (i : Instance) (a : Activation) : Prop :=
  ∃ func type locals body, i.function? func = some (.code type locals body) ∧
    a.point.Inside body

/-- All activations of a thread run code of the instance. -/
structure Placed (i : Instance) (t : Thread) : Prop where
  runs : ∀ a, t.control = .run a → Runs i a
  frames : ∀ frame ∈ t.frames, ∃ a, frame = .activation a ∧ Runs i a

/-- The state only names functions in range and only runs code of the instance. -/
structure Scoped (m : UInt32) (i : Instance) (s : State) : Prop where
  thread : (Translation.rename (cycle m)).thread false s.thread = s.thread
  sandbox : (Translation.rename (cycle m)).Sandboxes nothing s.sandbox s.sandbox
  placed : Placed i s.thread

section
variable {m : UInt32} {i : Instance} {s : State} (hi : Closed m i)
include hi

theorem closed_instances : (Translation.rename (cycle m)).Instances m.toNat i i where
  function func hfunc := by
    rw [show (Translation.rename (cycle m)).func func = func from
      (cycle_eq_self_iff hi.last).2 hfunc]
    cases hf : i.function? func with
    | none => rfl
    | some f =>
      cases f with
      | code type locals body =>
        have hbody : body.map (Operator.mapFunc (cycle m)) = body := by
          refine (List.map_congr_left fun op hop => ?_).trans (List.map_id _)
          exact Operator.mapFunc_of_below (fun f hf' => (cycle_eq_self_iff hi.last).2 hf')
            (hi.code func type locals body hf op hop).1
        simp only [Option.map_some, Translation.function, Translation.rename, hbody]
      | _ => rfl
  type _ _ := rfl
  relaxed := rfl
  depth := rfl

theorem Scoped.calls_below (h : Scoped m i s) :
    ∀ c ∈ s.sandbox.calls, ∀ v ∈ c.args, Below m.toNat v :=
  (calls_below_iff hi.last).1 h.sandbox.calls.symm

theorem Scoped.args_below (h : Scoped m i s) {func : UInt32} {args : List Value}
    (hc : s.thread.control = .invoke func args) : ∀ v ∈ args, Below m.toNat v := by
  have hthread := congrArg Thread.control h.thread
  simp only [Translation.thread, hc, Translation.control, Control.invoke.injEq] at hthread
  exact (all_below_iff hi.last).1 hthread.2

theorem Scoped.tables_below (h : Scoped m i s) : TablesBelow m.toNat s.sandbox.storage := by
  intro t ht func hfunc
  have hfixed := forall_of_map_eq_self h.sandbox.storage.tables.symm t ht
  have hitems := congrArg (fun t => t.items.toList) hfixed
  simp only [RefTable.mapFunc, Array.toList_map] at hitems
  have := forall_of_map_eq_self hitems (some func) (Array.mem_toList_iff.2 hfunc)
  simp only [Option.map_some, Option.some.injEq] at this
  exact (cycle_eq_self_iff hi.last).1 this

theorem Runs.next_op {a : Activation} (h : Runs i a) {op : Operator} {code : List Operator}
    (hc : a.code = op :: code) : (∀ f ∈ op.func?, f.toNat < m.toNat) ∧
      (∀ t ∈ op.typeIndex?, (i.type? t).isSome) := by
  obtain ⟨func, type, locals, body, hf, hin⟩ := h
  have hmem : op ∈ a.code := hc ▸ List.mem_cons_self ..
  exact hi.code func type locals body hf op (hin.1.subset hmem)

/-- In scope, a machine is ready for whatever it does next, if that heeds the hidden bytes. -/
theorem Scoped.ready (h : Scoped m i s) (hidden : Nat → Nat → Prop)
    (hheeds : ∀ a op code, s.thread.control = .run a → a.code = op :: code →
      s.sandbox.storage.Heeds hidden op a.operands) : Ready m.toNat hidden i s where
  tables := h.tables_below hi
  code a op code hrun hc :=
    ⟨((h.placed.runs a hrun).next_op hi hc).1, ((h.placed.runs a hrun).next_op hi hc).2,
      hheeds a op code hrun hc⟩
  invoke func args hc := by
    refine ⟨?_, hi.noHook func⟩
    have hthread := congrArg Thread.control h.thread
    simp only [Translation.thread, hc, Translation.control, Control.invoke.injEq] at hthread
    exact (cycle_eq_self_iff hi.last).1 hthread.1
  frames stage hmem := by
    obtain ⟨a, ha, -⟩ := h.placed.frames _ hmem
    cases ha

/-- In scope, host functions answer translated calls with translated answers. -/
theorem Scoped.natural (h : Scoped m i s) {T : Translation} {g : UInt32 → UInt32}
    (hinj : Function.Injective g) (hg : ∀ f : UInt32, f.toNat < m.toNat → T.func f = g f) :
    Natural T i s := by
  intro func args module name type behaviour hc hf
  exact opaque_natural hi.last (hi.hosts func module name type behaviour hf) (h.calls_below hi)
    (h.args_below hi hc) hinj hg

end

/-! ## Steps stay in scope -/

section
variable {m : UInt32} {i : Instance} {sb : Sandbox} {t : Thread} {s' : State}

theorem control_of_tailCall {st : Storage} {a : Activation} {t' : Thread} {op : Operator}
    (hop : isTailCall op = true) (h : flow? i st a t op = some (.ok t')) :
    ∃ func args, t'.control = .invoke func args := by
  unfold flow? at h
  split at h <;> simp only [isTailCall, Bool.false_eq_true] at hop <;>
    simp only [reduceCtorEq, Option.some.injEq, except_bind_eq_ok] at h
  · split at h <;> simp only [Option.some.injEq, Except.ok.injEq, reduceCtorEq] at h
    subst h
    exact ⟨_, _, rfl⟩
  · obtain ⟨r, -, h⟩ := h
    cases h
    exact ⟨_, _, rfl⟩

/-- An activation that goes on elsewhere in the same body still runs code of the instance. -/
theorem Runs.moved {a b : Activation} (h : Runs i a)
    (hb : ∀ body, a.point.Inside body → b.point.Inside body) : Runs i b := by
  obtain ⟨func, type, locals, body, hf, hin⟩ := h
  exact ⟨func, type, locals, body, hf, hb body hin⟩

theorem Runs.rest {a : Activation} (h : Runs i a) {op : Operator} {code : List Operator}
    (hc : a.code = op :: code) : Runs i { a with code } :=
  h.moved fun _ hin => ⟨(hc ▸ List.suffix_cons op code).trans hin.1, hin.2⟩

theorem Placed.next_run {a : Activation} (h : Placed i { t with control := .run a })
    (hs : stepCode i sb t a = .next s') : Placed i s'.thread := by
  have ha := h.runs a rfl
  unfold stepCode at hs
  cases hc : a.code with
  | nil =>
    rw [hc] at hs
    cases hs
    exact ⟨fun _ hb => (nomatch hb), h.frames⟩
  | cons op code =>
    rw [hc] at hs
    simp only at hs
    have hrest := ha.rest hc
    cases hf : flow? i sb.storage { a with code } t op with
    | some result =>
      rw [hf] at hs
      cases result with
      | error e => cases hs
      | ok t' =>
        cases hs
        refine ⟨fun b hb => ?_, fun frame hmem => ?_⟩
        · cases htail : isTailCall op with
          | true =>
            obtain ⟨func, args, hinvoke⟩ := control_of_tailCall htail hf
            rw [hinvoke] at hb
            cases hb
          | false =>
            change t'.control = .run b at hb
            have hpoint : t'.point = some b.point := by simp only [Thread.point, hb]
            have hmem := mem_successors_of_flow htail hf
            rw [hpoint] at hmem
            exact hrest.moved fun body hin => successors_inside hin hmem
        · rcases frames_of_flow hf with ⟨-, hframes⟩ | ⟨-, func, args, operands, rfl⟩
          · exact h.frames frame (hframes ▸ hmem)
          · rcases List.mem_cons.1 hmem with rfl | hmem
            · exact ⟨_, rfl, hrest⟩
            · exact h.frames frame hmem
    | none =>
      rw [hf] at hs
      simp only at hs
      split at hs
      · rename_i locals operands _ hp
        cases hs
        refine ⟨fun b hb => ?_, h.frames⟩
        cases hb
        exact hrest
      · cases hs

/-- Where the hook has nothing to call, the thread is as it was. -/
theorem thread_of_hook {cost : Int} (hcontrols : i.controls = none)
    (hs : stepHook i sb t cost = .next s') : s'.thread = { t with control := .give [] } := by
  unfold stepHook stepResume stepPause at hs
  simp only [hcontrols] at hs
  split at hs
  · cases hs
  · split at hs
    · cases hs
      rfl
    · cases hs

/-- The hook must not put frames of its own onto the thread. -/
theorem Placed.next (h : Placed i t)
    (hquiet : (∀ func, i.function? func ≠ some .hook) ∨ i.controls = none)
    (hs : step i ⟨sb, t⟩ = .next s') : Placed i s'.thread := by
  obtain ⟨control, frames, depth⟩ := t
  cases control with
  | run a => exact h.next_run (t := ⟨.run a, frames, depth⟩) hs
  | invoke func args =>
    simp only [step, stepInvoke] at hs
    split at hs
    · cases hs
    · rename_i hf
      rcases hquiet with hhook | hcontrols
      · exact absurd hf (hhook func)
      · split at hs
        · rw [thread_of_hook hcontrols hs]
          exact ⟨fun _ hb => (nomatch hb), h.frames⟩
        · cases hs
    · split at hs
      · cases hs
      · split at hs
        · cases hs
          exact ⟨fun _ hb => (nomatch hb), h.frames⟩
        · cases hs
    · rename_i type locals body hf
      split at hs
      · cases hs
        refine ⟨fun b hb => ?_, h.frames⟩
        cases hb
        exact ⟨func, type, locals, body, hf, Point.inside_start body⟩
      · cases hs
  | give results =>
    simp only [step, stepGive] at hs
    split at hs
    · cases hs
    · rename_i a rest
      cases hs
      refine ⟨fun b hb => ?_, fun frame hmem => h.frames frame (List.mem_cons_of_mem _ hmem)⟩
      cases hb
      obtain ⟨a', ha, hruns⟩ := h.frames (.activation a) (List.mem_cons_self ..)
      cases ha
      exact hruns
    · rename_i stage rest
      obtain ⟨a, ha, -⟩ := h.frames (.hook stage) (List.mem_cons_self ..)
      cases ha

/-- A step does not lead out of scope. -/
theorem Scoped.next (hi : Closed m i) {s : State} (h : Scoped m i s) (hs : step i s = .next s') :
    Scoped m i s' := by
  obtain ⟨sb, t⟩ := s
  have hready := h.ready hi nothing fun a op code _ _ =>
    heeds_nothing sb.storage op a.operands
  have hnat := h.natural hi (T := .rename (cycle m)) (cycle_injective m) fun _ _ => rfl
  have hlock := step_lockstep (closed_instances hi) h.sandbox hready hnat
  rw [h.thread, hs] at hlock
  obtain ⟨sb', heq, hsb, -, -⟩ := hlock.of_next
  obtain ⟨sb₁, t₁⟩ := s'
  simp only [Step.next.injEq, State.mk.injEq] at heq
  obtain ⟨rfl, ht⟩ := heq
  exact ⟨(Translation.rename_thread _ _ _ _).trans ht.symm, hsb, h.placed.next (.inl hi.noHook) hs⟩

end

end MeteredWasm.Simulation
