import MeteredWasm.Machine.Relaxed
import MeteredWasm.Metering.Cost
import MeteredWasm.Proofs.Machine.Touch
import MeteredWasm.Proofs.Validation.Declared

/-!
# The classes of a cost table

A cost table charges by class. Against what the machine does: the operators charged as control flow
and calls are those that move control, and `nop`; those charged as memory accesses are the ones that
read or write bytes of memory, but for accesses with vectors and atomic ones, which fall into the
class of everything else (`charged_by_class`, `vector_load_misses_class`).
-/

set_option autoImplicit false

namespace MeteredWasm

open Wasm Machine

namespace Metering

/-! ## Operators that may be used -/

/-- The operators that code to be instrumented may use: no tail calls, and nothing of a proposal. -/
def inSandbox : Operator → Bool
  | .returnCall _ | .returnCallIndirect _ _ | .proposal _ => false
  | _ => true

section
open Validation
variable {c : Context} {locals : Array ValType} {results : List ValType}

theorem inSandbox_of_step {op : Operator} {frames frames' : List Validation.Frame}
    (hc : c.features = .sandbox) (h : step? c locals results op frames = some frames') :
    inSandbox op = true := by
  cases frames with
  | nil => cases h
  | cons f outer =>
    cases op <;> first
      | rfl
      | simp [step?, hc, Features.sandbox, signature?, given] at h

theorem inSandbox_of_codeOk {ops : List Operator} {frames : List Validation.Frame}
    (hc : c.features = .sandbox) (h : codeOk c locals results ops frames = true) :
    ∀ op ∈ ops, inSandbox op = true := by
  induction ops generalizing frames with
  | nil => simp
  | cons op ops ih =>
    rw [codeOk] at h
    split at h
    · intro op' hop
      rcases List.mem_cons.1 hop with rfl | hop
      · exact inSandbox_of_step hc ‹_›
      · exact ih h op' hop
    · cases h

/-- The code of a valid module is made of these operators. -/
theorem inSandbox_of_validate {binary : Bytes} {m : Module}
    (h : validate? .sandbox binary = some m) :
    ∀ body ∈ m.bodies, ∀ op ∈ body.code, inSandbox op = true := by
  obtain ⟨hdecode, hok⟩ := validate_eq_some h
  obtain ⟨c, hc, -, hbodies⟩ := context_of_moduleOk hok
  intro body hbody
  obtain ⟨type, hbody⟩ := bodyOk_of_mem hc hbodies (length_bodies hdecode) hbody
  simp only [bodyOk, Bool.and_eq_true] at hbody
  refine inSandbox_of_codeOk ?_ hbody.2
  exact (const_of_context hc).1

end

/-! ## Classes -/

/-- The operators on vectors and the atomic ones. -/
def isVectorOrAtomic : Operator → Bool
  | .v128Const _ | .shuffle _ | .vectorLoad _ _ | .vectorStore _ | .loadLane _ _ _
  | .storeLane _ _ _ | .extractLane _ _ | .replaceLane _ _ | .vector _ | .atomicNotify _
  | .atomicWait _ _ | .atomicFence | .atomic _ _ _ => true
  | _ => false

/-- Structured control operators, branches, `return`, `unreachable` and `nop`. -/
def isControl : Operator → Bool
  | .block _ | .loop _ | .ifThen _ | .elseMark | .endMark | .br _ | .brIf _ | .brTable _ _ | .ret
  | .unreachable | .nop => true
  | _ => false

/-- The machine may go on somewhere else than with the next operator. -/
def MovesControl (i : Instance) (op : Operator) : Prop :=
  ∃ st a t, (flow? i st a t op).isSome = true

/-- What it means for an operator to be of a class. -/
structure ChargedAs (i : Instance) (op : Operator) (class_ : CostClass) : Prop where
  charged : ∀ table : CostTable, table.rules op = table.ofClass class_
  memoryAccess : class_ = .memoryAccess ↔ Touches i op ∧ isVectorOrAtomic op = false
  /-- Accesses that are not charged as such. -/
  missed : Touches i op → isVectorOrAtomic op = true → class_ = .other
  memoryGrow : class_ = .memoryGrow ↔ ∃ memory, op = .memoryGrow memory
  call : class_ = .call ↔ (∃ func, op = .call func) ∨ ∃ type table, op = .callIndirect type table
  control : class_ = .control ↔ isControl op = true
  moves : class_ = .control ∨ class_ = .call ↔ MovesControl i op ∨ op = .nop

section
variable {i : Instance} {op : Operator}

theorem memoryAccess_iff (h : inSandbox op = true) :
    CostClass.of op = .memoryAccess ↔ isAccess op = true ∧ isVectorOrAtomic op = false := by
  constructor
  · intro hclass
    cases op <;> first | exact ⟨rfl, rfl⟩ | exact Bool.noConfusion h | cases hclass
  · rintro ⟨haccess, hvector⟩
    cases op <;> first | rfl | exact Bool.noConfusion hvector | exact Bool.noConfusion haccess

theorem memoryGrow_iff (h : inSandbox op = true) :
    CostClass.of op = .memoryGrow ↔ ∃ memory, op = .memoryGrow memory := by
  constructor
  · intro hclass
    cases op <;> first | exact ⟨_, rfl⟩ | exact Bool.noConfusion h | cases hclass
  · rintro ⟨memory, rfl⟩
    rfl

theorem call_iff (h : inSandbox op = true) :
    CostClass.of op = .call ↔
      (∃ func, op = .call func) ∨ ∃ type table, op = .callIndirect type table := by
  constructor
  · intro hclass
    cases op <;> first
      | exact .inl ⟨_, rfl⟩
      | exact .inr ⟨_, _, rfl⟩
      | exact Bool.noConfusion h
      | cases hclass
  · rintro (⟨func, rfl⟩ | ⟨type, table, rfl⟩) <;> rfl

theorem control_iff (h : inSandbox op = true) :
    CostClass.of op = .control ↔ isControl op = true := by
  constructor
  · intro hclass
    cases op <;> first | rfl | exact Bool.noConfusion h | cases hclass
  · intro hcontrol
    cases op <;> first | rfl | exact Bool.noConfusion hcontrol

/-- A call traps if there is no such function, and moves control otherwise. -/
theorem isSome_flow_call (i : Instance) (st : Storage) (a : Activation) (t : Thread)
    (func : UInt32) : (flow? i st a t (.call func)).isSome = true := by
  unfold flow?
  dsimp only
  split <;> rfl

/-- What the table calls control flow is what moves control, and `nop`. -/
theorem moves_iff (h : inSandbox op = true) :
    CostClass.of op = .control ∨ CostClass.of op = .call ↔ MovesControl i op ∨ op = .nop := by
  constructor
  · intro hclass
    by_cases hnop : op = .nop
    · exact .inr hnop
    · refine .inl ⟨.empty, ⟨0, 0, [], [.i32 0], [], []⟩, .call 0 [], ?_⟩
      cases op <;> first
        | rfl
        | exact absurd rfl hnop
        | exact Bool.noConfusion h
        | (rcases hclass with hclass | hclass <;> cases hclass; done)
        | exact isSome_flow_call ..
  · rintro (⟨st, a, t, hmoves⟩ | rfl)
    · cases op <;> first
        | exact .inl rfl
        | exact .inr rfl
        | exact Bool.noConfusion h
        | cases hmoves
    · exact .inl rfl

/-- Whatever the table, every operator is charged by its class. -/
theorem charged_by_class (h : inSandbox op = true) : ChargedAs i op (.of op) where
  charged _ := rfl
  memoryAccess := (memoryAccess_iff h).trans (and_congr_left fun _ => touches_iff.symm)
  missed htouches hvector := by
    cases op <;> first | rfl | cases hvector
  memoryGrow := memoryGrow_iff h
  call := call_iff h
  control := control_iff h
  moves := moves_iff h

/-- An instance of nothing. -/
def bareInstance : Instance := ⟨#[], #[], strictResults, none, .standard, 0, 0⟩

theorem charged_by_class_store :
    inSandbox (.store .i32 ⟨2, 8, 0⟩) = true ∧ Touches bareInstance (.store .i32 ⟨2, 8, 0⟩) ∧
      CostTable.standard.rules (.store .i32 ⟨2, 8, 0⟩) = CostTable.standard.memoryAccess := by
  have hcharged := @charged_by_class bareInstance (.store .i32 ⟨2, 8, 0⟩) rfl
  obtain ⟨htouches, -⟩ := hcharged.memoryAccess.1 rfl
  exact ⟨rfl, htouches, hcharged.charged .standard⟩

/-- A vector that is loaded is charged as everything else. -/
theorem vector_load_misses_class : ¬∀ (i : Instance) (op : Operator), inSandbox op = true →
    (Touches i op → CostTable.standard.rules op = CostTable.standard.memoryAccess) := by
  intro h
  have hreads := reads_vectorLoad (i := bareInstance) .full ⟨4, 0, 0⟩
  have hcost := h bareInstance (.vectorLoad .full ⟨4, 0, 0⟩) rfl (.inl hreads)
  exact absurd hcost (by decide)

end

end Metering

end MeteredWasm
