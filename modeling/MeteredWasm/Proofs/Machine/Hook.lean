import MeteredWasm.Proofs.Machine.Path
import MeteredWasm.Proofs.Simulation.Account

/-!
# Steps of the hook and beside it

The hook is entered from code (`EntersHook`) and come back to from the functions that it calls
(`LeavesHook`). What it does when it is entered is one of a few things (`HookStep`), and so is what
any other step makes of a thread (`ThreadStep`); one of code moves on in its activation, calls a
function or leaves (`CodeStep`). Beside the hook a step leaves gas, the paused flag and the signals
alone (`unhooked_step`) and moves at most one frame, which is not a hook's (`moves_step`).

A call that runs above some frames leaves them alone until it gives its results back to them
(`Above`). A function is quiet if no call of it enters the hook (`Quiet`): then the call is no more
to the hook than its storage and its host calls (`Quiet.above`).
-/

set_option autoImplicit false

namespace MeteredWasm.Machine

open Wasm Metering Simulation

/-! ## Entering and leaving the hook -/

/-- The thread is about to enter the hook. -/
def EntersHook (i : Instance) (t : Thread) : Prop :=
  ∃ func args, t.control = .invoke func args ∧ i.function? func = some .hook

instance (i : Instance) (t : Thread) : Decidable (EntersHook i t) :=
  match hcontrol : t.control with
  | .run _ | .give _ => isFalse fun ⟨_, _, h, _⟩ => by rw [hcontrol] at h; cases h
  | .invoke func args =>
    match hfunc : i.function? func with
    | some .hook => isTrue ⟨func, args, hcontrol, hfunc⟩
    | none | some (.host ..) | some (.code ..) => isFalse fun ⟨_, _, h, h'⟩ => by
      rw [hcontrol] at h
      cases h
      rw [hfunc] at h'
      cases h'

theorem not_enters_give {i : Instance} {results : List Value} {frames : List Frame} {depth : Nat} :
    ¬EntersHook i ⟨.give results, frames, depth⟩ := by
  rintro ⟨_, _, hcontrol, _⟩
  cases hcontrol

/-- The thread is about to come back to a hook that has called something. -/
def LeavesHook (t : Thread) : Prop :=
  ∃ results stage frames, t.control = .give results ∧ t.frames = .hook stage :: frames

/-- The hooks on the stack that wait for what they have called, innermost first. -/
def stages (frames : List Frame) : List HookStage :=
  frames.filterMap fun
    | .hook stage => some stage
    | .activation _ => none

@[simp] theorem stages_nil : stages [] = [] := rfl

@[simp] theorem stages_hook (stage : HookStage) (frames : List Frame) :
    stages (.hook stage :: frames) = stage :: stages frames := rfl

@[simp] theorem stages_activation (a : Activation) (frames : List Frame) :
    stages (.activation a :: frames) = stages frames := rfl

@[simp] theorem stages_append (frames below : List Frame) :
    stages (frames ++ below) = stages frames ++ stages below := List.filterMap_append ..

/-! ## Writing from outside -/

/-- The storage with other bytes in the memory that holds the control block. -/
def Instance.written (i : Instance) (st : Storage) (address : Nat) (bs : Bytes) : Storage :=
  st.modifyMemory i.blockMemory (·.write address bs)

theorem Storage.modifyMemory_congr {st : Storage} {index : Nat} {f g : Memory → Memory}
    (h : ∀ m, st.memories[index]? = some m → f m = g m) :
    st.modifyMemory index f = st.modifyMemory index g := by
  have hmemories : st.memories.modify index f = st.memories.modify index g := by
    refine List.ext_getElem? fun k => ?_
    rw [List.getElem?_modify, List.getElem?_modify]
    by_cases hk : index = k
    · subst hk
      cases hm : st.memories[index]? with
      | none => rfl
      | some m => simp [h m hm]
    · simp [hk]
  rw [Storage.modifyMemory, Storage.modifyMemory, hmemories]

/-- What is written is there where it fits. -/
theorem write_eq_ok_iff {i : Instance} {sb sb' : Sandbox} {address : Nat} {bs : Bytes} :
    sb.write? i address ⟨bs.toArray⟩ = .ok sb' ↔
      Action.memoryHolds i.blockMemory address bs.length sb.storage = true ∧
        sb' = { sb with storage := i.written sb.storage address bs } := by
  unfold Sandbox.write? Action.memoryHolds Instance.written
  cases hm : sb.storage.memories[i.blockMemory]? with
  | none => simp
  | some m =>
    have hsize : (⟨bs.toArray⟩ : ByteArray).size = bs.length := by simp [ByteArray.size]
    have hmodify : sb.storage.modifyMemory i.blockMemory (fun _ => m.write address bs) =
        sb.storage.modifyMemory i.blockMemory (·.write address bs) :=
      Storage.modifyMemory_congr fun m' hm' => by rw [Option.some.inj (hm.symm.trans hm')]
    by_cases hholds : m.holds address bs.length = true
    · have hwrite : m.hostWrite address ⟨bs.toArray⟩ = .ok (m.write address bs) := by
        unfold Memory.hostWrite Memory.writeShared Memory.writeOwned Memory.write
        split <;> simp [hsize, hholds]
      simp only [hwrite, except_ok_bind, hmodify, Option.any_some, hholds, true_and, pure,
        Except.pure, Except.ok.injEq, eq_comm]
    · have hwrite : ∃ e, m.hostWrite address ⟨bs.toArray⟩ = .error e := by
        unfold Memory.hostWrite Memory.writeShared Memory.writeOwned
        split <;> simp [hsize, hholds]
      obtain ⟨e, hwrite⟩ := hwrite
      simp [hwrite, hholds]

/-! ## Steps of the hook -/

/-- Whether the memory that holds the control block reaches to its end. -/
def Instance.BlockFits (i : Instance) (st : Storage) : Prop :=
  Action.memoryHolds i.blockMemory i.controlBlock.address.toNat 8 st = true

theorem blockFits_of_memory {i : Instance} {st : Storage} {m : Memory}
    (hm : st.memories[i.blockMemory]? = some m)
    (h : m.holds i.controlBlock.address.toNat 8 = true) : i.BlockFits st := by
  simp [Instance.BlockFits, Action.memoryHolds, hm, h]

/-- The sandbox when the hook has the instance unwind, for want of gas to charge `cost`. -/
def unwinding (i : Instance) (sb : Sandbox) (cost : Int) : Sandbox :=
  ({ sb with
    gas := sb.gas - cost
    storage := i.written sb.storage i.controlBlock.address.toNat i.controlBlock.encode }).tell
      (.startUnwind i.controlBlock.address)

/-- What the hook does when it is entered to charge `cost`. -/
inductive HookStep (i : Instance) (sb : Sandbox) (t : Thread) (cost : Int) : Step → Prop
  | charged (running : sb.paused = false) (enough : cost ≤ sb.gas) :
      HookStep i sb t cost (.next ⟨{ sb with gas := sb.gas - cost }, { t with control := .give [] }⟩)
  | resuming {controls : Controls} (paused : sb.paused = true) (has : i.controls = some controls) :
      HookStep i sb t cost (.next ⟨sb.tell .stopRewind,
        ⟨.invoke controls.stopRewind [], .hook .resuming :: t.frames, t.depth + 1⟩⟩)
  | pausing {controls : Controls} (running : sb.paused = false) (short : sb.gas < cost)
      (has : i.controls = some controls) (fits : i.BlockFits sb.storage) :
      HookStep i sb t cost (.next ⟨unwinding i sb cost,
        ⟨.invoke controls.startUnwind [.ofWord i.controlBlock.address], .hook .pausing :: t.frames,
          t.depth + 1⟩⟩)
  | noRoom {controls : Controls} {e : ExecutionError} (running : sb.paused = false)
      (short : sb.gas < cost) (has : i.controls = some controls)
      (lacks : ¬i.BlockFits sb.storage) :
      HookStep i sb t cost (.failed e { sb with gas := sb.gas - cost })
  | noControls {e : ExecutionError} {gas : Int} (has : i.controls = none) :
      HookStep i sb t cost (.failed e { sb with gas })

theorem hookStep (i : Instance) (sb : Sandbox) (t : Thread) (cost : Int) :
    HookStep i sb t cost (stepHook i sb t cost) := by
  unfold stepHook
  by_cases hp : sb.paused = true
  · rw [if_pos hp, stepResume]
    split
    · have hfailed : HookStep i sb t cost
          (.failed (.missingExport "asyncify_*") { sb with gas := sb.gas }) := .noControls ‹_›
      exact hfailed
    · exact .resuming hp ‹_›
  · have hrunning := Bool.eq_false_iff.2 hp
    rw [if_neg hp]
    dsimp only
    split
    · exact .charged hrunning (Int.sub_nonneg.1 ‹_›)
    · have hshort : sb.gas < cost := Int.not_le.1 fun henough => absurd (Int.sub_nonneg.2 henough) ‹_›
      unfold stepPause
      split
      · exact .noControls ‹_›
      · rename_i controls hcontrols
        dsimp only
        split
        · rename_i e hwrite
          refine .noRoom hrunning hshort hcontrols fun hfits => ?_
          have hok : Sandbox.write? i { sb with gas := sb.gas - cost } _ _ = .ok _ :=
            write_eq_ok_iff.2 ⟨by rw [ControlBlock.length_encode i.controlBlock]; exact hfits, rfl⟩
          rw [hwrite] at hok
          cases hok
        · rename_i sb' hwrite
          obtain ⟨hfits, rfl⟩ := write_eq_ok_iff.1 hwrite
          rw [ControlBlock.length_encode] at hfits
          exact .pausing hrunning hshort hcontrols hfits

section
variable {i : Instance} {s s' : State}

/-- Where the hook is entered it is given what it charges, or fails. -/
theorem step_of_enters (h : EntersHook i s.thread) :
    (∃ func cost, s.thread.control = .invoke func [.i32 cost] ∧ i.function? func = some .hook ∧
        HookStep i s.sandbox s.thread cost.toInt (step i s)) ∨
      step i s = .failed (.trap .unreachable) s.sandbox := by
  obtain ⟨func, args, hcontrol, hhook⟩ := h
  rw [step, hcontrol]
  simp only [stepInvoke, hhook]
  split
  · exact .inl ⟨func, _, rfl, hhook, hookStep ..⟩
  · exact .inr rfl

/-- What there is gas for is charged. -/
theorem step_charged {func : UInt32} {cost : BitVec 32}
    (hcontrol : s.thread.control = .invoke func [.i32 cost])
    (hhook : i.function? func = some .hook) (hrunning : s.sandbox.paused = false)
    (henough : cost.toInt ≤ s.sandbox.gas) :
    step i s = .next ⟨{ s.sandbox with gas := s.sandbox.gas - cost.toInt },
      { s.thread with control := .give [] }⟩ := by
  rw [step, hcontrol]
  simp only [stepInvoke, hhook]
  rw [stepHook, if_neg (Bool.eq_false_iff.1 hrunning)]
  exact if_pos (Int.sub_nonneg.2 henough)

/-- For want of gas the instance is made to unwind. -/
theorem step_pausing {controls : Controls} {func : UInt32} {cost : BitVec 32}
    (hcontrol : s.thread.control = .invoke func [.i32 cost])
    (hhook : i.function? func = some .hook) (hcontrols : i.controls = some controls)
    (hrunning : s.sandbox.paused = false) (hshort : s.sandbox.gas < cost.toInt)
    (hfits : i.BlockFits s.sandbox.storage) :
    step i s = .next ⟨unwinding i s.sandbox cost.toInt,
      ⟨.invoke controls.startUnwind [.ofWord i.controlBlock.address],
        .hook .pausing :: s.thread.frames, s.thread.depth + 1⟩⟩ := by
  have hhooked := hookStep i s.sandbox s.thread cost.toInt
  rw [step, hcontrol]
  simp only [stepInvoke, hhook]
  generalize stepHook i s.sandbox s.thread cost.toInt = result at hhooked
  cases hhooked with
  | charged _ enough => omega
  | resuming paused => simp [paused] at hrunning
  | pausing _ _ has => rw [Option.some.inj (hcontrols.symm.trans has)]
  | noRoom _ _ _ lacks => exact absurd hfits lacks
  | noControls has => simp [has] at hcontrols

/-- For want of gas, and of room for the control block, the hook fails. -/
theorem step_no_room {controls : Controls} {func : UInt32} {cost : BitVec 32} {m : Memory}
    (hcontrol : s.thread.control = .invoke func [.i32 cost])
    (hhook : i.function? func = some .hook) (hcontrols : i.controls = some controls)
    (hrunning : s.sandbox.paused = false) (hshort : s.sandbox.gas < cost.toInt)
    (hm : s.sandbox.storage.memories[i.blockMemory]? = some m) (hshared : m.shared = false)
    (hlacks : m.size < i.controlBlock.address.toNat + 8) :
    step i s = .failed .ownedAccess { s.sandbox with gas := s.sandbox.gas - cost.toInt } := by
  have hlength : (⟨i.controlBlock.encode.toArray⟩ : ByteArray).size = 8 := by
    rw [ByteArray.size, List.size_toArray, ControlBlock.length_encode]
  have hholds : m.holds i.controlBlock.address.toNat 8 = false :=
    decide_eq_false (Nat.not_le.2 hlacks)
  have hwrite : Sandbox.write? i { s.sandbox with gas := s.sandbox.gas - cost.toInt }
      i.controlBlock.address.toNat ⟨i.controlBlock.encode.toArray⟩ = .error .ownedAccess := by
    simp [Sandbox.write?, hm, Memory.hostWrite, hshared, Memory.writeOwned, hlength, hholds]
  have hnegative : ¬0 ≤ s.sandbox.gas - cost.toInt :=
    fun henough => Int.not_le.2 hshort (Int.sub_nonneg.1 henough)
  rw [step, hcontrol]
  simp only [stepInvoke, hhook]
  rw [stepHook, if_neg (Bool.eq_false_iff.1 hrunning)]
  dsimp only
  rw [if_neg hnegative, stepPause, hcontrols]
  simp only [hwrite]

end

/-! ## Steps in code -/

/-- What running `op` makes of a thread; `code` is what is behind it. -/
inductive CodeStep (t : Thread) (a : Activation) (op : Operator) (code : List Operator) :
    Thread → Prop
  | leaves {t' : Thread} (ends : endsSegment op = true) (frames : t'.frames = t.frames)
      (left : ∀ b, t'.control ≠ .run b) : CodeStep t a op code t'
  | jumps {t' : Thread} {b : Activation} (ends : endsSegment op = true)
      (frames : t'.frames = t.frames) (control : t'.control = .run b) (func : b.func = a.func)
      (successor : some b.point ∈ ({ a with code } : Activation).point.successors op) :
      CodeStep t a op code t'
  | calls {func : UInt32} {args operands : List Value} (direct : ∀ f, op = .call f → func = f) :
      CodeStep t a op code
        ⟨.invoke func args, .activation { a with code, operands } :: t.frames, t.depth + 1⟩
  | computes {locals operands : List Value} (computes : ∀ f, op ≠ .call f) :
      CodeStep t a op code { t with control := .run { a with code, locals, operands } }

section
variable {i : Instance} {st : Storage} {sb : Sandbox} {a b : Activation} {t t' : Thread}
  {op : Operator} {code : List Operator} {s' : State}

theorem func_of_jump {k : Nat} {vs : List Value} (h : a.jump k vs = .run b) :
    b.func = a.func := by
  unfold Activation.jump Activation.branch at h
  split at h
  · rename_i hbranch
    cases h
    split at hbranch
    · cases hbranch
    · split at hbranch <;> cases hbranch <;> rfl
  · cases h

/-- Control flow that goes on in code does so in the same function. -/
theorem func_of_flow (h : flow? i st a t op = some (.ok t')) (hb : t'.control = .run b) :
    b.func = a.func := by
  unfold flow? at h
  split at h <;>
    simp only [reduceCtorEq, Option.some.injEq, Except.ok.injEq, except_bind_eq_ok] at h
  case h_2 | h_5 | h_6 =>
    cases h
    cases hb
    rfl
  case h_3 =>
    split at h <;> cases h <;> cases hb
    rfl
  case h_4 =>
    cases h
    cases hb
  case h_7 =>
    obtain ⟨c, -, h⟩ := h
    split at h
    · cases h
      cases hb
      rfl
    · split at h <;> cases h <;> cases hb
      · rfl
      · rfl
  case h_8 =>
    cases h
    exact func_of_jump hb
  case h_9 =>
    obtain ⟨c, -, h⟩ := h
    split at h <;> cases h
    · exact func_of_jump hb
    · cases hb
      rfl
  case h_10 =>
    obtain ⟨c, -, h⟩ := h
    cases h
    exact func_of_jump hb
  case h_11 | h_12 =>
    split at h <;> cases h
    cases hb
  case h_13 | h_14 =>
    obtain ⟨c, -, h⟩ := h
    cases h
    cases hb
  case h_15 =>
    obtain ⟨arity, -, h⟩ := Option.map_eq_some_iff.1 h
    obtain ⟨operands, -, h⟩ := except_bind_eq_ok.1 h
    cases h
    cases hb
    rfl

theorem codeStep (hcode : a.code = op :: code) (h : stepCode i sb t a = .next s') :
    CodeStep t a op code s'.thread := by
  unfold stepCode at h
  rw [hcode] at h
  dsimp only at h
  split at h
  · rename_i t' hflow
    cases h
    rcases endsSegment_of_flow hflow with hends | ⟨hends, operands, rfl⟩
    case inr =>
      refine .computes fun f hf => ?_
      subst hf
      simp only [flow?] at hflow
      split at hflow <;> cases hflow
    rcases frames_of_flow hflow with ⟨hcall, hframes⟩ | ⟨hcall, func, args, operands, rfl⟩
    · rw [hcall] at hends
      cases hcontrol : t'.control with
      | run b =>
        have hfunc := func_of_flow (a := { a with code }) hflow hcontrol
        refine .jumps hends hframes hcontrol hfunc ?_
        cases htail : isTailCall op with
        | true =>
          obtain ⟨func, args, hinvoke⟩ := control_of_tailCall htail hflow
          rw [hcontrol] at hinvoke
          cases hinvoke
        | false =>
          have hsuccessor := mem_successors_of_flow htail hflow
          rwa [Thread.point, hcontrol] at hsuccessor
      | invoke func args => exact .leaves hends hframes (by simp [hcontrol])
      | give results => exact .leaves hends hframes (by simp [hcontrol])
    · refine .calls fun f hf => ?_
      subst hf
      simp only [flow?] at hflow
      split at hflow <;> cases hflow
      rfl
  · cases h
  · rename_i hflow
    split at h
    · cases h
      refine .computes fun f hf => ?_
      subst hf
      simp only [flow?] at hflow
      split at hflow <;> cases hflow
    · cases h

end

/-! ## Steps beside the hook -/

/-- What a step that does not enter the hook makes of a thread. -/
inductive ThreadStep (i : Instance) : Thread → Thread → Prop
  | runs {a : Activation} {op : Operator} {code : List Operator} {frames : List Frame} {depth : Nat}
      {t' : Thread} (next : a.code = op :: code)
      (ran : CodeStep ⟨.run a, frames, depth⟩ a op code t') :
      ThreadStep i ⟨.run a, frames, depth⟩ t'
  | runsOut {a : Activation} {results : List Value} {frames : List Frame} {depth : Nat}
      (empty : a.code = []) : ThreadStep i ⟨.run a, frames, depth⟩ ⟨.give results, frames, depth⟩
  | answers {func : UInt32} {args results : List Value} {frames : List Frame} {depth : Nat} :
      ThreadStep i ⟨.invoke func args, frames, depth⟩ ⟨.give results, frames, depth⟩
  | enters {func : UInt32} {args : List Value} {type : FuncType} {locals : List ValType}
      {body : List Operator} {frames : List Frame} {depth : Nat}
      (code : i.function? func = some (.code type locals body)) :
      ThreadStep i ⟨.invoke func args, frames, depth⟩
        ⟨.run (.start func type locals body args), frames, depth⟩
  | comesBack {results operands : List Value} {a : Activation} {frames : List Frame}
      {depth depth' : Nat} : ThreadStep i ⟨.give results, .activation a :: frames, depth⟩
        ⟨.run { a with operands }, frames, depth'⟩
  | leavesHook {results : List Value} {stage : HookStage} {frames : List Frame}
      {depth depth' : Nat} :
      ThreadStep i ⟨.give results, .hook stage :: frames, depth⟩ ⟨.give [], frames, depth'⟩

theorem threadStep {i : Instance} {s s' : State} (henter : ¬EntersHook i s.thread)
    (h : step i s = .next s') : ThreadStep i s.thread s'.thread := by
  obtain ⟨sb, control, frames, depth⟩ := s
  cases control with
  | run a =>
    cases hcode : a.code with
    | nil =>
      simp only [step, stepCode, hcode] at h
      cases h
      exact .runsOut hcode
    | cons op code => exact .runs hcode (codeStep hcode h)
  | invoke func args =>
    simp only [step, stepInvoke] at h
    split at h
    · cases h
    · exact absurd ⟨func, args, rfl, ‹_›⟩ henter
    · split at h
      · cases h
      · split at h <;> cases h
        exact .answers
    · split at h <;> cases h
      exact .enters ‹_›
  | give results =>
    cases frames with
    | nil => cases h
    | cons frame frames =>
      cases frame with
      | activation a =>
        cases h
        exact .comesBack
      | hook stage =>
        cases h
        exact .leavesHook

section
variable {i : Instance} {s s' : State}

theorem unhooked_stepCode (sb : Sandbox) (t : Thread) (a : Activation) :
    Unhooked sb (stepSandbox (stepCode i sb t a)) := by
  unfold stepCode
  split
  · exact .refl _
  · dsimp only
    split
    · exact .refl _
    · exact .refl _
    · split <;> exact ⟨rfl, rfl, rfl⟩

theorem unhooked_stepInvoke {sb : Sandbox} {t : Thread} {func : UInt32} {args : List Value}
    (hhook : i.function? func ≠ some .hook) :
    Unhooked sb (stepSandbox (stepInvoke i sb t func args)) := by
  unfold stepInvoke
  split
  · exact .refl _
  · exact absurd ‹_› hhook
  · dsimp only
    split
    · exact ⟨rfl, rfl, rfl⟩
    · split <;> exact ⟨rfl, rfl, rfl⟩
  · split <;> exact .refl _

/-- Only the hook changes gas, the paused flag and the signals. -/
theorem unhooked_step (henter : ¬EntersHook i s.thread) (hleave : ¬LeavesHook s.thread) :
    Unhooked s.sandbox (stepSandbox (step i s)) := by
  obtain ⟨sb, control, frames, depth⟩ := s
  cases control with
  | run a => exact unhooked_stepCode ..
  | invoke func args => exact unhooked_stepInvoke fun hhook => henter ⟨func, args, rfl, hhook⟩
  | give results =>
    cases frames with
    | nil => exact .refl _
    | cons frame frames =>
      cases frame with
      | activation a => exact .refl _
      | hook stage => exact absurd ⟨results, stage, frames, rfl, rfl⟩ hleave

/-- How the frames change in a step: they stay, a caller comes on top of them, or the topmost one
goes on with results. -/
inductive Moves (t : Thread) : List Frame → Prop
  | stay : Moves t t.frames
  | push (a : Activation) : Moves t (.activation a :: t.frames)
  | pop {results : List Value} {frame : Frame} {frames : List Frame}
      (control : t.control = .give results) (top : t.frames = frame :: frames) : Moves t frames

/-- Only the hook puts a frame of its own on the stack. -/
theorem moves_step (henter : ¬EntersHook i s.thread) (h : step i s = .next s') :
    Moves s.thread s'.thread.frames := by
  have hstep := threadStep henter h
  generalize s.thread = t at hstep ⊢
  generalize s'.thread = t' at hstep ⊢
  cases hstep with
  | runs next ran =>
    cases ran with
    | leaves _ stay | jumps _ stay =>
      rw [stay]
      exact .stay
    | calls => exact .push _
    | computes => exact .stay
  | runsOut | answers | enters => exact .stay
  | comesBack | leavesHook => exact .pop rfl rfl

/-- Steps beside the hook keep the hooks that wait. -/
theorem stages_step (henter : ¬EntersHook i s.thread) (hleave : ¬LeavesHook s.thread)
    (h : step i s = .next s') : stages s'.thread.frames = stages s.thread.frames := by
  have hmoves := moves_step henter h
  generalize s'.thread.frames = after at hmoves
  cases hmoves with
  | stay => rfl
  | push a => rfl
  | @pop results frame _ hcontrol htop =>
    rw [htop]
    cases frame with
    | activation a => rfl
    | hook stage => exact absurd ⟨results, stage, _, hcontrol, htop⟩ hleave

/-- Where no call of the hook's is being run, none comes back. -/
theorem not_leaves_of_hookless (h : stages s.thread.frames = []) : ¬LeavesHook s.thread := by
  rintro ⟨results, stage, frames, -, hframes⟩
  rw [hframes] at h
  cases h

/-- Where the instance cannot unwind the hook calls nothing. -/
theorem hookless_next (hcontrols : i.controls = none) (hs : stages s.thread.frames = [])
    (h : step i s = .next s') : stages s'.thread.frames = [] := by
  by_cases henter : EntersHook i s.thread
  · rcases step_of_enters henter with ⟨_, cost, -, -, hhook⟩ | hfailed
    · rw [h] at hhook
      cases hhook with
      | charged => exact hs
      | resuming _ has | pausing _ _ has => rw [hcontrols] at has; cases has
    · rw [h] at hfailed
      cases hfailed
  · exact (stages_step henter (not_leaves_of_hookless hs) h).trans hs

end

/-! ## Calls above frames -/

/-- The thread gives results to `frames`: what has been called above them has come back. -/
def GivesTo (frames : List Frame) (t : Thread) : Prop :=
  t.frames = frames ∧ ∃ results, t.control = .give results

/-- Steps lead from one state to the other, while what has been called above `frames` has not come
back. -/
abbrev Above (i : Instance) (frames : List Frame) : State → State → Prop :=
  Relation.ReflTransGen fun s s' => ¬GivesTo frames s.thread ∧ step i s = .next s'

/-- No call of the function enters the hook, whatever it is called with and wherever. -/
def Quiet (i : Instance) (func : UInt32) : Prop :=
  ∀ (sandbox : Sandbox) (args : List Value) (frames : List Frame) (depth : Nat) (s : State),
    Above i frames ⟨sandbox, ⟨.invoke func args, frames, depth⟩⟩ s → ¬EntersHook i s.thread

section
variable {i : Instance} {func : UInt32} {sb : Sandbox} {args : List Value} {frames : List Frame}
  {depth : Nat} {s : State}

/-- What a quiet call has done so far: nothing to what the hook changes, nor to the frames below. -/
structure Undisturbed (sb : Sandbox) (frames : List Frame) (s : State) : Prop where
  unhooked : Unhooked sb s.sandbox
  below : frames <:+ s.thread.frames
  stages : stages s.thread.frames = stages frames

/-- A hook that waits above frames is one of theirs. -/
theorem Undisturbed.not_leaves (h : Undisturbed sb frames s) (hback : ¬GivesTo frames s.thread) :
    ¬LeavesHook s.thread := by
  rintro ⟨results, stage, rest, hcontrol, htop⟩
  have hbelow := h.below
  have hstages := h.stages
  rw [htop] at hbelow hstages
  rcases List.suffix_cons_iff.1 hbelow with heq | hrest
  · exact hback ⟨htop.trans heq.symm, results, hcontrol⟩
  · obtain ⟨more, rfl⟩ := hrest
    have hlength := congrArg List.length hstages
    simp only [stages_hook, stages_append, List.length_cons, List.length_append] at hlength
    omega

/-- A quiet call does nothing to what the hook changes, until it comes back. -/
theorem Quiet.above (hquiet : Quiet i func)
    (h : Above i frames ⟨sb, ⟨.invoke func args, frames, depth⟩⟩ s) : Undisturbed sb frames s := by
  induction h with
  | refl => exact ⟨.refl _, List.suffix_refl _, rfl⟩
  | @tail s₁ s₂ hreach hstep ih =>
    obtain ⟨hback, hstep⟩ := hstep
    have henter := hquiet _ _ _ _ _ hreach
    have hleave := ih.not_leaves hback
    have hunhooked := unhooked_step henter hleave
    rw [hstep] at hunhooked
    refine ⟨⟨hunhooked.gas.trans ih.unhooked.gas, hunhooked.paused.trans ih.unhooked.paused,
      hunhooked.signals.trans ih.unhooked.signals⟩, ?_,
      (stages_step henter hleave hstep).trans ih.stages⟩
    have hbelow := ih.below
    have hmoves := moves_step henter hstep
    generalize s₂.thread.frames = after at hmoves
    cases hmoves with
    | stay => exact hbelow
    | push a => exact hbelow.trans (List.suffix_cons _ _)
    | @pop results frame _ hcontrol htop =>
      rw [htop] at hbelow
      rcases List.suffix_cons_iff.1 hbelow with heq | hrest
      · exact absurd ⟨htop.trans heq.symm, results, hcontrol⟩ hback
      · exact hrest

/-- A function that does nothing is quiet. -/
theorem quiet_of_empty {type : FuncType} {locals : List ValType}
    (hf : i.function? func = some (.code type locals [.endMark])) : Quiet i func := by
  intro sb args frames depth s h
  have hstands : s.thread.control = .invoke func args ∧ s.thread.frames = frames ∨
      (∃ a, s.thread.control = .run a ∧ a.code = [.endMark] ∧ a.labels = [] ∧
        s.thread.frames = frames) ∨ GivesTo frames s.thread := by
    induction h with
    | refl => exact .inl ⟨rfl, rfl⟩
    | @tail s₁ s₂ _ hstep ih =>
      obtain ⟨hback, hstep⟩ := hstep
      obtain ⟨sb₁, control, frames₁, depth₁⟩ := s₁
      rcases ih with ⟨hcontrol, hframes⟩ | ⟨a, hcontrol, hcode, hlabels, hframes⟩ | hgives
      · cases hcontrol
        simp only [step, stepInvoke, hf] at hstep
        split at hstep <;> cases hstep
        exact .inr (.inl ⟨_, rfl, rfl, rfl, hframes⟩)
      · cases hcontrol
        simp only [step, stepCode, hcode, flow?, hlabels] at hstep
        cases hstep
        exact .inr (.inr ⟨hframes, _, rfl⟩)
      · exact absurd hgives hback
  rintro ⟨func', args', hcontrol, hhook⟩
  rcases hstands with ⟨hinvoke, -⟩ | ⟨a, hrun, -⟩ | ⟨-, results, hgive⟩
  · rw [hinvoke] at hcontrol
    cases hcontrol
    rw [hf] at hhook
    cases hhook
  · rw [hrun] at hcontrol
    cases hcontrol
  · rw [hgive] at hcontrol
    cases hcontrol

end

end MeteredWasm.Machine
