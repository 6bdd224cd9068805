import MeteredWasm.Proofs.Machine.Trail
import MeteredWasm.Sandbox.Executor

/-!
# One tick

A tick is a row of calls (`OwnTick`): the instance is told to rewind if it is paused, its entry is
called, and it is told to stop unwinding if it is paused then. Each call is a run of the machine.
-/

set_option autoImplicit false

namespace MeteredWasm

open Wasm Machine Simulation

namespace Executor

/-! ## Calls -/

/-- A function that is called from outside returns. -/
def Returns (i : Instance) (fuel : Nat) (func : UInt32) (args : List Value)
    (sb sb' : Sandbox) : Prop :=
  ∃ results, Machine.run i fuel ⟨sb, .call func args⟩ = some (.finished results sb')

/-- The sandbox that the entry is called in: a paused instance is told to rewind before. -/
def Rewound (i : Instance) (fuel : Nat) (startRewind : UInt32) (sb sb' : Sandbox) : Prop :=
  if sb.paused then
    Returns i fuel startRewind [.ofWord i.controlBlock.address]
      (sb.tell (.startRewind i.controlBlock.address)) sb'
  else sb' = sb

section
variable {i : Instance} {fuel : Nat} {func : UInt32} {args : List Value} {sb sb' : Sandbox}

/-- A quiet function that is called from outside does nothing to what the hook changes. -/
theorem Returns.unhooked (h : Returns i fuel func args sb sb') (hquiet : Quiet i func) :
    Unhooked sb sb' := by
  obtain ⟨results, hrun⟩ := h
  obtain ⟨visited, s, htrail, hend, -⟩ := exists_trail_of_run hrun
  obtain ⟨-, -, rfl⟩ := give_of_finished (Step.eq_finished hend)
  exact (hquiet.above htrail.above).unhooked

theorem call_eq_ok :
    call i fuel func args sb = some (.ok (), sb') ↔ Returns i fuel func args sb sb' := by
  unfold call Returns
  cases Machine.run i fuel ⟨sb, .call func args⟩ with
  | none => simp
  | some o => cases o <;> simp

theorem call_eq_error {error : ExecutionError} : call i fuel func args sb = some (.error error, sb') ↔
    Machine.run i fuel ⟨sb, .call func args⟩ = some (.failed error sb') := by
  unfold call
  cases Machine.run i fuel ⟨sb, .call func args⟩ with
  | none => simp
  | some o => cases o <;> simp

/-- More steps never change that a function returns. -/
theorem Returns.add (h : Returns i fuel func args sb sb') (more : Nat) :
    Returns i (fuel + more) func args sb sb' := by
  obtain ⟨results, hrun⟩ := h
  exact ⟨results, run_add hrun more⟩

theorem Rewound.add (h : Rewound i fuel func sb sb') (more : Nat) :
    Rewound i (fuel + more) func sb sb' := by
  unfold Rewound at h ⊢
  split at h
  · rw [if_pos ‹_›]
    exact h.add more
  · rw [if_neg ‹_›]
    exact h

theorem call_add {answer : Except ExecutionError Unit × Sandbox}
    (h : call i fuel func args sb = some answer) (more : Nat) :
    call i (fuel + more) func args sb = some answer := by
  unfold call at h ⊢
  cases hrun : Machine.run i fuel ⟨sb, .call func args⟩ with
  | none => simp [hrun] at h
  | some o => rwa [run_add hrun more, ← hrun]

end

/-! ## Parts of a tick -/

section
variable {sb sb' : Sandbox}

theorem tick_bind_of_error {α β : Type} {x : Tick α} {k : α → Tick β} {error : ExecutionError}
    (h : x sb = some (.error error, sb')) : (x >>= k) sb = some (.error error, sb') := by
  simp only [bind, ExceptT.bind, ExceptT.mk, StateT.bind, h]
  rfl

/-- What comes of a computation with two parts comes of the second one, unless the first one
fails. -/
theorem tick_bind_cases {α β : Type} {x : Tick α} {k : α → Tick β}
    {answer : Except ExecutionError β} (h : (x >>= k) sb = some (answer, sb')) :
    (∃ error, x sb = some (.error error, sb') ∧ answer = .error error) ∨
      ∃ a sb₁, x sb = some (.ok a, sb₁) ∧ k a sb₁ = some (answer, sb') := by
  simp only [bind, ExceptT.bind, ExceptT.mk, StateT.bind, Option.bind_eq_some_iff] at h
  obtain ⟨⟨result, sb₁⟩, hx, hk⟩ := h
  cases result with
  | ok a => exact .inr ⟨a, sb₁, hx, hk⟩
  | error e =>
    cases hk
    exact .inl ⟨e, hx, rfl⟩

theorem tick_bind_eq_ok {α β : Type} {x : Tick α} {k : α → Tick β} {b : β}
    (h : (x >>= k) sb = some (.ok b, sb')) :
    ∃ a sb₁, x sb = some (.ok a, sb₁) ∧ k a sb₁ = some (.ok b, sb') := by
  rcases tick_bind_cases h with ⟨_, -, hfailed⟩ | hok
  · cases hfailed
  · exact hok

theorem tick_bind_of_ok {α β : Type} {x : Tick α} {k : α → Tick β} {a : α}
    (h : x sb = some (.ok a, sb')) : (x >>= k) sb = k a sb' := by
  simp only [bind, ExceptT.bind, ExceptT.mk, StateT.bind, h]
  rfl

/-- A computation comes to the same if its parts do. -/
theorem tick_bind_add {α β : Type} {x x' : Tick α} {k k' : α → Tick β}
    (hx : ∀ sb answer, x sb = some answer → x' sb = some answer)
    (hk : ∀ a sb answer, k a sb = some answer → k' a sb = some answer)
    {answer : Except ExecutionError β × Sandbox} (h : (x >>= k) sb = some answer) :
    (x' >>= k') sb = some answer := by
  obtain ⟨answer, sb'⟩ := answer
  rcases tick_bind_cases h with ⟨error, hfailed, rfl⟩ | ⟨a, sb₁, hfirst, hrest⟩
  · exact tick_bind_of_error (hx _ _ hfailed)
  · rw [tick_bind_of_ok (hx _ _ hfirst)]
    exact hk _ _ _ hrest

theorem tick_modify_bind {β : Type} (f : Sandbox → Sandbox) (k : Unit → Tick β) (sb : Sandbox) :
    ((modify f : Tick Unit) >>= k) sb = k () (f sb) := rfl


end

section
variable {i : Instance} {fuel : Nat} {startRewind stopUnwind : UInt32} {sb sb' : Sandbox}

theorem checkPosition_eq (i : Instance) (sb : Sandbox) : checkPosition i sb =
    if i.controlBlock.stackEnd < position i sb then
      some (.error (.stackOverflow (position i sb) i.controlBlock.stackEnd), sb)
    else some (.ok (), sb) := by
  change (if i.controlBlock.stackEnd < position i sb then
      throw (.stackOverflow (position i sb) i.controlBlock.stackEnd)
    else pure () : Tick Unit) sb = _
  split <;> rfl

/-- The position is the word at the address of the control block. -/
theorem position_of_load {m : Memory} {n : Nat} (hm : sb.storage.memories[i.blockMemory]? = some m)
    (h : m.load i.controlBlock.address.toNat 4 = .ok n) : position i sb = n.toUInt32 := by
  unfold Memory.load at h
  split at h
  · rename_i hholds
    simp only [Memory.holds, decide_eq_true_eq] at hholds
    cases h
    have hinside : i.controlBlock.address.toNat + 4 ≤ m.bytes.size := hholds
    rw [position, memoryOf, hm, Option.getD_some, ControlBlock.position, if_pos hinside,
      Option.getD_some, byteArray_toList]
    rfl
  · cases h

theorem rewind_eq : rewind i fuel startRewind sb =
    if sb.paused then call i fuel startRewind [.ofWord i.controlBlock.address]
      (sb.tell (.startRewind i.controlBlock.address))
    else some (.ok (), sb) := by
  change (if sb.paused then do
      modify (·.tell (.startRewind i.controlBlock.address))
      call i fuel startRewind [.ofWord i.controlBlock.address]
    else pure () : Tick Unit) sb = _
  split
  · exact tick_bind_of_ok (k := fun _ => call i fuel startRewind _) rfl
  · rfl

theorem rewind_eq_ok :
    rewind i fuel startRewind sb = some (.ok (), sb') ↔ Rewound i fuel startRewind sb sb' := by
  rw [rewind_eq, Rewound]
  split
  · exact call_eq_ok
  · simp [eq_comm]

theorem unwound_eq : unwound i fuel stopUnwind sb =
    if sb.paused then (do
      checkPosition i
      modify (·.tell .stopUnwind)
      call i fuel stopUnwind []
      return false : Tick Bool) sb
    else some (.ok true, sb) := by
  change (if sb.paused then do
      checkPosition i
      modify (·.tell .stopUnwind)
      call i fuel stopUnwind []
      return false
    else return true : Tick Bool) sb = _
  split <;> rfl

theorem unwound_of_room (hp : sb.paused = true)
    (hroom : ¬i.controlBlock.stackEnd < position i sb)
    (h : Returns i fuel stopUnwind [] (sb.tell .stopUnwind) sb') :
    unwound i fuel stopUnwind sb = some (.ok false, sb') := by
  have hcheck : checkPosition i sb = some (.ok (), sb) := by rw [checkPosition_eq, if_neg hroom]
  have hstop := call_eq_ok.2 h
  rw [unwound_eq, if_pos hp, tick_bind_of_ok hcheck]
  exact (tick_modify_bind ..).trans (tick_bind_of_ok hstop)

end

/-! ## Ticks -/

/-- How a tick ends that does not fail. -/
inductive OwnTick (i : Instance) (fuel : Nat) (entry : UInt32) (controls : Controls)
    (sb : Sandbox) : Bool → Sandbox → Prop
  | returned {sb₁ sb₂ : Sandbox} (rewound : Rewound i fuel controls.startRewind sb sb₁)
      (entered : Returns i fuel entry [] sb₁ sb₂) (running : sb₂.paused = false) :
      OwnTick i fuel entry controls sb true sb₂
  | captured {sb₁ sb₂ sb₃ : Sandbox} (rewound : Rewound i fuel controls.startRewind sb sb₁)
      (entered : Returns i fuel entry [] sb₁ sb₂) (paused : sb₂.paused = true)
      (room : ¬i.controlBlock.stackEnd < position i sb₂)
      (stopped : Returns i fuel controls.stopUnwind [] (sb₂.tell .stopUnwind) sb₃) :
      OwnTick i fuel entry controls sb false sb₃

section
variable {e : Executor} {fuel : Nat} {controls : Controls} {sb sb' : Sandbox} {finished : Bool}

theorem tick_eq (h : e.instance_.controls = some controls) : e.tick fuel = (do
    rewind e.instance_ fuel controls.startRewind
    call e.instance_ fuel e.entry []
    unwound e.instance_ fuel controls.stopUnwind) := by
  rw [tick, h]

/-- What the answer of a tick says about the calls that it has made. -/
theorem ownTick_of_tick (h : e.tick fuel sb = some (.ok finished, sb')) :
    ∃ controls, e.instance_.controls = some controls ∧
      OwnTick e.instance_ fuel e.entry controls sb finished sb' := by
  cases hcontrols : e.instance_.controls with
  | none =>
    rw [tick, hcontrols] at h
    cases h
  | some controls =>
    refine ⟨controls, rfl, ?_⟩
    rw [tick_eq hcontrols] at h
    obtain ⟨_, sb₁, hrewind, h⟩ := tick_bind_eq_ok h
    obtain ⟨_, sb₂, hentry, h⟩ := tick_bind_eq_ok h
    have hrewound := rewind_eq_ok.1 hrewind
    have hentered := call_eq_ok.1 hentry
    rw [unwound_eq] at h
    split at h
    · obtain ⟨_, sb₃, hcheck, h⟩ := tick_bind_eq_ok h
      obtain ⟨_, sb₄, hnote, h⟩ := tick_bind_eq_ok h
      obtain ⟨_, sb₅, hstop, h⟩ := tick_bind_eq_ok h
      cases h
      cases hnote
      rw [checkPosition_eq] at hcheck
      split at hcheck <;> cases hcheck
      exact .captured hrewound hentered ‹_› ‹_› (call_eq_ok.1 hstop)
    · cases h
      exact .returned hrewound hentered (Bool.eq_false_iff.2 ‹_›)

theorem tick_of_ownTick (hcontrols : e.instance_.controls = some controls)
    (h : OwnTick e.instance_ fuel e.entry controls sb finished sb') :
    e.tick fuel sb = some (.ok finished, sb') := by
  rw [tick_eq hcontrols]
  cases h with
  | returned rewound entered running =>
    rw [tick_bind_of_ok (rewind_eq_ok.2 rewound), tick_bind_of_ok (call_eq_ok.2 entered), unwound_eq,
      if_neg (Bool.eq_false_iff.1 running)]
  | captured rewound entered paused room stopped =>
    rw [tick_bind_of_ok (rewind_eq_ok.2 rewound), tick_bind_of_ok (call_eq_ok.2 entered)]
    exact unwound_of_room paused room stopped

/-- More steps never change what comes of a tick. -/
theorem tick_add {answer : Except ExecutionError Bool × Sandbox} (h : e.tick fuel sb = some answer)
    (more : Nat) : e.tick (fuel + more) sb = some answer := by
  cases hcontrols : e.instance_.controls with
  | none => simpa only [tick, hcontrols] using h
  | some controls =>
    have hcall (func : UInt32) (args : List Value) (sb : Sandbox)
        (x : Except ExecutionError Unit × Sandbox) :
        call e.instance_ fuel func args sb = some x →
          call e.instance_ (fuel + more) func args sb = some x := fun hx => call_add hx more
    rw [tick_eq hcontrols] at h ⊢
    refine tick_bind_add (fun sb x hx => ?_)
      (fun _ sb x => tick_bind_add (hcall _ _) fun _ sb x hx => ?_) h
    · rw [rewind_eq] at hx ⊢
      split at hx
      · rw [if_pos ‹_›]
        exact hcall _ _ _ _ hx
      · rw [if_neg ‹_›]
        exact hx
    · rw [unwound_eq] at hx ⊢
      split at hx
      · rw [if_pos ‹_›]
        exact tick_bind_add (fun _ _ => id) (fun _ _ _ => tick_bind_add (fun _ _ => id)
          fun _ _ _ => tick_bind_add (hcall _ _) fun _ _ _ => id) hx
      · rw [if_neg ‹_›]
        exact hx

/-- A tick ends if the calls that it makes end. -/
theorem exists_tick (hcontrols : e.instance_.controls = some controls)
    (hstart : sb.paused = true → ∃ o, Ends e.instance_
      ⟨sb.tell (.startRewind e.instance_.controlBlock.address),
        .call controls.startRewind [.ofWord e.instance_.controlBlock.address]⟩ o)
    (hentry : ∀ fuel sb₁, Rewound e.instance_ fuel controls.startRewind sb sb₁ →
      ∃ o, Ends e.instance_ ⟨sb₁, .call e.entry []⟩ o)
    (hstop : ∀ fuel sb₁ sb₂, Rewound e.instance_ fuel controls.startRewind sb sb₁ →
      Returns e.instance_ fuel e.entry [] sb₁ sb₂ → sb₂.paused = true →
      ¬e.instance_.controlBlock.stackEnd < position e.instance_ sb₂ →
      ∃ o, Ends e.instance_ ⟨sb₂.tell .stopUnwind, .call controls.stopUnwind []⟩ o) :
    ∃ fuel answer, e.tick fuel sb = some answer := by
  simp only [tick_eq hcontrols]
  -- what comes of the first part, with as many steps as it takes
  have hrewind : (∃ fuel error sb', rewind e.instance_ fuel controls.startRewind sb =
      some (.error error, sb')) ∨ ∃ fuel sb₁, Rewound e.instance_ fuel controls.startRewind sb sb₁ := by
    by_cases hp : sb.paused = true
    · obtain ⟨o, fuel, hrun⟩ := hstart hp
      cases o with
      | failed error sb' =>
        exact .inl ⟨fuel, error, sb', by rw [rewind_eq, if_pos hp]; exact call_eq_error.2 hrun⟩
      | finished results sb₁ =>
        exact .inr ⟨fuel, sb₁, by rw [Rewound, if_pos hp]; exact ⟨results, hrun⟩⟩
    · exact .inr ⟨0, sb, by rw [Rewound, if_neg hp]⟩
  rcases hrewind with ⟨fuel, error, sb', hfailed⟩ | ⟨fuel, sb₁, hrewound⟩
  · exact ⟨fuel, _, tick_bind_of_error hfailed⟩
  · obtain ⟨o, more, hrun⟩ := hentry fuel sb₁ hrewound
    have hrun := run_add hrun fuel
    rw [Nat.add_comm] at hrun
    have hrewound := hrewound.add more
    cases o with
    | failed error sb' =>
      refine ⟨fuel + more, ?_⟩
      rw [tick_bind_of_ok (rewind_eq_ok.2 hrewound)]
      exact ⟨_, tick_bind_of_error (call_eq_error.2 hrun)⟩
    | finished results sb₂ =>
      have hentered : Returns e.instance_ (fuel + more) e.entry [] sb₁ sb₂ := ⟨results, hrun⟩
      by_cases hp : sb₂.paused = true
      · by_cases hover : e.instance_.controlBlock.stackEnd < position e.instance_ sb₂
        · have hcheck := checkPosition_eq e.instance_ sb₂
          rw [if_pos hover] at hcheck
          refine ⟨fuel + more, ?_⟩
          rw [tick_bind_of_ok (rewind_eq_ok.2 hrewound), tick_bind_of_ok (call_eq_ok.2 hentered),
            unwound_eq, if_pos hp]
          exact ⟨_, tick_bind_of_error hcheck⟩
        · obtain ⟨o, more', hrun'⟩ := hstop _ _ _ hrewound hentered hp hover
          have hrun' := run_add hrun' (fuel + more)
          rw [Nat.add_comm] at hrun'
          refine ⟨fuel + more + more', ?_⟩
          rw [tick_bind_of_ok (rewind_eq_ok.2 (hrewound.add more')),
            tick_bind_of_ok (call_eq_ok.2 (hentered.add more'))]
          cases o with
          | failed error sb' =>
            have hcheck := checkPosition_eq e.instance_ sb₂
            rw [if_neg hover] at hcheck
            rw [unwound_eq, if_pos hp, tick_bind_of_ok hcheck, tick_modify_bind]
            exact ⟨_, tick_bind_of_error (call_eq_error.2 hrun')⟩
          | finished results' sb₃ => exact ⟨_, unwound_of_room hp hover ⟨results', hrun'⟩⟩
      · refine ⟨fuel + more, ?_⟩
        rw [tick_bind_of_ok (rewind_eq_ok.2 hrewound), tick_bind_of_ok (call_eq_ok.2 hentered),
          unwound_eq, if_neg hp]
        exact ⟨_, rfl⟩

end

end Executor

end MeteredWasm
