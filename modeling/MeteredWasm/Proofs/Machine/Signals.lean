import MeteredWasm.Proofs.Machine.Hook

/-!
# Signals

What an instance is told while it runs, by calls of its own functions. The hook has it stop rewinding
if it is paused, and start unwinding if it is not and gas has run out (`toldAt_of_signal`); so the
signals of a run alternate (`Alternates`, `Phase.trail`). The flag of the sandbox alone does not say
which of them comes next: it changes when the call comes back. The calls do nothing to it as long as
they are quiet (`Phase`).
-/

set_option autoImplicit false

namespace MeteredWasm.Machine

open Wasm Simulation

/-! ## What is told -/

/-- What the instance is told with the step from `s`, if anything. -/
def signalOf? (i : Instance) (s : State) : Option Signal :=
  let signals := (stepSandbox (step i s)).signals
  if signals = s.sandbox.signals then none else signals.head?

/-- What the instance is told on the way through states. -/
def told (i : Instance) (visited : List State) : List Signal := visited.filterMap (signalOf? i)

/-- The hook is entered with the instance paused, and has it stop rewinding. -/
structure StopsRewind (i : Instance) (s : State) : Prop where
  entered : EntersHook i s.thread
  paused : s.sandbox.paused = true
  calls : ∃ controls, i.controls = some controls ∧ step i s =
    .next ⟨s.sandbox.tell .stopRewind,
      ⟨.invoke controls.stopRewind [], .hook .resuming :: s.thread.frames, s.thread.depth + 1⟩⟩

/-- The control block in `m'` says where the stack region starts and ends, in two words at its
address; all else is as in `m`. -/
structure HoldsBlock (block : ControlBlock) (m m' : Memory) : Prop where
  start : m'.load block.address.toNat 4 = .ok block.stackStart.toNat
  stop : m'.load (block.address.toNat + 4) 4 = .ok block.stackEnd.toNat
  others : m.Agrees (fun k => block.address.toNat ≤ k ∧ k < block.address.toNat + 8) m'

/-- From `st` to `st'` the control block has been written, and nothing else. -/
def BlockWritten (i : Instance) (st st' : Storage) : Prop :=
  ∃ m m', st.memories[i.blockMemory]? = some m ∧ HoldsBlock i.controlBlock m m' ∧
    st' = st.modifyMemory i.blockMemory fun _ => m'

/-- The hook is entered with the instance not paused, and what it charges leaves gas below zero; so
it writes the control block and has the instance start unwinding. -/
structure StartsUnwind (i : Instance) (s : State) : Prop where
  entered : ∃ func cost, s.thread.control = .invoke func [.i32 cost] ∧
    i.function? func = some .hook ∧ s.sandbox.gas - cost.toInt < 0
  running : s.sandbox.paused = false
  calls : ∃ controls s', i.controls = some controls ∧ step i s = .next s' ∧
    BlockWritten i s.sandbox.storage s'.sandbox.storage ∧
    s'.thread = ⟨.invoke controls.startUnwind [.ofWord i.controlBlock.address],
      .hook .pausing :: s.thread.frames, s.thread.depth + 1⟩

/-- How a step comes to tell the instance something. -/
def ToldAt (i : Instance) (s : State) : Signal → Prop
  | .stopRewind => StopsRewind i s
  | .startUnwind address => address = i.controlBlock.address ∧ StartsUnwind i s
  | .startRewind _ | .stopUnwind => False

section
variable {i : Instance} {s s' : State} {signal : Signal}

theorem word_of_take {n : UInt32} {bs more : Bytes} (h : bs = LittleEndian.write 4 n.toNat ++ more) :
    LittleEndian.value (bs.take 4) = n.toNat := by
  have hlength := LittleEndian.length_write 4 n.toNat
  rw [h, List.take_append_of_le_length (by omega), List.take_of_length_le (by omega),
    LittleEndian.value_write]
  exact Nat.mod_eq_of_lt n.toNat_lt

theorem holdsBlock (block : ControlBlock) {m : Memory} (h : m.holds block.address.toNat 8 = true) :
    HoldsBlock block m (m.write block.address.toNat block.encode) := by
  have hlength := block.length_encode
  rw [← hlength] at h
  refine ⟨?_, ?_, ?_⟩
  · have hload := Memory.load_write h (show 0 + 4 ≤ block.encode.length by omega)
    have hword : block.encode = LittleEndian.write 4 block.stackStart.toNat ++
        LittleEndian.write 4 block.stackEnd.toNat := by rw [ControlBlock.encode]
    rw [Nat.add_zero, List.drop_zero, word_of_take hword] at hload
    exact hload
  · have hload := Memory.load_write h (show 4 + 4 ≤ block.encode.length by omega)
    have hdrop : block.encode.drop 4 = LittleEndian.write 4 block.stackEnd.toNat ++ [] := by
      rw [ControlBlock.encode, List.drop_left' (LittleEndian.length_write ..), List.append_nil]
    rw [hload, word_of_take hdrop]
  · have hagrees := Memory.agrees_write h
    rwa [hlength] at hagrees

theorem blockWritten {st : Storage} (h : i.BlockFits st) :
    BlockWritten i st (i.written st i.controlBlock.address.toNat i.controlBlock.encode) := by
  unfold Instance.BlockFits Action.memoryHolds at h
  obtain ⟨m, hm, hholds⟩ := (Option.any_eq_true _ _).1 h
  exact ⟨m, _, hm, holdsBlock i.controlBlock hholds,
    Storage.modifyMemory_congr fun m' hm' => by rw [Option.some.inj (hm.symm.trans hm')]⟩

theorem signalOf_eq_none (h : (stepSandbox (step i s)).signals = s.sandbox.signals) :
    signalOf? i s = none := if_pos h

theorem signalOf_eq_some (h : (stepSandbox (step i s)).signals = signal :: s.sandbox.signals) :
    signalOf? i s = some signal := by
  have hne : signal :: s.sandbox.signals ≠ s.sandbox.signals := List.cons_ne_self _ _
  simp only [signalOf?, h, if_neg hne, List.head?_cons]

/-- Where the hook is not entered the instance is told nothing. -/
theorem signals_of_not_enters (henter : ¬EntersHook i s.thread) :
    (stepSandbox (step i s)).signals = s.sandbox.signals := by
  by_cases hleave : LeavesHook s.thread
  · obtain ⟨results, stage, frames, hcontrol, hframes⟩ := hleave
    rw [step, hcontrol]
    simp only [stepGive, hframes, stepSandbox]
  · exact (unhooked_step henter hleave).signals

/-- A step tells the instance nothing, or one thing for a reason. -/
theorem signals_step (i : Instance) (s : State) :
    (stepSandbox (step i s)).signals = s.sandbox.signals ∨
      ∃ signal, (stepSandbox (step i s)).signals = signal :: s.sandbox.signals ∧
        ToldAt i s signal := by
  by_cases henter : EntersHook i s.thread
  · rcases step_of_enters henter with ⟨func, cost, hcontrol, hfunc, hhook⟩ | hfailed
    · have hshort (hlt : s.sandbox.gas < cost.toInt) : ∃ func cost,
          s.thread.control = .invoke func [.i32 cost] ∧ i.function? func = some .hook ∧
            s.sandbox.gas - cost.toInt < 0 := ⟨func, cost, hcontrol, hfunc, Int.sub_neg_of_lt hlt⟩
      generalize hstep : step i s = result at hhook
      cases hhook with
      | charged | noRoom | noControls => exact .inl rfl
      | resuming paused has =>
        exact .inr ⟨.stopRewind, rfl, henter, paused, _, has, hstep⟩
      | pausing running short has fits =>
        exact .inr ⟨.startUnwind _, rfl, rfl, hshort short, running, _, _, has, hstep,
          blockWritten fits, rfl⟩
    · rw [hfailed]
      exact .inl rfl
  · exact .inl (signals_of_not_enters henter)

theorem signals_eq (i : Instance) (s : State) :
    (stepSandbox (step i s)).signals = (signalOf? i s).toList ++ s.sandbox.signals := by
  rcases signals_step i s with hsame | ⟨signal, hsignal, -⟩
  · rw [signalOf_eq_none hsame, hsame]
    rfl
  · rw [signalOf_eq_some hsignal, hsignal]
    rfl

/-- What the instance is told it is told for a reason. -/
theorem toldAt_of_signal (h : signalOf? i s = some signal) : ToldAt i s signal := by
  rcases signals_step i s with hsame | ⟨signal', hsignal, htold⟩
  · rw [signalOf_eq_none hsame] at h
    cases h
  · rw [signalOf_eq_some hsignal] at h
    cases h
    exact htold

theorem signals_trail {visited : List State} (h : Trail i s visited s') :
    s'.sandbox.signals = (told i visited).reverse ++ s.sandbox.signals := by
  induction h with
  | here => rfl
  | @step visited s₁ s₂ _ hstep ih =>
    have hlast := signals_eq i s₁
    rw [hstep] at hlast
    change s₂.sandbox.signals = _ at hlast
    rw [hlast, ih, told, told, List.filterMap_append, List.reverse_append, List.append_assoc]
    cases hsignal : signalOf? i s₁ <;> simp [hsignal]

end

/-! ## What alternates -/

/-- Signals that are told in turn: to stop rewinding if the instance is paused, and to unwind if it
is not; and it is paused in the end or not. -/
def Alternates (address : UInt32) : Bool → List Signal → Bool → Prop
  | paused, [], ending => paused = ending
  | true, .stopRewind :: signals, ending => Alternates address false signals ending
  | false, .startUnwind a :: signals, ending => a = address ∧ Alternates address true signals ending
  | _, _ :: _, _ => False

theorem Alternates.append {address : UInt32} {paused between ending : Bool}
    {signals more : List Signal} (h : Alternates address paused signals between)
    (hm : Alternates address between more ending) :
    Alternates address paused (signals ++ more) ending := by
  induction signals generalizing paused with
  | nil =>
    obtain rfl : paused = between := h
    exact hm
  | cons signal signals ih =>
    cases paused <;> cases signal <;> first | exact h.elim | skip
    · exact ⟨h.1, ih h.2⟩
    · exact @ih false h

/-- The functions that unwind and rewind an instance are quiet. -/
def ControlsQuiet (i : Instance) : Prop :=
  ∀ controls, i.controls = some controls →
    ∀ func ∈ [controls.startUnwind, controls.stopUnwind, controls.startRewind, controls.stopRewind],
      Quiet i func

/-- Whether the instance is paused, as what it has been told last says. That is what the flag says,
but for a call that the hook makes: the flag changes when it comes back. -/
inductive Phase (i : Instance) (s : State) : Bool → Prop
  | outside (hookless : stages s.thread.frames = []) : Phase i s s.sandbox.paused
  | inside {stage : HookStage} {sb : Sandbox} {func : UInt32} {args : List Value}
      {frames : List Frame} {depth : Nat} (hookless : stages frames = []) (quiet : Quiet i func)
      (above : Above i (.hook stage :: frames)
        ⟨sb, ⟨.invoke func args, .hook stage :: frames, depth⟩⟩ s) :
      Phase i s (stage = .pausing)

section
variable {i : Instance} {s s' : State} {p : Bool}

theorem Phase.next (h : Phase i s p) (hquiet : ControlsQuiet i) (hstep : step i s = .next s') :
    ∃ q, Phase i s' q ∧ Alternates i.controlBlock.address p (signalOf? i s).toList q := by
  have hsignals := @signalOf_eq_none i s
  have hsignal (signal : Signal) := @signalOf_eq_some i s signal
  rw [hstep] at hsignals hsignal
  cases h with
  | outside hookless =>
    by_cases henter : EntersHook i s.thread
    · rcases step_of_enters henter with ⟨_, cost, -, -, hhook⟩ | hfailed
      · rw [hstep] at hhook
        cases hhook with
        | charged running =>
          rw [hsignals rfl]
          exact ⟨_, .outside hookless, rfl⟩
        | resuming paused has =>
          rw [hsignal .stopRewind rfl, paused]
          exact ⟨_, .inside hookless (hquiet _ has _ (by simp)) .refl, rfl⟩
        | pausing running _ has =>
          rw [hsignal (.startUnwind _) rfl, running]
          exact ⟨_, .inside hookless (hquiet _ has _ (by simp)) .refl, rfl, rfl⟩
      · rw [hstep] at hfailed
        cases hfailed
    · have hleave := not_leaves_of_hookless hookless
      have hunhooked := unhooked_step henter hleave
      rw [hstep] at hunhooked
      rw [hsignals hunhooked.signals]
      exact ⟨_, .outside ((stages_step henter hleave hstep).trans hookless),
        hunhooked.paused.symm⟩
  | @inside stage _ _ _ frames _ hookless quiet above =>
    have hsame := signals_of_not_enters (quiet _ _ _ _ _ above)
    rw [hstep] at hsame
    rw [hsignals hsame]
    by_cases hback : GivesTo (.hook stage :: frames) s.thread
    · obtain ⟨sb, control, rest, depth⟩ := s
      obtain ⟨hframes, results, hcontrol⟩ := hback
      cases hframes
      cases hcontrol
      cases hstep
      exact ⟨_, .outside hookless, rfl⟩
    · exact ⟨_, .inside hookless quiet (above.tail ⟨hback, hstep⟩), rfl⟩

theorem Phase.trail {visited : List State} (hquiet : ControlsQuiet i) (hs : Phase i s p)
    (h : Trail i s visited s') :
    ∃ q, Phase i s' q ∧ Alternates i.controlBlock.address p (told i visited) q := by
  induction h with
  | here => exact ⟨p, hs, rfl⟩
  | @step visited s₁ s₂ _ hstep ih =>
    obtain ⟨q, hq, hbefore⟩ := ih
    obtain ⟨r, hr, hlast⟩ := hq.next hquiet hstep
    refine ⟨r, hr, ?_⟩
    rw [told, List.filterMap_append]
    refine hbefore.append ?_
    cases hsignal : signalOf? i s₁ <;> rw [hsignal] at hlast <;> simpa [hsignal] using hlast

/-- A call that comes back to no frames has come to the end of what is told. -/
theorem Phase.eq_paused (h : Phase i s p) (hframes : s.thread.frames = []) :
    p = s.sandbox.paused := by
  cases h with
  | outside => rfl
  | inside _ quiet above =>
    have hbelow := (quiet.above above).below
    rw [hframes] at hbelow
    cases List.suffix_nil.1 hbelow

end

end MeteredWasm.Machine
