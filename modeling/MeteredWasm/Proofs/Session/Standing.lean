import MeteredWasm.Proofs.Session.Moments
import MeteredWasm.Proofs.Suspension.Tracking

/-!
# Executors beside the plain machine

Between two ticks an executor waits where the plain machine stands (`Executor.Mirrors`): the next
tick calls the entry, or goes on behind the call of the hook that the stack has been captured at. A
tick takes the plain machine as far as it goes itself, charge by charge, and leaves the executor
waiting again unless it fails (`Mirrors.advanced`). It ends where the plain machine does
(`Mirrors.exists_run`).

When a stack is captured, or built up again, bytes of the reserved range are written. The plain
machine goes on with the memory that there is then (`State.opened`).
-/

set_option autoImplicit false

namespace MeteredWasm

open Wasm Machine Simulation Suspension

/-- The state, with so much gas and other memories. -/
def Machine.State.opened (s : State) (memories : List Memory) (gas : Int) : State :=
  ⟨{ s.sandbox with storage := { s.sandbox.storage with memories }, gas }, s.thread⟩

namespace Executor

/-! ## Between ticks -/

/-- The sandbox waits where a thread of the plain machine stands, whose storage is `st`. -/
inductive Awaits (C : Pairing) (entry : UInt32) (sb : Sandbox) (st : Storage) : Thread → Prop
  /-- The next tick calls the entry. -/
  | entry (paused : sb.paused = false) (ready : C.ready st sb.storage) :
      Awaits C entry sb st (.call entry [])
  /-- The next tick goes on behind the hook. -/
  | held {t : Thread} (paused : sb.paused = true) (held : C.held st t sb.storage) :
      Awaits C entry sb st t

/-- The executor waits where the plain machine stands. -/
structure Mirrors (C : Pairing) (entry : UInt32) (s : State) (sb : Sandbox) : Prop where
  awaits : Awaits C entry sb s.sandbox.storage s.thread
  running : s.sandbox.paused = false
  calls : sb.calls = s.sandbox.calls.map (HostCall.mapFunc C.func)

/-- How a tick goes that the plain machine begins at `s`. It is charged `paid`. -/
inductive Advanced (C : Pairing) (i : Instance) (hidden : Nat → Nat → Prop) (entry : UInt32)
    (s : State) (paid : List Int) : Except ExecutionError Bool → Sandbox → Prop
  /-- The plain machine is done as well. -/
  | finished {n : Nat} {visited : List State} {s₁ : State} {results : List Value} {sb sb' : Sandbox}
      (trail : Trail (i.deep n) s visited s₁) (charges : paid = charges i visited)
      (plain : step (i.deep n) s₁ = .finished results sb) (gas : sb'.gas = sb.gas)
      (paused : sb'.paused = false) (mirrors : Mirrors C entry ⟨sb, .call entry []⟩ sb') :
      Advanced C i hidden entry s paid (.ok true) sb'
  /-- It fails as well. -/
  | failed {n : Nat} {visited : List State} {s₁ : State} {error : ExecutionError} {sb sb' : Sandbox}
      (trail : Trail (i.deep n) s visited s₁) (charges : paid = charges i visited)
      (beside : ¬EntersHook i s₁.thread) (plain : step (i.deep n) s₁ = .failed error sb)
      (roomy : error ≠ .trap .callStackExhausted) (gas : sb'.gas = sb.gas)
      (calls : sb'.calls = sb.calls.map (HostCall.mapFunc C.func)) :
      Advanced C i hidden entry s paid (.error error) sb'
  /-- There was no room for another frame. -/
  | exhausted {n : Nat} {visited : List State} {s₁ : State} {sb' : Sandbox}
      (trail : Trail (i.deep n) s visited s₁) (charges : paid = charges i visited)
      (gas : sb'.gas = s₁.sandbox.gas) :
      Advanced C i hidden entry s paid (.error (.trap .callStackExhausted)) sb'
  /-- The hook was called without gas for it, and the stack is captured. -/
  | paused {n : Nat} {visited : List State} {sb sb' : Sandbox} {func : UInt32} {cost : BitVec 32}
      {frames : List Machine.Frame} {depth : Nat} {memories : List Memory}
      (trail : Trail (i.deep n) s visited ⟨sb, ⟨.invoke func [.i32 cost], frames, depth⟩⟩)
      (hook : i.function? func = some .hook) (running : sb.paused = false)
      (short : sb.gas < cost.toInt) (charges : paid = charges i visited ++ [cost.toInt])
      (gas : sb'.gas = sb.gas - cost.toInt) (paused : sb'.paused = true)
      (same : SameMemories hidden sb.storage.memories memories)
      (mirrors : Mirrors C entry
        ⟨{ sb with storage := { sb.storage with memories } }, ⟨.give [], frames, depth⟩⟩ sb') :
      Advanced C i hidden entry s paid (.ok false) sb'
  /-- The hook was called without gas for it, and the stack could not be captured. -/
  | stuck {n : Nat} {visited : List State} {sb sb' : Sandbox} {func : UInt32} {cost : BitVec 32}
      {frames : List Machine.Frame} {depth : Nat} {error : ExecutionError}
      (trail : Trail (i.deep n) s visited ⟨sb, ⟨.invoke func [.i32 cost], frames, depth⟩⟩)
      (hook : i.function? func = some .hook) (running : sb.paused = false)
      (short : sb.gas < cost.toInt) (charges : paid = charges i visited ++ [cost.toInt])
      (gas : sb'.gas = sb.gas - cost.toInt) :
      Advanced C i hidden entry s paid (.error error) sb'

/-- Gas does not matter to where an executor waits. -/
theorem Mirrors.regas {C : Pairing} {entry : UInt32} {s : State} {sb : Sandbox}
    (h : Mirrors C entry s sb) (gas : Int) : Mirrors C entry s { sb with gas } := by
  obtain ⟨⟨st, gas', paused, calls, signals⟩, t⟩ := s
  obtain ⟨hawaits, hrunning, hcalls⟩ := h
  refine ⟨?_, hrunning, hcalls⟩
  cases hawaits with
  | entry paused ready => exact .entry paused ready
  | held paused held => exact .held paused held

section
variable {C : Pairing} {i : Instance} {own : Nat × Nat} {controls : Controls} {entry : UInt32}
  {e e' : Executor} {s : State} {sb sb' : Sandbox} {fuel : Nat} {budget : Int}
  {answer : Except ExecutionError Bool}

/-- A run that glides to its end is charged nothing. -/
theorem run_of_glides {i : Instance} {s s₁ : State} {o o₁ : Outcome} (h : Glides i s s₁)
    (hbeside : ¬EntersHook i s₁.thread) (ho₁ : (step i s₁).outcome? = some o₁)
    (hrun : Machine.run i fuel s = some o) :
    o = o₁ ∧ charges i (stepped i fuel s) = [] ∧ (outcomeSandbox o).gas = s.sandbox.gas := by
  obtain ⟨first, hfirst, hfree⟩ := h.exists_trail
  obtain ⟨visited, s', htrail, ho, hstepped⟩ := exists_trail_of_run hrun
  obtain ⟨rfl, rfl⟩ := htrail.unique_end ho hfirst ho₁
  have hnone : charges i (visited ++ [s']) = [] :=
    charges_of_free (List.forall_mem_append.2 ⟨hfree, List.forall_mem_singleton.2 hbeside⟩)
  have hgas := htrail.gas_of_end ho
  rw [hnone] at hgas
  exact ⟨Option.some.inj (ho.symm.trans ho₁), hstepped ▸ hnone, hgas.trans (Int.sub_zero _)⟩

theorem run_of_comesBack {i : Instance} {s : State} {o : Outcome} (h : ComesBack i s sb)
    (hrun : Machine.run i fuel s = some o) :
    (∃ results, o = .finished results sb) ∧ charges i (stepped i fuel s) = [] := by
  obtain ⟨results, depth, hglides⟩ := h
  obtain ⟨rfl, hnone, -⟩ := run_of_glides hglides not_enters_give rfl hrun
  exact ⟨⟨results, rfl⟩, hnone⟩

variable (hC : C.Captures i e.instance_ own controls entry e.entry)
  (hcontrols : e.instance_.controls = some controls)
include hC hcontrols

/-- Once the instance has been told to rewind, if it has to be, its entry comes to where it tracks
the plain machine, and has been charged nothing; or it runs out of stack before. -/
theorem Mirrors.reaches {sb₁ : Sandbox} (h : Mirrors C entry s sb)
    (hrewound : Rewound e.instance_ fuel controls.startRewind sb sb₁) :
    ∃ memories first s', SameMemories e.instance_.reserved s.sandbox.storage.memories memories ∧
      Trail e.instance_ ⟨sb₁, .call e.entry []⟩ first s' ∧
      charges e.instance_ first = [] ∧ s'.sandbox.gas = sb.gas ∧
      charges e.instance_ ((e.opening controls sb).flatMap (stepped e.instance_ fuel)) = [] ∧
      (Exhausts e.instance_ s' ∨ C.Tracks i e.instance_ (s.opened memories sb.gas) s') := by
  obtain ⟨⟨st, gas, paused, calls, signals⟩, t⟩ := s
  obtain ⟨hawaits, hrunning, hcalls⟩ := h
  cases hawaits with
  | entry hp ready =>
    have hnot : ¬sb.paused = true := by simp [hp]
    rw [Rewound, if_neg hnot] at hrewound
    subst hrewound
    refine ⟨st.memories, [], _, .refl _ _, .here, rfl, rfl, ?_, .inr ?_⟩
    · rw [opening, if_neg hnot]
      rfl
    · exact hC.enters ready ⟨hrunning, hp, hcalls⟩
  | held hp hheld =>
    rw [Rewound, if_pos hp] at hrewound
    obtain ⟨results, hstart⟩ := hrewound
    have hheld : C.held st t (sb.tell
        (.startRewind e.instance_.controlBlock.address)).storage := hheld
    rcases hC.startsRewind hheld hp with hout | ⟨st', hback, hrewinding⟩
    · obtain ⟨sb₂, hends⟩ := hout.ends
      cases hends.unique ⟨fuel, hstart⟩
    · obtain ⟨⟨_, hsame⟩, hfree⟩ := run_of_comesBack hback hstart
      cases hsame
      have hopening : charges e.instance_
          ((e.opening controls sb).flatMap (stepped e.instance_ fuel)) = [] := by
        rw [opening, if_pos hp, List.flatMap_singleton, hfree]
      have hrewinding : C.rewinding st t ({ sb.tell
          (.startRewind e.instance_.controlBlock.address) with storage := st' } : Sandbox).storage :=
        hrewinding
      obtain ⟨first, s', hfirst, hnone, hcases⟩ := hC.rewinds hcontrols hrewinding hp
      have hgas := hfirst.gas
      rw [charged_eq_sum, hnone] at hgas
      rcases hcases with hexhausts | ⟨hrunning', -, hcalls', hgoes, hmemories⟩
      · exact ⟨st.memories, first, s', .refl _ _, hfirst, hnone, hgas.trans (Int.sub_zero _),
          hopening, .inl hexhausts⟩
      · exact ⟨s'.sandbox.storage.memories, first, s', hmemories, hfirst, hnone,
          hgas.trans (Int.sub_zero _), hopening,
          .inr (hC.goesOn hgoes ⟨hrunning, hrunning', hcalls'.trans hcalls⟩)⟩

/-- What becomes of the entry. -/
theorem Mirrors.entered {sb₁ : Sandbox} {o : Outcome} (h : Mirrors C entry s sb)
    (hrewound : Rewound e.instance_ fuel controls.startRewind sb sb₁)
    (hrun : Machine.run e.instance_ fuel ⟨sb₁, .call e.entry []⟩ = some o) :
    ∃ memories, SameMemories e.instance_.reserved s.sandbox.storage.memories memories ∧
      C.Comes i (s.opened memories sb.gas) (charges e.instance_
        ((e.opening controls sb ++ [(⟨sb₁, .call e.entry []⟩ : State)]).flatMap
          (stepped e.instance_ fuel))) o := by
  obtain ⟨memories, first, s', hmemories, hfirst, hnone, hgas, hopening, hcases⟩ :=
    h.reaches hC hcontrols hrewound
  obtain ⟨visited', s₁', htrail, ho, hstepped⟩ := exists_trail_of_run hrun
  refine ⟨memories, hmemories, ?_⟩
  rw [List.flatMap_append, List.flatMap_singleton, hstepped, charges_append, hopening,
    List.nil_append]
  rcases hcases with hexhausts | htracks
  · obtain ⟨sb₂, hstep⟩ := hexhausts
    obtain ⟨rfl, rfl⟩ := htrail.unique_end ho hfirst (by rw [hstep]; rfl)
    have htraced : C.Traced i e.instance_ (s.opened memories sb.gas) visited' s₁' :=
      .exhausted (n := 0) .here hnone hgas ⟨sb₂, hstep⟩
    exact htraced.comes hC hcontrols ho
  · rcases hfirst.compare htrail with ⟨rest, rfl, hrest⟩ | ⟨_, rest, -, hstep, -⟩
    · have htraced := (hC.traced htracks hgas hrest ho).after (n := 0) .here hnone
      exact htraced.comes hC hcontrols ho
    · rw [hstep] at ho
      cases ho

/-- However a tick goes, it goes beside the plain machine. -/
theorem Mirrors.went {calls : List State} (h : Mirrors C entry s sb)
    (hwent : Went e fuel controls sb answer sb' calls) :
    ∃ memories, SameMemories e.instance_.reserved s.sandbox.storage.memories memories ∧
      Advanced C i e.instance_.reserved entry (s.opened memories sb.gas)
        (charges e.instance_ (calls.flatMap (stepped e.instance_ fuel))) answer sb' := by
  cases hwent with
  | unopened paused failed =>
    obtain ⟨⟨st, gas, running, calls, signals⟩, t⟩ := s
    obtain ⟨hawaits, -, -⟩ := h
    cases hawaits with
    | entry hp => cases hp.symm.trans paused
    | held _ hheld =>
      have hheld : C.held st t (sb.tell
          (.startRewind e.instance_.controlBlock.address)).storage := hheld
      rcases hC.startsRewind hheld paused with ⟨s₁, hglides, hexhausts⟩ | ⟨st', hback, -⟩
      · have hbeside := hexhausts.not_enters
        obtain ⟨sb₁, hstep⟩ := hexhausts
        obtain ⟨hsame, hnone, hgas⟩ :=
          run_of_glides hglides hbeside (by rw [hstep]; rfl) failed
        cases hsame
        refine ⟨st.memories, .refl _ _, .exhausted (n := 0) .here ?_ hgas⟩
        rw [opening, if_pos paused, List.flatMap_singleton, hnone]
        rfl
      · obtain ⟨⟨_, hfinished⟩, -⟩ := run_of_comesBack hback failed
        cases hfinished
  | failed rewound failed =>
    obtain ⟨memories, hsame, hcomes⟩ := h.entered hC hcontrols rewound failed
    refine ⟨memories, hsame, ?_⟩
    cases hcomes with
    | failed trail charges beside plain roomy gas calls =>
      exact .failed trail charges beside plain roomy gas calls
    | exhausted trail charges gas => exact .exhausted trail charges gas
    | short trail hook running short charges sandbox gas unwound =>
      cases sandbox
      exact .stuck trail hook running short charges gas
  | returned rewound entered running =>
    obtain ⟨results, hrun⟩ := entered
    obtain ⟨memories, hsame, hcomes⟩ := h.entered hC hcontrols rewound hrun
    refine ⟨memories, hsame, ?_⟩
    cases hcomes with
    | finished trail charges plain gas abreast ready =>
      exact .finished trail charges plain gas running
        ⟨.entry running ready, abreast.plain, abreast.calls⟩
    | short _ _ _ _ _ sandbox _ unwound =>
      cases sandbox
      rcases unwound with ⟨_, hfailed⟩ | ⟨_, hfinished, hp, -⟩
      · cases hfailed
      · cases hp.symm.trans running
  | overflown rewound entered paused past =>
    obtain ⟨results, hrun⟩ := entered
    obtain ⟨memories, hsame, hcomes⟩ := h.entered hC hcontrols rewound hrun
    refine ⟨memories, hsame, ?_⟩
    cases hcomes with
    | finished trail charges plain gas abreast ready => cases paused.symm.trans abreast.captured
    | short trail hook running short charges sandbox gas unwound =>
      cases sandbox
      exact .stuck trail hook running short charges gas
  | @unclosed error sb₁ sb₂ _ rewound entered paused room failed =>
    obtain ⟨results, hrun⟩ := entered
    obtain ⟨memories, hsame, hcomes⟩ := h.entered hC hcontrols rewound hrun
    refine ⟨memories, hsame, ?_⟩
    rw [List.append_cons, List.flatMap_append, List.flatMap_singleton, charges_append]
    cases hcomes with
    | finished _ _ _ _ abreast => cases paused.symm.trans abreast.captured
    | short trail hook running short charges sandbox gas unwound =>
      cases sandbox
      rcases unwound with ⟨_, hfailed⟩ | ⟨_, -, -, -, hunwound⟩
      · cases hfailed
      · have hunwound : C.unwound _ _ (sb₂.tell .stopUnwind).storage := hunwound
        rcases hC.stopsUnwind hunwound paused room with
          ⟨s₁, error, sb₁, hglides, hbeside, hstep⟩ | ⟨st', hback, -⟩
        · obtain ⟨-, hnone, hgas⟩ := run_of_glides hglides hbeside (by rw [hstep]; rfl) failed
          rw [hnone, List.append_nil]
          exact .stuck trail hook running short charges (hgas.trans gas)
        · obtain ⟨⟨_, hfinished⟩, -⟩ := run_of_comesBack hback failed
          cases hfinished
  | @captured sb₁ sb₂ _ rewound entered paused room stopped =>
    obtain ⟨results, hrun⟩ := entered
    obtain ⟨_, hstop⟩ := stopped
    obtain ⟨memories, hsame, hcomes⟩ := h.entered hC hcontrols rewound hrun
    refine ⟨memories, hsame, ?_⟩
    rw [List.append_cons, List.flatMap_append, List.flatMap_singleton, charges_append]
    cases hcomes with
    | finished _ _ _ _ abreast => cases paused.symm.trans abreast.captured
    | short trail hook running short charges sandbox gas unwound =>
      cases sandbox
      rcases unwound with ⟨_, hfailed⟩ | ⟨_, -, -, hcalls, hunwound⟩
      · cases hfailed
      · have hunwound : C.unwound _ _ (sb₂.tell .stopUnwind).storage := hunwound
        rcases hC.stopsUnwind hunwound paused room with hbreaks | ⟨st', hback, hheld, hmemories⟩
        · obtain ⟨_, _, hends⟩ := hbreaks.ends
          cases hends.unique ⟨fuel, hstop⟩
        · obtain ⟨⟨_, hfinished⟩, hnone⟩ := run_of_comesBack hback hstop
          cases hfinished
          rw [hnone, List.append_nil]
          exact .paused trail hook running short charges gas paused hmemories
            ⟨.held paused hheld, running, hcalls⟩

/-- A run with gas takes the plain machine along. -/
theorem Mirrors.advanced (h : Mirrors C entry s e.sandbox) (hopen : e.faulted = false)
    (hgas : 0 < topUp e.gas budget) (hrun : e.run fuel budget = some (answer, e')) :
    ∃ memories, SameMemories e.instance_.reserved s.sandbox.storage.memories memories ∧
      Advanced C i e.instance_.reserved entry (s.opened memories (topUp e.gas budget))
        (charges e.instance_ (e.states fuel budget)) answer e'.sandbox := by
  have hopened := h.regas (topUp e.gas budget)
  have hstates : e.states fuel budget = (e.calls fuel
      { e.sandbox with gas := topUp e.gas budget }).flatMap (stepped e.instance_ fuel) := by
    rw [states, if_neg (by simp [hopen, hgas]), Executor.opened, if_neg (by simp [hopen])]
  rw [hstates]
  cases ran_of_run hrun with
  | refused faulted => cases hopen.symm.trans faulted
  | idle _ hidle => exact absurd hgas (Int.not_lt.2 hidle)
  | ended _ _ tick | failed _ _ tick => exact hopened.went hC hcontrols (went_of_tick hcontrols tick)

/-- A run ends where the plain machine comes to an end, whatever has been written into the reserved
range. -/
theorem Mirrors.exists_run (h : Mirrors C entry s e.sandbox) (hopen : e.faulted = false)
    (hgas : 0 < topUp e.gas budget)
    (hplain : ∀ memories, SameMemories e.instance_.reserved s.sandbox.storage.memories memories →
      ∃ n visited s₁ o, Trail (i.deep n) (s.opened memories (topUp e.gas budget)) visited s₁ ∧
        (step (i.deep n) s₁).outcome? = some o ∧ ¬Exhausts (i.deep n) s₁) :
    ∃ fuel answer e', e.run fuel budget = some (answer, e') := by
  have hopened := h.regas (topUp e.gas budget)
  obtain ⟨⟨st, gas, paused, calls, signals⟩, t⟩ := s
  obtain ⟨hawaits, hrunning, hcalls⟩ := h
  have htick : ∃ fuel answer, e.tick fuel { e.sandbox with gas := topUp e.gas budget } =
      some answer := by
    refine exists_tick hcontrols (fun hp => ?_) (fun fuel sb₁ hrewound => ?_)
      fun fuel sb₁ sb₂ hrewound hreturns hp hroom => ?_
    · cases hawaits with
      | entry hp' => cases hp'.symm.trans hp
      | held _ hheld =>
        have hheld : C.held st t (({ e.sandbox with gas := topUp e.gas budget } : Sandbox).tell
            (.startRewind e.instance_.controlBlock.address)).storage := hheld
        rcases hC.startsRewind hheld hp with hout | ⟨st', hback, -⟩
        · obtain ⟨sb₂, hends⟩ := hout.ends
          exact ⟨_, hends⟩
        · obtain ⟨results, hends⟩ := hback.ends
          exact ⟨_, hends⟩
    · obtain ⟨memories, first, s', hmemories, hfirst, -, hgas', -, hcases⟩ :=
        hopened.reaches hC hcontrols hrewound
      rcases hcases with ⟨sb₂, hstep⟩ | htracks
      · exact ⟨_, ends_iff.2 ⟨s', hfirst.reaches, by rw [hstep]; rfl⟩⟩
      · obtain ⟨n, visited, s₁, o, htrail, ho, hroomy⟩ := hplain memories hmemories
        obtain ⟨o', hends⟩ := hC.exists_end hcontrols htracks hgas' htrail ho hroomy
        exact ⟨o', hfirst.reaches.ends hends⟩
    · obtain ⟨results, hrun⟩ := hreturns
      obtain ⟨memories, -, hcomes⟩ := hopened.entered hC hcontrols hrewound hrun
      cases hcomes with
      | finished _ _ _ _ abreast => cases hp.symm.trans abreast.captured
      | short _ _ _ _ _ sandbox _ unwound =>
        cases sandbox
        rcases unwound with ⟨_, hfailed⟩ | ⟨_, -, -, -, hunwound⟩
        · cases hfailed
        · have hunwound : C.unwound _ _ (sb₂.tell .stopUnwind).storage := hunwound
          rcases hC.stopsUnwind hunwound hp hroom with hbreaks | ⟨st', hback, -⟩
          · obtain ⟨error, sb₃, hends⟩ := hbreaks.ends
            exact ⟨_, hends⟩
          · obtain ⟨results', hends⟩ := hback.ends
            exact ⟨_, hends⟩
  obtain ⟨fuel, ⟨answer, sb⟩, htick⟩ := htick
  have hpos : ¬topUp e.sandbox.gas budget ≤ 0 := Int.not_le.2 hgas
  refine ⟨fuel, ?_⟩
  rw [run, if_neg (Bool.eq_false_iff.1 hopen)]
  dsimp only
  rw [if_neg hpos]
  simp only [Executor.gas] at htick
  rw [htick]
  cases answer with
  | ok done => exact ⟨_, _, rfl⟩
  | error error => exact ⟨_, _, rfl⟩

end

end Executor

end MeteredWasm
