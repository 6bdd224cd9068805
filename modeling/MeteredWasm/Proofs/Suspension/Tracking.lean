import MeteredWasm.Proofs.Suspension.Capture

/-!
# Running beside the plain machine

A machine whose stack can be captured tracks the plain one from one call of the hook to the next;
so what it has gone through when its run ends is what the plain machine goes through, charge by
charge (`Captures.traced`), up to the call of the hook that gas is short at. And where the plain
machine comes to an end, with gas or without, the run of the other one ends as well
(`Captures.exists_end`).
-/

set_option autoImplicit false

namespace MeteredWasm

open Wasm Machine Simulation

/-! ## Calls of the hook -/

namespace Machine

section
variable {i : Instance} {func : UInt32} {cost : BitVec 32} {frames : List Machine.Frame} {depth : Nat}
  {sb : Sandbox} (hhook : i.function? func = some .hook) (hp : sb.paused = false)
include hhook

theorem step_hook : step i ⟨sb, ⟨.invoke func [.i32 cost], frames, depth⟩⟩ =
    stepHook i sb ⟨.invoke func [.i32 cost], frames, depth⟩ cost.toInt := by
  simp only [step, stepInvoke, hhook]

include hp

theorem charge_hook : charge? i ⟨sb, ⟨.invoke func [.i32 cost], frames, depth⟩⟩ = some cost.toInt := by
  simp [charge?, hhook, hp]

/-- With enough gas the hook charges and comes back. -/
theorem step_hook_of_le (henough : cost.toInt ≤ sb.gas) :
    step i ⟨sb, ⟨.invoke func [.i32 cost], frames, depth⟩⟩ =
      .next ⟨{ sb with gas := sb.gas - cost.toInt }, ⟨.give [], frames, depth⟩⟩ := by
  rw [step_hook hhook, stepHook_of_le hp henough]

/-- Without, it has the instance unwind. -/
theorem step_hook_of_lt (hshort : sb.gas < cost.toInt) :
    step i ⟨sb, ⟨.invoke func [.i32 cost], frames, depth⟩⟩ =
      stepPause i { sb with gas := sb.gas - cost.toInt }
        ⟨.invoke func [.i32 cost], frames, depth⟩ := by
  have hlt : ¬0 ≤ sb.gas - cost.toInt := by omega
  rw [step_hook hhook]
  simp only [stepHook, hp, Bool.false_eq_true, if_false]
  rw [if_neg hlt]

end

section
variable {i : Instance}

/-- A run leaves the gas that it has not been charged. -/
theorem Trail.gas_of_end {s s' : State} {visited : List State} {o : Outcome}
    (h : Trail i s visited s') (ho : (Machine.step i s').outcome? = some o) :
    (outcomeSandbox o).gas = s.sandbox.gas - (charges i (visited ++ [s'])).sum := by
  rw [gas_outcome ho, h.gas, ← charged_eq_sum, charged_append, charged_singleton]
  omega

theorem charge_of_not_enters {s : State} (h : ¬EntersHook i s.thread) : charge? i s = none := by
  unfold charge?
  split
  · rename_i func args hcontrol
    split
    · exact absurd ⟨func, _, hcontrol, ‹_›⟩ h
    · rfl
  · rfl

/-- Gliding charges nothing. -/
theorem charges_of_free {visited : List State} (h : ∀ v ∈ visited, ¬EntersHook i v.thread) :
    charges i visited = [] := by
  exact List.filterMap_eq_nil_iff.2 fun v hv => charge_of_not_enters (h v hv)

end

end Machine

namespace Suspension.Pairing

variable {C : Pairing} {i i' : Instance} {own : Nat × Nat} {controls : Controls}
  {entry entry' : UInt32}

/-! ## Unwinding and rewinding -/

section
variable (hC : C.Captures i i' own controls entry entry') (hcontrols : i'.controls = some controls)
include hC hcontrols

/-- What comes of it that the hook is called without gas for it: the instance unwinds, or fails. -/
theorem Captures.unwinds {st : Storage} {t : Thread} {sb : Sandbox} {func : UInt32}
    {cost : BitVec 32} {frames : List Machine.Frame} {depth : Nat}
    (hhook : i'.function? func = some .hook) (hp : sb.paused = false)
    (hshort : sb.gas < cost.toInt)
    (hrunning : C.running st t sb.storage ⟨.give [], frames, depth⟩) :
    ∃ visited s o, Trail i' ⟨sb, ⟨.invoke func [.i32 cost], frames, depth⟩⟩ visited s ∧
      (step i' s).outcome? = some o ∧ charges i' (visited ++ [s]) = [cost.toInt] ∧
      ((∃ error sb', o = .failed error sb') ∨ ∃ results sb', o = .finished results sb' ∧
        sb'.paused = true ∧ sb'.calls = sb.calls ∧ C.unwound st t sb'.storage) := by
  have hstep : step i' ⟨sb, ⟨.invoke func [.i32 cost], frames, depth⟩⟩ = stepPause i'
      { sb with gas := sb.gas - cost.toInt } ⟨.invoke func [.i32 cost], frames, depth⟩ :=
    step_hook_of_lt hhook hp hshort
  have hcharge : charges i' [⟨sb, ⟨.invoke func [.i32 cost], frames, depth⟩⟩] = [cost.toInt] := by
    rw [charges_singleton, charge_hook hhook hp]
    rfl
  rw [stepPause, hcontrols] at hstep
  dsimp only at hstep
  split at hstep
  · exact ⟨[], _, _, .here, by rw [hstep]; rfl, hcharge, .inl ⟨_, _, rfl⟩⟩
  · rename_i sb₁ hwrite
    have hrunning : C.running st t ({ sb with gas := sb.gas - cost.toInt } : Sandbox).storage
        ⟨.give [], frames, depth⟩ := hrunning
    rcases hC.startsUnwind hrunning hp hwrite with
      ⟨s, error, sb', hglides, hbeside, hfailed⟩ | ⟨st', ⟨results, depth', hglides⟩, hunwound⟩
    · obtain ⟨visited, htrail, hfree⟩ := hglides.exists_trail
      refine ⟨_ :: visited, s, _, (Trail.step .here hstep).append htrail, by rw [hfailed]; rfl, ?_,
        .inl ⟨error, sb', rfl⟩⟩
      rw [← List.singleton_append, List.append_assoc, charges_append, hcharge,
        charges_of_free (List.forall_mem_append.2 ⟨hfree, List.forall_mem_singleton.2 hbeside⟩)]
      rfl
    · obtain ⟨visited, htrail, hfree⟩ := hglides.exists_trail
      have hcalls : sb₁.calls = sb.calls := by
        obtain ⟨-, rfl⟩ := write_eq_ok_iff.1 hwrite
        rfl
      refine ⟨_ :: visited, _, _, (Trail.step .here hstep).append htrail, rfl, ?_,
        .inr ⟨results, _, rfl, rfl, hcalls, hunwound⟩⟩
      rw [← List.singleton_append, List.append_assoc, charges_append, hcharge,
        charges_of_free (List.forall_mem_append.2 ⟨hfree, List.forall_mem_singleton.2 not_enters_give⟩)]
      rfl

/-- An instance that has been told to rewind comes back to the hook, or runs out of stack. -/
theorem Captures.rewinds {st : Storage} {t : Thread} {sb : Sandbox}
    (h : C.rewinding st t sb.storage) (hp : sb.paused = true) :
    ∃ visited s, Trail i' ⟨sb, .call entry' []⟩ visited s ∧ charges i' visited = [] ∧
      (Exhausts i' s ∨ s.sandbox.paused = false ∧ s.sandbox.gas = sb.gas ∧
        s.sandbox.calls = sb.calls ∧
        C.running { st with memories := s.sandbox.storage.memories } t s.sandbox.storage s.thread ∧
        SameMemories i'.reserved st.memories s.sandbox.storage.memories) := by
  rcases hC.reenters h hp with
    ⟨s, hglides, hexhausts⟩ | ⟨st', func, cost, frames, depth, hglides, hhook, hrebuilt⟩
  · obtain ⟨visited, htrail, hfree⟩ := hglides.exists_trail
    exact ⟨visited, s, htrail, charges_of_free hfree, .inl hexhausts⟩
  · obtain ⟨visited, htrail, hfree⟩ := hglides.exists_trail
    -- the hook charges nothing here, and has the instance told that it is back
    have hstep : step i' ⟨{ sb with storage := st' }, ⟨.invoke func [.i32 cost], frames, depth⟩⟩ =
        .next ⟨({ sb with storage := st' } : Sandbox).tell .stopRewind,
          ⟨.invoke controls.stopRewind [], .hook .resuming :: frames, depth + 1⟩⟩ := by
      rw [step_hook hhook, stepHook, if_pos (show ({ sb with storage := st' } : Sandbox).paused = true
        from hp), stepResume, hcontrols]
    have hnone : charges i' [⟨{ sb with storage := st' },
        ⟨.invoke func [.i32 cost], frames, depth⟩⟩] = [] := by
      simp [charges, charge?, hhook, hp]
    have hrebuilt : C.rebuilt st t
        (({ sb with storage := st' } : Sandbox).tell .stopRewind).storage ⟨.give [], frames, depth⟩ :=
      hrebuilt
    rcases hC.stopsRewind hrebuilt hp with
      ⟨s, hglides', hexhausts⟩ | ⟨st'', hglides', hrunning, hsame⟩
    · obtain ⟨more, htrail', hfree'⟩ := hglides'.exists_trail
      refine ⟨_, s, (htrail.step hstep).append htrail', ?_, .inl hexhausts⟩
      rw [charges_append, charges_append, charges_of_free hfree, charges_of_free hfree', hnone]
      rfl
    · obtain ⟨more, htrail', hfree'⟩ := hglides'.exists_trail
      refine ⟨_, _, (htrail.step hstep).append htrail', ?_, .inr ⟨rfl, rfl, rfl, hrunning, hsame⟩⟩
      rw [charges_append, charges_append, charges_of_free hfree, charges_of_free hfree', hnone]
      rfl

end

/-! ## What a run comes to -/

/-- How a run that has visited `visited'`, and takes the last step from `s₁'`, has gone beside the
plain machine, which begins at `s`. -/
inductive Traced (C : Pairing) (i i' : Instance) (s : State) (visited' : List State) (s₁' : State) :
    Prop
  | finished {n : Nat} {visited : List State} {s₁ : State} {results results' : List Value}
      {sb sb' : Sandbox} (trail : Trail (i.deep n) s visited s₁)
      (charges : charges i' visited' = charges i visited) (gas : s₁'.sandbox.gas = s₁.sandbox.gas)
      (plain : step (i.deep n) s₁ = .finished results sb)
      (captured : step i' s₁' = .finished results' sb') (abreast : C.Abreast sb sb')
      (ready : C.ready sb.storage sb'.storage)
  | failed {n : Nat} {visited : List State} {s₁ : State} {error : ExecutionError}
      {sb sb' : Sandbox} (trail : Trail (i.deep n) s visited s₁)
      (charges : charges i' visited' = charges i visited) (gas : s₁'.sandbox.gas = s₁.sandbox.gas)
      (beside : ¬EntersHook i s₁.thread) (beside' : ¬EntersHook i' s₁'.thread)
      (plain : step (i.deep n) s₁ = .failed error sb) (captured : step i' s₁' = .failed error sb')
      (roomy : error ≠ .trap .callStackExhausted)
      (calls : sb'.calls = sb.calls.map (HostCall.mapFunc C.func))
  /-- There has been no room for another frame. -/
  | exhausted {n : Nat} {visited : List State} {s₁ : State} (trail : Trail (i.deep n) s visited s₁)
      (charges : charges i' visited' = charges i visited)
      (gas : s₁'.sandbox.gas = s₁.sandbox.gas) (exhausts : Exhausts i' s₁')
  /-- The hook has been called without gas for it. -/
  | short {n : Nat} {visited : List State} {sb sb' : Sandbox} {func func' : UInt32}
      {cost : BitVec 32} {frames frames' : List Machine.Frame} {depth depth' : Nat}
      {first rest : List State}
      (trail : Trail (i.deep n) s visited ⟨sb, ⟨.invoke func [.i32 cost], frames, depth⟩⟩)
      (split : visited' = first ++ rest)
      (trail' : Trail i' ⟨sb', ⟨.invoke func' [.i32 cost], frames', depth'⟩⟩ rest s₁')
      (charges : charges i' first = charges i visited) (gas : sb'.gas = sb.gas)
      (short : sb'.gas < cost.toInt) (hook : i.function? func = some .hook)
      (hook' : i'.function? func' = some .hook) (abreast : C.Abreast sb sb')
      (running : C.running sb.storage ⟨.give [], frames, depth⟩ sb'.storage
        ⟨.give [], frames', depth'⟩)

section
variable {s s' s₁' s₂ : State} {visited' : List State} {o : Outcome}

/-- What comes before belongs to it. -/
theorem Traced.after {n : Nat} (h : C.Traced i i' s₂ visited' s₁') {before before' : List State}
    (htrail : Trail (i.deep n) s before s₂)
    (hcharges : charges i' before' = charges i before) :
    C.Traced i i' s (before' ++ visited') s₁' := by
  have happend {n' : Nat} {visited : List State} {s₁ : State}
      (hrest : Trail (i.deep n') s₂ visited s₁) :
      Trail (i.deep (max n n')) s (before ++ visited) s₁ :=
    (htrail.deeper (Nat.le_max_left n n')).append (hrest.deeper (Nat.le_max_right n n'))
  cases h with
  | @finished n' visited s₁ results results' sb sb' trail charges gas plain captured abreast ready =>
    have hroomy : ¬Exhausts (i.deep n') s₁ := fun ⟨_, hstep⟩ => by
      rw [plain] at hstep
      cases hstep
    exact .finished (happend trail) (by simp [hcharges, charges]) gas
      ((step_deeper (Nat.le_max_right n n') hroomy).trans plain) captured abreast ready
  | @failed n' visited s₁ error sb sb' trail charges gas beside beside' plain captured roomy calls =>
    have hroomy : ¬Exhausts (i.deep n') s₁ := fun ⟨_, hstep⟩ => by
      rw [plain] at hstep
      cases hstep
      exact roomy rfl
    exact .failed (happend trail) (by simp [hcharges, charges]) gas beside beside'
      ((step_deeper (Nat.le_max_right n n') hroomy).trans plain) captured roomy calls
  | exhausted trail charges gas exhausts =>
    exact .exhausted (happend trail) (by simp [hcharges, charges]) gas exhausts
  | @short n' visited sb sb' func func' cost frames frames' depth depth' first rest trail split
      trail' charges gas short hook hook' abreast running =>
    have hall : Simulation.charges i' (before' ++ first) =
        Simulation.charges i (before ++ visited) := by simp [hcharges, charges]
    exact .short (happend trail) (by rw [split, List.append_assoc]) trail' hall gas short hook hook'
      abreast running

theorem Abreast.regas {sb sb' : Sandbox} (h : C.Abreast sb sb') (gas gas' : Int) :
    C.Abreast { sb with gas } { sb' with gas := gas' } := ⟨h.plain, h.captured, h.calls⟩

/-- What a run has gone through, the plain machine goes through. -/
theorem Captures.traced (hC : C.Captures i i' own controls entry entry') (ht : C.Tracks i i' s s')
    (hgas : s'.sandbox.gas = s.sandbox.gas) (htrail : Trail i' s' visited' s₁')
    (ho : (step i' s₁').outcome? = some o) : C.Traced i i' s visited' s₁' := by
  induction hlength : visited'.length using Nat.strong_induction_on generalizing s s' visited' with
  | _ length ih =>
    obtain ⟨s₂', hglides', hhalts⟩ := htrail.exists_glide (.inr ⟨o, ho⟩)
    obtain ⟨first, rest, rfl, hfirst, hrest, hfree'⟩ := hglides'.split_trail htrail ho
    have hgas' := hglides'.gas.trans hgas
    have hnone' := charges_of_free hfree'
    by_cases hexhausts : Exhausts i' s₂'
    · obtain ⟨sb, hstep⟩ := hexhausts
      obtain ⟨rfl, rfl⟩ := hrest.nil_of_outcome (by rw [hstep]; rfl)
      refine .exhausted (n := 0) .here ?_ hgas' ⟨sb, hstep⟩
      rw [List.append_nil, hnone', charges_nil]
    · obtain ⟨n, s₂, hglides, -, hmeets⟩ := ht.meets s₂' hglides' ⟨hhalts, hexhausts⟩
      obtain ⟨visited, htrail₂, hfree⟩ := hglides.exists_trail
      have hnone : charges i visited = [] := charges_of_free hfree
      have hsame : s₂'.sandbox.gas = s₂.sandbox.gas := by rw [hgas', hglides.gas]
      cases hmeets with
      | finished plain captured abreast ready =>
        obtain ⟨rfl, rfl⟩ := hrest.nil_of_outcome (by rw [captured]; rfl)
        exact .finished htrail₂ (by rw [List.append_nil, hnone', hnone]) hsame plain captured
          abreast ready
      | failed beside beside' plain captured calls =>
        obtain ⟨rfl, rfl⟩ := hrest.nil_of_outcome (by rw [captured]; rfl)
        refine .failed htrail₂ (by rw [List.append_nil, hnone', hnone]) hsame beside beside' plain
          captured ?_ calls
        rintro rfl
        exact hexhausts ⟨_, captured⟩
      | @hook sb sb' func func' cost frames frames' depth depth' hook hook' abreast running =>
        by_cases henough : cost.toInt ≤ sb'.gas
        · have hook : i.function? func = some .hook := hook
          have hsame : sb'.gas = sb.gas := hsame
          have hstep' : step i' ⟨sb', ⟨.invoke func' [.i32 cost], frames', depth'⟩⟩ =
              .next ⟨{ sb' with gas := sb'.gas - cost.toInt }, ⟨.give [], frames', depth'⟩⟩ :=
            step_hook_of_le hook' abreast.captured henough
          have hstep : step (i.deep n) ⟨sb, ⟨.invoke func [.i32 cost], frames, depth⟩⟩ =
              .next ⟨{ sb with gas := sb.gas - cost.toInt }, ⟨.give [], frames, depth⟩⟩ :=
            step_hook_of_le hook abreast.plain (hsame ▸ henough)
          have htracks : C.Tracks i i'
              ⟨{ sb with gas := sb.gas - cost.toInt }, ⟨.give [], frames, depth⟩⟩
              ⟨{ sb' with gas := sb'.gas - cost.toInt }, ⟨.give [], frames', depth'⟩⟩ :=
            hC.goesOn running (abreast.regas _ _)
          rcases hrest.cases_head with ⟨-, rfl⟩ | ⟨s₃', rest', rfl, hnext, hrest'⟩
          · rw [hstep'] at ho
            cases ho
          · obtain rfl := Step.next.inj (hstep'.symm.trans hnext)
            have hless : rest'.length < length := by
              rw [← hlength, List.length_append, List.length_cons]
              omega
            have hlater := ih _ hless htracks (congrArg (· - cost.toInt) hsame) hrest' rfl
            have hcharges : charges i' (first ++ [⟨sb', ⟨.invoke func' [.i32 cost], frames',
                depth'⟩⟩]) = charges i (visited ++ [⟨sb, ⟨.invoke func [.i32 cost], frames,
                depth⟩⟩]) := by
              rw [charges_append, charges_append, hnone', hnone, charges_singleton,
                charges_singleton, charge_hook hook' abreast.captured,
                charge_hook hook abreast.plain]
            have hall := hlater.after (htrail₂.step hstep) hcharges
            rwa [List.append_assoc] at hall
        · exact .short htrail₂ rfl hrest (hnone'.trans hnone.symm) hsame (Int.not_le.1 henough) hook
            hook' abreast running

end

/-- How a run ends beside the plain machine, which begins at `s`. It is charged `paid`. -/
inductive Comes (C : Pairing) (i : Instance) (s : State) (paid : List Int) : Outcome → Prop
  | finished {n : Nat} {visited : List State} {s₁ : State} {results results' : List Value}
      {sb sb' : Sandbox} (trail : Trail (i.deep n) s visited s₁) (charges : paid = charges i visited)
      (plain : step (i.deep n) s₁ = .finished results sb) (gas : sb'.gas = sb.gas)
      (abreast : C.Abreast sb sb') (ready : C.ready sb.storage sb'.storage) :
      Comes C i s paid (.finished results' sb')
  | failed {n : Nat} {visited : List State} {s₁ : State} {error : ExecutionError} {sb sb' : Sandbox}
      (trail : Trail (i.deep n) s visited s₁) (charges : paid = charges i visited)
      (beside : ¬EntersHook i s₁.thread) (plain : step (i.deep n) s₁ = .failed error sb)
      (roomy : error ≠ .trap .callStackExhausted) (gas : sb'.gas = sb.gas)
      (calls : sb'.calls = sb.calls.map (HostCall.mapFunc C.func)) :
      Comes C i s paid (.failed error sb')
  /-- There was no room for another frame. -/
  | exhausted {n : Nat} {visited : List State} {s₁ : State} {sb' : Sandbox}
      (trail : Trail (i.deep n) s visited s₁) (charges : paid = charges i visited)
      (gas : sb'.gas = s₁.sandbox.gas) : Comes C i s paid (.failed (.trap .callStackExhausted) sb')
  /-- The hook was called without gas for it. -/
  | short {n : Nat} {visited : List State} {sb sb' : Sandbox} {func : UInt32} {cost : BitVec 32}
      {frames : List Machine.Frame} {depth : Nat} {o : Outcome}
      (trail : Trail (i.deep n) s visited ⟨sb, ⟨.invoke func [.i32 cost], frames, depth⟩⟩)
      (hook : i.function? func = some .hook) (running : sb.paused = false)
      (short : sb.gas < cost.toInt) (charges : paid = charges i visited ++ [cost.toInt])
      (sandbox : outcomeSandbox o = sb') (gas : sb'.gas = sb.gas - cost.toInt)
      (unwound : (∃ error, o = .failed error sb') ∨ ∃ results, o = .finished results sb' ∧
        sb'.paused = true ∧ sb'.calls = sb.calls.map (HostCall.mapFunc C.func) ∧
        C.unwound sb.storage ⟨.give [], frames, depth⟩ sb'.storage) : Comes C i s paid o

theorem Traced.comes (hC : C.Captures i i' own controls entry entry')
    (hcontrols : i'.controls = some controls) {s s₁' : State} {visited' : List State} {o : Outcome}
    (h : C.Traced i i' s visited' s₁') (ho : (step i' s₁').outcome? = some o) :
    C.Comes i s (charges i' (visited' ++ [s₁'])) o := by
  have hfree (hbeside : ¬EntersHook i' s₁'.thread) :
      charges i' (visited' ++ [s₁']) = charges i' visited' := by
    rw [charges_append, charges_singleton, charge_of_not_enters hbeside]
    exact List.append_nil _
  have hkeeps {i : Instance} {s : State} {o : Outcome} (hbeside : ¬EntersHook i s.thread)
      (ho : (step i s).outcome? = some o) : (outcomeSandbox o).gas = s.sandbox.gas := by
    rw [gas_outcome ho, chargeOf_eq, charge_of_not_enters hbeside]
    exact Int.sub_zero _
  cases h with
  | finished trail charges gas plain captured abreast ready =>
    obtain ⟨hgive, -, rfl⟩ := give_of_finished captured
    obtain ⟨-, -, rfl⟩ := give_of_finished plain
    rw [captured] at ho
    cases ho
    rw [hfree fun ⟨_, _, hinvoke, _⟩ => by rw [hgive] at hinvoke; cases hinvoke]
    exact .finished trail charges plain gas abreast ready
  | @failed n visited s₁ error sb sb' trail charges gas beside beside' plain captured roomy calls =>
    have hgas : sb'.gas = s₁'.sandbox.gas :=
      @hkeeps i' s₁' (.failed error sb') beside' (by rw [captured]; rfl)
    have hgas' : sb.gas = s₁.sandbox.gas :=
      @hkeeps (i.deep n) s₁ (.failed error sb) beside (by rw [plain]; rfl)
    rw [captured] at ho
    cases ho
    rw [hfree beside']
    exact .failed trail charges beside plain roomy (by rw [hgas, hgas', gas]) calls
  | exhausted trail charges gas exhausts =>
    have hbeside := exhausts.not_enters
    have hgas := hkeeps hbeside ho
    obtain ⟨sb, hstep⟩ := exhausts
    rw [hstep] at ho
    cases ho
    rw [hfree hbeside]
    exact .exhausted trail charges (hgas.trans gas)
  | @short n visited sb sb' func func' cost frames frames' depth depth' first rest trail split trail'
      charges gas short hook hook' abreast running =>
    obtain ⟨visited, s, o', htrail, ho', hpaid, hends⟩ :=
      hC.unwinds hcontrols hook' abreast.captured short running
    obtain ⟨rfl, rfl⟩ := trail'.unique_end ho htrail ho'
    cases ho.symm.trans ho'
    have hgas := trail'.gas_of_end ho
    have hall : Simulation.charges i' (visited' ++ [s₁']) =
        Simulation.charges i' first ++ [cost.toInt] := by
      rw [split, List.append_assoc, charges_append, hpaid]
    rw [hpaid] at hgas
    refine .short trail hook abreast.plain (gas ▸ short) (by rw [hall, charges]) rfl ?_ ?_
    · rw [hgas, ← gas]
      simp
    · rcases hends with ⟨error, sb₁, rfl⟩ | ⟨results, sb₁, rfl, hp, hcalls, hunwound⟩
      · exact .inl ⟨error, rfl⟩
      · exact .inr ⟨results, rfl, hp, hcalls.trans abreast.calls, hunwound⟩

/-! ## That a run ends -/

section
variable {s s' s₁ : State} {visited : List State} {o : Outcome}

/-- Where the plain machine comes to an end, the run beside it ends. -/
theorem Captures.exists_end (hC : C.Captures i i' own controls entry entry')
    (hcontrols : i'.controls = some controls) {n : Nat} (ht : C.Tracks i i' s s')
    (hgas : s'.sandbox.gas = s.sandbox.gas) (htrail : Trail (i.deep n) s visited s₁)
    (ho : (step (i.deep n) s₁).outcome? = some o) (hroomy : ¬Exhausts (i.deep n) s₁) :
    ∃ o, Ends i' s' o := by
  induction hlength : visited.length using Nat.strong_induction_on generalizing s s' visited with
  | _ length ih =>
    obtain ⟨s₂, hglides, hhalts⟩ := htrail.exists_glide (.inr ⟨o, ho⟩)
    obtain ⟨first, rest, rfl, -, hrest, -⟩ := hglides.split_trail htrail ho
    have hstops : Stops (i.deep n) s₂ := by
      refine ⟨hhalts, fun ⟨sb, hstep⟩ => hroomy ?_⟩
      obtain ⟨-, rfl⟩ := hrest.nil_of_outcome (by rw [hstep]; rfl)
      exact ⟨sb, hstep⟩
    obtain ⟨s₂', hglides', hhalts'⟩ := ht.halts n s₂ hglides hstops
    by_cases hexhausts : Exhausts i' s₂'
    · obtain ⟨sb, hstep⟩ := hexhausts
      exact ⟨_, hglides'.ends (by rw [hstep]; rfl)⟩
    · obtain ⟨n', s₃, hglides₃, hstops₃, hmeets⟩ := ht.meets s₂' hglides' ⟨hhalts', hexhausts⟩
      obtain rfl : s₂ = s₃ := (hglides.deeper (Nat.le_max_left n n')).unique
        (hstops.deeper (Nat.le_max_left n n')).halts (hglides₃.deeper (Nat.le_max_right n n'))
        (hstops₃.deeper (Nat.le_max_right n n')).halts
      have hsame : s₂'.sandbox.gas = s₂.sandbox.gas := by rw [hglides'.gas, hgas, hglides.gas]
      cases hmeets with
      | finished plain captured abreast ready =>
        exact ⟨_, hglides'.ends (by rw [captured]; rfl)⟩
      | failed _ _ plain captured calls => exact ⟨_, hglides'.ends (by rw [captured]; rfl)⟩
      | @hook sb sb' func func' cost frames frames' depth depth' hook hook' abreast running =>
        by_cases henough : cost.toInt ≤ sb'.gas
        · have hsame : sb'.gas = sb.gas := hsame
          have hstep' : step i' ⟨sb', ⟨.invoke func' [.i32 cost], frames', depth'⟩⟩ =
              .next ⟨{ sb' with gas := sb'.gas - cost.toInt }, ⟨.give [], frames', depth'⟩⟩ :=
            step_hook_of_le hook' abreast.captured henough
          have hstep : step (i.deep n) ⟨sb, ⟨.invoke func [.i32 cost], frames, depth⟩⟩ =
              .next ⟨{ sb with gas := sb.gas - cost.toInt }, ⟨.give [], frames, depth⟩⟩ :=
            step_hook_of_le hook abreast.plain (hsame ▸ henough)
          have htracks : C.Tracks i i'
              ⟨{ sb with gas := sb.gas - cost.toInt }, ⟨.give [], frames, depth⟩⟩
              ⟨{ sb' with gas := sb'.gas - cost.toInt }, ⟨.give [], frames', depth'⟩⟩ :=
            hC.goesOn running (abreast.regas _ _)
          rcases hrest.cases_head with ⟨-, rfl⟩ | ⟨s₄, rest', rfl, hnext, hrest'⟩
          · rw [hstep] at ho
            cases ho
          · obtain rfl := Step.next.inj (hstep.symm.trans hnext)
            have hless : rest'.length < length := by
              rw [← hlength, List.length_append, List.length_cons]
              omega
            obtain ⟨o', hends⟩ := ih _ hless htracks (congrArg (· - cost.toInt) hsame) hrest' rfl
            exact ⟨o', hglides'.reaches.ends (Reaches.ends (.single hstep') hends)⟩
        · obtain ⟨rest', s₁', o', htrail', ho', -⟩ := hC.unwinds hcontrols hook' abreast.captured
            (Int.not_le.1 henough) running
          exact ⟨o', hglides'.reaches.ends (ends_iff.2 ⟨s₁', htrail'.reaches, ho'⟩)⟩

end

end Suspension.Pairing

end MeteredWasm
