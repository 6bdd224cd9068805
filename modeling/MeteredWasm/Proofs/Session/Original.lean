import MeteredWasm.Proofs.Session.Standing
import MeteredWasm.Proofs.Session.Turn
import MeteredWasm.Proofs.Simulation.Shortage

/-!
# Executors beside the original machine

An executor is made of an original module, which has been metered and handed to a pass
(`Executor.Making`). Between two ticks it stands where the original machine does (`Making.Stands`).
A run takes the original machine along, as far as there is gas for what it runs
(`Making.Stands.passes`), and ends where the original machine comes to an end
(`Making.Stands.exists_run`).

Of memory the two agree on what is not hidden. The original machine does not notice what is, nor
that the reserved range is written, which is a part of it.
-/

set_option autoImplicit false

namespace MeteredWasm

open Wasm Machine Metering Simulation Suspension

/-- Hidden bytes may change. -/
theorem Machine.State.sandboxes_opened {T : Translation} {hidden reserved : Nat → Nat → Prop}
    {sb : Sandbox} {s₀ : State} {memories : List Memory} (h : T.Sandboxes hidden sb s₀.sandbox)
    (hsame : SameMemories reserved s₀.sandbox.storage.memories memories)
    (hhides : ∀ k address, reserved k address → hidden k address) (gas : Int) :
    T.Sandboxes hidden sb (s₀.opened memories gas).sandbox := by
  obtain ⟨⟨hcount, hmemories, htables, hglobals, helements, hdatas⟩, hcalls⟩ := h
  refine ⟨⟨hsame.count.trans hcount, fun k m m' hm hm' => ?_, htables, hglobals, helements, hdatas⟩,
    hcalls⟩
  have hlt : k < s₀.sandbox.storage.memories.length := by
    rw [hcount]
    exact (List.getElem?_eq_some_iff.1 hm).1
  have hm₀ := List.getElem?_eq_getElem hlt
  have hbefore := hmemories k m _ hm hm₀
  have hafter := hsame.each k _ m' hm₀ hm'
  exact ⟨hafter.size.trans hbefore.size, hafter.maxPages.trans hbefore.maxPages,
    hafter.shared.trans hbefore.shared, hafter.is64.trans hbefore.is64, fun address hseen =>
      (hafter.byte address fun hin => hseen (hhides k address hin)).trans
        (hbefore.byte address hseen)⟩

namespace Executor

/-! ## Where an executor stands -/

/-- What an executor has been made of: an original module, whose entry is `entry`, its metered form,
and what a pass has made of that. -/
structure Making where
  plan : Plan
  /-- How many functions the original module has. -/
  count : UInt32
  original : Instance
  plain : Instance
  pairing : Pairing
  own : Nat × Nat
  /-- The bytes that capturing a stack may write. -/
  reserved : Nat → Nat → Prop
  controls : Controls
  entry : UInt32

/-- The function that the entry has been moved to by metering. -/
def Making.plainEntry (M : Making) : UInt32 := shift M.plan.hook M.entry

/-- The executor has been made so. -/
structure Making.Drives (M : Making) (e : Executor) : Prop where
  metered : Metered M.plan M.count M.original M.plain
  captures : M.pairing.Captures M.plain e.instance_ M.own M.controls M.plainEntry e.entry
  controls : e.instance_.controls = some M.controls
  reserved : e.instance_.reserved = M.reserved
  inRange : cycle M.count M.entry = M.entry

/-- The executor stands where the original machine does in the state `s`. -/
structure Making.Stands (M : Making) (hidden : Nat → Nat → Prop) (s : State) (e : Executor) :
    Prop where
  drives : M.Drives e
  inScope : Scoped M.count M.original s
  mirrored : ∃ s₀ left, Mirrors M.pairing M.plainEntry s₀ e.sandbox ∧
    (metering M.plan).Sandboxes hidden s.sandbox s₀.sandbox ∧
    Stage M.plan s.thread 0 left s₀.thread
  unfaulted : e.faulted = false

/-- How a run goes that begins with so much gas, beside the original machine, which begins at
`s`. -/
inductive Making.Passes (M : Making) (hidden : Nat → Nat → Prop) (s : State) (gas : Int) :
    Except ExecutionError Bool → Executor → Prop
  /-- The original machine is done as well. -/
  | finished {n : Nat} {visited : List State} {s₁ : State} {results : List Value} {sb : Sandbox}
      {e' : Executor} (trail : Trail (M.original.deep n) s visited s₁)
      (original : step (M.original.deep n) s₁ = .finished results sb)
      (left : e'.gas = gas - tolls M.plan (M.original.deep n) visited) (paid : 0 ≤ e'.gas)
      (stands : M.Stands hidden ⟨sb, .call M.entry []⟩ e') (paused : e'.isPaused = false) :
      Passes M hidden s gas (.ok true) e'
  /-- It fails as well. -/
  | failed {n : Nat} {visited : List State} {s₁ : State} {error : ExecutionError} {sb : Sandbox}
      {e' : Executor} (trail : Trail (M.original.deep n) s visited s₁)
      (original : step (M.original.deep n) s₁ = .failed error sb)
      (roomy : error ≠ .trap .callStackExhausted)
      (left : e'.gas = gas - tolls M.plan (M.original.deep n) visited) (paid : 0 ≤ e'.gas)
      (calls : e'.sandbox.calls = (sb.calls.map (metering M.plan).call).map
        (HostCall.mapFunc M.pairing.func)) : Passes M hidden s gas (.error error) e'
  /-- There was no room for another frame. -/
  | exhausted {e' : Executor} : Passes M hidden s gas (.error (.trap .callStackExhausted)) e'
  /-- There was not enough gas, and the stack is captured. -/
  | paused {n : Nat} {visited : List State} {s₁ : State} {e' : Executor}
      (trail : Trail (M.original.deep n) s visited s₁)
      (left : e'.gas = gas - tolls M.plan (M.original.deep n) visited) (debt : e'.gas < 0)
      (most : -(maxCharge : Int) ≤ e'.gas) (stands : M.Stands hidden s₁ e')
      (paused : e'.isPaused = true) :
      Passes M hidden s gas (.ok false) e'
  /-- There was not enough gas, and the stack could not be captured. -/
  | stuck {n : Nat} {visited : List State} {s₁ : State} {error : ExecutionError} {e' : Executor}
      (trail : Trail (M.original.deep n) s visited s₁)
      (left : e'.gas = gas - tolls M.plan (M.original.deep n) visited) (debt : e'.gas < 0) :
      Passes M hidden s gas (.error error) e'

section
variable {M : Making} {hidden : Nat → Nat → Prop} {e e' : Executor} {s : State} {fuel : Nat}
  {budget : Int} {answer : Except ExecutionError Bool}

theorem Making.Drives.keeps (h : M.Drives e) (hinstance : e'.instance_ = e.instance_)
    (hentry : e'.entry = e.entry) : M.Drives e' :=
  ⟨h.metered, hinstance ▸ hentry ▸ h.captures, hinstance ▸ h.controls, hinstance ▸ h.reserved,
    h.inRange⟩

/-- The entry may be called once more when the original machine has come back. -/
theorem scoped_entry {count entry : UInt32} {i : Instance} {sb : Sandbox}
    (hsb : (Translation.rename (cycle count)).Sandboxes nothing sb sb)
    (hentry : cycle count entry = entry) : Scoped count i ⟨sb, .call entry []⟩ := by
  refine ⟨?_, hsb, ⟨fun a ha => (nomatch ha), fun frame hf => (nomatch hf)⟩⟩
  simp [Thread.call, Translation.thread, Translation.control, Translation.rename, hentry,
    Translation.values]

/-- A run with gas takes the original machine along. -/
theorem Making.Stands.passes (h : M.Stands hidden s e)
    (hhides : ∀ k address, M.reserved k address → hidden k address)
    (hheeds : ∀ n v, Reaches (M.original.deep n) s v → Heeding hidden v)
    (hgas : 0 < topUp e.gas budget) (hrun : e.run fuel budget = some (answer, e')) :
    M.Passes hidden s (topUp e.gas budget) answer e' := by
  obtain ⟨hd, hs, ⟨s₀, left, hmirrors, hsandboxes, hstage⟩, hopen⟩ := h
  obtain ⟨memories, hsame, hadvanced⟩ :=
    hmirrors.advanced hd.captures hd.controls hopen hgas hrun
  rw [hd.reserved] at hsame hadvanced
  obtain ⟨hinstance, hentry⟩ := (ran_of_run hrun).keeps
  have hd' := hd.keeps hinstance hentry
  have hfaulted := faulted_of_run hrun
  have hbeside : Beside M.plan hidden s 0 (s₀.opened memories (topUp e.gas budget)) :=
    ⟨State.sandboxes_opened hsandboxes hsame hhides _, ⟨left, hstage⟩, hmirrors.running⟩
  have htrace {n : Nat} {visited' : List State} {s₁' : State}
      (htrail : Trail (M.plain.deep n) (s₀.opened memories (topUp e.gas budget)) visited' s₁') :=
    (hd.metered.deep n).trace_back (hs.deep n) (hheeds n) hbeside (Int.le_of_lt hgas) htrail.reaches
  have hopened : (s₀.opened memories (topUp e.gas budget)).sandbox.gas = topUp e.gas budget := rfl
  generalize charges e.instance_ (e.states fuel budget) = paid at hadvanced
  generalize hsb : e'.sandbox = sb' at hadvanced
  have hgas' : e'.gas = sb'.gas := congrArg Sandbox.gas hsb
  have hpaused : e'.isPaused = sb'.paused := congrArg Sandbox.paused hsb
  cases hadvanced with
  | @finished n visited' s₁' results sb _ trail _ plain gas paused mirrors =>
    obtain ⟨visited, s₁, c, htrail, hs₁, hb₁, hpaid, -, hleft⟩ := htrace trail
    rcases (hd.metered.deep n).end_back hs₁ (hheeds n s₁ htrail.reaches) hb₁
      (by rw [plain]; rfl) with ⟨rfl, o, ho, hend, -⟩ | ⟨-, -, hhook, -⟩
    · cases hend with
      | @finished results sb₁ _ hsb₁ =>
        have hfinished := Step.eq_finished ho
        obtain ⟨-, -, hlast⟩ := give_of_finished plain
        obtain ⟨-, -, rfl⟩ := give_of_finished hfinished
        refine .finished htrail hfinished ?_ ?_ ⟨hd', ?_, ?_, hfaulted⟩ (hpaused.trans paused)
        · rw [hgas', gas, hlast]
          omega
        · rw [hgas', gas, hlast]
          exact hpaid
        · exact scoped_entry hs₁.sandbox hd.inRange
        · exact ⟨_, 0, hsb ▸ mirrors, hsb₁, .paid (.call M.entry [])⟩
    · exact absurd (hhook.symm.trans plain) stepHook_ne_finished
  | @failed n visited' s₁' error sb _ trail _ beside plain roomy gas calls =>
    obtain ⟨visited, s₁, c, htrail, hs₁, hb₁, hpaid, -, hleft⟩ := htrace trail
    rcases (hd.metered.deep n).end_back hs₁ (hheeds n s₁ htrail.reaches) hb₁
      (by rw [plain]; rfl) with ⟨rfl, o, ho, hend, hunhooked⟩ | ⟨-, hcontrol, -⟩
    · cases hend with
      | @failed _ sb₁ _ hsb₁ =>
        have hkept := hunhooked.gas
        simp only [outcomeSandbox] at hkept
        refine .failed htrail (Step.eq_failed ho) roomy ?_ ?_ ?_
        · rw [hgas', gas, hkept]
          omega
        · rw [hgas', gas, hkept]
          exact hpaid
        · rw [hsb, calls, hsb₁.calls]
    · exact absurd ⟨_, _, hcontrol, hd.metered.hook⟩ beside
  | exhausted => exact .exhausted
  | @paused n visited' sb _ func cost frames depth memories' trail hook running short _ gas paused same
      mirrors =>
    obtain ⟨visited, s₁, c, htrail, hs₁, hb₁, hpaid, -, hleft⟩ := htrace trail
    have hpaid : 0 ≤ sb.gas := hpaid
    have hleft : sb.gas + _ = _ := hleft
    obtain ⟨hc, hstage₁⟩ := (hd.metered.deep n).hook_of_beside hs₁ hb₁ hook (by omega)
    refine .paused htrail ?_ ?_ ?_ ⟨hd', hs₁.of_deep, ?_, hfaulted⟩ (hpaused.trans paused)
    · rw [hgas', gas]
      omega
    · rw [hgas', gas]
      omega
    · have hword := @BitVec.toInt_lt 32 cost
      rw [hgas', gas, maxCharge]
      omega
    · have hsb₁ : (metering M.plan).Sandboxes hidden s₁.sandbox
          { sb with storage := { sb.storage with memories := memories' } } :=
        State.sandboxes_opened hb₁.sandboxes same hhides sb.gas
      exact ⟨_, 1, hsb ▸ mirrors, hsb₁, hstage₁⟩
  | stuck trail hook _ short _ gas =>
    obtain ⟨visited, s₁, c, htrail, hs₁, hb₁, hpaid, -, hleft⟩ := htrace trail
    simp only at hpaid hleft
    obtain ⟨hc, -⟩ := (hd.metered.deep _).hook_of_beside hs₁ hb₁ hook (by omega)
    refine .stuck htrail ?_ (by rw [hgas', gas]; omega)
    rw [hgas', gas]
    omega

/-- A run ends where the original machine comes to an end. -/
theorem Making.Stands.exists_run (h : M.Stands hidden s e)
    (hhides : ∀ k address, M.reserved k address → hidden k address)
    (hheeds : ∀ n v, Reaches (M.original.deep n) s v → Heeding hidden v)
    (hgas : 0 < topUp e.gas budget) {n : Nat} {visited : List State} {s₁ : State} {o : Outcome}
    (htrail : Trail (M.original.deep n) s visited s₁)
    (ho : (step (M.original.deep n) s₁).outcome? = some o)
    (hroomy : ¬Exhausts (M.original.deep n) s₁) :
    ∃ fuel answer e', e.run fuel budget = some (answer, e') := by
  obtain ⟨hd, hs, ⟨s₀, left, hmirrors, hsandboxes, hstage⟩, hopen⟩ := h
  refine hmirrors.exists_run hd.captures hd.controls hopen hgas fun memories hsame => ?_
  rw [hd.reserved] at hsame
  have hbeside : Beside M.plan hidden s 0 (s₀.opened memories (topUp e.gas budget)) :=
    ⟨State.sandboxes_opened hsandboxes hsame hhides _, ⟨left, hstage⟩, hmirrors.running⟩
  obtain ⟨more, s₁', o', htrail', ho', hroomy'⟩ := (hd.metered.deep n).exists_end (hs.deep n)
    (hheeds n) hbeside htrail (Int.le_of_lt hgas) ho hroomy
  exact ⟨n, more, s₁', o', htrail', ho', hroomy'⟩

end

end Executor

end MeteredWasm
