import MeteredWasm.Proofs.Session.Cost
import MeteredWasm.Proofs.Session.IdleCaptured

/-!
# Sessions of the idle executor

The executor with nothing to do beside the module that it has been made of (`sourced_idle`), and what
its sessions come to: it waits until it is given gas (`IdleWaits`), and returns then. Its runs never
fail (`spared_idle`).
-/

set_option autoImplicit false

namespace MeteredWasm

open Wasm Machine Simulation Linking Suspension

namespace Executor

/-! ## The source -/

/-- The idle module, as it is linked if it is not metered. -/
def idleOriginal : Prepared :=
  ⟨idleModule, ⟨#[⟨[], []⟩], #[.code ⟨[], []⟩ [] [.endMark]], shallow.relaxed, none, .standard, 0, 10⟩,
    plainStorage idlePage⟩

theorem instrument_idle : instrumentWith (idlePass 10) .written .standard (.constant 10)
    idleModule.encode = .ok (idleArtifact 10 .standard) :=
  instrument_eq_ok.2 ⟨_, _, _, _, toBinary_idle,
    idleAt_ten.instrumented .written rfl (idleAt_ten.idlePass_metered _)⟩

theorem create_idle : create 1 shallow (idleArtifact 10 .standard) .empty 256 =
    some (.ok (idle 10 shallow .standard), []) :=
  idleAt_ten.create (by decide)

theorem sourced_idle : Sourced (idlePass 10) .standard (.constant 10) (idleArtifact 10 .standard)
    .empty 256 shallow.relaxed idleModule idleOriginal 0 := by
  have hlinked : instantiate? (idleArtifact 10 .standard) .empty 256 ⟨10, shallow.relaxed⟩
      idleModule = some idleOriginal := rfl
  exact .of toBinary_idle valid_idle rfl instrument_idle hlinked

theorem fits_idle : FitsModule (.constant 10) idleModule := by
  intro body hbody
  change body ∈ [⟨[], [.endMark]⟩] at hbody
  rw [List.mem_singleton.1 hbody]
  unfold Metering.Fits
  decide

theorem opaque_empty : Imports.empty.Opaque := fun _ hf => absurd hf List.not_mem_nil

/-- Its entry returns for what the end of a function costs. -/
theorem returnsFor_idle (hidden : Nat → Nat → Prop) :
    ReturnsFor (.constant 10) hidden idleOriginal.instance_ (startState idleOriginal 0 0) 10 := by
  obtain ⟨visited, s, results, sb, htrail, hfinished, hcost, hclear⟩ : ∃ visited s results sb,
      Trail (idleOriginal.instance_.deep 1) (startState idleOriginal 0 0) visited s ∧
      step (idleOriginal.instance_.deep 1) s = .finished results sb ∧
      outlay (.constant 10) visited = 10 ∧
      ∀ v ∈ visited, ∀ a op code, v.thread.control = .run a → a.code = op :: code →
        op = .endMark := by
    refine ⟨_, _, _, _, .step (.step .here rfl) rfl, rfl, rfl, ?_⟩
    intro v hv a op code hrun hcode
    simp only [List.nil_append, List.cons_append, List.mem_cons, List.not_mem_nil, or_false] at hv
    rcases hv with rfl | rfl
    · cases hrun
    · cases hrun
      cases hcode
      rfl
  refine hcost ▸ .of htrail hfinished fun v hv a op code hrun hcode => ?_
  obtain rfl := hclear v hv a op code hrun hcode
  exact fun x hx => absurd hx List.not_mem_nil

/-! ## Runs -/

/-- The idle executor, held, with another counter. -/
def idleOwing (gas : Int) (signals : List Signal) : Executor :=
  ⟨idleInstance 10 (hardware shallow) .standard, 1,
    ⟨idleStorage (idleSaved idlePage) 0 16, gas, true, [], signals⟩, false⟩

/-- The idle executor between runs, until it returns. -/
inductive IdleWaits : Executor → Prop
  | fresh (gas : Int) (signals : List Signal) :
      IdleWaits ⟨idleInstance 10 (hardware shallow) .standard, 1,
        ⟨idleStorage idlePage 0 0, gas, false, [], signals⟩, false⟩
  | held (gas : Int) (signals : List Signal) : IdleWaits (idleOwing gas signals)

/-- As long as it is in debt, it only counts what it is given. -/
theorem idle_owes {gas budget after : Int} {signals : List Signal} (htop : topUp gas budget = after)
    (hdebt : after ≤ 0) (fuel : Nat) :
    (idleOwing gas signals).run fuel budget = some (.ok false, idleOwing after signals) := by
  subst htop
  exact run_of_idle rfl hdebt

/-- Given gas, it returns, and is charged nothing. -/
theorem idle_finishes {gas budget after : Int} {signals : List Signal}
    (htop : topUp gas budget = after) (hgas : 0 < after) : ∃ e',
      (idleOwing gas signals).run 60 budget = some (.ok true, e') ∧ e'.gas = after := by
  subst htop
  exact ⟨_, run_of_ownTick rfl rfl hgas
    (idle_tick_rewinds (n := 7) (Nat.le_refl 60) (idleImage_saved roomy_idlePage)), rfl⟩

/-- What waits answers, and still waits if it has not returned. -/
theorem IdleWaits.exists_run {e : Executor} (h : IdleWaits e) (budget : Int) :
    ∃ returned e', e.run 60 budget = some (.ok returned, e') ∧ (returned = false → IdleWaits e') := by
  cases h with
  | fresh gas signals =>
    by_cases hgas : topUp gas budget ≤ 0
    · exact ⟨false, _, run_of_idle rfl hgas, fun _ => .fresh ..⟩
    · have hpos := Int.not_le.1 hgas
      by_cases henough : 10 ≤ topUp gas budget
      · exact ⟨true, _, run_of_ownTick rfl rfl hpos
          (idle_tick_returns (n := 7) (Nat.le_refl 60) henough), nofun⟩
      · exact ⟨false, _, run_of_ownTick rfl rfl hpos (idle_tick_pauses (n := 7) (Nat.le_refl 60)
          roomy_idlePage (Int.not_le.1 henough)), fun _ => .held ..⟩
  | held gas signals =>
    by_cases hgas : topUp gas budget ≤ 0
    · exact ⟨false, _, idle_owes rfl hgas 60, fun _ => .held ..⟩
    · obtain ⟨e', hrun, -⟩ := @idle_finishes gas budget _ signals rfl (Int.not_le.1 hgas)
      exact ⟨true, e', hrun, nofun⟩

theorem idleWaits_of_session {turns : List Turn} {e : Executor}
    (h : Session (idle 10 shallow .standard) turns e) (hwaiting : ∀ t ∈ turns, t.answer = .ok false) :
    IdleWaits e := by
  induction h with
  | start => exact .fresh 0 []
  | @turn turns e₁ e₂ fuel budget answer before hrun ih =>
    rw [List.forall_mem_append, List.forall_mem_singleton] at hwaiting
    obtain ⟨returned, e', hrun', hstill⟩ := (ih hwaiting.1).exists_run budget
    cases run_unique hrun hrun'
    exact hstill (Except.ok.inj hwaiting.2)

/-- The idle executor has enough of everything. -/
theorem spared_idle : Spared (idle 10 shallow .standard) := by
  intro turns t e' error hsession hwaiting hfailed
  obtain ⟨hbefore, hrun, -⟩ := hsession.last
  obtain ⟨returned, e₁, hrun', -⟩ := (idleWaits_of_session hbefore hwaiting).exists_run t.budget
  cases hfailed.symm.trans (congrArg Prod.fst (run_unique hrun hrun'))

/-- Its first run leaves it in debt, and what it is given then may be cut off: it returns when it has
been given 2. -/
theorem idle_cut_off : ∃ earlier t e', FirstReturn (idle 10 shallow .standard) earlier t e' ∧
    (earlier ++ [t]).map Turn.budget = [1, -0x8000000000000000, 0x7FFFFFFFFFFFFFFF, 2] ∧
    SumsInRange ((earlier ++ [t]).map Turn.budget) ∧ (∀ t' ∈ earlier, t'.answer = .ok false) ∧
    e'.gas = 1 := by
  have hrun₁ := @idle_owes (-9) (-0x8000000000000000) (-0x8000000000000000)
    [.stopUnwind, .startUnwind 16] (by decide) (by decide) 60
  have hrun₂ := @idle_owes (-0x8000000000000000) 0x7FFFFFFFFFFFFFFF (-1)
    [.stopUnwind, .startUnwind 16] (by decide) (by decide) 60
  obtain ⟨e', hrun₃, hgas⟩ := @idle_finishes (-1) 2 1 [.stopUnwind, .startUnwind 16] (by decide)
    (by decide)
  have hsession := Session.turn (.turn (.turn (.turn .start idle_run_short) hrun₁) hrun₂) hrun₃
  refine ⟨_, _, e', ⟨hsession, by simp, rfl⟩, rfl, ?_, by simp, hgas⟩
  change SumsInRange [1, -0x8000000000000000, 0x7FFFFFFFFFFFFFFF, 2]
  decide

end Executor

end MeteredWasm
