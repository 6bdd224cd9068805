import MeteredWasm.Proofs.Session.Original

/-!
# Sessions that come to an end

What the module does does not depend on how its gas is split over the runs. As long as the runs of a
session wait for more gas, the executor stands where the original machine has come to
(`Stands.waits`); where they come to an end, so does the original machine (`Stands.completes`); and
whoever waits comes to that end once there is enough gas (`Stands.completes_along`). There is only
one such end, so all sessions that come to one come to the same (`Stands.same_end`).

Where the stack cannot be captured a run fails with a negative counter, and where native stack is
exhausted with an error that says so; the session does not count as one that has come to an end then
(`Completes`).
-/

set_option autoImplicit false

namespace MeteredWasm

open Wasm Machine Metering Simulation Suspension

/-- The error that a run ends with for want of native stack. -/
def exhaustion : Except ExecutionError Bool := .error (.trap .callStackExhausted)

/-- The session comes to an end with its last run: all runs before it wait for more gas, and it
answers something else, with no gas missing. -/
inductive Completes : List Turn → Except ExecutionError Bool → Prop
  | last {earlier : List Turn} {t : Turn} (waiting : ∀ t ∈ earlier, t.answer = .ok false)
      (ends : t.answer ≠ .ok false) (roomy : t.answer ≠ exhaustion) (paid : 0 ≤ t.after.gas) :
      Completes (earlier ++ [t]) t.answer

/-- The run `t` is the first of a session that returns. -/
structure FirstReturn (e : Executor) (earlier : List Turn) (t : Turn) (e' : Executor) : Prop where
  session : Session e (earlier ++ [t]) e'
  first : ∀ t' ∈ earlier, t'.answer ≠ .ok true
  last : t.answer = .ok true

/-- No top-up of the turns is cut off at the lower end of the counter. -/
def Uncut (turns : List Turn) : Prop :=
  ∀ t ∈ turns, -Executor.maxGas - 1 ≤ t.before.gas + t.budget

theorem Completes.ends {turns : List Turn} {answer : Except ExecutionError Bool}
    (h : Completes turns answer) : answer ≠ .ok false ∧ answer ≠ exhaustion := by
  cases h with
  | last _ ends roomy _ => exact ⟨ends, roomy⟩

namespace Executor

/-- What can be seen of the executors is the same, but for the reserved range of their memory and for
the globals `own`. -/
structure Resembles (own : Nat × Nat) (e e' : Executor) : Prop where
  calls : e'.sandbox.calls = e.sandbox.calls
  memories : SameMemories e.instance_.reserved e.sandbox.storage.memories
    e'.sandbox.storage.memories
  beside : SameBeside own e.sandbox.storage e'.sandbox.storage

/-- What a run answers in which the machine ends so. -/
def answerTo : Outcome → Except ExecutionError Bool
  | .finished _ _ => .ok true
  | .failed error _ => .error error

theorem answerTo_ne_waiting (o : Outcome) : answerTo o ≠ .ok false := by
  cases o <;> exact nofun

/-- The executor has come to the end that the original machine comes to. -/
structure Making.Ended (M : Making) (hidden : Nat → Nat → Prop) (o : Outcome) (e : Executor) :
    Prop where
  calls : e.sandbox.calls = ((outcomeSandbox o).calls.map (metering M.plan).call).map
    (HostCall.mapFunc M.pairing.func)
  again : answerTo o = .ok true →
    M.Stands hidden ⟨outcomeSandbox o, .call M.entry []⟩ e ∧ e.isPaused = false

theorem Memory.Agrees.alike {hidden : Nat → Prop} {m m₁ m₂ : Memory} (h₁ : m.Agrees hidden m₁)
    (h₂ : m.Agrees hidden m₂) : m₁.Agrees hidden m₂ :=
  ⟨h₂.size.trans h₁.size.symm, h₂.maxPages.trans h₁.maxPages.symm, h₂.shared.trans h₁.shared.symm,
    h₂.is64.trans h₁.is64.symm,
    fun address ha => (h₂.byte address ha).trans (h₁.byte address ha).symm⟩

section
variable {M : Making} {hidden : Nat → Nat → Prop} {e e' : Executor} {s : State} {fuel : Nat}
  {budget : Int} {answer : Except ExecutionError Bool}

/-- Where an executor is about to be entered, its storage shows that of the original machine. -/
theorem Making.Stands.ready (h : M.Stands hidden s e) (hp : e.isPaused = false) :
    ∃ st, M.pairing.ready st e.sandbox.storage ∧
      s.sandbox.storage.Agrees (metering M.plan).func hidden st := by
  obtain ⟨⟨⟨st, gas, paused, calls, signals⟩, t⟩, left, ⟨hawaits, -, -⟩, hsandboxes, -⟩ := h.mirrored
  cases hawaits with
  | entry _ ready => exact ⟨st, ready, hsandboxes.storage⟩
  | held paused => cases hp.symm.trans paused

/-- Executors that are about to be entered beside the same storage have the same to show. -/
theorem Making.Stands.alike {s' : State} (h : M.Stands M.reserved s e) (hp : e.isPaused = false)
    (h' : M.Stands M.reserved s' e') (hp' : e'.isPaused = false)
    (hsame : s'.sandbox.storage = s.sandbox.storage) :
    SameMemories e.instance_.reserved e.sandbox.storage.memories e'.sandbox.storage.memories ∧
      SameBeside M.own e.sandbox.storage e'.sandbox.storage := by
  obtain ⟨st, hready, hst⟩ := h.ready hp
  obtain ⟨st', hready', hst'⟩ := h'.ready hp'
  rw [hsame] at hst'
  have hC := h.drives.captures
  have hC' := h'.drives.captures
  have hbeside : st' = { st with memories := st'.memories } := by
    obtain ⟨memories, tables, globals, elements, datas⟩ := st
    obtain ⟨memories', tables', globals', elements', datas'⟩ := st'
    simp only [Storage.mk.injEq, true_and]
    exact ⟨hst'.tables.trans hst.tables.symm, hst'.globals.trans hst.globals.symm,
      hst'.elements.trans hst.elements.symm, hst'.datas.trans hst.datas.symm⟩
  refine ⟨⟨?_, fun k m m' hm hm' => ?_⟩, ?_⟩
  · rw [hC.shows hready, hC'.shows hready', hst.memoryCount, hst'.memoryCount]
  · rw [hC.shows hready] at hm
    rw [hC'.shows hready'] at hm'
    have hlt : k < s.sandbox.storage.memories.length := by
      rw [← hst.memoryCount]
      exact (List.getElem?_eq_some_iff.1 hm).1
    have hm₀ := List.getElem?_eq_getElem hlt
    rw [h.drives.reserved]
    exact Memory.Agrees.alike (hst.memories k _ m hm₀ hm) (hst'.memories k _ m' hm₀ hm')
  · rw [hbeside] at hready'
    exact hC.settled hready hready'

/-- Executors that have come to the same end resemble each other. -/
theorem Making.Ended.resembles {o : Outcome} (h : M.Ended M.reserved o e)
    (h' : M.Ended M.reserved o e') (ho : answerTo o = .ok true) : e.Resembles M.own e' := by
  obtain ⟨hstands, hp⟩ := h.again ho
  obtain ⟨hstands', hp'⟩ := h'.again ho
  obtain ⟨hmemories, hbeside⟩ := hstands.alike hp hstands' hp' rfl
  exact ⟨h'.calls.trans h.calls.symm, hmemories, hbeside⟩

/-- Without gas for a tick the executor stands where it did. -/
theorem Making.Stands.regas (h : M.Stands hidden s e) (gas : Int) :
    M.Stands hidden s { e with sandbox := { e.sandbox with gas } } := by
  obtain ⟨hd, hs, ⟨s₀, left, hmirrors, hsandboxes, hstage⟩, hopen⟩ := h
  exact ⟨hd.keeps rfl rfl, hs, ⟨s₀, left, hmirrors.regas gas, hsandboxes, hstage⟩, hopen⟩

/-- A run that waits for more gas takes the original machine along, and is charged what that costs. -/
theorem Making.Stands.run_waits (h : M.Stands hidden s e)
    (hhides : ∀ k address, M.reserved k address → hidden k address)
    (hheeds : ∀ n v, Reaches (M.original.deep n) s v → Heeding hidden v)
    (hrun : e.run fuel budget = some (.ok false, e')) :
    ∃ n visited s₁, Trail (M.original.deep n) s visited s₁ ∧ M.Stands hidden s₁ e' ∧
      charged e.instance_ (e.states fuel budget) = tolls M.plan (M.original.deep n) visited ∧
      (0 < topUp e.gas budget →
        e'.gas < 0 ∧ -(maxCharge : Int) ≤ e'.gas ∧ e'.isPaused = true) := by
  have hgas := gas_run hrun
  rw [h.unfaulted, if_neg (by decide)] at hgas
  by_cases hidle : topUp e.gas budget ≤ 0
  · rw [run_of_idle h.unfaulted hidle] at hrun
    cases hrun
    refine ⟨0, [], s, .here, h.regas _, ?_, fun hpos => absurd hpos (Int.not_lt.2 hidle)⟩
    rw [states_of_idle hidle]
    rfl
  · have hpasses := h.passes hhides hheeds (Int.not_le.1 hidle) hrun
    cases hpasses with
    | @paused n visited s₁ _ trail left debt most stands paused =>
      exact ⟨n, visited, s₁, trail, stands, by omega, fun _ => ⟨debt, most, paused⟩⟩

/-- A run that comes to an end comes to that of the original machine. -/
theorem Making.Stands.run_ends (h : M.Stands hidden s e)
    (hhides : ∀ k address, M.reserved k address → hidden k address)
    (hheeds : ∀ n v, Reaches (M.original.deep n) s v → Heeding hidden v)
    (hrun : e.run fuel budget = some (answer, e')) (hends : answer ≠ .ok false)
    (hroomy : answer ≠ exhaustion) (hpaid : 0 ≤ e'.gas) :
    ∃ n visited s₁ o, Trail (M.original.deep n) s visited s₁ ∧
      (step (M.original.deep n) s₁).outcome? = some o ∧ ¬Exhausts (M.original.deep n) s₁ ∧
      answer = answerTo o ∧ M.Ended hidden o e' ∧
      charged e.instance_ (e.states fuel budget) = tolls M.plan (M.original.deep n) visited := by
  have hgas := gas_run hrun
  rw [h.unfaulted, if_neg (by decide)] at hgas
  have hidle : ¬topUp e.gas budget ≤ 0 := fun hidle => by
    rw [run_of_idle h.unfaulted hidle] at hrun
    cases hrun
    exact hends rfl
  have hpasses := h.passes hhides hheeds (Int.not_le.1 hidle) hrun
  cases hpasses with
  | @finished n visited s₁ results sb _ trail original left _ stands paused =>
    refine ⟨n, visited, s₁, .finished results sb, trail, by rw [original]; rfl,
      roomy_of_finished original, rfl, ⟨?_, fun _ => ⟨stands, paused⟩⟩, by omega⟩
    obtain ⟨s₀, _, ⟨-, -, hcalls⟩, hsandboxes, -⟩ := stands.mirrored
    rw [hcalls, hsandboxes.calls]
    rfl
  | @failed n visited s₁ error sb _ trail original roomy left paid calls =>
    exact ⟨n, visited, s₁, .failed error sb, trail, by rw [original]; rfl,
      roomy_of_failed original roomy, rfl, ⟨calls, nofun⟩, by omega⟩
  | exhausted => exact absurd rfl hroomy
  | paused => exact absurd rfl hends
  | stuck _ _ debt => omega

/-- With enough gas a run gets to the end that the original machine comes to, as long as there is
native stack. -/
theorem Making.Stands.run_completes (h : M.Stands hidden s e)
    (hhides : ∀ k address, M.reserved k address → hidden k address)
    (hheeds : ∀ n v, Reaches (M.original.deep n) s v → Heeding hidden v) {n : Nat}
    {visited : List State} {s₁ : State} {o : Outcome}
    (htrail : Trail (M.original.deep n) s visited s₁)
    (ho : (step (M.original.deep n) s₁).outcome? = some o)
    (hroomy : ¬Exhausts (M.original.deep n) s₁) (hgas : 0 < topUp e.gas budget)
    (hpaid : (tolls M.plan (M.original.deep n) visited : Int) ≤ topUp e.gas budget) :
    ∃ fuel answer e', e.run fuel budget = some (answer, e') ∧ (answer = exhaustion ∨
      answer = answerTo o ∧
        e'.gas = topUp e.gas budget - tolls M.plan (M.original.deep n) visited) := by
  obtain ⟨fuel, answer, e', hrun⟩ := h.exists_run hhides hheeds hgas htrail ho hroomy
  refine ⟨fuel, answer, e', hrun, ?_⟩
  have hshort {n' : Nat} {before : List State} {s₂ : State}
      (hbefore : Trail (M.original.deep n') s before s₂) :
      ¬topUp e.gas budget - tolls M.plan (M.original.deep n') before < 0 := by
    obtain ⟨rest, rfl, hrest⟩ := hbefore.exists_rest htrail ho hroomy
    have hdeep := (hbefore.deeper (Nat.le_max_left n' n)).append hrest
    have hsame : tolls M.plan _ _ = tolls M.plan _ _ := tolls_deep_eq htrail hdeep
    have hsame' : tolls M.plan _ _ = tolls M.plan _ _ := tolls_deeper (Nat.le_max_left n' n) hbefore
    rw [tolls_append M.plan (M.original.deep (max n' n))] at hsame
    omega
  have hpasses := h.passes hhides hheeds hgas hrun
  cases hpasses with
  | exhausted => exact .inl rfl
  | paused trail left debt | stuck trail left debt => exact absurd (left ▸ debt) (hshort trail)
  | @finished n' visited' s₂ results sb _ trail original left =>
    obtain ⟨rfl, rfl, rfl⟩ := htrail.unique_end_deep ho hroomy trail (by rw [original]; rfl)
      (roomy_of_finished original)
    exact .inr ⟨rfl, by rw [left, tolls_deep_eq htrail trail]⟩
  | @failed n' visited' s₂ error sb _ trail original roomy left =>
    obtain ⟨rfl, rfl, rfl⟩ := htrail.unique_end_deep ho hroomy trail (by rw [original]; rfl)
      (roomy_of_failed original roomy)
    exact .inr ⟨rfl, by rw [left, tolls_deep_eq htrail trail]⟩

end

/-! ## Sessions -/

section
variable {M : Making} {hidden : Nat → Nat → Prop} {e₀ e : Executor} {s₀ : State}
  {turns : List Turn} {answer : Except ExecutionError Bool} (h : M.Stands hidden s₀ e₀)
  (hhides : ∀ k address, M.reserved k address → hidden k address)
  (hheeds : ∀ n v, Reaches (M.original.deep n) s₀ v → Heeding hidden v)
include h hhides hheeds

omit h hhides in
/-- What the original machine does not touch from its start on it does not touch later. -/
theorem heeding_of_trail {n : Nat} {visited : List State} {s : State}
    (htrail : Trail (M.original.deep n) s₀ visited s) (n' : Nat) (v : State)
    (hv : Reaches (M.original.deep n') s v) : Heeding hidden v := by
  obtain ⟨more, hmore⟩ := hv.exists_trail
  have hall := (htrail.deeper (Nat.le_max_left n n')).append (hmore.deeper (Nat.le_max_right n n'))
  exact hheeds _ v hall.reaches

/-- While the runs wait for more gas, the executor stands where the original machine has come to. -/
theorem Making.Stands.waits (hsession : Session e₀ turns e)
    (hwaiting : ∀ t ∈ turns, t.answer = .ok false) :
    ∃ n visited s, Trail (M.original.deep n) s₀ visited s ∧ M.Stands hidden s e ∧
      charged e₀.instance_ (Turns.states turns) = tolls M.plan (M.original.deep n) visited := by
  induction hsession with
  | start => exact ⟨0, [], s₀, .here, h, rfl⟩
  | @turn turns e₁ e₂ fuel budget answer before hrun ih =>
    rw [List.forall_mem_append, List.forall_mem_singleton] at hwaiting
    obtain ⟨hwaiting, rfl⟩ := hwaiting
    obtain ⟨n, visited, s, htrail, hs, hcharged⟩ := ih hwaiting
    have hinstance := before.keeps.1
    obtain ⟨n', more, s₁, hmore, hs₁, hcharged₁, -⟩ := hs.run_waits hhides
      (heeding_of_trail hheeds htrail) hrun
    have htrail' := htrail.deeper (Nat.le_max_left n n')
    have hmore' := hmore.deeper (Nat.le_max_right n n')
    refine ⟨max n n', visited ++ more, s₁, htrail'.append hmore', hs₁, ?_⟩
    rw [Turns.states_concat, charged_append, hcharged, tolls_append, tolls_deep_eq htrail' htrail,
      tolls_deep_eq hmore' hmore]
    rw [hinstance] at hcharged₁
    simp only [Turn.states, hcharged₁]
    omega

/-- Between the runs of a session that waits there is no gas left. The counter is as low as the
hook's charges make it, unless it has been cut off. -/
theorem Making.Stands.waiting_gas (hstart : e₀.gas = 0) (hsession : Session e₀ turns e)
    (hwaiting : ∀ t ∈ turns, t.answer = .ok false) (hbudgets : ∀ t ∈ turns, t.budget ≤ maxGas) :
    e.gas ≤ 0 ∧ -maxGas - 1 ≤ e.gas ∧
      Turns.given turns - charged e₀.instance_ (Turns.states turns) ≤ e.gas ∧
      (Uncut turns → e.gas = Turns.given turns - charged e₀.instance_ (Turns.states turns)) := by
  induction hsession with
  | start => rw [hstart]; simp [maxGas]
  | @turn turns e₁ e₂ fuel budget answer before hrun ih =>
    rw [List.forall_mem_append, List.forall_mem_singleton] at hwaiting hbudgets
    obtain ⟨hwaiting, rfl⟩ := hwaiting
    have hmax : budget ≤ maxGas := hbudgets.2
    obtain ⟨hnone, -, hat, hexact⟩ := ih hwaiting hbudgets.1
    obtain ⟨_, _, s, htrail, hs, -⟩ := h.waits hhides hheeds before hwaiting
    have hinstance := before.keeps.1
    have hgas := gas_run hrun
    rw [hs.unfaulted, if_neg (by decide), hinstance] at hgas
    have htop : e₁.gas + budget ≤ topUp e₁.gas budget := by
      simp only [topUp]
      omega
    obtain ⟨_, _, _, -, -, -, hpauses⟩ :=
      hs.run_waits hhides (heeding_of_trail hheeds htrail) hrun
    have hafter : e₂.gas ≤ 0 ∧ -maxGas - 1 ≤ e₂.gas := by
      by_cases hidle : topUp e₁.gas budget ≤ 0
      · rw [states_of_idle hidle] at hgas
        simp only [charged_nil, Int.sub_zero] at hgas
        rw [hgas]
        refine ⟨hidle, ?_⟩
        simp only [topUp]
        omega
      · obtain ⟨hdebt, hmost, -⟩ := hpauses (Int.not_le.1 hidle)
        simp only [maxCharge, maxGas] at hmost ⊢
        omega
    rw [Turns.given_concat, Turns.states_concat, charged_append]
    simp only [Turn.states]
    refine ⟨hafter.1, hafter.2, by omega, fun huncut => ?_⟩
    have hprevious := hexact fun t ht => huncut t (List.mem_append_left _ ht)
    have hthis : -maxGas - 1 ≤ e₁.gas + budget :=
      huncut _ (List.mem_append_right turns (List.mem_singleton_self _))
    have hexactly : topUp e₁.gas budget = e₁.gas + budget := topUp_eq hthis (by omega)
    omega

/-- If no top-up has been cut off, a session that comes to an end has used up what it has been given
but for what the hook has charged. -/
theorem Making.Stands.completes_gas (hstart : e₀.gas = 0) (hsession : Session e₀ turns e)
    (hcompletes : Completes turns answer) (hbudgets : ∀ t ∈ turns, t.budget ≤ maxGas)
    (huncut : Uncut turns) :
    e.gas = Turns.given turns - charged e₀.instance_ (Turns.states turns) := by
  obtain @⟨earlier, t, hwaiting, -, -, -⟩ := hcompletes
  obtain ⟨hbefore, hrun, -⟩ := hsession.last
  rw [Uncut, List.forall_mem_append, List.forall_mem_singleton] at huncut
  rw [List.forall_mem_append, List.forall_mem_singleton] at hbudgets
  obtain ⟨hnone, -, -, hexact⟩ := h.waiting_gas hhides hheeds hstart hbefore hwaiting hbudgets.1
  obtain ⟨_, _, s, -, hs, -⟩ := h.waits hhides hheeds hbefore hwaiting
  have hprevious := hexact huncut.1
  have hthis := huncut.2
  have hmax := hbudgets.2
  have hgas := gas_run hrun
  rw [hs.unfaulted, if_neg (by decide), hbefore.keeps.1, topUp_eq hthis (by omega)] at hgas
  rw [Turns.given_concat, Turns.states_concat, charged_append, hgas]
  simp only [Turn.states]
  omega

/-- A session that comes to an end comes to the one of the original machine. -/
theorem Making.Stands.completes (hsession : Session e₀ turns e) (hcompletes : Completes turns answer) :
    ∃ n visited s o, Trail (M.original.deep n) s₀ visited s ∧
      (step (M.original.deep n) s).outcome? = some o ∧ ¬Exhausts (M.original.deep n) s ∧
      answer = answerTo o ∧ M.Ended hidden o e ∧
      charged e₀.instance_ (Turns.states turns) = tolls M.plan (M.original.deep n) visited := by
  obtain @⟨earlier, t, hwaiting, hends, hroomy, hpaid⟩ := hcompletes
  obtain ⟨hbefore, hrun, hafter⟩ := hsession.last
  obtain ⟨n, visited, s, htrail, hs, hcharged⟩ := h.waits hhides hheeds hbefore hwaiting
  have hinstance := hbefore.keeps.1
  obtain ⟨n', more, s₁, o, hmore, ho, hroomy', hanswer, hended, hcharged₁⟩ :=
    hs.run_ends hhides (heeding_of_trail hheeds htrail) hrun hends hroomy
      (hafter ▸ hpaid)
  have htrail' := htrail.deeper (Nat.le_max_left n n')
  have hmore' := hmore.deeper (Nat.le_max_right n n')
  have hdeeper := step_deeper (Nat.le_max_right n n') hroomy'
  refine ⟨max n n', visited ++ more, s₁, o, htrail'.append hmore', hdeeper ▸ ho, ?_, hanswer, hended, ?_⟩
  · rintro ⟨sb, hexhausts⟩
    exact hroomy' ⟨sb, hdeeper ▸ hexhausts⟩
  · rw [Turns.states_concat, charged_append, hcharged, tolls_append, tolls_deep_eq htrail' htrail,
      tolls_deep_eq hmore' hmore]
    rw [hinstance] at hcharged₁
    simp only [Turn.states, hcharged₁]
    omega

/-- A session comes to an end with the first run that returns. -/
theorem Making.Stands.completes_of_returned {t : Turn} (hreturn : FirstReturn e₀ turns t e) :
    Completes (turns ++ [t]) (.ok true) := by
  obtain ⟨hsession, hfirst, hlast⟩ := hreturn
  obtain ⟨hbefore, hrun, hafter⟩ := hsession.last
  rw [hlast] at hrun
  have hopen := unfaulted_of_run hrun
  have hwaiting : ∀ t ∈ turns, t.answer = .ok false := by
    intro t' ht'
    obtain ⟨b, hb⟩ := hbefore.answered hopen t' ht'
    cases b with
    | false => exact hb
    | true => exact absurd hb (hfirst t' ht')
  obtain ⟨n, visited, s, htrail, hs, -⟩ := h.waits hhides hheeds hbefore hwaiting
  have hgas : 0 < topUp t.before.gas t.budget := Int.not_le.1 fun hidle => by
    rw [run_of_idle hopen hidle] at hrun
    cases hrun
  have hpasses := hs.passes hhides (heeding_of_trail hheeds htrail) hgas hrun
  cases hpasses with
  | finished _ _ _ paid =>
    have hends : t.answer ≠ .ok false ∧ t.answer ≠ exhaustion := by
      rw [hlast]
      exact ⟨nofun, nofun⟩
    exact hlast ▸ .last hwaiting hends.1 hends.2 (hafter ▸ paid)

/-- All sessions that come to an end come to the same. -/
theorem Making.Stands.same_end {others : List Turn} {e' : Executor}
    {answer' : Except ExecutionError Bool} (hsession : Session e₀ turns e)
    (hcompletes : Completes turns answer) (hothers : Session e₀ others e')
    (hcompletes' : Completes others answer') :
    ∃ o, answer = answerTo o ∧ answer' = answerTo o ∧ M.Ended hidden o e ∧ M.Ended hidden o e' ∧
      charged e₀.instance_ (Turns.states turns) = charged e₀.instance_ (Turns.states others) := by
  obtain ⟨n, visited, s, o, htrail, ho, hroomy, hanswer, hended, hcharged⟩ :=
    h.completes hhides hheeds hsession hcompletes
  obtain ⟨n', visited', s', o', htrail', ho', hroomy', hanswer', hended', hcharged'⟩ :=
    h.completes hhides hheeds hothers hcompletes'
  obtain ⟨rfl, rfl, rfl⟩ := htrail.unique_end_deep ho hroomy htrail' ho' hroomy'
  refine ⟨o, hanswer, hanswer', hended, hended', ?_⟩
  rw [hcharged, hcharged', tolls_deep_eq htrail htrail']

/-- A session that waits comes to the end of the original machine, once it is given what is missing,
as long as there is native stack. -/
theorem Making.Stands.completes_along {others : List Turn} {e' : Executor} {budget : Int} {n : Nat}
    {visited : List State} {s : State} {o : Outcome}
    (htrail : Trail (M.original.deep n) s₀ visited s)
    (ho : (step (M.original.deep n) s).outcome? = some o)
    (hroomy : ¬Exhausts (M.original.deep n) s) (hothers : Session e₀ others e')
    (hwaiting : ∀ t ∈ others, t.answer = .ok false) (hgas : 0 < topUp e'.gas budget)
    (hpaid : (tolls M.plan (M.original.deep n) visited : Int) ≤
      charged e₀.instance_ (Turns.states others) + topUp e'.gas budget) :
    ∃ fuel answer e₁, e'.run fuel budget = some (answer, e₁) ∧ (answer = exhaustion ∨
      answer = answerTo o ∧
        Completes (others ++ [⟨e', fuel, budget, answer, e₁⟩]) (answerTo o) ∧
        e₁.gas = topUp e'.gas budget - (tolls M.plan (M.original.deep n) visited -
          charged e₀.instance_ (Turns.states others))) := by
  obtain ⟨n', before, s', hbefore, hs', hcharged⟩ := h.waits hhides hheeds hothers hwaiting
  obtain ⟨rest, rfl, hrest⟩ := hbefore.exists_rest htrail ho hroomy
  have hbefore' := hbefore.deeper (Nat.le_max_left n' n)
  have hsplit := tolls_append M.plan (M.original.deep (max n' n)) before rest
  rw [tolls_deep_eq (hbefore'.append hrest) htrail, tolls_deep_eq hbefore' hbefore] at hsplit
  have hdeeper := step_deeper (Nat.le_max_right n' n) hroomy
  have hroomy' : ¬Exhausts (M.original.deep (max n' n)) s := fun ⟨sb, hexhausts⟩ =>
    hroomy ⟨sb, hdeeper ▸ hexhausts⟩
  obtain ⟨fuel, answer, e₁, hrun, hanswer⟩ := hs'.run_completes hhides
    (heeding_of_trail hheeds hbefore) hrest (hdeeper ▸ ho) hroomy' hgas (by omega)
  refine ⟨fuel, answer, e₁, hrun, ?_⟩
  rcases hanswer with hexhausted | ⟨rfl, hleft⟩
  · exact .inl hexhausted
  · have hroom : answerTo o ≠ exhaustion := by
      intro hexhausted
      cases o with
      | finished => cases hexhausted
      | failed error sb =>
        cases hexhausted
        exact hroomy' ⟨sb, Step.eq_failed (hdeeper ▸ ho)⟩
    have hpaid : 0 ≤ e₁.gas := by omega
    exact .inr ⟨rfl, @Completes.last others ⟨e', fuel, budget, answerTo o, e₁⟩ hwaiting
      (answerTo_ne_waiting o) hroom hpaid, by omega⟩

end

end Executor

end MeteredWasm
