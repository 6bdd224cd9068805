import MeteredWasm.Proofs.Session.Once
import MeteredWasm.Proofs.Session.Schedule
import MeteredWasm.Proofs.Simulation.History

/-!
# Snapshots taken and restored

A snapshot holds linear memory, and nothing else. A fresh executor with the snapshot of another one
goes on as that one does (`snapshot_round_trip`), if the other one has left its globals, tables and
segments as they were: then what has been captured is held by both, and with pure host functions the
calls that the first one has made before make no difference. If a global has changed, they may part
(`global_left_behind`).
-/

set_option autoImplicit false

namespace MeteredWasm

open Wasm Machine Metering Simulation Linking Suspension

/-! ## Sessions that are left open -/

theorem Machine.Visits.deeper {i : Instance} {entry : UInt32} {sb : Sandbox} {s : State} {n n' : Nat}
    (h : Visits (i.deep n) entry sb s) (hle : n ≤ n') : Visits (i.deep n') entry sb s := by
  induction h with
  | call => exact .call
  | step _ hstep ih => exact ih.step (next_deeper hle hstep)
  | again _ hstep ih => exact ih.again (step_deeper hle (roomy_of_finished hstep) ▸ hstep)

theorem Machine.Instance.Pure.deep {i : Instance} (h : i.Pure) (n : Nat) : (i.deep n).Pure := h

/-- What keeps clear of hidden bytes wherever it comes does so from there on. -/
theorem heeding_of_visits {i : Instance} {entry : UInt32} {sb : Sandbox} {s : State}
    {hidden : Nat → Nat → Prop} {n : Nat}
    (hclear : ∀ n s, Visits (i.deep n) entry sb s → Heeding hidden s)
    (hvisits : Visits (i.deep n) entry sb s) (n' : Nat) (v : State)
    (hv : Reaches (i.deep n') s v) : Heeding hidden v := by
  obtain ⟨visited, htrail⟩ := hv.exists_trail
  exact hclear _ v ((hvisits.deeper (Nat.le_max_left n n')).reaches
    (htrail.deeper (Nat.le_max_right n n')).reaches)

namespace Executor

section
variable {M : Making} {s₀ : State} {e a : Executor} {turns : List Turn}

/-- Whatever has been run, an executor that no error has stopped stands where the original machine
comes to. -/
theorem Making.Begins.session_stands (hb : M.Begins s₀ e)
    (hclear : ∀ n s, Visits (M.original.deep n) M.entry s₀.sandbox s → Heeding M.reserved s)
    (hsession : Session e turns a) (hopen : a.faulted = false) :
    ∃ n s, Visits (M.original.deep n) M.entry s₀.sandbox s ∧ M.Stands M.reserved s a := by
  induction hsession with
  | start =>
    refine ⟨0, s₀, ?_, hb.stands.hide _⟩
    obtain ⟨sb, t⟩ := s₀
    obtain rfl : t = .call M.entry [] := hb.thread
    exact .call
  | @turn turns e₁ e₂ fuel budget answer before hrun ih =>
    have hfaulted := faulted_of_run hrun
    cases answer with
    | error => cases hopen.symm.trans hfaulted
    | ok returned =>
      obtain ⟨n, s, hvisits, hs⟩ := ih (unfaulted_of_run hrun)
      have hheeds := heeding_of_visits hclear hvisits
      cases returned with
      | false =>
        obtain ⟨n', visited, s₁, htrail, hs₁, -⟩ := hs.run_waits (fun _ _ => id) hheeds hrun
        exact ⟨max n n', s₁, (hvisits.deeper (Nat.le_max_left n n')).reaches
          (htrail.deeper (Nat.le_max_right n n')).reaches, hs₁⟩
      | true =>
        have hgas : 0 < topUp e₁.gas budget := Int.not_le.1 fun hidle => by
          rw [run_of_idle (unfaulted_of_run hrun) hidle] at hrun
          cases hrun
        have hpasses := hs.passes (fun _ _ => id) hheeds hgas hrun
        cases hpasses with
        | @finished n' visited s₁ results sb _ trail original _ _ stands =>
          have hdeeper := step_deeper (Nat.le_max_right n n') (roomy_of_finished original)
          exact ⟨max n n', _, ((hvisits.deeper (Nat.le_max_left n n')).reaches
            (trail.deeper (Nat.le_max_right n n')).reaches).again (hdeeper ▸ original), stands⟩

/-- Executors that have been made alike start with the same memory. -/
theorem Making.Begins.memories_eq {e' : Executor} (hb : M.Begins s₀ e) (hb' : M.Begins s₀ e') :
    e'.sandbox.storage.memories = e.sandbox.storage.memories := by
  obtain ⟨st, hready, hst⟩ := hb.stands.ready hb.paused
  obtain ⟨st', hready', hst'⟩ := hb'.stands.ready hb'.paused
  rw [hb.stands.drives.captures.shows hready, hb'.stands.drives.captures.shows hready',
    Storage.agrees_nothing_iff.1 hst, Storage.agrees_nothing_iff.1 hst']

/-- With a snapshot a fresh executor has the memory of the other one, if there is but one. -/
theorem storage_restored {e' b : Executor} {snapshot : ByteArray}
    (hone : e'.sandbox.storage.memories.length = 1)
    (hgrown : e'.sandbox.storage.Grown a.sandbox.storage) (hblock : a.instance_.blockMemory = 0)
    (hsnapshot : a.serialize = some snapshot) (hrestored : e'.deserialize snapshot = .ok b) :
    b.sandbox.storage = { e'.sandbox.storage with memories := a.sandbox.storage.memories } := by
  obtain ⟨-, -, rfl⟩ := serialize_eq_some.1 hsnapshot
  obtain ⟨-, -, hblock', rfl⟩ := deserialize_eq_ok.1 hrestored
  have hfirst : e'.instance_.blockMemory = 0 := by omega
  obtain ⟨m, hm⟩ := List.length_eq_one_iff.1 hone
  obtain ⟨m', hm'⟩ := List.length_eq_one_iff.1 (hgrown.count.trans hone)
  have hsame := hgrown.memories 0 m m' (by rw [hm]; rfl) (by rw [hm']; rfl)
  have hfilled : ({ m with bytes := m'.bytes } : Memory) = m' := by
    obtain ⟨bytes, maxPages, shared, is64⟩ := m'
    obtain ⟨rfl, rfl, rfl, -⟩ := hsame
    rfl
  have hmemory : a.memory = m' := by rw [memory, memoryOf, hblock, hm']; rfl
  simp [refilled, Storage.modifyMemory, hfirst, hm, hm', hmemory, hfilled]

/-- The fresh executor stands where the other one does, but that it has called nothing. -/
theorem Making.Begins.restored_stands {hidden : Nat → Nat → Prop} {s : State} {e' b : Executor}
    {snapshot : ByteArray} (hb : M.Begins s₀ e') (hs : M.Stands hidden s a)
    (hstorage : b.sandbox.storage = { e'.sandbox.storage with memories := a.sandbox.storage.memories })
    (haside : SameBeside M.own e'.sandbox.storage a.sandbox.storage)
    (hsnapshot : a.serialize = some snapshot) (hrestored : e'.deserialize snapshot = .ok b) :
    M.Stands hidden ⟨{ s.sandbox with calls := [] }, s.thread⟩ b ∧ b.sandbox.calls = [] := by
  obtain ⟨hp, -, -⟩ := serialize_eq_some.1 hsnapshot
  obtain ⟨-, -, -, rfl⟩ := deserialize_eq_ok.1 hrestored
  have hd := hb.stands.drives
  obtain ⟨st₁, hready, -⟩ := hb.stands.ready hb.paused
  obtain ⟨⟨⟨st, gas, paused, calls, signals⟩, t⟩, left, ⟨hawaits, hrunning, -⟩, hsandboxes, hstage⟩ :=
    hs.mirrored
  cases hawaits with
  | entry hp' => cases hp'.symm.trans hp
  | held _ hheld =>
    have hheld := hd.captures.restores hheld hready haside
    rw [← hstorage] at hheld
    refine ⟨⟨hd.keeps rfl rfl, ?_, ?_, hb.stands.unfaulted⟩, hb.calls⟩
    · exact ⟨hs.inScope.thread, ⟨hs.inScope.sandbox.storage, rfl⟩, hs.inScope.placed⟩
    · exact ⟨⟨⟨st, gas, paused, [], signals⟩, t⟩, left, ⟨.held rfl hheld, hrunning, hb.calls⟩,
        ⟨hsandboxes.storage, rfl⟩, hstage⟩

end

/-! ## Going on -/

/-- The executor, when `old` has been called before. -/
def after (old : List HostCall) (e : Executor) : Executor := { e with sandbox := e.sandbox.after old }

/-- Where a session of `e` comes to an end, `e'` comes to one with the same answer, however its gas
is split, once it has been given as much as the hook has charged `e`; as long as there is native
stack. -/
def Leads (e e' : Executor) : Prop :=
  ∀ turns e₁ answer others e₁' budget, Session e turns e₁ → Completes turns answer →
    Session e' others e₁' → (∀ t ∈ others, t.answer = .ok false) → 0 < topUp e₁'.gas budget →
    charged e.instance_ (Turns.states turns) ≤
      charged e'.instance_ (Turns.states others) + topUp e₁'.gas budget →
    ∃ fuel answer' e₂, e₁'.run fuel budget = some (answer', e₂) ∧ (answer' = exhaustion ∨
      answer' = answer ∧ Completes (others ++ [⟨e₁', fuel, budget, answer', e₂⟩]) answer)

theorem answerTo_after (old : List HostCall) (o : Outcome) : answerTo (o.after old) = answerTo o := by
  cases o <;> rfl

theorem exhausts_after {i : Instance} {s : State} {old : List HostCall} (hpure : i.Pure) :
    Exhausts i (s.after old) ↔ Exhausts i s := by
  unfold Exhausts
  rw [step_after old hpure]
  cases step i s with
  | next s₁ => simp [Step.after]
  | finished results sb => simp [Step.after]
  | failed error sb =>
    simp only [Step.after, Step.failed.injEq, exists_and_left, exists_eq', and_true]

section
variable {M : Making} {s : State} {a b : Executor} {old : List HostCall}
  (ha : M.Stands M.reserved (s.after old) a) (hb : M.Stands M.reserved s b)
  (hheeds : ∀ n v, Reaches (M.original.deep n) (s.after old) v → Heeding M.reserved v)
  (hpure : M.original.Pure)
include ha hb hheeds hpure

omit ha hb in
theorem heeding_of_after (n : Nat) (v : State) (hv : Reaches (M.original.deep n) s v) :
    Heeding M.reserved v := by
  obtain ⟨visited, htrail⟩ := hv.exists_trail
  exact hheeds n (v.after old) (htrail.after old (hpure.deep n)).reaches

/-- Executors that stand where the same machine does, but for what `a` has called before, come to
the same end. -/
theorem Making.Stands.same_end_after {turns others : List Turn} {a' b' : Executor}
    {answer answer' : Except ExecutionError Bool} (hsession : Session a turns a')
    (hcompletes : Completes turns answer) (hothers : Session b others b')
    (hcompletes' : Completes others answer') (hnone : b.sandbox.calls = []) :
    answer' = answer ∧ a'.sandbox.calls = b'.sandbox.calls ++ a.sandbox.calls ∧
      (answer = .ok true → a'.Resembles M.own (b'.after a.sandbox.calls)) := by
  have hheeds₀ := heeding_of_after hheeds hpure
  obtain ⟨n, visited, s₁, o, htrail, ho, hroomy, rfl, hended, -⟩ :=
    ha.completes (fun _ _ => id) hheeds hsession hcompletes
  obtain ⟨n', visited', s₁', o', htrail', ho', hroomy', rfl, hended', -⟩ :=
    hb.completes (fun _ _ => id) hheeds₀ hothers hcompletes'
  obtain ⟨visited₀, s₂, htrail₀, rfl, rfl⟩ := htrail.of_after old (hpure.deep n)
  obtain ⟨o₀, ho₀, rfl⟩ := outcome_of_after old (hpure.deep n) ho
  rw [exhausts_after (hpure.deep n)] at hroomy
  obtain ⟨-, -, rfl⟩ := htrail₀.unique_end_deep ho₀ hroomy htrail' ho' hroomy'
  have hcalls : a'.sandbox.calls = b'.sandbox.calls ++ a.sandbox.calls := by
    obtain ⟨_, _, ⟨-, -, hbefore⟩, hsandboxes, -⟩ := ha.mirrored
    obtain ⟨_, _, ⟨-, -, hbefore₀⟩, hsandboxes₀, -⟩ := hb.mirrored
    rw [hbefore₀, hsandboxes₀.calls, List.map_eq_nil_iff, List.map_eq_nil_iff] at hnone
    rw [hended.calls, hended'.calls, hbefore, hsandboxes.calls, outcomeSandbox_after]
    simp [State.after, Sandbox.after, hnone]
  refine ⟨(answerTo_after old o₀).symm, hcalls, fun hreturns => ?_⟩
  obtain ⟨hstands, hp⟩ := hended.again hreturns
  obtain ⟨hstands', hp'⟩ := hended'.again (answerTo_after old o₀ ▸ hreturns)
  obtain ⟨hmemories, hbeside⟩ :=
    hstands.alike hp hstands' hp' (by rw [outcomeSandbox_after]; rfl)
  exact ⟨hcalls.symm, hmemories, hbeside⟩

/-- Where one of them comes to an end, so does the other. -/
theorem Making.Stands.leads_after : a.Leads b ∧ b.Leads a := by
  have hheeds₀ := heeding_of_after hheeds hpure
  constructor
  · intro turns a' answer others b' budget hsession hcompletes hothers hwaiting hgas hpaid
    obtain ⟨n, visited, s₁, o, htrail, ho, hroomy, rfl, -, hcharged⟩ :=
      ha.completes (fun _ _ => id) hheeds hsession hcompletes
    obtain ⟨visited₀, s₂, htrail₀, rfl, rfl⟩ := htrail.of_after old (hpure.deep n)
    obtain ⟨o₀, ho₀, rfl⟩ := outcome_of_after old (hpure.deep n) ho
    rw [exhausts_after (hpure.deep n)] at hroomy
    rw [hcharged, tolls_after old (hpure.deep n)] at hpaid
    obtain ⟨fuel, answer, e₂, hrun, hanswers⟩ := hb.completes_along (fun _ _ => id) hheeds₀ htrail₀
      ho₀ hroomy hothers hwaiting hgas hpaid
    refine ⟨fuel, answer, e₂, hrun, hanswers.imp_right ?_⟩
    rintro ⟨hanswer, hcompletes₂, -⟩
    rw [answerTo_after]
    exact ⟨hanswer, hcompletes₂⟩
  · intro turns b' answer others a' budget hsession hcompletes hothers hwaiting hgas hpaid
    obtain ⟨n, visited, s₁, o, htrail, ho, hroomy, rfl, -, hcharged⟩ :=
      hb.completes (fun _ _ => id) hheeds₀ hsession hcompletes
    have ho' : (step (M.original.deep n) (s₁.after old)).outcome? = some (o.after old) := by
      rw [step_after old (hpure.deep n), Step.outcome_after, ho]
      rfl
    rw [hcharged, ← tolls_after old (hpure.deep n)] at hpaid
    obtain ⟨fuel, answer, e₂, hrun, hanswers⟩ := ha.completes_along (fun _ _ => id) hheeds
      (htrail.after old (hpure.deep n)) ho' (by rwa [exhausts_after (hpure.deep n)]) hothers hwaiting
      hgas hpaid
    refine ⟨fuel, answer, e₂, hrun, hanswers.imp_right ?_⟩
    rintro ⟨hanswer, hcompletes₂, -⟩
    rw [← answerTo_after old]
    exact ⟨hanswer, hcompletes₂⟩

end

/-- The host functions of an instance are those that it has been given, and the one that prints. -/
theorem Sourced.pure {pass : Pass} {options : Options} {rules : Rules} {art : Artifact}
    {imports : Imports} {ceiling : UInt64} {relaxed : RelaxedResults} {m : Module} {p : Prepared}
    {entry : UInt32} (h : Sourced pass options rules art imports ceiling relaxed m p entry)
    (hpure : imports.Pure) : p.instance_.Pure := by
  obtain ⟨htranslated, hvalid, -, hinstrument, hlinked⟩ := h
  obtain ⟨s, m', hm⟩ := instrumented_of_valid htranslated hvalid hinstrument
  have hmeterable := meterable_of_check hm.summary hm.check hvalid rules none
  intro func module name type behaviour hf
  rcases function_cases hmeterable hpure (fun _ _ _ => rfl) hlinked hf with
    ⟨_, _, _, _, heq, hP⟩ | ⟨_, _, _, _, heq⟩
  · cases heq
    exact hP
  · cases heq

theorem keepsClear_once (hidden : Nat → Nat → Prop) : onceOriginal.KeepsClear 0 hidden := by
  have hfunction {func : UInt32} {f : Function}
      (hf : onceOriginal.instance_.function? func = some f) : f = .code ⟨[], []⟩ [] onceWork := by
    have hmem := Array.mem_of_getElem? hf
    simpa [onceOriginal] using hmem
  refine keepsClear_of_free (fun func hf => ?_) fun func type locals body hf op hop vs => ?_
  · cases hfunction hf
  · cases hfunction hf
    simp only [onceWork, List.mem_cons, List.not_mem_nil, or_false] at hop
    rcases hop with rfl | rfl | rfl | rfl | rfl | rfl | rfl
    all_goals rfl

end Executor

end MeteredWasm
